import Mathlib.Data.List.Chain
import Mathlib.Data.List.Dedup
import Mathlib.Data.List.Nodup
import Mathlib.Data.List.Perm.Subperm

/-! Cycles as they are reported. Whoever goes on from one step to the next and remembers the way
runs into a cycle when the next step has a key that is on the way. What is reported is the way
from that key on, with the step that came back to it at the end. Where there are finitely many keys
it cannot take long to get there. -/
namespace Buildpath

/-- Steps each of which leads to the next, the last back to the key of the first. Before the last
no key comes twice. -/
structure Ring (key : α → κ) (next : α → α → Prop) (steps : List α) : Prop where
  closed : ∃ first inner last, steps = first :: inner ++ [last] ∧ key first = key last
  distinct : (steps.dropLast.map key).Nodup
  chain : steps.IsChain next

/-- How a search comes to a step that enters no key twice: over the way of steps that it has entered,
the innermost first. -/
inductive Trail (key : α → κ) (next : α → α → Prop) (start : α → Prop) : List α → α → Prop
  | start : start step → Trail key next start [] step
  | enter : Trail key next start way step → key step ∉ way.map key → next step further →
      Trail key next start (step :: way) further

structure Clear (keys way : List κ) : Prop where
  distinct : way.Nodup
  among : way ⊆ keys

namespace Clear

variable {keys way : List κ}

theorem iff : Clear keys way ↔ way.Nodup ∧ way ⊆ keys :=
  ⟨fun clear => ⟨clear.distinct, clear.among⟩, fun ⟨distinct, among⟩ => ⟨distinct, among⟩⟩

instance [DecidableEq κ] : Decidable (Clear keys way) := decidable_of_iff _ iff.symm

theorem nil : Clear keys [] := ⟨List.nodup_nil, List.nil_subset _⟩

theorem cons {k : κ} (clear : Clear keys way) (new : k ∉ way) (mem : k ∈ keys) :
    Clear keys (k :: way) :=
  ⟨List.nodup_cons.mpr ⟨new, clear.distinct⟩, List.cons_subset.mpr ⟨mem, clear.among⟩⟩

/-- It is no longer than there are keys. -/
theorem length_le [DecidableEq κ] (clear : Clear keys way) : way.length ≤ keys.dedup.length := by
  have listed : way ⊆ keys.dedup := fun k mem => List.mem_dedup.mpr (clear.among mem)
  exact (clear.distinct.subperm listed).length_le

end Clear

variable {key : α → κ} {next : α → α → Prop} {way : List α} {last : α}

open Relation in
/-- Where steps lead from key to key, a ring leads from the key of its first back to it. -/
theorem Ring.loop {steps : List α} {r : κ → κ → Prop} (ring : Ring key next steps)
    (leads : ∀ {a b}, next a b → r (key a) (key b)) :
    ∃ step ∈ steps, TransGen r (key step) (key step) := by
  obtain ⟨first, inner, last, rfl, same⟩ := ring.closed
  have chain : ((first :: (inner ++ [last])).map key).IsChain (TransGen r) :=
    (List.isChain_map key).mpr (ring.chain.imp fun _ _ step => .single (leads step))
  refine ⟨first, List.mem_cons_self, ?_⟩
  have back : TransGen r (key first) (key last) := chain.rel_cons (by simp)
  rwa [← same] at back

namespace Trail

open Relation

variable {start : α → Prop}

theorem distinct (trail : Trail key next start way last) : (way.map key).Nodup := by
  induction trail with
  | start => exact List.nodup_nil
  | enter _ new _ ih => exact List.nodup_cons.mpr ⟨new, ih⟩

theorem chain (trail : Trail key next start way last) :
    (last :: way).IsChain fun step before => next before step := by
  induction trail with
  | start => exact List.isChain_singleton _
  | enter _ _ leads ih => exact List.isChain_cons_cons.mpr ⟨leads, ih⟩

theorem reached (trail : Trail key next start way last) :
    ∀ step ∈ last :: way, ∃ first, start first ∧ ReflTransGen next first step := by
  induction trail with
  | start starts => exact List.forall_mem_cons.mpr ⟨⟨_, starts, .refl⟩, by simp⟩
  | enter _ _ leads ih =>
    obtain ⟨first, starts, path⟩ := ih _ List.mem_cons_self
    exact List.forall_mem_cons.mpr ⟨⟨first, starts, path.tail leads⟩, ih⟩

end Trail

variable [DecidableEq κ]

/-- A way has a key at one place only, and is cut there. -/
theorem exists_dropWhile_way (distinct : (way.map key).Nodup) (met : key last ∈ way.map key) :
    ∃ inner first outer, way = inner ++ first :: outer ∧ key first = key last ∧
      way.reverse.dropWhile (key · ≠ key last) = first :: inner.reverse := by
  obtain ⟨first, mem, same⟩ := List.mem_map.mp met
  obtain ⟨inner, outer, rfl⟩ := List.append_of_mem mem
  refine ⟨inner, first, outer, rfl, same, ?_⟩
  have apart : ∀ other ∈ outer.reverse, decide (key other ≠ key last) = true := by
    intro other mem
    rw [List.map_append, List.map_cons, List.nodup_append, List.nodup_cons] at distinct
    rw [decide_eq_true_iff, ← same]
    intro again
    exact distinct.2.1.1 (again ▸ List.mem_map_of_mem (List.mem_reverse.mp mem))
  rw [List.reverse_append, List.reverse_cons, List.append_assoc, List.singleton_append,
    List.dropWhile_append_of_pos apart, List.dropWhile_cons_of_neg (by simp [same])]

/-- Where each step of a way leads to the one entered after it, what is reported is a ring. -/
theorem ring_of_way (chain : (last :: way).IsChain fun step before => next before step)
    (distinct : (way.map key).Nodup) (met : key last ∈ way.map key) :
    Ring key next (way.reverse.dropWhile (key · ≠ key last) ++ [last]) := by
  obtain ⟨inner, first, outer, rfl, same, cut⟩ := exists_dropWhile_way distinct met
  have back : (first :: inner.reverse ++ [last]).reverse = last :: inner ++ [first] := by simp
  rw [cut]
  refine ⟨⟨first, inner.reverse, last, rfl, same⟩, ?distinct, ?chain⟩
  case distinct =>
    have kept : (inner ++ [first]).Sublist (inner ++ first :: outer) :=
      (List.sublist_append_left [first] outer).append_left inner
    rw [List.dropLast_concat, ← List.reverse_concat, List.map_reverse, List.nodup_reverse]
    exact distinct.sublist (kept.map key)
  case chain =>
    rw [← List.isChain_reverse, back]
    exact chain.prefix ⟨outer, by simp⟩

/-- All that is reported was on the way or came back to it. -/
theorem mem_of_mem_reported {p : α → Bool} {step : α}
    (mem : step ∈ way.reverse.dropWhile p ++ [last]) : step ∈ last :: way := by
  rcases List.mem_append.mp mem with mem | mem
  · exact List.mem_cons_of_mem _ (List.mem_reverse.mp ((List.dropWhile_sublist p).subset mem))
  · rw [List.mem_singleton.mp mem]
    exact List.mem_cons_self

theorem Trail.ring {start : α → Prop} (trail : Trail key next start way last)
    (met : key last ∈ way.map key) :
    Ring key next (way.reverse.dropWhile (key · ≠ key last) ++ [last]) :=
  ring_of_way trail.chain trail.distinct met

end Buildpath
