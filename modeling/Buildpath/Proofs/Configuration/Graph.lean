import Buildpath.Configuration
import Mathlib.Logic.Relation

/-! The graph of configurations. Project dependencies are its edges; which of them count
is said by a function `via` from a dependency to the configuration it leads to, if to
any. Flags are no part of the graph: they only choose among its edges. -/
namespace Buildpath

open Relation

/-- Where every descent from `a` ends, no way from `a` comes to a cycle. -/
theorem not_transGen_of_acc {r : α → α → Prop} {a b : α} (acc : Acc (fun y x => r x y) a)
    (path : ReflTransGen r a b) : ¬ TransGen r b b := by
  have below : Acc (fun y x => r x y) b := by
    induction path with
    | refl => exact acc
    | tail _ step ih => exact ih.inv step
  induction below with
  | intro b _ ih =>
    intro loop
    obtain ⟨c, step, back⟩ := TransGen.head'_iff.mp loop
    exact ih c step (path.tail step) (TransGen.tail' back step)

namespace Dependency

def target? : Dependency → Option Handle
  | .project _ target _ _ => some target
  | _ => none

/-- The target of a project dependency that is followed: its override decides, and `t` if it has none. -/
def followed? (t : Bool) : Dependency → Option Handle
  | .project _ target _ override => if override.getD t then some target else none
  | _ => none

theorem followed?_project {t : Bool} {name : String} {target : Handle} {artifacts : Collection}
    {override : Option Bool} (follow : override.getD t = true) :
    (project name target artifacts override).followed? t = some target := by
  simp [followed?, follow]

theorem target?_of_followed? {t : Bool} {d : Dependency} {h : Handle}
    (followed : d.followed? t = some h) : d.target? = some h := by
  cases d with
  | files => simp [followed?] at followed
  | module => simp [followed?] at followed
  | project name target artifacts override =>
    simp only [followed?] at followed
    split at followed
    · exact followed
    · simp at followed

end Dependency

namespace Heap

def Leads (heap : Heap) (via : Dependency → Option Handle) (h k : Handle) : Prop :=
  ∃ d ∈ heap.dependencies h, via d = some k

/-- One of the dependencies leads to a configuration from which a cycle can be reached. -/
def Cyclic (heap : Heap) (via : Dependency → Option Handle) (deps : List Dependency) : Prop :=
  ∃ d ∈ deps, ∃ k h, via d = some k ∧
    ReflTransGen (heap.Leads via) k h ∧ TransGen (heap.Leads via) h h

theorem Leads.mono {heap : Heap} {via wider : Dependency → Option Handle} {h k : Handle}
    (weaker : ∀ {d h}, via d = some h → wider d = some h) (leads : heap.Leads via h k) :
    heap.Leads wider h k := by
  obtain ⟨d, mem, edge⟩ := leads
  exact ⟨d, mem, weaker edge⟩

theorem Cyclic.mono {heap : Heap} {via : Dependency → Option Handle}
    {deps more : List Dependency} (cyclic : heap.Cyclic via deps) (subset : deps ⊆ more) :
    heap.Cyclic via more := by
  obtain ⟨d, mem, rest⟩ := cyclic
  exact ⟨d, subset mem, rest⟩

/-- A cycle behind the dependencies of a configuration is behind what leads to it. -/
theorem Cyclic.through {heap : Heap} {via : Dependency → Option Handle} {deps : List Dependency}
    {d : Dependency} {k : Handle} (mem : d ∈ deps) (edge : via d = some k)
    (cyclic : heap.Cyclic via (heap.dependencies k)) : heap.Cyclic via deps := by
  obtain ⟨inner, member, next, h, leads, path, loop⟩ := cyclic
  exact ⟨d, mem, k, h, edge, .head ⟨inner, member, leads⟩ path, loop⟩

@[simp] theorem size_alloc (heap : Heap) (c : Configuration) :
    (heap.alloc c).1.size = heap.size + 1 := by
  simp [alloc, size]

theorem dependencies_alloc (heap : Heap) (c : Configuration) (h : Handle) :
    (heap.alloc c).1.dependencies h =
      if h = heap.size then c.dependencies else heap.dependencies h := by
  rcases Nat.lt_trichotomy h heap.size with lt | rfl | gt
  · simp only [dependencies, get?_alloc_of_lt heap c lt, if_neg (Nat.ne_of_lt lt)]
  · have made : (heap.alloc c).1.get? heap.size = some c := get?_alloc heap c
    simp only [dependencies, made, if_true, Option.map_some, Option.getD_some]
  · have above : (heap.alloc c).1.size ≤ h := by
      rw [size_alloc]
      exact gt
    rw [if_neg (Nat.ne_of_gt gt), dependencies_of_size_le above,
      dependencies_of_size_le (Nat.le_of_lt gt)]

def assign (heap : Heap) (flags : List (Handle × Bool)) : Heap :=
  flags.foldl (fun heap flag => heap.setTransitive flag.1 flag.2) heap

@[simp] theorem dependencies_setTransitive (heap : Heap) (h k : Handle) (transitive : Bool) :
    (heap.setTransitive h transitive).dependencies k = heap.dependencies k := by
  by_cases same : h = k <;>
    simp [dependencies, setTransitive, get?_modify, same, Option.map_map, Function.comp_def]

@[simp] theorem name_setTransitive (heap : Heap) (h k : Handle) (transitive : Bool) :
    (heap.setTransitive h transitive).name k = heap.name k := by
  by_cases same : h = k <;>
    simp [name, setTransitive, get?_modify, same, Option.map_map, Function.comp_def]

@[simp] theorem name_addDependency (heap : Heap) (h k : Handle) (d : Dependency) :
    (heap.addDependency h d).name k = heap.name k := by
  by_cases same : h = k <;>
    simp [name, addDependency, get?_modify, same, Option.map_map, Function.comp_def]

@[simp] theorem transitive_addDependency (heap : Heap) (h k : Handle) (d : Dependency) :
    (heap.addDependency h d).transitive k = heap.transitive k := by
  by_cases same : h = k <;>
    simp [Heap.transitive, addDependency, get?_modify, same, Option.map_map, Function.comp_def]

theorem dependencies_addDependency_of_ne {heap : Heap} {h k : Handle} (ne : h ≠ k) (d : Dependency) :
    (heap.addDependency h d).dependencies k = heap.dependencies k := by
  simp only [dependencies, addDependency, get?_modify, if_neg ne]

/-- A handle that stands for nothing has no dependencies, and gets none. -/
theorem dependencies_addDependency_self (heap : Heap) (h : Handle) (d : Dependency) :
    (heap.addDependency h d).dependencies h =
      heap.dependencies h ++ if (heap.get? h).isSome then [d] else [] := by
  simp only [dependencies, addDependency, get?_modify, if_true, Option.map_map]
  cases heap.get? h <;> rfl

theorem transitive_setTransitive_of_ne {heap : Heap} {h k : Handle} (ne : h ≠ k) (transitive : Bool) :
    (heap.setTransitive h transitive).transitive k = heap.transitive k := by
  simp only [Heap.transitive, setTransitive, get?_modify, if_neg ne]

@[simp] theorem dependencies_assign (heap : Heap) (flags : List (Handle × Bool)) (h : Handle) :
    (heap.assign flags).dependencies h = heap.dependencies h := by
  induction flags generalizing heap with
  | nil => rfl
  | cons flag flags ih => exact (ih _).trans (dependencies_setTransitive ..)

@[simp] theorem name_assign (heap : Heap) (flags : List (Handle × Bool)) (h : Handle) :
    (heap.assign flags).name h = heap.name h := by
  induction flags generalizing heap with
  | nil => rfl
  | cons flag flags ih => exact (ih _).trans (name_setTransitive ..)

/-- Flags that are set elsewhere leave a flag as it is. -/
theorem transitive_assign_of_ne {heap : Heap} {flags : List (Handle × Bool)} {h : Handle}
    (apart : ∀ flag ∈ flags, flag.1 ≠ h) : (heap.assign flags).transitive h = heap.transitive h := by
  induction flags generalizing heap with
  | nil => rfl
  | cons flag flags ih =>
    exact (ih fun other mem => apart other (List.mem_cons_of_mem _ mem)).trans
      (transitive_setTransitive_of_ne (apart _ List.mem_cons_self) flag.2)

def Has (heap : Heap) (deps : List Dependency) : Prop :=
  ∀ d ∈ deps, ∀ target, d.target? = some target → target < heap.size

def Closed (heap : Heap) : Prop := ∀ h, heap.Has (heap.dependencies h)

section
variable {heap larger : Heap} {deps : List Dependency}

theorem has_nil (heap : Heap) : heap.Has [] := nofun

theorem Has.mono (has : heap.Has deps) (le : heap.size ≤ larger.size) : larger.Has deps :=
  fun d mem target edge => Nat.lt_of_lt_of_le (has d mem target edge) le

theorem Has.append {more : List Dependency} (has : heap.Has deps) (others : heap.Has more) :
    heap.Has (deps ++ more) := by
  intro d mem target edge
  rcases List.mem_append.mp mem with mem | mem
  · exact has d mem target edge
  · exact others d mem target edge

theorem Closed.alloc (closed : heap.Closed) {c : Configuration} (has : heap.Has c.dependencies) :
    (heap.alloc c).1.Closed := by
  have larger : heap.size ≤ (heap.alloc c).1.size := by simp
  intro h
  rw [dependencies_alloc]
  split
  · exact has.mono larger
  · exact (closed h).mono larger

theorem Closed.addDependency (closed : heap.Closed) (h : Handle) {d : Dependency} (has : heap.Has [d]) :
    (heap.addDependency h d).Closed := by
  have same : heap.size ≤ (heap.addDependency h d).size := Nat.le_of_eq (size_modify ..).symm
  intro k
  by_cases here : h = k
  · subst here
    rw [dependencies_addDependency_self]
    refine ((closed h).append ?_).mono same
    split
    · exact has
    · exact has_nil heap
  · rw [dependencies_addDependency_of_ne here]
    exact (closed k).mono same

theorem Closed.setTransitive (closed : heap.Closed) (h : Handle) (transitive : Bool) :
    (heap.setTransitive h transitive).Closed := by
  intro k
  rw [dependencies_setTransitive]
  exact (closed k).mono (Nat.le_of_eq (size_modify ..).symm)

end

end Heap
end Buildpath
