import Buildpath.Proofs.Configuration.Graph
import Buildpath.Proofs.Distinct
import Mathlib.Data.Finset.Card

/-! Going through a graph depth first, each node before those it lists. `visit` passes over
nodes it has met before, `Unrolls` goes down every way there is. Where all ways end, both meet
the same nodes for the first time in the same order: at a later meeting everything below has
been met, too, since a node is not met again below itself. -/
namespace Buildpath

open Relation

structure Graph (α : Type) where
  next : α → List α
  listed : List α
  closed : ∀ a, next a ⊆ listed

namespace Graph

variable {α : Type} (g : Graph α)

def Reaches : α → α → Prop := ReflTransGen fun a b => b ∈ g.next a

section
variable [DecidableEq α]

/-- How many nodes can still be met for the first time. -/
def unmet (seen todo : List α) : Nat := ((todo ++ g.listed).toFinset \ seen.toFinset).card

variable {g} {seen rest : List α} {a : α}

theorem unmet_of_mem (met : a ∈ seen) : g.unmet seen (a :: rest) = g.unmet seen rest := by
  unfold unmet
  congr 1
  ext b
  simp only [List.cons_append, List.toFinset_cons, Finset.mem_sdiff, Finset.mem_insert, List.mem_toFinset]
  grind

theorem unmet_lt_of_not_mem (new : a ∉ seen) :
    g.unmet (a :: seen) (g.next a ++ rest) < g.unmet seen (a :: rest) := by
  apply Finset.card_lt_card
  apply Finset.ssubset_iff_subset_ne.mpr
  constructor
  · intro b mem
    have closed : b ∈ g.next a → b ∈ g.listed := fun listed => g.closed a listed
    simp only [List.cons_append, List.toFinset_cons, Finset.mem_sdiff, Finset.mem_insert,
      List.mem_toFinset, List.mem_append] at mem ⊢
    grind
  · intro same
    have first : a ∈ (a :: rest ++ g.listed).toFinset \ seen.toFinset := by simp [new]
    rw [← same] at first
    simp at first

variable (g)

/-- The nodes on `todo` and below, in the order in which they are first met. -/
def visit (seen : List α) : List α → List α
  | [] => []
  | a :: rest =>
    if _met : a ∈ seen then visit seen rest
    else a :: visit (a :: seen) (g.next a ++ rest)
termination_by todo => (g.unmet seen todo, todo.length)
decreasing_by
  · rw [unmet_of_mem _met]
    exact Prod.Lex.right _ (by simp)
  · exact Prod.Lex.left _ _ (unmet_lt_of_not_mem _met)

end

/-- `met` lists every meeting on the ways down from `todo`, which all have to end. -/
inductive Unrolls : List α → List α → Prop
  | nil : Unrolls [] []
  | node : Unrolls (g.next a) below → Unrolls rest others →
      Unrolls (a :: rest) (a :: (below ++ others))

variable {g} {todo met : List α}

theorem Unrolls.subset (unrolls : g.Unrolls todo met) : todo ⊆ met := by
  induction unrolls with
  | nil => exact List.Subset.refl _
  | node _ _ _ ih =>
    apply List.cons_subset_cons
    exact List.subset_append_of_subset_right _ ih

theorem Unrolls.next_subset (unrolls : g.Unrolls todo met) {a : α} (mem : a ∈ met) :
    g.next a ⊆ met := by
  induction unrolls with
  | nil => simp at mem
  | node below _ ihBelow ihRest =>
    apply List.subset_cons_of_subset
    rcases List.mem_cons.mp mem with rfl | mem
    · exact List.subset_append_of_subset_left _ below.subset
    · rcases List.mem_append.mp mem with mem | mem
      · exact List.subset_append_of_subset_left _ (ihBelow mem)
      · exact List.subset_append_of_subset_right _ (ihRest mem)

/-- What is met is what can be reached. -/
theorem Unrolls.mem_iff (unrolls : g.Unrolls todo met) {b : α} :
    b ∈ met ↔ ∃ a ∈ todo, g.Reaches a b := by
  constructor
  · intro mem
    induction unrolls with
    | nil => simp at mem
    | @node a _ _ _ below _ ihBelow ihRest =>
      rcases List.mem_cons.mp mem with rfl | mem
      · exact ⟨b, List.mem_cons_self, .refl⟩
      · rcases List.mem_append.mp mem with mem | mem
        · obtain ⟨c, listed, path⟩ := ihBelow mem
          exact ⟨a, List.mem_cons_self, .head listed path⟩
        · obtain ⟨c, member, path⟩ := ihRest mem
          exact ⟨c, List.mem_cons_of_mem _ member, path⟩
  · rintro ⟨a, mem, path⟩
    induction path with
    | refl => exact unrolls.subset mem
    | tail _ step ih => exact unrolls.next_subset ih step

/-- Where all ways end, no node is below itself. -/
theorem Unrolls.acc (unrolls : g.Unrolls todo met) {a : α} (mem : a ∈ todo) :
    Acc (fun b a => b ∈ g.next a) a := by
  induction unrolls generalizing a with
  | nil => simp at mem
  | node _ _ ihBelow ihRest =>
    rcases List.mem_cons.mp mem with rfl | mem
    · exact .intro _ fun _ => ihBelow
    · exact ihRest mem

theorem Unrolls.reaches_iff {a b : α} {below : List α} (unrolls : g.Unrolls (g.next a) below) :
    g.Reaches a b ↔ b ∈ a :: below := by
  have alone : g.Unrolls [a] (a :: (below ++ [])) := .node unrolls .nil
  simpa using alone.mem_iff.symm

theorem Unrolls.not_mem_below {a : α} {below : List α} (unrolls : g.Unrolls (g.next a) below) :
    a ∉ below := by
  intro mem
  obtain ⟨b, listed, path⟩ := unrolls.mem_iff.mp mem
  have acc : Acc (fun b a => b ∈ g.next a) a := .intro _ fun _ => unrolls.acc
  exact not_transGen_of_acc acc .refl (TransGen.head' listed path)

variable {seen : List α}

/-- Whatever is below a node of `met` that was seen was seen with it. -/
def Covered (g : Graph α) (seen met : List α) : Prop :=
  ∀ b ∈ met, b ∈ seen → ∀ c, g.Reaches b c → c ∈ seen

theorem Covered.mono {part : List α} (covered : g.Covered seen met) (subset : part ⊆ met) :
    g.Covered seen part := fun b mem => covered b (subset mem)

/-- A node that is seen first leaves what is below it covered, as it is not below itself. -/
theorem Covered.below {a : α} {below : List α} (covered : g.Covered seen below)
    (down : g.Unrolls (g.next a) below) : g.Covered (a :: seen) below := by
  intro b mem old c path
  rcases List.mem_cons.mp old with rfl | old
  · exact absurd mem down.not_mem_below
  · exact List.mem_cons_of_mem _ (covered b mem old c path)

/-- Once a node and all below it have been seen, what comes later is still covered. -/
theorem Covered.later {a : α} {below others after : List α} (covered : g.Covered seen others)
    (down : g.Unrolls (g.next a) below) (seenThen : ∀ b, b ∈ after ↔ b ∈ below ++ a :: seen) :
    g.Covered after others := by
  intro b mem met c path
  rw [seenThen, List.mem_append] at met ⊢
  by_cases old : b ∈ seen
  · exact .inr (List.mem_cons_of_mem _ (covered b mem old c path))
  · have under : g.Reaches a b := by
      rw [down.reaches_iff, List.mem_cons]
      simp only [List.mem_cons, old, or_false] at met
      exact met.symm
    have found := down.reaches_iff.mp (under.trans path)
    rw [List.mem_cons] at found ⊢
    tauto

variable [DecidableEq α]

theorem mem_distinctFrom_id {list : List α} {b : α} :
    b ∈ distinctFrom id seen list ↔ b ∈ list ∧ b ∉ seen := by
  have keys : b ∈ (distinctFrom id seen list).map id ↔ b ∈ list.map id ∧ b ∉ seen :=
    mem_map_distinctFrom id
  rwa [List.map_id, List.map_id] at keys

theorem visit_of_mem {a : α} {rest : List α} (met : a ∈ seen) :
    g.visit seen (a :: rest) = g.visit seen rest := by
  rw [visit, dif_pos met]

theorem visit_of_not_mem {a : α} {rest : List α} (new : a ∉ seen) :
    g.visit seen (a :: rest) = a :: g.visit (a :: seen) (g.next a ++ rest) := by
  rw [visit, dif_neg new]

theorem visit_congr {other : List α} (same : ∀ a, a ∈ seen ↔ a ∈ other) :
    g.visit seen todo = g.visit other todo := by
  induction seen, todo using visit.induct g generalizing other with
  | case1 seen => rw [visit, visit]
  | case2 seen a rest met ih => rw [visit_of_mem met, visit_of_mem ((same a).mp met), ih same]
  | case3 seen a rest new ih =>
    have more : ∀ b, b ∈ a :: seen ↔ b ∈ a :: other := fun b => by simp [same]
    rw [visit_of_not_mem new, visit_of_not_mem (mt (same a).mpr new), ih more]

/-- One list of nodes after another, which starts from all that was met until then. -/
theorem visit_append (todo more : List α) : g.visit seen (todo ++ more) =
    g.visit seen todo ++ g.visit (g.visit seen todo ++ seen) more := by
  induction seen, todo using visit.induct g with
  | case1 seen => rw [visit, List.nil_append, List.nil_append, List.nil_append]
  | case2 seen a rest met ih => rw [List.cons_append, visit_of_mem met, visit_of_mem met, ih]
  | case3 seen a rest new ih =>
    have same : ∀ b, b ∈ g.visit (a :: seen) (g.next a ++ rest) ++ a :: seen ↔
        b ∈ a :: g.visit (a :: seen) (g.next a ++ rest) ++ seen := fun b => by
      simp only [List.mem_append, List.mem_cons, List.cons_append]
      tauto
    rw [List.cons_append, visit_of_not_mem new, visit_of_not_mem new, ← List.append_assoc, ih,
      visit_congr same]
    rfl

/-- Passing over what was met before is the same as going down every way and keeping first
meetings, as long as all that is below a node seen before was seen with it. -/
theorem Unrolls.visit_eq (unrolls : g.Unrolls todo met) (covered : g.Covered seen met) :
    g.visit seen todo = distinctFrom id seen met := by
  induction unrolls generalizing seen with
  | nil => rw [visit, distinctFrom_nil]
  | @node a below rest others down _ ihBelow ihRest =>
    have belowCovered : g.Covered seen below := covered.mono fun b mem =>
      List.mem_cons_of_mem _ (List.mem_append_left _ mem)
    have restCovered : g.Covered seen others := covered.mono fun b mem =>
      List.mem_cons_of_mem _ (List.mem_append_right _ mem)
    by_cases first : a ∈ seen
    · have old : ∀ b ∈ a :: below, id b ∈ seen := fun b mem =>
        covered a List.mem_cons_self first b (down.reaches_iff.mpr mem)
      rw [visit_of_mem first, ihRest restCovered, ← List.cons_append,
        distinctFrom_append_of_seen id old]
    · have inner := ihBelow (belowCovered.below down)
      -- After that exactly `a` and what is below it has been seen in addition.
      have seenThen : ∀ b, b ∈ g.visit (a :: seen) (g.next a) ++ a :: seen ↔
          b ∈ below ++ a :: seen := by
        intro b
        rw [inner, List.mem_append, List.mem_append, mem_distinctFrom_id]
        tauto
      calc g.visit seen (a :: rest)
          = a :: (g.visit (a :: seen) (g.next a) ++
              g.visit (g.visit (a :: seen) (g.next a) ++ a :: seen) rest) := by
            rw [visit_of_not_mem first, visit_append]
        _ = a :: (distinctFrom id (a :: seen) below ++
              distinctFrom id (below ++ a :: seen) others) := by
            rw [ihRest (restCovered.later down seenThen), distinctFrom_congr id seenThen, inner]
        _ = distinctFrom id seen (a :: (below ++ others)) := by
            rw [distinctFrom_new id first, distinctFrom_append, List.map_id]
            rfl

/-- From nodes below which all ways end, both meet the same nodes first in the same order. -/
theorem Unrolls.visit_eq_firstOccurrences (unrolls : g.Unrolls todo met) :
    g.visit [] todo = firstOccurrences id met := by
  have covered : g.Covered [] met := fun b _ old => absurd old List.not_mem_nil
  rw [unrolls.visit_eq covered, ← distinctBy_eq, distinctBy]

theorem Unrolls.mem_visit_iff (unrolls : g.Unrolls todo met) {b : α} :
    b ∈ g.visit [] todo ↔ ∃ a ∈ todo, g.Reaches a b := by
  rw [unrolls.visit_eq_firstOccurrences, ← unrolls.mem_iff, ← distinctBy_eq, distinctBy,
    mem_distinctFrom_id]
  simp

theorem Unrolls.nodup_visit (unrolls : g.Unrolls todo met) : (g.visit [] todo).Nodup := by
  rw [unrolls.visit_eq_firstOccurrences]
  simpa only [List.map_id] using nodup_map_firstOccurrences id met

end Graph
end Buildpath
