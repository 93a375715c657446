import Buildpath.Proofs.Context.Listing

/-! Contributions to one context in turn. A contribution puts the context back on the way on which
it found it, also when it fails deep below, so all that is left of it are the entries it added.
None of them is looked at again: the next contribution runs as it would on a blank context. -/
namespace Buildpath.Context

def blank (ctx : Context) : Context := { ctx with added := [] }

structure Grown (ctx after : Context) (more : List Contribution) : Prop where
  transitive : after.transitive = ctx.transitive
  way : after.way = ctx.way
  entries : after.entries = ctx.entries ++ more

/-- Lists of dependencies contribute one after the other, each with the heap as it is by then. A
failure ends none but its own list. -/
def contributeAll (ctx : Context) : List (Heap × List Dependency) → Context × List (Except Cycle Unit)
  | [] => (ctx, [])
  | (heap, deps) :: rest =>
    let (next, outcome) := contribute heap ctx deps
    let (last, outcomes) := next.contributeAll rest
    (last, outcome :: outcomes)

theorem Grown.blank_eq {ctx after : Context} {more : List Contribution} (grown : ctx.Grown after more) :
    after.blank = ctx.blank := by
  simp only [blank, grown.transitive, grown.way]

theorem Grown.trans {ctx between after : Context} {first second : List Contribution}
    (grown : ctx.Grown between first) (again : between.Grown after second) :
    ctx.Grown after (first ++ second) where
  transitive := again.transitive.trans grown.transitive
  way := again.way.trans grown.way
  entries := by rw [again.entries, grown.entries, List.append_assoc]

/-- A contribution is that to the blank context, behind the entries that are there. -/
theorem contribute_eq_blank (heap : Heap) (ctx : Context) (deps : List Dependency) :
    contribute heap ctx deps = (ctx.extend (contribute heap ctx.blank deps).1.entries,
      (contribute heap ctx.blank deps).2) := by
  obtain ⟨entries, outcome, walks⟩ := exists_walks heap ctx deps
  have alone := walks.contribute_eq ctx.blank rfl rfl
  have added : (ctx.blank.extend entries).entries = entries := by
    rw [entries_extend]
    rfl
  rw [walks.contribute_eq ctx rfl rfl, alone, added]

theorem grown_contribute (heap : Heap) (ctx : Context) (deps : List Dependency) :
    ctx.Grown (contribute heap ctx deps).1 (contribute heap ctx.blank deps).1.entries := by
  rw [contribute_eq_blank]
  exact ⟨rfl, rfl, entries_extend _ _⟩

theorem outcome_contribute (heap : Heap) (ctx : Context) (deps : List Dependency) :
    (contribute heap ctx deps).2 = (contribute heap ctx.blank deps).2 := by
  rw [contribute_eq_blank]

theorem grown_contributeAll (ctx : Context) (turns : List (Heap × List Dependency)) :
    ctx.Grown (ctx.contributeAll turns).1
      (turns.flatMap fun turn => (contribute turn.1 ctx.blank turn.2).1.entries) := by
  induction turns generalizing ctx with
  | nil => exact ⟨rfl, rfl, (List.append_nil _).symm⟩
  | cons turn rest ih =>
    obtain ⟨heap, deps⟩ := turn
    have first := grown_contribute heap ctx deps
    have others := ih (contribute heap ctx deps).1
    rw [first.blank_eq] at others
    exact first.trans others

/-- Each ends as it would if it were the only one. -/
theorem outcomes_contributeAll (ctx : Context) (turns : List (Heap × List Dependency)) :
    (ctx.contributeAll turns).2 = turns.map fun turn => (contribute turn.1 ctx.blank turn.2).2 := by
  induction turns generalizing ctx with
  | nil => rfl
  | cons turn rest ih =>
    obtain ⟨heap, deps⟩ := turn
    have others := ih (contribute heap ctx deps).1
    rw [(grown_contribute heap ctx deps).blank_eq] at others
    rw [List.map_cons, ← others, ← outcome_contribute]
    rfl

/-- Where nothing is being entered a contribution succeeds exactly if it leads to no cycle. -/
theorem contribute_ok_iff_of_idle {ctx : Context} (idle : ctx.way = []) (heap : Heap)
    (deps : List Dependency) : (contribute heap ctx deps).2 = .ok () ↔
      ¬ heap.Cyclic (Dependency.followed? ctx.transitive) deps := by
  have fresh : ctx.blank = { transitive := ctx.transitive } := by rw [blank, idle]
  rw [outcome_contribute, fresh, contribute_ok_iff]

end Buildpath.Context
