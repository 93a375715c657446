import Buildpath.Proofs.Context.Faults

/-! How deep contributions nest. Nothing in the heap bounds a walk along its edges, since they may
lead round in circles, and edges that are not followed are never compared with the way. What is
followed enters a configuration that is not on the way. So the handles that are entered are distinct
ones of the heap, and a call stands below no more others than there are configurations. The
contribution with a limit gives up below that many calls, and wherever it finds itself behind a way
that is not as it should be. -/
namespace Buildpath

namespace Context

def contributeEachBy (heap : Heap)
    (call : Context → List Dependency → Option (Context × Except Cycle Unit)) (ctx : Context) :
    List Dependency → Option (Context × Except Cycle Unit)
  | [] => some (ctx, .ok ())
  | .files collection :: rest => contributeEachBy heap call (ctx.add collection ctx.transitive) rest
  | .module .. :: rest => contributeEachBy heap call ctx rest
  | .project name target artifacts override :: rest =>
    if override.getD ctx.transitive then
      match ctx.enter target (name ++ ":" ++ heap.name target) with
      | .error cycle => some (ctx, .error cycle)
      | .ok entered =>
        match call entered (heap.dependencies target) with
        | none => none
        | some (inner, .error cycle) => some (inner.leave, .error cycle)
        | some (inner, .ok ()) => contributeEachBy heap call (inner.leave.add artifacts true) rest
    else contributeEachBy heap call (ctx.add artifacts false) rest

/-- Lets dependencies contribute with at most `depth` calls inside each other. None if they are not
enough, or if some call stands behind a way whose handles are not `fit`. -/
def contributeWithin (heap : Heap) (fit : List Handle → Prop) [DecidablePred fit] :
    Nat → Context → List Dependency → Option (Context × Except Cycle Unit)
  | 0, _, _ => none
  | depth + 1, ctx, deps =>
    if fit (ctx.way.map (·.1)) then contributeEachBy heap (contributeWithin heap fit depth) ctx deps
    else none

variable {heap : Heap}

theorem contributeEachBy_eq {call : Context → List Dependency → Option (Context × Except Cycle Unit)}
    {ctx : Context} {deps : List Dependency} (there : heap.Has deps)
    (called : ∀ entered target label, entered.way = (target, label) :: ctx.way →
      target ∉ ctx.way.map (·.1) → target < heap.size → call entered (heap.dependencies target) =
        some (contribute heap entered (heap.dependencies target))) :
    contributeEachBy heap call ctx deps = some (contribute heap ctx deps) := by
  induction deps generalizing ctx with
  | nil => rw [contributeEachBy, contribute_nil]
  | cons d rest ih =>
    have others : heap.Has rest := fun other mem => there other (List.mem_cons_of_mem _ mem)
    cases d with
    | files collection =>
      rw [contributeEachBy, contribute_files]
      exact ih others called
    | module coordinate override =>
      rw [contributeEachBy, contribute_module]
      exact ih others called
    | project name target artifacts override =>
      rw [contributeEachBy]
      cases follow : override.getD ctx.transitive with
      | false =>
        rw [contribute_passed _ _ _ follow, if_neg Bool.false_ne_true]
        exact ih others called
      | true =>
        rw [contribute_followed _ _ _ follow, if_pos rfl]
        cases entering : ctx.enter target (name ++ ":" ++ heap.name target) with
        | error cycle => rfl
        | ok entered =>
          obtain ⟨new, stands⟩ := enter_eq_ok entering
          have inside : target < heap.size := there _ List.mem_cons_self target rfl
          have below := called entered target _ stands new inside
          simp only [below]
          cases ran : contribute heap entered (heap.dependencies target) with
          | mk inner outcome =>
            cases outcome with
            | error cycle => rfl
            | ok =>
              have stays : inner.way = entered.way := by rw [← way_contribute heap entered, ran]
              have back : (inner.leave.add artifacts true).way = ctx.way := by
                rw [add, leave, stays, stands, List.tail_cons]
              exact ih others (by rwa [back])

/-- As many calls inside each other are enough as there are configurations not on the way, and one. -/
theorem contributeWithin_eq {fit : List Handle → Prop} [DecidablePred fit] (closed : heap.Closed)
    (further : ∀ way h, fit way → h ∉ way → h < heap.size → fit (h :: way)) {depth : Nat}
    {ctx : Context} {deps : List Dependency} (there : heap.Has deps) (fits : fit (ctx.way.map (·.1)))
    (enough : heap.outside (ctx.way.map (·.1)) < depth) :
    contributeWithin heap fit depth ctx deps = some (contribute heap ctx deps) := by
  induction depth generalizing ctx deps with
  | zero => omega
  | succ depth ih =>
    rw [contributeWithin, if_pos fits]
    apply contributeEachBy_eq there
    intro entered target label stands new inside
    have fewer := Heap.outside_cons_lt inside new
    have handles : entered.way.map (·.1) = target :: ctx.way.map (·.1) := by rw [stands, List.map_cons]
    apply ih (closed target)
    · rw [handles]
      exact further _ _ fits new inside
    · rw [handles]
      omega

end Context

namespace Followed

variable {heap : Heap} {t : Bool} {deps : List Dependency} {way : List (Followed t)} {step : Followed t}

/-- What a walk comes to leads to a configuration of the heap and stands behind a clear way. -/
theorem Led.clear (closed : heap.Closed) (there : heap.Has deps) (led : Led heap deps way step) :
    step.target < heap.size ∧ Clear (List.range heap.size) (way.map (·.target)) := by
  induction led with
  | start listed => exact ⟨there _ listed _ rfl, .nil⟩
  | enter _ new leads ih =>
    obtain ⟨inside, clear⟩ := ih
    exact ⟨closed _ _ leads _ rfl, clear.cons new (List.mem_range.mpr inside)⟩

end Followed

end Buildpath
