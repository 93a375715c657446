import Buildpath.Context

/-! The walk over a list of dependencies as a relation. It fixes the flag and the way of
the context and says what is added and how the walk ends, whatever the context holds
already; `contribute` runs it, and every walk has one course. -/
namespace Buildpath

/-- `Walks heap t way deps entries outcome`: with default flag `t` and the configurations
on `way` being entered, `deps` add `entries` before the walk ends with `outcome`. -/
inductive Walks (heap : Heap) (t : Bool) :
    List (Handle × String) → List Dependency → List Contribution → Except Cycle Unit → Prop
  | nil : Walks heap t way [] [] (.ok ())
  | files : Walks heap t way rest entries outcome →
      Walks heap t way (.files collection :: rest) (⟨collection, t⟩ :: entries) outcome
  | module : Walks heap t way rest entries outcome →
      Walks heap t way (.module coordinate override :: rest) entries outcome
  | passed : override.getD t = false → Walks heap t way rest entries outcome →
      Walks heap t way (.project name target artifacts override :: rest)
        (⟨artifacts, false⟩ :: entries) outcome
  | refused : override.getD t = true → target ∈ way.map (·.1) →
      Walks heap t way (.project name target artifacts override :: rest) []
        (.error ⟨(way.reverse.dropWhile (·.1 ≠ target)).map (·.2) ++
          [name ++ ":" ++ heap.name target]⟩)
  | broken : override.getD t = true → target ∉ way.map (·.1) →
      Walks heap t ((target, name ++ ":" ++ heap.name target) :: way)
        (heap.dependencies target) below (.error cycle) →
      Walks heap t way (.project name target artifacts override :: rest) below (.error cycle)
  | followed : override.getD t = true → target ∉ way.map (·.1) →
      Walks heap t ((target, name ++ ":" ++ heap.name target) :: way)
        (heap.dependencies target) below (.ok ()) →
      Walks heap t way rest entries outcome →
      Walks heap t way (.project name target artifacts override :: rest)
        (below ++ ⟨artifacts, true⟩ :: entries) outcome

namespace Context

def extend (ctx : Context) (entries : List Contribution) : Context :=
  { ctx with added := entries.reverse ++ ctx.added }

@[simp] theorem extend_nil (ctx : Context) : ctx.extend [] = ctx := rfl

@[simp] theorem entries_extend (ctx : Context) (entries : List Contribution) :
    (ctx.extend entries).entries = ctx.entries ++ entries := by
  simp [Context.entries, extend]

theorem add_extend (ctx : Context) (files : Collection) (transitive : Bool)
    (entries : List Contribution) :
    (ctx.add files transitive).extend entries = ctx.extend (⟨files, transitive⟩ :: entries) := by
  simp [extend, add]

theorem extend_add (ctx : Context) (files : Collection) (transitive : Bool)
    (entries : List Contribution) :
    (ctx.extend entries).add files transitive = ctx.extend (entries ++ [⟨files, transitive⟩]) := by
  simp [extend, add]

theorem extend_extend (ctx : Context) (first second : List Contribution) :
    (ctx.extend first).extend second = ctx.extend (first ++ second) := by
  simp [extend]

theorem enter_of_mem {ctx : Context} {h : Handle} {label : String} (mem : h ∈ ctx.way.map (·.1)) :
    ctx.enter h label =
      .error ⟨(ctx.way.reverse.dropWhile (·.1 ≠ h)).map (·.2) ++ [label]⟩ := by
  simp only [enter, if_pos mem]

theorem enter_of_not_mem {ctx : Context} {h : Handle} {label : String}
    (new : h ∉ ctx.way.map (·.1)) :
    ctx.enter h label = .ok { ctx with way := (h, label) :: ctx.way } := by
  simp only [enter, if_neg new]

/-- Leaving a configuration that was entered on the way keeps what it added. -/
theorem leave_extend_entered (ctx : Context) (step : Handle × String) (entries : List Contribution) :
    (extend { ctx with way := step :: ctx.way } entries).leave = ctx.extend entries := rfl

end Context

open Context

/-- The relation determines the run. -/
theorem Walks.contribute_eq {heap : Heap} {t : Bool} {way : List (Handle × String)}
    {deps : List Dependency} {entries : List Contribution} {outcome : Except Cycle Unit}
    (walks : Walks heap t way deps entries outcome) (ctx : Context) (flag : ctx.transitive = t)
    (atWay : ctx.way = way) : contribute heap ctx deps = (ctx.extend entries, outcome) := by
  induction walks generalizing ctx with
  | nil => simp
  | files _ ih => rw [contribute_files, ih (ctx.add ..) flag atWay, add_extend, flag]
  | module _ ih => rw [contribute_module, ih ctx flag atWay]
  | passed pass _ ih =>
    subst flag
    rw [contribute_passed _ _ _ pass, ih (ctx.add ..) rfl atWay, add_extend]
  | refused follow mem =>
    subst flag atWay
    rw [contribute_followed _ _ _ follow, enter_of_mem mem]
    rfl
  | broken follow new _ ih =>
    subst flag atWay
    have inner := ih { ctx with way := _ :: ctx.way } rfl rfl
    rw [contribute_followed _ _ _ follow, enter_of_not_mem new]
    simp only [inner, leave_extend_entered]
  | followed follow new _ _ ihInner ihRest =>
    subst flag atWay
    have inner := ihInner { ctx with way := _ :: ctx.way } rfl rfl
    rw [contribute_followed _ _ _ follow, enter_of_not_mem new]
    simp only [inner, leave_extend_entered]
    rw [ihRest ((ctx.extend _).add ..) rfl rfl, extend_add, extend_extend, List.append_assoc,
      List.singleton_append]

/-- Every run is described by the relation. -/
theorem exists_walks (heap : Heap) (ctx : Context) (deps : List Dependency) :
    ∃ entries outcome, Walks heap ctx.transitive ctx.way deps entries outcome := by
  induction ctx, deps using walk.induct heap with
  | case1 ctx => exact ⟨_, _, .nil⟩
  | case2 ctx collection rest ih =>
    obtain ⟨entries, outcome, walks⟩ := ih
    exact ⟨_, _, .files walks⟩
  | case3 ctx coordinate override rest ih =>
    obtain ⟨entries, outcome, walks⟩ := ih
    exact ⟨_, _, .module walks⟩
  | case4 ctx name target artifacts override rest follow cycle refused =>
    by_cases mem : target ∈ ctx.way.map (·.1)
    · exact ⟨_, _, .refused follow mem⟩
    · simp [enter_of_not_mem mem] at refused
  | case5 ctx name target artifacts override rest follow entered ok inner _ cycle broken ih =>
    have new := (enter_eq_ok ok).1
    rw [enter_of_not_mem new] at ok
    cases ok
    obtain ⟨entries, outcome, walks⟩ := ih
    have run := walks.contribute_eq _ rfl rfl
    obtain rfl : Except.error cycle = outcome := broken.symm.trans (congrArg Prod.snd run)
    exact ⟨_, _, .broken follow new walks⟩
  | case6 ctx name target artifacts override rest follow entered ok inner _ done ihInner ihRest =>
    have new := (enter_eq_ok ok).1
    rw [enter_of_not_mem new] at ok
    cases ok
    obtain ⟨entries, outcome, walks⟩ := ihInner
    have run := walks.contribute_eq _ rfl rfl
    obtain rfl : Except.ok () = outcome := done.symm.trans (congrArg Prod.snd run)
    have left : inner.context.leave = ctx.extend entries :=
      congrArg (fun result => result.1.leave) run
    rw [left] at ihRest
    obtain ⟨others, outcome, more⟩ := ihRest
    exact ⟨_, _, .followed follow new walks more⟩
  | case7 ctx name target artifacts override rest pass ih =>
    obtain ⟨entries, outcome, walks⟩ := ih
    exact ⟨_, _, .passed (by simpa using pass) walks⟩

end Buildpath
