import Buildpath.Proofs.Context.InTurn
import Buildpath.Proofs.Workspace.History

/-! The contexts of a workspace. Nothing is being entered in any of them between two requests,
whatever went wrong before, so a contribution is refused only for a cycle behind it. -/
namespace Buildpath.Workspace

open Context

def Idle (ws : Workspace) : Prop := ∀ id ctx, find ws.contexts id = .ok ctx → ctx.way = []

def chosen (index : Option Nat) (all : List Dependency) : List Dependency :=
  match index with
  | some i => (all[i]?).toList
  | none => all

variable {ws next : Workspace}

theorem Idle.of_named {id : String} {ctx : Context} (idle : ws.Idle) (nothing : ctx.way = [])
    (contexts : next.contexts = named id ctx ws.contexts) : next.Idle := by
  intro other found known
  rw [contexts] at known
  by_cases same : other = id
  · subst same
    rw [find_named_self] at known
    cases known
    exact nothing
  · rw [find_named_of_ne same] at known
    exact idle other found known

theorem Idle.of_spares (idle : ws.Idle) (spared : ws.Spares next) : next.Idle := by
  intro id ctx known
  rw [spared.contexts] at known
  exact idle id ctx known

theorem contribute_of_known {id configuration : String} {ctx : Context} {h : Handle}
    (known : find ws.contexts id = .ok ctx) (place : ws.handle configuration = .ok h)
    (index : Option Nat) : ws.contribute id configuration index =
      let made := Context.contribute ws.heap ctx (chosen index (ws.heap.dependencies h))
      ({ ws with contexts := named id made.1 ws.contexts },
        (made.2.mapError fun cycle => .resolve (.cycle cycle)).map fun _ =>
          .number made.1.entries.length) := by
  simp only [contribute, known, place, bind, Except.bind, pure, Except.pure, chosen]
  cases (Context.contribute ws.heap ctx _).2 <;> rfl

/-- A contribution that names something unknown is not made. -/
theorem contribute_of_unknown {id configuration : String}
    (unknown : ∀ ctx h, find ws.contexts id = .ok ctx → ws.handle configuration ≠ .ok h)
    (index : Option Nat) : ∃ name, ws.contribute id configuration index = (ws, .error (.unknownName name)) := by
  cases known : find ws.contexts id with
  | error problem =>
    obtain rfl := unknownName_of_find known
    exact ⟨id, by simp only [contribute, known, bind, Except.bind]⟩
  | ok ctx =>
    cases place : ws.handle configuration with
    | error problem =>
      obtain rfl := unknownName_of_find place
      exact ⟨configuration, by simp only [contribute, known, place, bind, Except.bind]⟩
    | ok h => exact absurd place (unknown ctx h known)

theorem idle_contribute (idle : ws.Idle) (id configuration : String) (index : Option Nat) :
    (ws.contribute id configuration index).1.Idle := by
  by_cases names : ∃ ctx h, find ws.contexts id = .ok ctx ∧ ws.handle configuration = .ok h
  · obtain ⟨ctx, h, known, place⟩ := names
    rw [contribute_of_known known place]
    exact idle.of_named ((way_contribute ..).trans (idle id ctx known)) rfl
  · obtain ⟨name, refused⟩ := contribute_of_unknown (fun ctx h known place =>
      names ⟨ctx, h, known, place⟩) index
    rw [refused]
    exact idle

theorem idle_run (idle : ws.Idle) (request : Request) : (ws.run request).1.Idle := by
  cases request with
  | openContext id transitive => exact idle.of_named rfl rfl
  | contribute id configuration index => exact idle_contribute idle id configuration index
  | addToContext id collection transitive =>
    apply holds_of_change idle
    intro next reply made
    obtain ⟨ctx, known, made⟩ := bind_eq_ok_iff.mp made
    cases made
    have nothing : (ctx.add collection (transitive.getD ctx.transitive)).way = [] := idle id ctx known
    exact idle.of_named nothing rfl
  | makeResolver =>
    apply holds_of_change idle
    intro next reply made
    obtain ⟨_, _, made⟩ := bind_eq_ok_iff.mp made
    cases made
    exact idle
  | resolve =>
    simp only [run, resolve]
    split
    · exact idle
    · exact idle
    · split
      split <;> exact idle
  | _ => exact idle.of_spares (spares_run ws _ rfl)

theorem idle_runAll (idle : ws.Idle) (requests : List Request) : (ws.runAll requests).1.Idle := by
  induction requests generalizing ws with
  | nil => exact idle
  | cons request rest ih => exact ih (idle_run idle request)

/-- Where nothing is being entered a contribution is refused for a cycle exactly if there is one. -/
theorem contribute_cycle_iff (idle : ws.Idle) (id configuration : String) (index : Option Nat) :
    (∃ cycle, (ws.contribute id configuration index).2 = .error (.resolve (.cycle cycle))) ↔
      ∃ ctx h, find ws.contexts id = .ok ctx ∧ ws.handle configuration = .ok h ∧
        ws.heap.Cyclic (Dependency.followed? ctx.transitive) (chosen index (ws.heap.dependencies h)) := by
  constructor
  · rintro ⟨cycle, refused⟩
    by_cases names : ∃ ctx h, find ws.contexts id = .ok ctx ∧ ws.handle configuration = .ok h
    · obtain ⟨ctx, h, known, place⟩ := names
      rw [contribute_of_known known place] at refused
      obtain ⟨_, outcome, -⟩ := mapError_eq_error_iff.mp (map_eq_error_iff.mp refused)
      refine ⟨ctx, h, known, place, ?_⟩
      by_contra acyclic
      rw [(contribute_ok_iff_of_idle (idle id ctx known) ..).mpr acyclic] at outcome
      cases outcome
    · obtain ⟨name, unknown⟩ := contribute_of_unknown (fun ctx h known place =>
        names ⟨ctx, h, known, place⟩) index
      rw [unknown] at refused
      cases refused
  · rintro ⟨ctx, h, known, place, cyclic⟩
    rw [contribute_of_known known place]
    cases outcome : (Context.contribute ws.heap ctx (chosen index (ws.heap.dependencies h))).2 with
    | ok => exact absurd cyclic ((contribute_ok_iff_of_idle (idle id ctx known) ..).mp outcome)
    | error cycle => exact ⟨cycle, by simp only [outcome, Except.mapError, Except.map]⟩

/-- Of a contribution nothing is left in the context but the entries it adds, also when it fails,
and what it adds and how it ends does not depend on the entries that are there. So in turn each
contribution ends as it would alone, a failure before it or not, and in a workspace one is refused
for a cycle exactly if a cycle of followed dependencies is behind it then. -/
theorem contributions_stand_alone :
    (∀ (heap : Heap) (ctx : Context) (deps : List Dependency),
      ctx.Grown (Context.contribute heap ctx deps).1 (Context.contribute heap ctx.blank deps).1.entries ∧
      (Context.contribute heap ctx deps).2 = (Context.contribute heap ctx.blank deps).2) ∧
    (∀ (ctx : Context) (turns : List (Heap × List Dependency)),
      ctx.Grown (ctx.contributeAll turns).1
        (turns.flatMap fun turn => (Context.contribute turn.1 ctx.blank turn.2).1.entries) ∧
      (ctx.contributeAll turns).2 =
        turns.map fun turn => (Context.contribute turn.1 ctx.blank turn.2).2) ∧
    (∀ (ctx : Context) (turns : List (Heap × List Dependency)), ctx.way = [] →
      ∀ (i : Nat) heap deps, turns[i]? = some (heap, deps) →
      ((ctx.contributeAll turns).2[i]? = some (.ok ()) ↔
        ¬ heap.Cyclic (Dependency.followed? ctx.transitive) deps)) ∧
    ∀ disk requests id configuration index,
      let ws := (({ disk } : Workspace).runAll requests).1
      (∃ cycle, (ws.run (.contribute id configuration index)).2 = .error (.resolve (.cycle cycle))) ↔
        ∃ ctx h, find ws.contexts id = .ok ctx ∧ ws.handle configuration = .ok h ∧
          ws.heap.Cyclic (Dependency.followed? ctx.transitive)
            (chosen index (ws.heap.dependencies h)) := by
  refine ⟨fun heap ctx deps => ⟨grown_contribute heap ctx deps, outcome_contribute heap ctx deps⟩,
    fun ctx turns => ⟨grown_contributeAll ctx turns, outcomes_contributeAll ctx turns⟩, ?_, ?_⟩
  · intro ctx turns idle i heap deps turn
    rw [outcomes_contributeAll, List.getElem?_map, turn, Option.map_some, Option.some.injEq,
      ← outcome_contribute, contribute_ok_iff_of_idle idle]
  · intro disk requests id configuration index ws
    have fresh : ({ disk } : Workspace).Idle := by
      intro id ctx known
      cases known
    exact contribute_cycle_iff (idle_runAll fresh requests) id configuration index

/-- Two failures below `w`, in the same words, and a contribution that is none the worse for them. -/
theorem contributeAll_looped :
    let loop : Dependency := .project "x" 0 (.list []) none
    let w : Dependency := .project "w" 1 (.list []) none
    let heap : Heap := ⟨[⟨"c", true, [loop]⟩, ⟨"c", true, [.files (.list [⟨"a"⟩]), loop]⟩]⟩
    let turns : List (Heap × List Dependency) := [(heap, [w]), (heap, [w]), (heap, [.files (.list [])])]
    let ctx : Context := { transitive := true }
    (ctx.contributeAll turns).2 = [.error ⟨["x:c", "x:c"]⟩, .error ⟨["x:c", "x:c"]⟩, .ok ()] ∧
    (ctx.contributeAll turns).1.entries =
      [⟨.list [⟨"a"⟩], true⟩, ⟨.list [⟨"a"⟩], true⟩, ⟨.list [], true⟩] ∧
    (ctx.contributeAll turns).1.way = [] ∧ heap.Cyclic (Dependency.followed? ctx.transitive) [w] := by
  intro loop w heap turns ctx
  obtain ⟨-, inTurn, ends, -⟩ := contributions_stand_alone
  obtain ⟨grown, outcomes⟩ := inTurn ctx turns
  have blank : ctx.blank = ctx := rfl
  have looped : Walks heap true [] [w] [⟨.list [⟨"a"⟩], true⟩] (.error ⟨["x:c", "x:c"]⟩) :=
    .broken rfl (by decide) (.files (.broken rfl (by decide) (.refused rfl (by decide))))
  have failed := looped.contribute_eq ctx rfl rfl
  have fine : Context.contribute heap ctx [.files (.list [])] = (ctx.add (.list []) true, .ok ()) := by
    rw [contribute_files, contribute_nil]
  have outcomes : (ctx.contributeAll turns).2 =
      [.error ⟨["x:c", "x:c"]⟩, .error ⟨["x:c", "x:c"]⟩, .ok ()] := by
    rw [outcomes, blank]
    simp only [turns, List.map_cons, List.map_nil, failed, fine]
  refine ⟨outcomes, ?_, grown.way, ?_⟩
  · rw [grown.entries, blank]
    simp only [turns, List.flatMap_cons, List.flatMap_nil, failed, fine]
    rfl
  · by_contra acyclic
    have first := (ends ctx turns rfl 0 heap [w] rfl).mpr acyclic
    rw [outcomes] at first
    cases first

end Buildpath.Workspace
