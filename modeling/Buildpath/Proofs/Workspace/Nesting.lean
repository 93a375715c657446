import Buildpath.Proofs.Context.Nesting
import Buildpath.Proofs.Project.Acyclic
import Buildpath.Proofs.Project.Table
import Buildpath.Proofs.Workspace.Contexts

/-! Whatever is made in a workspace, no dependency leads out of its heap: dependencies and names are
given for configurations that are there, and none is ever taken away. So how deep a contribution
nests is bounded by what the heap holds. -/
namespace Buildpath

theorem Heap.Extends.dependencies_eq {heap larger : Heap} (extends_ : heap.Extends larger) {h : Handle}
    (inside : h < heap.size) : larger.dependencies h = heap.dependencies h := by
  have found : heap.get? h = some heap.configurations[h] := List.getElem?_eq_getElem inside
  rw [dependencies, dependencies, found, extends_ h _ found]

/-- Loading keeps the heap closed, and what it finds is in it. -/
theorem Project.closed_load {d : Disk} {root : Path} {name : String} {heap heap' : Heap} {h : Handle}
    (closed : heap.Closed) (run : load d root name heap = .ok (h, heap')) :
    heap'.Closed ∧ heap.size ≤ heap'.size ∧ h < heap'.size := by
  obtain ⟨l, found, after, -, pair, rfl, rfl⟩ := load_eq_ok run
  obtain ⟨ranked, grows, -, inside⟩ := (keptOk_ranked d heap.size).pair pair (ranked_initial heap)
  have extends_ : heap.Extends after.heap := by
    have outcome := (kept_sound d).pair [] (l, name) { heap } (sound_initial heap)
    rw [pair] at outcome
    cases outcome with
    | loaded loads => exact loads.grows.heap
  refine ⟨fun k dep mem target edge => ?_, grows, inside⟩
  by_cases old : k < heap.size
  · rw [extends_.dependencies_eq old] at mem
    exact Nat.lt_of_lt_of_le (closed k dep mem target edge) grows
  · -- What was made by this load leads to what was made before it.
    have falls := (ranked.falls k target (Nat.le_of_not_lt old) ⟨dep, mem, edge⟩).2
    by_cases there : k < after.heap.size
    · exact Nat.lt_trans falls there
    · rw [Heap.dependencies_of_size_le (Nat.le_of_not_lt there)] at mem
      cases mem

namespace Workspace

structure Whole (ws : Workspace) : Prop where
  closed : ws.heap.Closed
  named : ∀ id h, ws.handle id = .ok h → h < ws.heap.size

variable {ws next : Workspace}

theorem Whole.of_eq (whole : ws.Whole) (heap : next.heap = ws.heap)
    (configurations : next.configurations = ws.configurations) : next.Whole := by
  refine ⟨heap ▸ whole.closed, fun id h known => ?_⟩
  rw [handle, configurations] at known
  rw [heap]
  exact whole.named id h known

/-- One more name, and a heap in which all is that was there. -/
theorem Whole.of_named {id : String} {h : Handle} (whole : ws.Whole) (closed : next.heap.Closed)
    (grows : ws.heap.size ≤ next.heap.size) (inside : h < next.heap.size)
    (configurations : next.configurations = Workspace.named id h ws.configurations) : next.Whole := by
  refine ⟨closed, fun other k known => ?_⟩
  rw [handle, configurations] at known
  by_cases same : other = id
  · subst same
    rw [find_named_self] at known
    obtain rfl := Except.ok.inj known
    exact inside
  · rw [find_named_of_ne same] at known
    exact Nat.lt_of_lt_of_le (whole.named other k known) grows

/-- A request can only mean a dependency on a configuration that has a name. -/
theorem Whole.has_dependency (whole : ws.Whole) {addition : Addition} {d : Dependency}
    (made : ws.dependency addition = .ok d) : ws.heap.Has [d] := by
  intro only mem target edge
  obtain rfl := List.mem_singleton.mp mem
  cases addition with
  | files =>
    cases made
    cases edge
  | module =>
    cases made
    cases edge
  | moduleText =>
    rw [dependency] at made
    split at made
    · cases made
      cases edge
    · cases made
  | project name configuration =>
    obtain ⟨h, known, rfl⟩ := map_eq_ok_iff.mp made
    obtain rfl := Option.some.inj edge
    exact whole.named configuration h known

theorem whole_contribute (whole : ws.Whole) (id configuration : String) (index : Option Nat) :
    (ws.contribute id configuration index).1.Whole := by
  by_cases names : ∃ ctx h, find ws.contexts id = .ok ctx ∧ ws.handle configuration = .ok h
  · obtain ⟨ctx, h, known, place⟩ := names
    rw [contribute_of_known known place]
    exact whole.of_eq rfl rfl
  · obtain ⟨name, refused⟩ := contribute_of_unknown (fun ctx h known place =>
      names ⟨ctx, h, known, place⟩) index
    rw [refused]
    exact whole

theorem whole_run (whole : ws.Whole) (request : Request) : (ws.run request).1.Whole := by
  cases request with
  | configure id name transitive =>
    have larger : ws.heap.size ≤ (ws.heap.alloc { name, transitive }).1.size := by simp
    have inside : ws.heap.size < (ws.heap.alloc { name, transitive }).1.size := by simp
    exact whole.of_named (whole.closed.alloc (Heap.has_nil _)) larger inside rfl
  | «alias» id other =>
    apply holds_of_change whole
    intro next reply made
    obtain ⟨h, known, made⟩ := bind_eq_ok_iff.mp made
    cases made
    exact whole.of_named whole.closed (Nat.le_refl _) (whole.named other h known) rfl
  | add configuration addition =>
    apply holds_of_change whole
    intro next reply made
    obtain ⟨h, known, made⟩ := bind_eq_ok_iff.mp made
    obtain ⟨d, meant, made⟩ := bind_eq_ok_iff.mp made
    cases made
    refine ⟨whole.closed.addDependency h (whole.has_dependency meant), fun id k known => ?_⟩
    exact Nat.lt_of_lt_of_eq (whole.named id k known) (Heap.size_modify ..).symm
  | setTransitive configuration transitive =>
    apply holds_of_change whole
    intro next reply made
    obtain ⟨h, known, made⟩ := bind_eq_ok_iff.mp made
    cases made
    refine ⟨whole.closed.setTransitive h transitive, fun id k known => ?_⟩
    exact Nat.lt_of_lt_of_eq (whole.named id k known) (Heap.size_modify ..).symm
  | load id root name =>
    apply holds_of_change whole
    intro next reply made
    obtain ⟨⟨h, heap⟩, loaded, made⟩ := bind_eq_ok_iff.mp made
    cases made
    obtain ⟨closed, grows, inside⟩ := Project.closed_load whole.closed (mapError_eq_ok_iff.mp loaded)
    exact whole.of_named closed grows inside rfl
  | child id configuration index =>
    apply holds_of_change whole
    intro next reply made
    obtain ⟨h, known, made⟩ := bind_eq_ok_iff.mp made
    split at made
    · rename_i name target _ override listed
      cases made
      have inside := whole.closed h _ (List.mem_of_getElem? listed) target rfl
      exact whole.of_named whole.closed (Nat.le_refl _) inside rfl
    · cases made
  | contribute id configuration index => exact whole_contribute whole id configuration index
  | resolve =>
    simp only [run, resolve]
    split
    · exact whole
    · exact whole
    · split
      split <;> exact whole.of_eq rfl rfl
  | openContext => exact whole.of_eq rfl rfl
  | write | remove | snapshot | addToContext | makeResolver =>
    apply holds_of_change whole
    intro next reply made
    obtain ⟨_, _, made⟩ := bind_eq_ok_iff.mp made
    cases made
    exact whole.of_eq rfl rfl
  | _ => exact whole

theorem whole_runAll (whole : ws.Whole) (requests : List Request) : (ws.runAll requests).1.Whole := by
  induction requests generalizing ws with
  | nil => exact whole
  | cons request rest ih => exact ih (whole_run whole request)

/-- In a heap out of which nothing leads a contribution ends, whatever is being entered when it
starts, and also where dependencies lead round in circles. There are no more calls inside each other
than configurations not on the way, and one. Where it starts on no way the handles on it are distinct
at every depth, and there are no more of them than configurations. The heap of a workspace is always
such a heap, and none of its contexts is on a way. -/
theorem contribute_nesting_le :
    (∀ (heap : Heap) (ctx : Context) (deps : List Dependency), heap.Closed → heap.Has deps →
      Context.contributeWithin heap (fun _ => True) (heap.outside (ctx.way.map (·.1)) + 1) ctx deps =
        some (Context.contribute heap ctx deps) ∧
      (ctx.way = [] →
        Context.contributeWithin heap (Clear (List.range heap.size)) (heap.size + 1) ctx deps =
          some (Context.contribute heap ctx deps) ∧
        ∀ (way : List (Followed ctx.transitive)) step, Followed.Led heap deps way step →
          Clear (List.range heap.size) (way.map (·.target)) ∧ way.length ≤ heap.size)) ∧
    ∀ disk requests,
      let ws := (({ disk } : Workspace).runAll requests).1
      ws.heap.Closed ∧ ∀ id ctx, find ws.contexts id = .ok ctx → ctx.way = [] := by
  refine ⟨fun heap ctx deps closed there => ⟨?_, fun idle => ⟨?_, fun way step led => ?_⟩⟩,
    fun disk requests => ?_⟩
  · have any (way : List Handle) (h : Handle) (_ : True) (_ : h ∉ way) (_ : h < heap.size) : True :=
      trivial
    exact Context.contributeWithin_eq closed any there trivial (Nat.lt_succ_self _)
  · have further (way : List Handle) (h : Handle) (clear : Clear (List.range heap.size) way)
        (new : h ∉ way) (inside : h < heap.size) : Clear (List.range heap.size) (h :: way) :=
      clear.cons new (List.mem_range.mpr inside)
    apply Context.contributeWithin_eq closed further there
    · rw [idle]
      exact .nil
    · have all : heap.outside [] = heap.size := by simp [Heap.outside]
      rw [idle, List.map_nil, all]
      exact Nat.lt_succ_self _
  · have clear := (led.clear closed there).2
    have bound := clear.length_le
    rw [(List.nodup_range).dedup, List.length_range, List.length_map] at bound
    exact ⟨clear, bound⟩
  · have whole : ({ disk } : Workspace).Whole := ⟨fun _ => Heap.has_nil _, nofun⟩
    have idle : ({ disk } : Workspace).Idle := by
      intro id ctx known
      cases known
    exact ⟨(whole_runAll whole requests).closed, idle_runAll idle requests⟩

/-- Two configurations depend on each other. It takes three calls inside each other to see that they
are a cycle, with both of them on the way. -/
theorem contribute_nesting_looped :
    let there : Dependency := .project "x" 0 (.list []) none
    let back : Dependency := .project "y" 1 (.list []) (some true)
    let heap : Heap := ⟨[⟨"c", true, [back]⟩, ⟨"c", false, [.files (.list []), there]⟩]⟩
    let ctx : Context := { transitive := true }
    let ended := (ctx.add (.list []) true, Except.error (⟨["x:c", "y:c", "x:c"]⟩ : Cycle))
    heap.Closed ∧ heap.Has [there] ∧
      Context.contributeWithin heap (Clear (List.range heap.size)) 2 ctx [there] = none ∧
      Context.contributeWithin heap (Clear (List.range heap.size)) 3 ctx [there] = some ended ∧
      Context.contribute heap ctx [there] = ended ∧
      ∃ (way : List (Followed true)) (step : Followed true), Followed.Led heap [there] way step ∧
        way.map (·.target) = [1, 0] ∧
        Clear (List.range heap.size) (way.map (·.target)) ∧ way.length ≤ 2 := by
  intro there back heap ctx ended
  have closed : heap.Closed := by
    intro h d mem target edge
    match h with
    | 0 =>
      obtain rfl := List.mem_singleton.mp mem
      exact Option.some.inj edge ▸ by decide
    | 1 =>
      rcases List.mem_cons.mp mem with rfl | mem
      · cases edge
      · obtain rfl := List.mem_singleton.mp mem
        exact Option.some.inj edge ▸ by decide
    | h + 2 => cases mem
  have has : heap.Has [there] := by
    intro d mem target edge
    obtain rfl := List.mem_singleton.mp mem
    exact Option.some.inj edge ▸ by decide
  have found : Context.contributeWithin heap (Clear (List.range heap.size)) 3 ctx [there] =
      some ended := by rfl
  obtain ⟨-, ends⟩ := contribute_nesting_le.1 heap ctx [there] closed has
  obtain ⟨enough, bound⟩ := ends rfl
  let first : Followed true := ⟨"x", 0, .list [], none, rfl⟩
  let second : Followed true := ⟨"y", 1, .list [], some true, rfl⟩
  have led : Followed.Led heap [there] [second, first] first := by
    have entered : Followed.Led heap [there] [first] second :=
      .enter (.start List.mem_cons_self) (by simp) List.mem_cons_self
    exact .enter entered (by decide) (List.mem_cons_of_mem _ List.mem_cons_self)
  exact ⟨closed, has, by rfl, found, Option.some.inj (enough.symm.trans found), _, _, led, rfl,
    bound _ _ led⟩

end Workspace

end Buildpath
