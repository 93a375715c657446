import Buildpath.Proofs.Lockfile.Unfolding
import Buildpath.Proofs.View.Files
import Buildpath.Proofs.Workspace.History

/-! Views that are kept while the rest of the workspace goes on changing. What the backend
answered when the view was made is answered ever after; what the configuration contributes by
itself is looked up in the heap and on the disk of the moment. -/
namespace Buildpath

/-- What two sources list, each path once. A fault of the first counts for more. -/
def merged (own more : Except ResolveError (List Path)) : Except ResolveError (List Path) := do
  return firstOccurrences Path.components ((← own) ++ (← more))

theorem View.files_eq_merged {v : View} {heap : Heap} {d : Disk}
    {own : Except ResolveError (List Path)} (gathers : Gathers heap d v.configuration own)
    (filter : Filter) : v.files heap d filter = merged own (v.backend.files filter) := by
  cases own with
  | error e => exact (Answers.ungathered gathers).files_eq
  | ok own =>
    cases given : v.backend.files filter with
    | error e => exact (Answers.backend gathers given).files_eq
    | ok more => exact (Answers.merged gathers given).files_eq

namespace Workspace

variable {ws : Workspace} {id : String} {h : Handle} {view : BackendView}

/-- A question that has an answer or a fault of its own leaves the workspace as it is. -/
theorem ask_resolved (outcome : Except ResolveError α) (reply : α → Reply) :
    ws.ask (do return reply (← resolved outcome)) = (ws, (resolved outcome).map reply) := by
  cases outcome <;> rfl

/-- The answers of a view that is there, by what its configuration contributes. -/
theorem run_merged {own : Except ResolveError (List Path)}
    (found : find ws.views id = .ok (.merged ⟨h, view⟩)) (gathers : Gathers ws.heap ws.disk h own) :
    (∀ filter, ws.run (.files id filter) =
      (ws, (resolved (merged own (view.files filter))).map .paths)) ∧
    (∀ filter, ws.run (.backendFiles id filter) = (ws, (resolved (view.files filter)).map .paths)) ∧
    ws.run (.selfFiles id) =
      (ws, (resolved (own.map (firstOccurrences Path.components))).map .paths) ∧
    ws.run (.firstLevel id) = (ws, (resolved view.firstLevel).map .trees) ∧
    ws.run (.artifacts id) = (ws, (resolved view.artifacts).map .artifacts) := by
  refine ⟨fun filter => ?_, fun filter => ?_, ?_, ?_, ?_⟩
  · have files := View.files_eq_merged (v := ⟨h, view⟩) gathers filter
    rw [run, found, ← files]
    exact ask_resolved _ _
  · rw [run, mergedView, found]
    exact ask_resolved _ _
  · rw [run, mergedView, found, ← gathers.selfResolvedFiles_eq]
    exact ask_resolved _ _
  · rw [run, found]
    exact ask_resolved _ _
  · rw [run, found]
    exact ask_resolved _ _

/-- A view that was made keeps what its backend gave, whatever is asked, changed or resolved
afterwards. Only its own name must not be given to another view. A lock document gives what
the configuration unfolds to when the view is made. Each question to a backend counts once,
answered or not, and nothing else does. -/
theorem kept_view_answers :
    (∀ (ws next : Workspace) (id resolver configuration : String),
      ws.run (.resolve id resolver configuration false) = (next, .ok .done) →
      ∃ r h view, find ws.resolvers resolver = .ok r ∧ ws.handle configuration = .ok h ∧
        r.backend ws.heap h = .ok view ∧
        (∀ (l : Lockfile) repository, r.backend = l.backend repository →
          ∃ unfolded, l.resolve repository ws.heap h = .ok unfolded ∧ view = unfolded.view) ∧
        ∀ requests, (∀ step ∈ next.history requests, givesView id step = false) →
          let final := (next.runAll requests).1
          ∃ own, Gathers final.heap final.disk h own ∧
          (∀ filter, final.run (.files id filter) =
            (final, (resolved (merged own (view.files filter))).map .paths)) ∧
          (∀ filter, final.run (.backendFiles id filter) =
            (final, (resolved (view.files filter)).map .paths)) ∧
          final.run (.selfFiles id) =
            (final, (resolved (own.map (firstOccurrences Path.components))).map .paths) ∧
          final.run (.firstLevel id) = (final, (resolved view.firstLevel).map .trees) ∧
          final.run (.artifacts id) = (final, (resolved view.artifacts).map .artifacts)) ∧
    ∀ (ws : Workspace) (name : String) (r : Resolver) (requests : List Request),
      find ws.resolvers name = .ok r →
      (∀ step ∈ ws.history requests, givesResolver name step = false) →
      let final := (ws.runAll requests).1
      final.run (.calls name) =
        (final, .ok (.number (r.calls + (ws.history requests).countP (asks name)))) := by
  constructor
  · intro ws next id resolver configuration made
    have affects := affects_run ws (.resolve id resolver configuration false)
    rw [made] at affects
    cases affects with
    | nothing _ noAsk => exact absurd (noAsk resolver) (by simp [asks])
    | @kept resolver r configuration h view _ _ known place asked views =>
      refine ⟨r, h, view, known, place, asked, ?_, ?_⟩
      · intro l repository backend
        rw [backend, Lockfile.backend, map_eq_ok_iff] at asked
        obtain ⟨unfolded, outcome, rfl⟩ := asked
        exact ⟨unfolded, outcome, rfl⟩
      · intro requests kept final
        have found : find final.views id = .ok (.merged ⟨h, view⟩) := by
          rw [find_views_runAll kept, views, find_named_self]
          rfl
        obtain ⟨own, gathers⟩ := exists_gathers final.heap final.disk h
        exact ⟨own, gathers, run_merged found gathers⟩
  · intro ws name r requests found kept final
    have counted := find_resolvers_runAll found kept
    rw [run, counted]
    rfl

/-- A file and a module that are declared later, under another name of the configuration, and
a view of the same name that another resolver fails to give. -/
theorem kept_view_answers_alias :
    let l : Lockfile := ⟨[⟨"g:a:1", [], []⟩]⟩
    let a : Coordinate := ⟨"g", "a", "1", "jar"⟩
    let ws : Workspace := {
      disk := {}
      heap := ⟨[⟨"compile", true, [.files (.list [⟨"own"⟩]), .module a none]⟩]⟩
      configurations := [("c", 0), ("other", 0)]
      resolvers := [("lock", { backend := l.backend ⟨"r"⟩ }),
        ("broken", { backend := fun _ _ => .error (.cycle ⟨[]⟩) })] }
    let requests : List Request := [.add "other" (.files (.list [⟨"late"⟩])),
      .add "other" (.module { a with artifact := "missing" } none), .setTransitive "other" false,
      .resolve "v" "broken" "c" false, .resolve "v" "lock" "unknown" false]
    ∃ next, ws.run (.resolve "v" "lock" "c" false) = (next, .ok .done) ∧
      let final := (next.runAll requests).1
      final.run (.files "v" .all) =
        (final, .ok (.paths [⟨"own"⟩, ⟨"late"⟩, ⟨"r/g/a/1/a-1.jar"⟩])) ∧
      final.run (.calls "broken") = (final, .ok (.number 1)) := by
  intro l a ws requests
  have unfolds : Lockfile.Unfolds l ⟨"r"⟩ "compile" [⟨a, true⟩] _ := .of_locked rfl rfl .nil .nil
  have outcome : l.resolve ⟨"r"⟩ ws.heap 0 = .ok _ :=
    Lockfile.resolve_eq_ok_iff.mpr ⟨_, unfolds, rfl⟩
  have asked : l.backend ⟨"r"⟩ ws.heap 0 = .ok _ := map_eq_ok_iff.mpr ⟨_, outcome, rfl⟩
  have known : find ws.resolvers "lock" = .ok { backend := l.backend ⟨"r"⟩ } := rfl
  have place : ws.handle "c" = .ok 0 := rfl
  have made := resolve_of_known known place "v" false
  simp only [asked] at made
  refine ⟨_, made, ?_⟩
  obtain ⟨r, h, view, known', place', given, _, later⟩ :=
    kept_view_answers.1 ws _ "v" "lock" "c" made
  cases known.symm.trans known'
  cases place.symm.trans place'
  cases asked.symm.trans given
  obtain ⟨own, gathers, answers, _⟩ := later requests (by decide)
  let heap : Heap := ⟨[⟨"compile", false, [.files (.list [⟨"own"⟩]), .module a none,
    .files (.list [⟨"late"⟩]), .module { a with artifact := "missing" } none]⟩]⟩
  have listing : Listing heap false (heap.dependencies 0) _ := .files (.module (.files (.module .nil)))
  have lists : Gathers heap {} 0 (.ok [[⟨"own"⟩], [⟨"late"⟩]].flatten) :=
    .files listing (.cons rfl (.cons rfl .nil))
  have files : merged own (.ok [a.localPath ⟨"r"⟩]) =
      .ok [⟨"own"⟩, ⟨"late"⟩, ⟨"r/g/a/1/a-1.jar"⟩] := by
    let v : View := ⟨0, fun _ => .ok [a.localPath ⟨"r"⟩], .ok [], .ok []⟩
    have same := (View.files_eq_merged (v := v) gathers .all).symm.trans
      (View.files_eq_merged (v := v) lists .all)
    exact same.trans (congrArg Except.ok (by decide))
  refine ⟨(answers .all).trans ?_, ?_⟩
  · show (_, (resolved (merged own (.ok [a.localPath ⟨"r"⟩]))).map _) = _
    rw [files]
    rfl
  · exact kept_view_answers.2 _ "broken" { backend := fun _ _ => .error (.cycle ⟨[]⟩) } requests rfl
      (by decide)

end Workspace
end Buildpath
