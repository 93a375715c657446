import Buildpath.Proofs.CommandLine.Running
import Buildpath.Proofs.Project.Redeclared
import Buildpath.Proofs.View.Frame

/-! Asking for no transitive dependencies is the same as declaring none. The switch sets the
flag of the loaded configuration, the declaration makes the configuration with it; nothing
between the two reads it. -/
namespace Buildpath

open Relation

variable {d d' : Disk} {root : Path} {name : String}

theorem selfResolvedFiles_congr (same : d'.outline = d.outline) (heap : Heap) (h : Handle) :
    selfResolvedFiles heap d' h = selfResolvedFiles heap d h := by
  simp only [selfResolvedFiles, Context.files_congr same]

namespace CommandLine

theorem projectRoot_congr (same : d'.outline = d.outline) : projectRoot d' = projectRoot d := by
  have cwd : d'.cwd = d.cwd := congrArg (·.cwd) same
  simp only [projectRoot, cwd, Disk.exists?_congr same]

theorem eq_of_projectRoot (place : projectRoot d = .ok root) : root = Location.path d.cwd := by
  unfold projectRoot at place
  dsimp only at place
  split at place
  · exact (Except.ok.inj place).symm
  · cases place

theorem resolve_redeclared (redeclared : Project.Redeclared d d' root name) (repository : Path) :
    resolve d' root repository name false = resolve d root repository name true := by
  rw [resolve, redeclared.load_eq, redeclared.lock, resolve]
  cases Project.load d root name {} <;> rfl

theorem files_redeclared (redeclared : Project.Redeclared d d' root name) (repository : Path)
    (extension : Option String) : files d' root repository name false extension =
      files d root repository name true extension := by
  rw [files, resolve_redeclared redeclared, files]
  have listed (heap : Heap) (v : View) (filter : Filter) : v.files heap d' filter = v.files heap d filter :=
    View.files_congr (selfResolvedFiles_congr redeclared.outline heap v.configuration) filter
  simp only [listed]

/-- What the switch lists, or why it does not, is what is listed without it where the
configuration is declared intransitive. The two graphs differ in the flag of the configuration
itself, which is none of those below it. -/
theorem files_intransitive_eq_redeclared (redeclared : Project.Redeclared d d' root name) :
    (∀ repository extension, files d root repository name true extension =
      files d' root repository name false extension) ∧
    (∀ heap, Project.load d' root name heap = (Project.load d root name heap).map
      fun r => (r.1, r.2.setTransitive r.1 false)) ∧
    (∀ heap h loaded k, Project.load d root name heap = .ok (h, loaded) →
      TransGen (loaded.Leads Dependency.target?) h k →
      k ≠ h ∧ (loaded.setTransitive h false).get? k = loaded.get? k) ∧
    ∀ (env : Environment) (c : Command) (extension : Option String),
      root = Location.path d.cwd → c.configuration = name →
      run d env { c with question := .files true extension } =
        run d' env { c with question := .files false extension } := by
  refine ⟨?files, redeclared.load_eq, ?below, ?run⟩
  case files =>
    intro repository extension
    exact (files_redeclared redeclared repository extension).symm
  case below =>
    intro heap h loaded k run path
    exact Project.load_setTransitive_below run path false
  case run =>
    rintro env c extension rfl rfl
    rw [run_eq, run_eq, projectRoot_congr redeclared.outline]
    cases place : projectRoot d with
    | error => simp only [bind, Except.bind]
    | ok root =>
      obtain rfl := eq_of_projectRoot place
      have answers (repository : Path) : answer d (Location.path d.cwd) repository
          { c with question := .files true extension } = answer d' (Location.path d.cwd) repository
          { c with question := .files false extension } := by
        simp only [answer, files_redeclared redeclared]
      simp only [bind, Except.bind, answers]
      rfl

/-- On the second disk `app` is loaded with its flag down, and it lists what the switch lists on
the first. -/
theorem files_intransitive_eq_redeclared_app :
    Project.Redeclared Project.twoProjects Project.quietProjects ⟨"/app"⟩ "c" ∧
    Project.load Project.twoProjects ⟨"/app"⟩ "c" {} = .ok (1, Project.appHeap) ∧
    Project.load Project.quietProjects ⟨"/app"⟩ "c" {} = .ok (1, Project.appHeap.setTransitive 1 false) ∧
    (∀ repository extension,
      files Project.twoProjects ⟨"/app"⟩ repository "c" true extension =
        files Project.quietProjects ⟨"/app"⟩ repository "c" false extension) ∧
    (Project.appHeap.setTransitive 1 false).get? 0 = Project.appHeap.get? 0 := by
  obtain ⟨listed, loads, below, _⟩ := files_intransitive_eq_redeclared Project.redeclared_app
  have core : Project.appHeap.Leads Dependency.target? 1 0 := ⟨_, List.mem_cons_self, rfl⟩
  refine ⟨Project.redeclared_app, Project.load_app, ?_, listed,
    (below _ _ _ _ Project.load_app (.single core)).2⟩
  rw [loads, Project.load_app, Except.map]

end CommandLine
end Buildpath
