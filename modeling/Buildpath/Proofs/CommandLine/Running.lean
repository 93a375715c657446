import Buildpath.CommandLine
import Buildpath.Proofs.FirstFault

/-! Commands that succeed, taken apart: what was read and resolved on the way to what is
written out. -/
namespace Buildpath.CommandLine

def printed (json : Bool) (paths : List Path) : String :=
  let output := printFiles json paths
  if output = "" then "" else output ++ "\n"

variable {d : Disk} {root repository : Path} {configuration : String} {intransitive : Bool}
  {extension : Option String}

theorem resolve_eq_ok_iff {heap : Heap} {v : View} :
    resolve d root repository configuration intransitive = .ok (heap, v) ↔ ∃ h loaded lockfile,
      Project.load d root configuration {} = .ok (h, loaded) ∧
      Lockfile.load d (root.join Lockfile.documentName) = .ok lockfile ∧
      heap = (if intransitive then loaded.setTransitive h false else loaded) ∧
      View.resolve (lockfile.backend repository) heap h = .ok v := by
  simp only [resolve, bind_eq_ok_iff, mapError_eq_ok_iff]
  constructor
  · rintro ⟨⟨h, loaded⟩, load, lockfile, lock, view, viewed, made⟩
    cases made
    exact ⟨h, loaded, lockfile, load, lock, rfl, viewed⟩
  · rintro ⟨h, loaded, lockfile, load, lock, rfl, viewed⟩
    exact ⟨(h, loaded), load, lockfile, lock, v, viewed, rfl⟩

theorem files_eq_ok_iff {paths : List Path} :
    files d root repository configuration intransitive extension = .ok paths ↔ ∃ heap v,
      resolve d root repository configuration intransitive = .ok (heap, v) ∧
      v.files heap d (extensionFilter extension) = .ok paths := by
  rw [files, bind_eq_ok_iff]
  exact Prod.exists

def repositoryOf (env : Environment) (c : Command) : Except Failure Path :=
  match c.repository with
  | some path => .ok ⟨path⟩
  | none => env.repository.mapError .home

theorem run_eq (d : Disk) (env : Environment) (c : Command) : run d env c = do
    let root ← projectRoot d
    let repository ← repositoryOf env c
    let output ← (answer d root repository c).mapError .resolve
    return if output = "" then "" else output ++ "\n" := by
  unfold run repositoryOf
  cases c.repository <;> rfl

/-- All `files` commands with the same place and configuration look at the same project. -/
theorem run_files {env : Environment} {c : Command} {text : String}
    (ran : run d env { c with question := .files intransitive extension } = .ok text) :
    ∃ root repository paths,
      files d root repository c.configuration intransitive extension = .ok paths ∧
      text = printed c.json paths ∧
      ∀ other few, files d root repository c.configuration other extension = .ok few →
        run d env { c with question := .files other extension } = .ok (printed c.json few) := by
  simp only [run_eq, bind_eq_ok_iff, mapError_eq_ok_iff, answer, map_eq_ok_iff] at ran ⊢
  obtain ⟨root, place, repository, kept, _, ⟨paths, listed, rfl⟩, made⟩ := ran
  cases made
  refine ⟨root, repository, paths, listed, rfl, ?_⟩
  intro other few listedAgain
  exact ⟨root, place, repository, kept, _, ⟨few, listedAgain, rfl⟩, rfl⟩

/-- A `deps` command that is not asked for JSON prints the trees of the view. -/
theorem run_deps {env : Environment} {c : Command} {heap : Heap} {v : View} {forest : List Tree}
    (asks : c.question = .deps) (plain : c.json = false) (place : projectRoot d = .ok root)
    (kept : repositoryOf env c = .ok repository)
    (resolved : resolve d root repository c.configuration false = .ok (heap, v))
    (listed : v.backend.firstLevel = .ok forest) :
    run d env c = .ok (if Report.trees forest = "" then "" else Report.trees forest ++ "\n") := by
  have answered : answer d root repository c = .ok (Report.trees forest) := by
    simp only [answer, asks, plain, resolved, listed, printTrees, bind, Except.bind, pure, Except.pure,
      Bool.false_eq_true, if_false]
  simp only [run_eq, place, kept, answered, bind, Except.bind, Except.mapError, pure, Except.pure]

end Buildpath.CommandLine
