import Buildpath.Lockfile.Resolve
import Buildpath.Proofs.Path.Joining
import Mathlib.Data.List.Forall2

/-! Where the files of artifacts lie. The texts of a coordinate and of an artifact are joined to the
repository as they are, piece by piece. As long as none of the pieces is absolute the file is below
the repository exactly if none has a `..`; an absolute piece leaves nothing of the repository. Texts
without slashes are safe, but neither a coordinate nor a lock document has to keep to them. -/
namespace Buildpath

namespace Coordinate

def pieces (c : Coordinate) (file : String) : List String :=
  Text.cut '.' c.group ++ [c.artifact, c.version, file]

def piecesOf (c : Coordinate) (a : Artifact) : List String :=
  c.pieces (c.fileName a.name a.classifier a.extension)

theorem artifactPath_eq (c : Coordinate) (repository : Path) (name : String)
    (classifier : Option String) (extension : String) :
    c.artifactPath repository name classifier extension =
      (c.pieces (c.fileName name classifier extension)).foldl Path.join repository := by
  simp [artifactPath, versionDir, pieces]

theorem fileName_eq (c : Coordinate) (name : String) (classifier : Option String) (extension : String) :
    c.fileName name classifier extension =
      name ++ "-" ++ c.version ++ classifier.elim "" ("-" ++ ·) ++ "." ++ extension := by
  cases classifier <;> simp [fileName, String.append_assoc]

structure Plain (c : Coordinate) (a : Artifact) : Prop where
  group : '/' ∉ c.group.toList
  artifact : '/' ∉ c.artifact.toList ∧ c.artifact ≠ ".."
  version : '/' ∉ c.version.toList ∧ c.version ≠ ".."
  name : '/' ∉ a.name.toList
  classifier : ∀ text ∈ a.classifier, '/' ∉ text.toList
  extension : '/' ∉ a.extension.toList

theorem dash_mem_fileName (c : Coordinate) (name : String) (classifier : Option String)
    (extension : String) : '-' ∈ (c.fileName name classifier extension).toList := by
  cases classifier <;> simp [fileName]

/-- The name of a file has a dash, which `..` has not. -/
theorem fileName_ne_parent (c : Coordinate) (name : String) (classifier : Option String)
    (extension : String) : c.fileName name classifier extension ≠ ".." := by
  intro parent
  have dash := c.dash_mem_fileName name classifier extension
  rw [parent] at dash
  exact absurd dash (by decide)

theorem Plain.fileName {c : Coordinate} {a : Artifact} (plain : Plain c a) :
    '/' ∉ (c.fileName a.name a.classifier a.extension).toList := by
  have version := plain.version.1
  have name := plain.name
  have extension := plain.extension
  have classifier := plain.classifier
  cases given : a.classifier <;> simp_all [Coordinate.fileName]

theorem Plain.pieces {c : Coordinate} {a : Artifact} (plain : Plain c a) :
    ∀ piece ∈ c.piecesOf a, '/' ∉ piece.toList ∧ piece ≠ ".." := by
  intro piece mem
  rcases List.mem_append.mp mem with segment | mem
  · refine ⟨fun slash => plain.group (Text.mem_of_mem_cut segment slash).1, ?_⟩
    rintro rfl
    exact (Text.mem_of_mem_cut (c := '.') segment (by decide)).2 rfl
  · simp only [List.mem_cons, List.not_mem_nil, or_false] at mem
    rcases mem with rfl | rfl | rfl
    · exact plain.artifact
    · exact plain.version
    · exact ⟨plain.fileName, c.fileName_ne_parent _ _ _⟩

end Coordinate

namespace Lockfile

structure Stored (repository : Path) (c : Coordinate) (given : LockedArtifact) (a : Artifact) : Prop where
  module : a.module = ⟨c.group, c.artifact, c.version⟩
  name : a.name = given.name.getD c.artifact
  extension : a.extension = given.extension
  classifier : a.classifier = given.classifier
  file : a.file = (c.pieces (a.name ++ "-" ++ c.version ++ a.classifier.elim "" ("-" ++ ·) ++ "." ++
    a.extension)).foldl Path.join repository

/-- The artifacts of a module whose entry gives these. If it gives none there is the main artifact,
which is packaged as the coordinate says. -/
inductive Carries (repository : Path) (c : Coordinate) : List LockedArtifact → List Artifact → Prop
  | main : Stored repository c { name := none, extension := c.packaging, classifier := none } a →
      Carries repository c [] [a]
  | listed : given ≠ [] → List.Forall₂ (Stored repository c) given artifacts →
      Carries repository c given artifacts

def stored (repository : Path) (c : Coordinate) (given : LockedArtifact) : Artifact :=
  ⟨c.moduleId, given.name.getD c.artifact, given.extension, given.classifier,
    c.artifactPath repository (given.name.getD c.artifact) given.classifier given.extension⟩

variable {repository : Path} {c : Coordinate} {locked : LockedModule} {a : Artifact}

theorem stored_iff {given : LockedArtifact} : Stored repository c given a ↔ stored repository c given = a := by
  rw [stored, c.artifactPath_eq, c.fileName_eq]
  constructor
  · rintro ⟨module, name, extension, classifier, file⟩
    rw [name, extension, classifier] at file
    rw [← file, ← name, ← extension, ← classifier, Coordinate.moduleId, ← module]
  · rintro rfl
    exact ⟨rfl, rfl, rfl, rfl, rfl⟩

theorem forall₂_stored_iff {given : List LockedArtifact} {artifacts : List Artifact} :
    List.Forall₂ (Stored repository c) given artifacts ↔ given.map (stored repository c) = artifacts := by
  simp only [← List.forall₂_eq_eq_eq, List.forall₂_map_left_iff, ← stored_iff]

theorem carries_iff {artifacts : List Artifact} :
    Carries repository c locked.artifacts artifacts ↔ artifactsOf repository c locked = artifacts := by
  obtain ⟨id, dependencies, given⟩ := locked
  constructor
  · intro carries
    cases carries with
    | main main => exact congrArg ([·]) (stored_iff.mp main)
    | listed some each =>
      rw [artifactsOf, if_neg (by simpa using some)]
      exact forall₂_stored_iff.mp each
  · rintro rfl
    cases given with
    | nil => exact .main (stored_iff.mpr rfl)
    | cons first rest => exact .listed (List.cons_ne_nil first rest) (forall₂_stored_iff.mpr rfl)

theorem exists_stored (mem : a ∈ artifactsOf repository c locked) : ∃ given, Stored repository c given a := by
  unfold artifactsOf at mem
  split at mem
  · have main : stored repository c ⟨none, c.packaging, none⟩ = a := (List.mem_singleton.mp mem).symm
    exact ⟨_, stored_iff.mpr main⟩
  · obtain ⟨given, _, eq⟩ := List.mem_map.mp mem
    exact ⟨given, stored_iff.mpr eq⟩

/-- All artifacts of a module have their files where its coordinate says, the main artifact too. -/
theorem file_of_mem_artifactsOf (mem : a ∈ artifactsOf repository c locked) :
    a.file = (c.piecesOf a).foldl Path.join repository := by
  obtain ⟨given, stored⟩ := exists_stored mem
  rw [stored.file, Coordinate.piecesOf, c.fileName_eq]

theorem module_of_mem_artifactsOf (mem : a ∈ artifactsOf repository c locked) : a.module = c.moduleId := by
  obtain ⟨given, stored⟩ := exists_stored mem
  exact stored.module

theorem inside_iff (mem : a ∈ artifactsOf repository c locked)
    (relative : ∀ piece ∈ c.piecesOf a, Path.isAbsolute piece = false) :
    repository.Inside a.file ↔ ∀ piece ∈ c.piecesOf a, ".." ∉ Text.cut '/' piece := by
  rw [file_of_mem_artifactsOf mem]
  exact Path.inside_foldl_join_iff relative

theorem inside_of_plain (mem : a ∈ artifactsOf repository c locked) (plain : c.Plain a) :
    repository.Inside a.file := by
  refine (inside_iff mem fun piece member => ?_).mpr fun piece member parent => ?_
  · exact Path.isAbsolute_of_not_mem (plain.pieces piece member).1
  · rw [Text.cut_of_not_mem (plain.pieces piece member).1, List.mem_singleton] at parent
    exact (plain.pieces piece member).2 parent.symm

/-- An artifact whose name opens with `..`, of a module like any other. -/
def straying : LockedModule := { id := "g:a:1", artifacts := [{ name := some "../x" }] }

/-- No repository holds the files of all artifacts that can be locked. -/
theorem exists_not_inside (repository : Path) : ∃ text c locked, Coordinate.parse text = .ok c ∧
    ∃ a ∈ artifactsOf repository c locked, ¬ repository.Inside a.file := by
  let c : Coordinate := ⟨"g", "a", "1", "jar"⟩
  let a : Artifact := ⟨c.moduleId, "../x", "jar", none, c.artifactPath repository "../x" none "jar"⟩
  have mem : a ∈ artifactsOf repository c straying := List.mem_cons_self
  have file : c.pieces (c.fileName "../x" none "jar") = ["g", "a", "1", "../x-1.jar"] := by decide
  have pieces : c.piecesOf a = ["g", "a", "1", "../x-1.jar"] := file
  have relative : ∀ piece ∈ c.piecesOf a, Path.isAbsolute piece = false := by
    rw [pieces]
    decide
  refine ⟨"g:a:1", c, straying, rfl, a, mem, ?_⟩
  rw [inside_iff mem relative, pieces]
  exact fun inside => inside "../x-1.jar" (by decide) (by decide)

/-- The file of an artifact lies in the repository where no text has a slash and no directory is
called `..`. In general it does, if nothing absolute is written behind the repository, exactly if
there is no `..` among what is written. If something absolute is, the file has nothing to do with
the repository, and no repository that is named by a relative path holds it. -/
theorem artifact_file_inside (repository : Path) (c : Coordinate) (locked : LockedModule)
    (a : Artifact) (mem : a ∈ artifactsOf repository c locked) :
    (c.Plain a → repository.Inside a.file) ∧
    ((∀ piece ∈ c.piecesOf a, Path.isAbsolute piece = false) →
      (repository.Inside a.file ↔ ∀ piece ∈ c.piecesOf a, ".." ∉ Text.cut '/' piece)) ∧
    ((∃ piece ∈ c.piecesOf a, Path.isAbsolute piece = true) →
      (∀ other : Path, a.file = c.artifactPath other a.name a.classifier a.extension) ∧
      (Path.isAbsolute repository.text = false → repository.components ≠ [] →
        ¬ repository.Inside a.file)) := by
  refine ⟨inside_of_plain mem, inside_iff mem, fun absolute => ⟨fun other => ?same, ?outside⟩⟩
  case same =>
    obtain ⟨piece, member, absolute⟩ := absolute
    rw [file_of_mem_artifactsOf mem, c.artifactPath_eq]
    exact Path.foldl_join_absolute member absolute repository other
  case outside =>
    intro relative named
    rw [file_of_mem_artifactsOf mem]
    exact Path.not_inside_of_isAbsolute relative named (Path.isAbsolute_foldl_join (.inr absolute))

/-- An artifact with plain texts, one with a `..` in its classifier and one with an absolute name. -/
theorem artifact_file_inside_mixed :
    let c : Coordinate := ⟨"org.g", "a", "1", "jar"⟩
    let repository : Path := ⟨"repo"⟩
    let plain : Artifact := ⟨c.moduleId, "a", "jar", some "sources", ⟨"repo/org/g/a/1/a-1-sources.jar"⟩⟩
    let parent : Artifact := ⟨c.moduleId, "a", "jar", some "/../x", ⟨"repo/org/g/a/1/a-1-/../x.jar"⟩⟩
    let absolute : Artifact := ⟨c.moduleId, "/etc/x", "jar", none, ⟨"/etc/x-1.jar"⟩⟩
    artifactsOf repository c ⟨c.id, [], [{ classifier := some "sources" },
        { classifier := some "/../x" }, { name := some "/etc/x" }]⟩ = [plain, parent, absolute] ∧
      repository.Inside plain.file ∧ ¬ repository.Inside parent.file ∧
      ¬ repository.Inside absolute.file ∧ absolute.file = c.artifactPath ⟨"elsewhere"⟩ "/etc/x" none "jar" := by
  intro c repository plain parent absolute
  let locked : LockedModule := ⟨c.id, [], [{ classifier := some "sources" },
    { classifier := some "/../x" }, { name := some "/etc/x" }]⟩
  have all : artifactsOf repository c locked = [plain, parent, absolute] := by decide
  have listed (a : Artifact) (mem : a ∈ [plain, parent, absolute]) :=
    artifact_file_inside repository c locked a (all ▸ mem)
  have foreign := (listed absolute (by simp)).2.2 ⟨"/etc/x-1.jar", by decide, by decide⟩
  refine ⟨all, ?plain, ?parent, foreign.2 (by decide) (by decide), foreign.1 ⟨"elsewhere"⟩⟩
  case plain => exact (listed plain (by simp)).1 ⟨by decide, by decide, by decide, by decide, by decide, by decide⟩
  case parent =>
    rw [(listed parent (by simp)).2.1 (by decide)]
    exact fun inside => inside "a-1-/../x.jar" (by decide) (by decide)

/-- So a coordinate that can be read does not keep a locked artifact in the repository. -/
theorem not_all_inside : ¬ ∀ (repository : Path) (text : String) (c : Coordinate) (locked : LockedModule),
    Coordinate.parse text = .ok c → ∀ a ∈ artifactsOf repository c locked, repository.Inside a.file := by
  intro all
  obtain ⟨below, beside, _⟩ := all ⟨"repo"⟩ "g:a:1" ⟨"g", "a", "1", "jar"⟩
    { id := "g:a:1", artifacts := [{ name := some "/etc/x" }] } rfl _ List.mem_cons_self
  have absolute : Path.components ⟨"/etc/x-1.jar"⟩ = [.root, .name "etc", .name "x-1.jar"] := by decide
  have root : Path.components ⟨"repo"⟩ = [.name "repo"] := by decide
  change Path.components ⟨"/etc/x-1.jar"⟩ = _ at beside
  rw [absolute, root] at beside
  cases beside

end Lockfile
end Buildpath
