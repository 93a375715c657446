import Buildpath.Proofs.Lockfile.Places

/-! Modules keep out of each other's way in a repository. Where each text that is joined names one
directory, the components of the path are these texts, and the last two of them are the artifact and
the version: a longer group cannot make up for a shorter rest. So two modules share no directory, and
the files of one hide none of another's. Groups with empty segments do share: `a.` is read as `a`. -/
namespace Buildpath

namespace Coordinate

def directories (c : Coordinate) : List String := Text.cut '.' c.group ++ [c.artifact, c.version]

def storedName (c : Coordinate) (a : Artifact) : String := c.fileName a.name a.classifier a.extension

structure Housed (c : Coordinate) : Prop where
  group : ∀ segment ∈ Text.cut '.' c.group, segment ≠ "" ∧ '/' ∉ segment.toList
  artifact : Path.IsName c.artifact
  version : Path.IsName c.version

instance (c : Coordinate) : Decidable c.Housed :=
  decidable_of_iff ((∀ segment ∈ Text.cut '.' c.group, segment ≠ "" ∧ '/' ∉ segment.toList) ∧
      Path.IsName c.artifact ∧ Path.IsName c.version)
    ⟨fun ⟨group, artifact, version⟩ => ⟨group, artifact, version⟩,
      fun ⟨group, artifact, version⟩ => ⟨group, artifact, version⟩⟩

variable {c c' : Coordinate}

/-- A segment of a group is neither `.` nor `..`, since it has no dot. -/
theorem isName_of_segment {text segment : String} (mem : segment ∈ Text.cut '.' text)
    (written : segment ≠ "") (whole : '/' ∉ segment.toList) : Path.IsName segment := by
  have dotless : '.' ∉ segment.toList := fun dot => (Text.mem_of_mem_cut mem dot).2 rfl
  refine ⟨whole, written, ?_, ?_⟩
  all_goals
    rintro rfl
    exact dotless (by decide)

theorem Housed.directories (housed : c.Housed) : ∀ name ∈ c.directories, Path.IsName name := by
  intro name mem
  rcases List.mem_append.mp mem with segment | last
  · obtain ⟨written, whole⟩ := housed.group name segment
    exact isName_of_segment segment written whole
  · simp only [List.mem_cons, List.not_mem_nil, or_false] at last
    rcases last with rfl | rfl
    · exact housed.artifact
    · exact housed.version

theorem directories_eq_iff : c.directories = c'.directories ↔
    c.group = c'.group ∧ c.artifact = c'.artifact ∧ c.version = c'.version := by
  constructor
  · intro same
    obtain ⟨segments, last⟩ := List.append_inj' same rfl
    simp only [List.cons.injEq, and_true] at last
    exact ⟨Text.cut_injective segments, last⟩
  · rintro ⟨group, artifact, version⟩
    rw [directories, directories, group, artifact, version]

/-- Names that are joined to one path can be told from its components. -/
theorem same_foldl_join_iff {p : Path} {names others : List String}
    (named : ∀ name ∈ names, Path.IsName name) (named' : ∀ name ∈ others, Path.IsName name) :
    (names.foldl Path.join p).Same (others.foldl Path.join p) ↔ names = others := by
  rw [Path.Same, Path.components_foldl_join_names p named, Path.components_foldl_join_names p named',
    List.append_right_inj, List.map_inj_right fun _ _ same => Path.Component.name.inj same]

theorem versionDir_eq (c : Coordinate) (repository : Path) :
    c.versionDir repository = c.directories.foldl Path.join repository := by
  simp [versionDir, directories]

theorem piecesOf_eq (c : Coordinate) (a : Artifact) :
    c.piecesOf a = c.directories ++ [c.storedName a] := by
  simp [piecesOf, pieces, directories, storedName]

/-- A stored name has a dash, so without a slash it is a name. -/
theorem isName_storedName {a : Artifact} (whole : '/' ∉ (c.storedName a).toList) :
    Path.IsName (c.storedName a) := by
  have dash : '-' ∈ (c.storedName a).toList := c.dash_mem_fileName a.name a.classifier a.extension
  refine ⟨whole, ?_, ?_, c.fileName_ne_parent a.name a.classifier a.extension⟩
  all_goals
    intro bare
    rw [bare] at dash
    exact absurd dash (by decide)

theorem Housed.pieces {a : Artifact} (housed : c.Housed) (whole : '/' ∉ (c.storedName a).toList) :
    ∀ piece ∈ c.piecesOf a, Path.IsName piece := by
  rw [c.piecesOf_eq, List.forall_mem_append, List.forall_mem_singleton]
  exact ⟨housed.directories, isName_storedName whole⟩

theorem piecesOf_eq_iff {a a' : Artifact} : c.piecesOf a = c'.piecesOf a' ↔
    c.moduleId = c'.moduleId ∧ c.storedName a = c'.storedName a' := by
  have last : c.piecesOf a = c'.piecesOf a' ↔
      c.directories = c'.directories ∧ c.storedName a = c'.storedName a' := by
    rw [c.piecesOf_eq, c'.piecesOf_eq, ← List.concat_eq_append, ← List.concat_eq_append, List.concat_inj]
  rw [last, directories_eq_iff, moduleId, moduleId, ModuleId.mk.injEq]

end Coordinate

namespace Lockfile

/-- Two modules have one directory in a repository exactly if they agree in group, artifact and
version. Of artifacts that are stored under plain names two have one file exactly if they are of one
module and have one name. -/
theorem module_directories_apart (repository : Path) (c c' : Coordinate) (housed : c.Housed)
    (housed' : c'.Housed) :
    ((c.versionDir repository).Same (c'.versionDir repository) ↔
      c.group = c'.group ∧ c.artifact = c'.artifact ∧ c.version = c'.version) ∧
    ∀ locked locked' a a',
      a ∈ artifactsOf repository c locked → a' ∈ artifactsOf repository c' locked' →
      '/' ∉ (c.storedName a).toList → '/' ∉ (c'.storedName a').toList →
        (a.file.Same a'.file ↔ a.module = a'.module ∧ c.storedName a = c'.storedName a') := by
  refine ⟨?directories, fun locked locked' a a' mem mem' whole whole' => ?files⟩
  case directories =>
    rw [c.versionDir_eq, c'.versionDir_eq,
      Coordinate.same_foldl_join_iff housed.directories housed'.directories, Coordinate.directories_eq_iff]
  case files =>
    rw [file_of_mem_artifactsOf mem, file_of_mem_artifactsOf mem', module_of_mem_artifactsOf mem,
      module_of_mem_artifactsOf mem', Coordinate.same_foldl_join_iff (housed.pieces whole) (housed'.pieces whole'),
      Coordinate.piecesOf_eq_iff]

/-- One module's directory lies where another's group and version do. A module with another
packaging is the same module, and has its own files in the same directory. -/
theorem module_directories_apart_nested :
    let repository : Path := ⟨""⟩
    let long : Coordinate := ⟨"org.a", "b", "1", "jar"⟩
    let short : Coordinate := ⟨"org", "a", "b", "jar"⟩
    let war : Coordinate := { long with packaging := "war" }
    let archive : Artifact := ⟨long.moduleId, "b", "jar", none, ⟨"org/a/b/1/b-1.jar"⟩⟩
    let package : Artifact := ⟨long.moduleId, "b", "war", none, ⟨"org/a/b/1/b-1.war"⟩⟩
    Coordinate.parse "org.a:b:1" = .ok long ∧ Coordinate.parse "org:a:b" = .ok short ∧
      Coordinate.parse "org.a:b:1:war" = .ok war ∧ long.Housed ∧ short.Housed ∧ war.Housed ∧
      ¬ (long.versionDir repository).Same (short.versionDir repository) ∧
      (long.versionDir repository).Same (war.versionDir repository) ∧
      artifactsOf repository long ⟨long.id, [], []⟩ = [archive] ∧
      artifactsOf repository war ⟨war.id, [], [{}, { extension := "war" }]⟩ = [archive, package] ∧
      ¬ archive.file.Same package.file := by
  intro repository long short war archive package
  have housed : long.Housed := by decide
  have housed' : short.Housed := by decide
  have warHoused : war.Housed := by decide
  have own : artifactsOf repository long ⟨long.id, [], []⟩ = [archive] := by decide
  have both : artifactsOf repository war ⟨war.id, [], [{}, { extension := "war" }]⟩ = [archive, package] := by
    decide
  have nested := (module_directories_apart repository long short housed housed').1
  obtain ⟨packaged, files⟩ := module_directories_apart repository long war housed warHoused
  have first : archive ∈ artifactsOf repository long ⟨long.id, [], []⟩ := by simp [own]
  have second : package ∈ artifactsOf repository war ⟨war.id, [], [{}, { extension := "war" }]⟩ := by
    simp [both]
  have apart := files _ _ archive package first second (by decide) (by decide)
  refine ⟨rfl, rfl, rfl, housed, housed', warHoused, ?_, packaged.mpr ⟨rfl, rfl, rfl⟩, own, both, ?_⟩
  · exact fun same => absurd (nested.mp same).1 (by decide)
  · exact fun same => absurd (apart.mp same).2 (by decide)

/-- The empty segment behind the dot names no directory. -/
example : (Coordinate.versionDir ⟨"a.", "b", "1", "jar"⟩ ⟨"repo"⟩).Same
    (Coordinate.versionDir ⟨"a", "b", "1", "jar"⟩ ⟨"repo"⟩) := by decide

end Lockfile
end Buildpath
