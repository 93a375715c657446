import Buildpath.Proofs.Lockfile.Places
import Buildpath.Proofs.Lockfile.Visit
import Buildpath.Proofs.Repeats

/-! Files chosen among the artifacts of a resolved configuration. The filter is asked about every
artifact each time it is met, and only the files are compared. Still the list in which equal
artifacts stand once says all: an artifact belongs to one place of the repository, so artifacts that
are equal up to the spelling of paths are spelled alike, and no filter can tell them apart. Different
artifacts may share a file, which is listed if one of them is accepted. -/
namespace Buildpath

namespace Filter

def accepts (filter : Filter) (a : Artifact) : Bool := (filter a).toOption.getD false

def fileOf (filter : Filter) (a : Artifact) : Except ResolveError (List Path) :=
  (filter a).map fun take => if take then [a.file] else []

variable {filter : Filter} {a : Artifact}

theorem accepts_iff : filter.accepts a = true ↔ filter a = .ok true := by
  cases judged : filter a <;> simp [accepts, judged, Except.toOption]

theorem exists_fileOf_iff : (∃ files, filter.fileOf a = .ok files) ↔ ∃ take, filter a = .ok take := by
  cases judged : filter a <;> simp [fileOf, judged, Except.map]

theorem fileOf_eq_error_iff {e : ResolveError} : filter.fileOf a = .error e ↔ filter a = .error e :=
  map_eq_error_iff

end Filter

section
variable {filter : Filter} {artifacts : List Artifact}

theorem accepted_eq_ok_iff {taken : List Artifact} : accepted filter artifacts = .ok taken ↔
    (∀ a ∈ artifacts, ∃ take, filter a = .ok take) ∧ taken = artifacts.filter filter.accepts := by
  induction artifacts generalizing taken with
  | nil => simp [accepted, eq_comm]
  | cons a rest ih =>
    rw [accepted, List.forall_mem_cons]
    cases judged : filter a with
    | error e => simp
    | ok take =>
      have kept : filter.accepts a = take := by simp [Filter.accepts, judged, Except.toOption]
      simp only [map_eq_ok_iff, ih, List.filter_cons, kept]
      cases take <;> grind

theorem acceptedFiles_eq_ok_iff {paths : List Path} : acceptedFiles filter artifacts = .ok paths ↔
    (∀ a ∈ artifacts, ∃ take, filter a = .ok take) ∧
      paths = firstOccurrences Path.components ((artifacts.filter filter.accepts).map (·.file)) := by
  rw [acceptedFiles, map_eq_ok_iff]
  simp only [accepted_eq_ok_iff, distinctBy_eq]
  grind

/-- Choosing files is asking each artifact for its file and keeping each file once. -/
theorem acceptedFiles_eq (filter : Filter) (artifacts : List Artifact) :
    acceptedFiles filter artifacts =
      (artifacts.mapM filter.fileOf).map (distinctFrom Path.components [] ·.flatten) := by
  have listed : (accepted filter artifacts).map (·.map (·.file)) =
      (artifacts.mapM filter.fileOf).map List.flatten := by
    induction artifacts with
    | nil => rfl
    | cons a rest ih =>
      rw [accepted, List.mapM_cons, Filter.fileOf]
      cases filter a with
      | error e => rfl
      | ok take =>
        have behind (first : List Path) : (do
            let others ← rest.mapM filter.fileOf
            return first :: others).map List.flatten =
            ((rest.mapM filter.fileOf).map List.flatten).map (first ++ ·) := by
          cases rest.mapM filter.fileOf <;> rfl
        refine Eq.trans ?_ (behind _).symm
        rw [← ih]
        cases take <;> cases accepted filter rest <;> rfl
  calc acceptedFiles filter artifacts
      = ((accepted filter artifacts).map (·.map (·.file))).map (distinctBy Path.components) := by
        rw [acceptedFiles]
        cases accepted filter artifacts <;> rfl
    _ = (artifacts.mapM filter.fileOf).map (distinctFrom Path.components [] ·.flatten) := by
        rw [listed]
        cases artifacts.mapM filter.fileOf <;> rfl

/-- Choosing fails with what the filter says of the first artifact on which it fails. -/
theorem acceptedFiles_eq_error_iff {e : ResolveError} : acceptedFiles filter artifacts = .error e ↔
    ∃ before a after, artifacts = before ++ a :: after ∧
      (∀ b ∈ before, ∃ take, filter b = .ok take) ∧ filter a = .error e := by
  rw [acceptedFiles_eq, map_eq_error_iff, mapM_eq_error_iff]
  simp only [Filter.exists_fileOf_iff, Filter.fileOf_eq_error_iff]

end

namespace Lockfile

variable {l : Lockfile} {repository : Path}

def Publishes (repository : Path) (a : Artifact) : Prop :=
  ∃ c locked, a ∈ artifactsOf repository c locked

/-- Where the file of an artifact lies is said by all else about it. -/
theorem Publishes.eq_of_key {a b : Artifact} (left : Publishes repository a)
    (right : Publishes repository b) (same : a.key = b.key) : a = b := by
  obtain ⟨c, _, memA⟩ := left
  obtain ⟨c', _, memB⟩ := right
  obtain ⟨module, name, extension, classifier, file⟩ := a
  obtain ⟨module', name', extension', classifier', file'⟩ := b
  have moduleA : module = c.moduleId := module_of_mem_artifactsOf memA
  have moduleB : module' = c'.moduleId := module_of_mem_artifactsOf memB
  have fileA := file_of_mem_artifactsOf memA
  have fileB := file_of_mem_artifactsOf memB
  simp only [ArtifactOf.key, ArtifactOf.map, ArtifactOf.mk.injEq] at same
  obtain ⟨rfl, rfl, rfl, rfl, _⟩ := same
  obtain ⟨group, artifact, version⟩ := ModuleId.mk.inj (moduleA.symm.trans moduleB)
  simp only [Coordinate.piecesOf, Coordinate.pieces, Coordinate.fileName, group, artifact, version] at fileA fileB
  rw [ArtifactOf.mk.injEq]
  exact ⟨rfl, rfl, rfl, rfl, fileA.trans fileB.symm⟩

/-- All that a resolved configuration lists is published by locked modules. -/
theorem publishes_of_mem_walk {heap : Heap} {h : Handle} {r : Resolved} {a : Artifact}
    (resolved : l.resolve repository heap h = .ok r) (mem : a ∈ r.walk) : Publishes repository a := by
  obtain ⟨trees, unfolds, firstLevel⟩ := resolve_eq_ok_iff.mp resolved
  obtain ⟨met, _, walked⟩ := unfolds.unrolls
  have kept : r.firstLevel.Sublist trees := by
    rw [firstLevel, ← distinctBy_eq]
    exact sublist_distinctFrom _ _ _
  obtain ⟨t, first, own⟩ := List.mem_flatMap.mp mem
  have listed : a ∈ trees.flatMap TreeOf.allArtifacts := List.mem_flatMap.mpr ⟨t, kept.subset first, own⟩
  rw [walked] at listed
  obtain ⟨w, _, published⟩ := List.mem_flatMap.mp listed
  cases locked : l.module? w.coordinate.id with
  | none => simp [artifactsAt, locked] at published
  | some m =>
    simp only [artifactsAt, locked, Option.map_some, Option.getD_some] at published
    exact ⟨w.coordinate, m, published⟩

/-- The filter is asked about the artifacts that stand once or about all that are met, with one
outcome. -/
theorem files_eq_acceptedFiles {heap : Heap} {h : Handle} {r : Resolved} (filter : Filter)
    (resolved : l.resolve repository heap h = .ok r) :
    r.files filter = acceptedFiles filter r.artifacts := by
  have thinned : Thinned [] r.walk r.artifacts := thinned_distinctFrom fun a memA b memB =>
    (publishes_of_mem_walk resolved memA).eq_of_key (publishes_of_mem_walk resolved memB)
  rw [Resolved.files, acceptedFiles_eq, acceptedFiles_eq, thinned.mapM_distinctFrom (by simp)]

/-- What a view answers when it is asked for files follows from its artifacts. With an artifact on
which the filter fails it fails like the filter on the first of these. Otherwise it lists the files
of the accepted artifacts, in their order and each once: so every accepted artifact has its file
listed, and every file that is listed is that of an accepted artifact. -/
theorem files_chosen_from_artifacts {l : Lockfile} {repository : Path} {heap : Heap} {h : Handle}
    {view : BackendView} (answered : l.backend repository heap h = .ok view) :
    ∃ artifacts, view.artifacts = .ok artifacts ∧ ∀ filter : Filter,
      (∀ e, view.files filter = .error e ↔ ∃ before a after, artifacts = before ++ a :: after ∧
        (∀ b ∈ before, ∃ take, filter b = .ok take) ∧ filter a = .error e) ∧
      (∀ paths, view.files filter = .ok paths ↔ (∀ a ∈ artifacts, ∃ take, filter a = .ok take) ∧
        paths = firstOccurrences Path.components ((artifacts.filter filter.accepts).map (·.file))) ∧
      ∀ paths, view.files filter = .ok paths → ∀ k, k ∈ paths.map Path.components ↔
        ∃ a ∈ artifacts, filter a = .ok true ∧ a.file.components = k := by
  obtain ⟨r, resolved, rfl⟩ := map_eq_ok_iff.mp answered
  refine ⟨r.artifacts, rfl, fun filter => ?_⟩
  have files : r.view.files filter = acceptedFiles filter r.artifacts :=
    files_eq_acceptedFiles filter resolved
  rw [files]
  refine ⟨fun e => acceptedFiles_eq_error_iff, fun paths => acceptedFiles_eq_ok_iff, ?_⟩
  intro paths listed k
  rw [(acceptedFiles_eq_ok_iff.mp listed).2, mem_map_firstOccurrences]
  simp [Filter.accepts_iff, and_assoc]

/-- A module `d` that is met twice, with two artifacts that share a file. One filter takes the second
of them only, and one fails on the first. -/
theorem files_chosen_shared :
    let l : Lockfile := ⟨[⟨"g:a:1", ["g:b:1", "g:c:1"], []⟩, ⟨"g:b:1", ["g:d:1"], []⟩,
      ⟨"g:c:1", ["g:d:1"], []⟩, ⟨"g:d:1", [], [{ name := some "d-1" }, { classifier := some "1" }]⟩]⟩
    let heap : Heap := ⟨[⟨"compile", true, [.module ⟨"g", "a", "1", "jar"⟩ none]⟩]⟩
    let a : Artifact := ⟨⟨"g", "a", "1"⟩, "a", "jar", none, ⟨"r/g/a/1/a-1.jar"⟩⟩
    let b : Artifact := ⟨⟨"g", "b", "1"⟩, "b", "jar", none, ⟨"r/g/b/1/b-1.jar"⟩⟩
    let c : Artifact := ⟨⟨"g", "c", "1"⟩, "c", "jar", none, ⟨"r/g/c/1/c-1.jar"⟩⟩
    let named : Artifact := ⟨⟨"g", "d", "1"⟩, "d-1", "jar", none, ⟨"r/g/d/1/d-1-1.jar"⟩⟩
    let classified : Artifact := ⟨⟨"g", "d", "1"⟩, "d", "jar", some "1", ⟨"r/g/d/1/d-1-1.jar"⟩⟩
    let refusal : ResolveError := .filter "d-1" "refused"
    ∃ view, l.backend ⟨"r"⟩ heap 0 = .ok view ∧ view.artifacts = .ok [a, b, named, classified, c] ∧
      view.files (.when (·.classifier.isSome)) = .ok [⟨"r/g/d/1/d-1-1.jar"⟩] ∧
      view.files (fun a => if a.name = "d-1" then .error refusal else .ok true) = .error refusal := by
  intro l heap a b c named classified refusal
  have shared : Unfolds l ⟨"r"⟩ "compile" [⟨⟨"g", "d", "1", "jar"⟩, true⟩] _ := .of_locked rfl rfl .nil .nil
  have sides : Unfolds l ⟨"r"⟩ "compile" [⟨⟨"g", "b", "1", "jar"⟩, true⟩, ⟨⟨"g", "c", "1", "jar"⟩, true⟩] _ :=
    .of_locked rfl (by rfl) shared (.of_locked rfl (by rfl) shared .nil)
  have unfolds : Unfolds l ⟨"r"⟩ "compile" [⟨⟨"g", "a", "1", "jar"⟩, true⟩] _ := .of_locked rfl (by rfl) sides .nil
  have resolved : l.resolve ⟨"r"⟩ heap 0 = .ok _ := resolve_eq_ok_iff.mpr ⟨_, unfolds, rfl⟩
  have answered : l.backend ⟨"r"⟩ heap 0 = .ok _ := map_eq_ok_iff.mpr ⟨_, resolved, rfl⟩
  obtain ⟨artifacts, listed, chosen⟩ := files_chosen_from_artifacts answered
  have all : artifacts = [a, b, named, classified, c] := by
    cases listed
    decide
  subst all
  refine ⟨_, answered, listed, ?_, ?_⟩
  · exact ((chosen _).2.1 _).mpr ⟨fun _ _ => ⟨_, rfl⟩, by decide⟩
  · refine ((chosen _).1 refusal).mpr ⟨[a, b], named, [classified, c], rfl, ?_, rfl⟩
    simp [a, b]

end Lockfile
end Buildpath
