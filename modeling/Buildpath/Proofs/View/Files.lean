import Buildpath.Proofs.Context.Listing
import Buildpath.Proofs.Distinct
import Buildpath.Proofs.FirstFault
import Buildpath.View

/-! The files of a view. Three things can keep it from answering, and they are looked for
in this order: a cycle, a contributed collection that cannot be enumerated, and the backend.
Otherwise the answer is what the configuration lists followed by what the backend gives,
each path once and where it stands first. -/
namespace Buildpath

def Enumerated (d : Disk) (entries : List Contribution) (files : List (List Path)) : Prop :=
  List.Forall₂ (fun e paths => e.files.files d = .ok paths) entries files

theorem enumerated_iff {d : Disk} {entries : List Contribution} {files : List (List Path)} :
    Enumerated d entries files ↔ (entries.map (·.files)).map (·.files d) = files.map .ok := by
  rw [← List.forall₂_eq_eq_eq, List.map_map, List.forall₂_map_left_iff, List.forall₂_map_right_iff]
  exact Iff.rfl

/-- The first of the entries that cannot be enumerated cannot because of `fault`. -/
def FirstFault (d : Disk) (entries : List Contribution) (fault : FileError) : Prop :=
  ∃ before e after, entries = before ++ e :: after ∧
    (∀ b ∈ before, ∃ paths, b.files.files d = .ok paths) ∧ e.files.files d = .error fault

/-- All files that a configuration contributes by itself, also those it contributes again,
or why there are none. A cycle counts for more than any fault of a collection. -/
inductive Gathers (heap : Heap) (d : Disk) (h : Handle) : Except ResolveError (List Path) → Prop
  | cycle : (Context.contribute heap { transitive := heap.transitive h } (heap.dependencies h)).2 =
      .error cycle → Gathers heap d h (.error (.cycle cycle))
  | fault : Listing heap (heap.transitive h) (heap.dependencies h) entries →
      FirstFault d entries fault → Gathers heap d h (.error (.file fault))
  | files : Listing heap (heap.transitive h) (heap.dependencies h) entries →
      Enumerated d entries files → Gathers heap d h (.ok files.flatten)

theorem exists_gathers (heap : Heap) (d : Disk) (h : Handle) :
    ∃ gathered, Gathers heap d h gathered := by
  cases outcome :
      (Context.contribute heap { transitive := heap.transitive h } (heap.dependencies h)).2 with
  | error cycle => exact ⟨_, .cycle outcome⟩
  | ok =>
    have listing := contribute_entries_iff.mp ⟨outcome, rfl⟩
    cases each : List.mapM (fun (e : Contribution) => e.files.files d) (Context.contribute heap
        { transitive := heap.transitive h } (heap.dependencies h)).1.entries with
    | error fault => exact ⟨_, .fault listing (mapM_eq_error_iff.mp each)⟩
    | ok files => exact ⟨_, .files listing (mapM_eq_ok_iff.mp each)⟩

/-- The files a configuration contributes by itself are what is gathered, each once. -/
theorem Gathers.selfResolvedFiles_eq {heap : Heap} {d : Disk} {h : Handle}
    {gathered : Except ResolveError (List Path)} (gathers : Gathers heap d h gathered) :
    selfResolvedFiles heap d h = gathered.map (firstOccurrences Path.components) := by
  unfold selfResolvedFiles
  cases gathers with
  | cycle failed =>
    generalize Context.contribute heap _ _ = run at failed ⊢
    obtain ⟨ctx, outcome⟩ := run
    obtain rfl : outcome = .error _ := failed
    rfl
  | fault listing first =>
    obtain ⟨ok, rfl⟩ := contribute_entries_iff.mpr listing
    generalize Context.contribute heap _ _ = run at ok first ⊢
    obtain ⟨ctx, outcome⟩ := run
    obtain rfl : outcome = .ok () := ok
    simp only [Context.files, mapM_eq_error_iff.mpr first, Except.map, Except.mapError]
  | files listing enumerated =>
    obtain ⟨ok, rfl⟩ := contribute_entries_iff.mpr listing
    generalize Context.contribute heap _ _ = run at ok enumerated ⊢
    obtain ⟨ctx, outcome⟩ := run
    obtain rfl : outcome = .ok () := ok
    simp only [Context.files, mapM_eq_ok_iff.mpr enumerated, Except.map, Except.mapError,
      distinctBy_eq]

namespace View

/-- The answer of a view, by what is decided first. -/
inductive Answers (v : View) (heap : Heap) (d : Disk) (filter : Filter) :
    Except ResolveError (List Path) → Prop
  | ungathered : Gathers heap d v.configuration (.error e) → Answers v heap d filter (.error e)
  | backend : Gathers heap d v.configuration (.ok own) → v.backend.files filter = .error e →
      Answers v heap d filter (.error e)
  | merged : Gathers heap d v.configuration (.ok own) → v.backend.files filter = .ok more →
      Answers v heap d filter (.ok (firstOccurrences Path.components (own ++ more)))

theorem Answers.files_eq {v : View} {heap : Heap} {d : Disk} {filter : Filter}
    {answer : Except ResolveError (List Path)} (answers : v.Answers heap d filter answer) :
    v.files heap d filter = answer := by
  cases answers with
  | ungathered gathers =>
    simp only [View.files, selfResolved, gathers.selfResolvedFiles_eq, Except.map]
  | backend gathers failed =>
    simp only [View.files, selfResolved, gathers.selfResolvedFiles_eq, Except.map, failed]
  | merged gathers given =>
    simp only [View.files, selfResolved, gathers.selfResolvedFiles_eq, Except.map, given,
      firstOccurrences_append, distinctFrom_eq_filter]

theorem exists_answers (v : View) (heap : Heap) (d : Disk) (filter : Filter) :
    ∃ answer, v.Answers heap d filter answer := by
  obtain ⟨gathered, gathers⟩ := exists_gathers heap d v.configuration
  cases gathered with
  | error e => exact ⟨_, .ungathered gathers⟩
  | ok own =>
    cases given : v.backend.files filter with
    | error e => exact ⟨_, .backend gathers given⟩
    | ok more => exact ⟨_, .merged gathers given⟩

theorem files_eq_ok_iff {v : View} {heap : Heap} {d : Disk} {filter : Filter} {paths : List Path} :
    v.files heap d filter = .ok paths ↔ ∃ own more, Gathers heap d v.configuration (.ok own) ∧
      v.backend.files filter = .ok more ∧ paths = firstOccurrences Path.components (own ++ more) := by
  constructor
  · intro ok
    obtain ⟨answer, answers⟩ := exists_answers v heap d filter
    obtain rfl := answers.files_eq.symm.trans ok
    cases answers with
    | merged gathers given => exact ⟨_, _, gathers, given, rfl⟩
  · rintro ⟨own, more, gathers, given, rfl⟩
    exact (Answers.merged gathers given).files_eq

/-- A view answers as `Answers` says, and in no other way. In an answer no path comes twice;
it opens with the files the configuration contributes by itself, whatever the filter, and
goes on with those of the backend that are not among them. -/
theorem files_eq_iff_answers (v : View) (heap : Heap) (d : Disk) (filter : Filter) :
    (∀ answer, v.files heap d filter = answer ↔ v.Answers heap d filter answer) ∧
    ∀ paths, v.files heap d filter = .ok paths →
      (paths.map Path.components).Nodup ∧
      ∃ own more, v.selfResolved heap d = .ok own ∧ v.backend.files filter = .ok more ∧
        paths = own ++ (firstOccurrences Path.components more).filter
          (·.components ∉ own.map Path.components) := by
  have answersIff : ∀ answer, v.files heap d filter = answer ↔ v.Answers heap d filter answer := by
    intro answer
    constructor
    · rintro rfl
      obtain ⟨answer, answers⟩ := exists_answers v heap d filter
      rwa [answers.files_eq]
    · exact Answers.files_eq
  refine ⟨answersIff, ?_⟩
  intro paths answered
  cases (answersIff _).mp answered with
  | @merged own more gathers given =>
    refine ⟨nodup_map_firstOccurrences _ _, firstOccurrences Path.components own, more, ?_, given, ?_⟩
    · simp only [selfResolved, gathers.selfResolvedFiles_eq, Except.map]
    · rw [firstOccurrences_append]
      congr!

/-- A nested project with a respelled path, and a backend that spells it in a third way. -/
theorem files_nested_respelled :
    let heap : Heap := ⟨[⟨"compile", true, [.files (.list [⟨"a//b"⟩]),
        .project "core" 1 (.list [⟨"core.jar"⟩]) none]⟩,
      ⟨"compile", false, [.files (.list [⟨"a/./b"⟩, ⟨"c"⟩])]⟩]⟩
    let v : View := ⟨0, ⟨fun _ => .ok [⟨"a/b/"⟩, ⟨"d"⟩], .ok [], .ok []⟩⟩
    let paths : List Path := [⟨"a//b"⟩, ⟨"c"⟩, ⟨"core.jar"⟩, ⟨"d"⟩]
    v.files heap {} .all = .ok paths ∧ (paths.map Path.components).Nodup ∧
      ∃ own more, v.selfResolved heap {} = .ok own ∧ v.backend.files .all = .ok more ∧
        paths = own ++ (firstOccurrences Path.components more).filter
          (·.components ∉ own.map Path.components) := by
  intro heap v paths
  have core : Listing heap true (heap.dependencies 1) [⟨.list [⟨"a/./b"⟩, ⟨"c"⟩], true⟩] :=
    .files .nil
  have listing : Listing heap true (heap.dependencies 0) (⟨.list [⟨"a//b"⟩], true⟩ ::
      ([⟨.list [⟨"a/./b"⟩, ⟨"c"⟩], true⟩] ++ [⟨.list [⟨"core.jar"⟩], true⟩])) :=
    .files (.followed rfl core .nil)
  have enumerated : Enumerated {} [⟨.list [⟨"a//b"⟩], true⟩,
      ⟨.list [⟨"a/./b"⟩, ⟨"c"⟩], true⟩, ⟨.list [⟨"core.jar"⟩], true⟩]
      [[⟨"a//b"⟩], [⟨"a/./b"⟩, ⟨"c"⟩], [⟨"core.jar"⟩]] :=
    .cons rfl (.cons rfl (.cons rfl .nil))
  have gathers : Gathers heap {} v.configuration (.ok _) := .files listing enumerated
  have kept : firstOccurrences Path.components ([[⟨"a//b"⟩], [⟨"a/./b"⟩, ⟨"c"⟩],
      [⟨"core.jar"⟩]].flatten ++ [⟨"a/b/"⟩, ⟨"d"⟩]) = paths := by decide
  have answered : v.files heap {} .all = .ok paths := by
    rw [(Answers.merged gathers rfl).files_eq, kept]
  exact ⟨answered, (files_eq_iff_answers v heap {} .all).2 paths answered⟩

end View
end Buildpath
