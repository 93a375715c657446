import Buildpath.Proofs.View.Files

/-! Adding a dependency to the configuration of a view. The configuration may be met in the graph
that it is the root of, and then it is met with its new dependency. But a walk that comes back to
where it started never ends well, so where the view answers afterwards nothing that it went through
was changed: what was contributed before still is, in front of all that is new. -/
namespace Buildpath

open Relation

variable {heap other : Heap} {t : Bool} {h : Handle} {d : Disk}

theorem Listing.of_append {first second : List Dependency} {entries : List Contribution}
    (listing : Listing heap t (first ++ second) entries) :
    ∃ before after, entries = before ++ after ∧ Listing heap t first before := by
  induction first generalizing entries with
  | nil => exact ⟨[], entries, rfl, .nil⟩
  | cons dep rest ih =>
    rw [List.cons_append] at listing
    cases listing with
    | files others =>
      obtain ⟨before, after, rfl, listed⟩ := ih others
      exact ⟨_, after, rfl, .files listed⟩
    | module others =>
      obtain ⟨before, after, rfl, listed⟩ := ih others
      exact ⟨_, after, rfl, .module listed⟩
    | passed pass others =>
      obtain ⟨before, after, rfl, listed⟩ := ih others
      exact ⟨_, after, rfl, .passed pass listed⟩
    | followed follow below others =>
      obtain ⟨before, after, rfl, listed⟩ := ih others
      refine ⟨_, after, ?_, .followed follow below listed⟩
      rw [List.append_assoc, List.cons_append]

/-- What is listed is read from the configurations that can be reached, and from nothing else. -/
theorem Listing.frame {deps : List Dependency} {entries : List Contribution}
    (listing : Listing heap t deps entries)
    (agree : ∀ dep ∈ deps, ∀ k l, dep.followed? t = some k →
      ReflTransGen (heap.Leads (Dependency.followed? t)) k l →
      other.name l = heap.name l ∧ other.dependencies l = heap.dependencies l) :
    Listing other t deps entries := by
  obtain ⟨ok, added⟩ := contribute_entries_iff.mpr listing
  obtain ⟨_, _, walks⟩ := exists_walks heap { transitive := t } deps
  have same := (walks.frame agree).contribute_eq { transitive := t } rfl rfl
  rw [← walks.contribute_eq { transitive := t } rfl rfl] at same
  exact contribute_entries_iff.mp (by rw [same]; exact ⟨ok, added⟩)

/-- What a configuration lists does not lead back to it. -/
theorem Listing.ne_of_leads {entries : List Contribution}
    (listing : Listing heap t (heap.dependencies h) entries) {dep : Dependency} {k l : Handle}
    (mem : dep ∈ heap.dependencies h) (edge : dep.followed? t = some k)
    (path : ReflTransGen (heap.Leads (Dependency.followed? t)) k l) : h ≠ l := by
  rintro rfl
  exact listing.not_cyclic ⟨dep, mem, k, h, edge, path, .head' ⟨dep, mem, edge⟩ path⟩

/-- A dependency that may be added may be left out again. -/
theorem Listing.of_addDependency {dep : Dependency} {entries : List Contribution}
    (listing : Listing (heap.addDependency h dep) t ((heap.addDependency h dep).dependencies h) entries) :
    ∃ before after, entries = before ++ after ∧ Listing heap t (heap.dependencies h) before := by
  have whole := listing
  rw [Heap.dependencies_addDependency_self] at listing
  obtain ⟨before, after, split, listed⟩ := listing.of_append
  refine ⟨before, after, split, listed.frame fun old mem k l edge path => ?_⟩
  have still : old ∈ (heap.addDependency h dep).dependencies h := by
    rw [Heap.dependencies_addDependency_self]
    exact List.mem_append_left _ mem
  have elsewhere : h ≠ l := whole.ne_of_leads still edge path
  exact ⟨(Heap.name_addDependency heap h l dep).symm,
    (Heap.dependencies_addDependency_of_ne elsewhere dep).symm⟩

theorem Enumerated.of_append {before after : List Contribution} {files : List (List Path)}
    (enumerated : Enumerated d (before ++ after) files) :
    ∃ first rest, files = first ++ rest ∧ Enumerated d before first := by
  rw [enumerated_iff, List.map_append, List.map_append] at enumerated
  obtain ⟨first, rest, split, front, _⟩ := List.map_eq_append_iff.mp enumerated.symm
  exact ⟨first, rest, split, enumerated_iff.mpr front.symm⟩

theorem Gathers.of_addDependency {dep : Dependency} {own : List Path}
    (gathers : Gathers (heap.addDependency h dep) d h (.ok own)) :
    ∃ before more, own = before ++ more ∧ Gathers heap d h (.ok before) := by
  cases gathers with
  | files listing enumerated =>
    rw [Heap.transitive_addDependency] at listing
    obtain ⟨before, after, rfl, listed⟩ := listing.of_addDependency
    obtain ⟨first, rest, rfl, each⟩ := enumerated.of_append
    exact ⟨first.flatten, rest.flatten, List.flatten_append, .files listed each⟩

namespace View

/-- Where a view answers after its configuration got one more dependency, it answered before, on the
same disk. What the configuration contributed by itself still stands in front of what it contributes
now. Behind that come the files listed before that are not among it, in the order in which they were
listed; they are the backend's. So no file is lost. -/
theorem files_before_addDependency (v : View) (heap : Heap) (d : Disk) (filter : Filter)
    (dep : Dependency) (after : List Path)
    (answered : v.files (heap.addDependency v.configuration dep) d filter = .ok after) :
    ∃ before own own' listed, v.files heap d filter = .ok before ∧
      v.selfResolved heap d = .ok own ∧
      v.selfResolved (heap.addDependency v.configuration dep) d = .ok own' ∧
      v.backend.files filter = .ok listed ∧
      own <+: own' ∧ before.map Path.components ⊆ after.map Path.components ∧
      after = own' ++ before.filter (·.components ∉ own'.map Path.components) ∧
      after = own' ++ (firstOccurrences Path.components listed).filter
        (·.components ∉ own'.map Path.components) := by
  obtain ⟨all, listed, gathers, given, rfl⟩ := files_eq_ok_iff.mp answered
  obtain ⟨old, more, rfl, gathered⟩ := gathers.of_addDependency
  refine ⟨_, _, _, listed, files_eq_ok_iff.mpr ⟨old, listed, gathered, given, rfl⟩,
    gathered.selfResolvedFiles_eq, gathers.selfResolvedFiles_eq, given, ?front, ?kept, ?order, ?backend⟩
  case front =>
    rw [firstOccurrences_append]
    exact List.prefix_append _ _
  case kept =>
    intro k mem
    simp only [mem_map_firstOccurrences, List.map_append, List.mem_append] at mem ⊢
    tauto
  case order =>
    rw [firstOccurrences_append_append]
    congr!
  case backend =>
    rw [firstOccurrences_append]
    congr!

/-- A configuration on which another one depends gets a project, some files of which it lists
already and some of which the backend does. -/
theorem files_before_addDependency_shared :
    let heap : Heap := ⟨[⟨"c", true, [.files (.list [⟨"a"⟩, ⟨"b"⟩])]⟩,
      ⟨"c", true, [.project "app" 0 (.list []) none]⟩, ⟨"c", true, [.files (.list [⟨"a"⟩, ⟨"y/."⟩])]⟩]⟩
    let v : View := ⟨0, ⟨fun _ => .ok [⟨"b/"⟩, ⟨"x"⟩, ⟨"z"⟩, ⟨"y"⟩], .ok [], .ok []⟩⟩
    let util : Dependency := .project "util" 2 (.list [⟨"x/"⟩]) none
    let before : List Path := [⟨"a"⟩, ⟨"b"⟩, ⟨"x"⟩, ⟨"z"⟩, ⟨"y"⟩]
    let after : List Path := [⟨"a"⟩, ⟨"b"⟩, ⟨"y/."⟩, ⟨"x/"⟩, ⟨"z"⟩]
    v.files heap {} .all = .ok before ∧ v.files (heap.addDependency 0 util) {} .all = .ok after ∧
      ∃ own own', v.selfResolved heap {} = .ok own ∧
        v.selfResolved (heap.addDependency 0 util) {} = .ok own' ∧ own <+: own' ∧
        before.map Path.components ⊆ after.map Path.components ∧
        after = own' ++ before.filter (·.components ∉ own'.map Path.components) := by
  intro heap v util before after
  have below : Listing (heap.addDependency 0 util) true ((heap.addDependency 0 util).dependencies 2) _ :=
    .files .nil
  have listing : Listing (heap.addDependency 0 util) true ((heap.addDependency 0 util).dependencies 0) _ :=
    .files (.followed rfl below .nil)
  have gathered : Gathers heap {} 0 (.ok [[⟨"a"⟩, ⟨"b"⟩]].flatten) :=
    .files (.files .nil) (.cons rfl .nil)
  have gathers : Gathers (heap.addDependency 0 util) {} 0
      (.ok [[⟨"a"⟩, ⟨"b"⟩], [⟨"a"⟩, ⟨"y/."⟩], [⟨"x/"⟩]].flatten) :=
    .files listing (.cons rfl (.cons rfl (.cons rfl .nil)))
  have answeredBefore : v.files heap {} .all = .ok before :=
    files_eq_ok_iff.mpr ⟨_, _, gathered, rfl, by decide⟩
  have answered : v.files (heap.addDependency 0 util) {} .all = .ok after :=
    files_eq_ok_iff.mpr ⟨_, _, gathers, rfl, by decide⟩
  obtain ⟨_, own, own', _, again, resolved, resolvedAgain, _, front, kept, order, _⟩ :=
    files_before_addDependency v heap {} .all util after answered
  obtain rfl := Except.ok.inj (answeredBefore.symm.trans again)
  exact ⟨answeredBefore, answered, own, own', resolved, resolvedAgain, front, kept, order⟩

end View
end Buildpath
