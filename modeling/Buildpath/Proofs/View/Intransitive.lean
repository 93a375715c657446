import Buildpath.Proofs.CommandLine.Running
import Buildpath.Proofs.Lockfile.Alone
import Buildpath.Proofs.View.Files

/-! Taking the flag from a configuration. Both halves of a view get smaller and neither
begins to fail: projects that are no longer followed still give their artifacts in the same
places, and modules are wanted alone. A dependency that overrides the flag keeps a project's
whole listing, but never brings back what a module depends on. -/
namespace Buildpath

theorem Heap.transitive_setTransitive_false {heap : Heap} {h : Handle}
    (flag : (heap.setTransitive h false).transitive h = true) : heap.transitive h = true := by
  rw [transitive, setTransitive, get?_modify, if_pos rfl] at flag
  rw [transitive]
  cases found : heap.get? h with
  | none => rfl
  | some c => simp [found] at flag

def contributed (heap : Heap) (h : Handle) : List Collection :=
  (Context.contribute heap { transitive := heap.transitive h } (heap.dependencies h)).1.entries.map
    (·.files)

variable {heap other : Heap} {h : Handle} {d : Disk} {filter : Filter}

theorem contributed_eq {entries : List Contribution}
    (listing : Listing heap (heap.transitive h) (heap.dependencies h) entries) :
    contributed heap h = entries.map (·.files) := by
  rw [contributed, (contribute_entries_iff.mpr listing).2]

/-- A project that is passed over gives the last of what it gave when it was followed. -/
theorem Listing.weaker {t t' : Bool} {deps : List Dependency} {entries : List Contribution}
    (listing : Listing heap t deps entries) (same : ∀ h, other.dependencies h = heap.dependencies h)
    (weaker : t' = true → t = true) : ∃ fewer, Listing other t' deps fewer ∧
      (fewer.map (·.files)).Sublist (entries.map (·.files)) := by
  induction listing with
  | nil => exact ⟨[], .nil, .slnil⟩
  | files _ ih =>
    obtain ⟨fewer, listing, sublist⟩ := ih
    exact ⟨_, .files listing, sublist.cons_cons _⟩
  | module _ ih =>
    obtain ⟨fewer, listing, sublist⟩ := ih
    exact ⟨_, .module listing, sublist⟩
  | @passed _ _ _ _ _ override pass _ ih =>
    obtain ⟨fewer, listing, sublist⟩ := ih
    have passAgain : override.getD t' = false := by
      cases override with
      | some => exact pass
      | none => exact Bool.eq_false_iff.mpr fun follow => Bool.eq_false_iff.mp pass (weaker follow)
    exact ⟨_, .passed passAgain listing, sublist.cons_cons _⟩
  | @followed _ _ _ _ _ artifacts override _ _ _ ihInner ihRest =>
    obtain ⟨inner, listingInner, sublistInner⟩ := ihInner
    obtain ⟨fewer, listing, sublist⟩ := ihRest
    have last := sublist.cons_cons artifacts
    cases follow : override.getD t' with
    | true =>
      rw [← same] at listingInner
      refine ⟨_, .followed follow listingInner listing, ?_⟩
      rw [List.map_append, List.map_append]
      exact sublistInner.append last
    | false =>
      refine ⟨_, .passed follow listing, ?_⟩
      rw [List.map_append]
      exact last.trans (List.sublist_append_right _ _)

theorem Enumerated.sublist {entries fewer : List Contribution} {files : List (List Path)}
    (enumerated : Enumerated d entries files)
    (sublist : (fewer.map (·.files)).Sublist (entries.map (·.files))) :
    ∃ kept, Enumerated d fewer kept ∧ kept.Sublist files := by
  have outcomes := sublist.map (·.files d)
  rw [enumerated_iff.mp enumerated] at outcomes
  obtain ⟨kept, part, eq⟩ := List.sublist_map_iff.mp outcomes
  exact ⟨kept, enumerated_iff.mpr eq, part⟩

/-- What a configuration that loses at most its flag contributes by itself. -/
theorem Gathers.weaker {own : List Path} (gathers : Gathers heap d h (.ok own))
    (same : ∀ h, other.dependencies h = heap.dependencies h)
    (weaker : other.transitive h = true → heap.transitive h = true) :
    ∃ fewer, Gathers other d h (.ok fewer) ∧ fewer.Sublist own ∧
      (contributed other h).Sublist (contributed heap h) := by
  cases gathers with
  | files listing enumerated =>
    obtain ⟨fewer, smaller, sublist⟩ := listing.weaker same weaker
    rw [← same] at smaller
    obtain ⟨kept, each, part⟩ := enumerated.sublist sublist
    rw [contributed_eq listing, contributed_eq smaller]
    exact ⟨_, .files smaller each, part.flatten, sublist⟩

theorem accepted_cons_eq_ok {a : Artifact} {rest as : List Artifact} :
    accepted filter (a :: rest) = .ok as ↔ ∃ take others, filter a = .ok take ∧
      accepted filter rest = .ok others ∧ as = if take then a :: others else others := by
  rw [accepted]
  cases filter a with
  | error e => simp
  | ok take =>
    cases accepted filter rest with
    | error e => simp [Except.map]
    | ok others => cases take <;> simp [Except.map, eq_comm]

theorem accepted_sublist {few many as : List Artifact} (sublist : few.Sublist many)
    (ok : accepted filter many = .ok as) :
    ∃ kept, accepted filter few = .ok kept ∧ kept.Sublist as := by
  induction sublist generalizing as with
  | slnil => exact ⟨as, ok, List.Sublist.refl _⟩
  | cons a _ ih =>
    obtain ⟨take, others, _, rest, rfl⟩ := accepted_cons_eq_ok.mp ok
    obtain ⟨kept, same, part⟩ := ih rest
    refine ⟨kept, same, ?_⟩
    cases take with
    | true => exact part.cons a
    | false => exact part
  | cons_cons a _ ih =>
    obtain ⟨take, others, first, rest, rfl⟩ := accepted_cons_eq_ok.mp ok
    obtain ⟨kept, same, part⟩ := ih rest
    refine ⟨_, accepted_cons_eq_ok.mpr ⟨take, kept, first, same, rfl⟩, ?_⟩
    cases take with
    | true => exact part.cons_cons a
    | false => exact part

theorem acceptedFiles_sublist {few many : List Artifact} {files : List Path}
    (sublist : few.Sublist many) (ok : acceptedFiles filter many = .ok files) :
    ∃ kept, acceptedFiles filter few = .ok kept ∧
      kept.map Path.components ⊆ files.map Path.components := by
  obtain ⟨as, taken, rfl⟩ := map_eq_ok_iff.mp ok
  obtain ⟨kept, same, part⟩ := accepted_sublist sublist taken
  refine ⟨_, map_eq_ok_iff.mpr ⟨kept, same, rfl⟩, ?_⟩
  intro k mem
  simp only [distinctBy_eq, mem_map_firstOccurrences] at mem ⊢
  exact ((part.map _).map _).subset mem

namespace View

/-- Modules and files get fewer each on their own, and so does what they list together. -/
theorem files_setTransitive_false {l : Lockfile} {repository : Path} {v : View} {many : List Path}
    (resolved : resolve (l.backend repository) heap h = .ok v)
    (answered : v.files heap d filter = .ok many) :
    ∃ v' few, resolve (l.backend repository) (heap.setTransitive h false) h = .ok v' ∧
      v'.files (heap.setTransitive h false) d filter = .ok few ∧
      (contributed (heap.setTransitive h false) h).Sublist (contributed heap h) ∧
      few.map Path.components ⊆ many.map Path.components := by
  have name := Heap.name_setTransitive heap h h false
  have same := fun k => Heap.dependencies_setTransitive heap h k false
  have weaker : (heap.setTransitive h false).transitive h = true → heap.transitive h = true :=
    Heap.transitive_setTransitive_false
  obtain ⟨r, locked, rfl⟩ := resolve_eq_ok_iff.mp resolved
  obtain ⟨own, more, gathers, given, rfl⟩ := files_eq_ok_iff.mp answered
  obtain ⟨fewer, lockedAgain, walked⟩ := Lockfile.resolve_weaker locked name (same h) weaker
  obtain ⟨ownKept, gathersAgain, ownPart, collections⟩ := gathers.weaker same weaker
  obtain ⟨moreKept, givenAgain, morePart⟩ := acceptedFiles_sublist walked given
  refine ⟨⟨h, fewer.view⟩, _, resolve_eq_ok_iff.mpr ⟨fewer, lockedAgain, rfl⟩,
    files_eq_ok_iff.mpr ⟨ownKept, moreKept, gathersAgain, givenAgain, rfl⟩, collections, ?_⟩
  intro k mem
  rw [mem_map_firstOccurrences, List.map_append, List.mem_append] at mem ⊢
  rcases mem with mem | mem
  · exact .inl ((ownPart.map _).subset mem)
  · exact .inr (morePart mem)

end View

theorem CommandLine.files_intransitive {root repository : Path} {configuration : String}
    {extension : Option String} {many : List Path}
    (listed : files d root repository configuration false extension = .ok many) :
    ∃ few, files d root repository configuration true extension = .ok few ∧
      few.map Path.components ⊆ many.map Path.components := by
  obtain ⟨heap, v, resolved, answered⟩ := files_eq_ok_iff.mp listed
  obtain ⟨h, loaded, lockfile, load, lock, whole, viewed⟩ := resolve_eq_ok_iff.mp resolved
  obtain rfl : heap = loaded := whole
  obtain ⟨v', few, viewedAgain, answeredAgain, _, subset⟩ :=
    View.files_setTransitive_false viewed answered
  have resolvedAgain : resolve d root repository configuration true = .ok (_, v') :=
    resolve_eq_ok_iff.mpr ⟨h, heap, lockfile, load, lock, rfl, viewedAgain⟩
  exact ⟨few, files_eq_ok_iff.mpr ⟨_, v', resolvedAgain, answeredAgain⟩, subset⟩

/-- What a configuration resolves to and lists it still resolves to and lists without its flag:
the collections that are left keep their order, and no file is new. A command that asks for no
transitive dependencies thus answers wherever one that asks for them does. -/
theorem intransitive_files_subset :
    (∀ (l : Lockfile) (repository : Path) (heap : Heap) (h : Handle) (d : Disk) (filter : Filter)
        (v : View) (many : List Path),
      View.resolve (l.backend repository) heap h = .ok v → v.files heap d filter = .ok many →
      ∃ v' few, View.resolve (l.backend repository) (heap.setTransitive h false) h = .ok v' ∧
        v'.files (heap.setTransitive h false) d filter = .ok few ∧
        (contributed (heap.setTransitive h false) h).Sublist (contributed heap h) ∧
        few.map Path.components ⊆ many.map Path.components) ∧
    ∀ (d : Disk) (env : Environment) (c : CommandLine.Command) (extension : Option String)
        (text : String),
      CommandLine.run d env { c with question := .files false extension } = .ok text →
      ∃ root repository many few,
        CommandLine.files d root repository c.configuration false extension = .ok many ∧
        CommandLine.files d root repository c.configuration true extension = .ok few ∧
        few.map Path.components ⊆ many.map Path.components ∧
        text = CommandLine.printed c.json many ∧
        CommandLine.run d env { c with question := .files true extension } =
          .ok (CommandLine.printed c.json few) := by
  constructor
  · intro l repository heap h d filter v many resolved answered
    exact View.files_setTransitive_false resolved answered
  · intro d env c extension text ran
    obtain ⟨root, repository, many, listed, rfl, others⟩ := CommandLine.run_files ran
    obtain ⟨few, listedAgain, subset⟩ := CommandLine.files_intransitive listed
    exact ⟨root, repository, many, few, listed, listedAgain, subset, rfl, others true few listedAgain⟩

/-- A project that is followed anyway, one that no longer is, and a module that loses what it
depends on. -/
theorem intransitive_files_overridden :
    let l : Lockfile := ⟨[⟨"g:a:1", ["g:b:1"], []⟩, ⟨"g:b:1", [], []⟩]⟩
    let heap : Heap := ⟨[⟨"compile", true, [.project "core" 1 (.list [⟨"core.jar"⟩]) (some true),
        .project "util" 2 (.list [⟨"util.jar"⟩]) none, .module ⟨"g", "a", "1", "jar"⟩ none]⟩,
      ⟨"compile", true, [.project "util" 2 (.list [⟨"util.jar"⟩]) none]⟩,
      ⟨"compile", true, [.files (.list [⟨"u.jar"⟩])]⟩]⟩
    ∃ v many, View.resolve (l.backend ⟨"r"⟩) heap 0 = .ok v ∧ v.files heap {} .all = .ok many ∧
      many.map (·.text) =
        ["u.jar", "util.jar", "core.jar", "r/g/a/1/a-1.jar", "r/g/b/1/b-1.jar"] ∧
      ∃ v' few, View.resolve (l.backend ⟨"r"⟩) (heap.setTransitive 0 false) 0 = .ok v' ∧
        v'.files (heap.setTransitive 0 false) {} .all = .ok few ∧
        few.map Path.components ⊆ many.map Path.components := by
  intro l heap
  let a : Coordinate := ⟨"g", "a", "1", "jar"⟩
  let b : Coordinate := ⟨"g", "b", "1", "jar"⟩
  have below : Lockfile.Unfolds l ⟨"r"⟩ "compile" [⟨b, true⟩] _ := .of_locked rfl rfl .nil .nil
  have modules : Lockfile.Unfolds l ⟨"r"⟩ "compile" [⟨a, true⟩] _ := .of_locked rfl (by rfl) below .nil
  have locked : l.resolve ⟨"r"⟩ heap 0 = .ok _ :=
    Lockfile.resolve_eq_ok_iff.mpr ⟨_, modules, rfl⟩
  have resolved : View.resolve (l.backend ⟨"r"⟩) heap 0 = .ok _ :=
    View.resolve_eq_ok_iff.mpr ⟨_, locked, rfl⟩
  have util : Listing heap true (heap.dependencies 2) [⟨.list [⟨"u.jar"⟩], true⟩] := .files .nil
  have core : Listing heap true (heap.dependencies 1) _ := .followed rfl util .nil
  have listing : Listing heap true (heap.dependencies 0) _ :=
    .followed rfl core (.followed rfl util (.module .nil))
  let files : List (List Path) :=
    [[⟨"u.jar"⟩], [⟨"util.jar"⟩], [⟨"core.jar"⟩], [⟨"u.jar"⟩], [⟨"util.jar"⟩]]
  have gathers : Gathers heap {} 0 (.ok files.flatten) := .files listing (enumerated_iff.mpr rfl)
  obtain ⟨v, resolved, answered⟩ : ∃ v, View.resolve (l.backend ⟨"r"⟩) heap 0 = .ok v ∧
      v.files heap {} .all = .ok _ :=
    ⟨_, resolved, View.files_eq_ok_iff.mpr ⟨_, _, gathers, rfl, rfl⟩⟩
  obtain ⟨v', few, again, listedAgain, _, subset⟩ :=
    intransitive_files_subset.1 l ⟨"r"⟩ heap 0 {} .all _ _ resolved answered
  exact ⟨_, _, resolved, answered, by decide, v', few, again, listedAgain, subset⟩

end Buildpath
