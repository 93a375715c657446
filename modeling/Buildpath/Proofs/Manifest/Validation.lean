import Buildpath.Manifest
import Buildpath.Proofs.FirstFault
import Buildpath.Proofs.Text.Bytes

/-! Which manifests are valid, and what is reported of those that are not. A declaration is in order
if it sets one of four fields, and of the others the first one is reported: the first in the
configuration whose name stands before those of all others that have one, in the order of bytes. -/
namespace Buildpath.Manifest

namespace Declaration

def settings (d : Declaration) : Nat :=
  [d.files.isSome, d.glob.isSome, d.module.isSome, d.project.isSome].count true

theorem length_sources (d : Declaration) : d.sources.length = d.settings := by
  obtain ⟨files, glob, module, project, _, _⟩ := d
  cases files <;> cases glob <;> cases module <;> cases project <;> rfl

theorem source_eq_error_iff {d : Declaration} {fault : SourceFault} : d.source = .error fault ↔
    d.settings ≠ 1 ∧ fault = if d.settings = 0 then .none else .several := by
  rw [← length_sources, source]
  split
  · rename_i none
    simp [none, eq_comm]
  · rename_i one
    simp [one]
  · rename_i some several
    cases all : d.sources with
    | nil => exact absurd all some
    | cons first others =>
      cases others with
      | nil => exact absurd all (several first)
      | cons => simp [eq_comm]

theorem exists_source_iff {d : Declaration} : (∃ source, d.source = .ok source) ↔ d.settings = 1 := by
  constructor
  · rintro ⟨source, classified⟩
    by_contra other
    rw [source_eq_error_iff.mpr ⟨other, rfl⟩] at classified
    cases classified
  · intro one
    cases classified : d.source with
    | ok source => exact ⟨source, rfl⟩
    | error fault => exact absurd one (source_eq_error_iff.mp classified).1

end Declaration

def Section.Definite (s : Section) : Prop := ∀ declaration ∈ s.dependencies, declaration.settings = 1

/-- The first declaration that does not set exactly one of the four fields, and whether it sets too
few or too many. -/
def Section.Offends (s : Section) (position : Nat) (fault : SourceFault) : Prop :=
  ∃ before declaration after, s.dependencies = before ++ declaration :: after ∧
    (∀ earlier ∈ before, earlier.settings = 1) ∧ declaration.settings ≠ 1 ∧
    position = before.length + 1 ∧ fault = if declaration.settings = 0 then .none else .several

theorem firstFault_eq_none_iff {start : Nat} {list : List Declaration} :
    firstFault start list = none ↔ ∀ declaration ∈ list, declaration.settings = 1 := by
  induction list generalizing start with
  | nil => simp [firstFault]
  | cons first rest ih =>
    rw [firstFault, List.forall_mem_cons]
    split
    · rename_i wrong
      simp [(Declaration.source_eq_error_iff.mp wrong).1]
    · rename_i right
      rw [ih, Declaration.exists_source_iff.mp ⟨_, right⟩, eq_self, true_and]

theorem firstFault_eq_some {start position : Nat} {list : List Declaration} {fault : SourceFault}
    (found : firstFault start list = some (position, fault)) :
    ∃ before declaration after, list = before ++ declaration :: after ∧
      (∀ earlier ∈ before, earlier.settings = 1) ∧ declaration.source = .error fault ∧
      position = before.length + start := by
  induction list generalizing start with
  | nil => cases found
  | cons first rest ih =>
    rw [firstFault] at found
    split at found
    · rename_i wrong
      cases found
      exact ⟨[], first, rest, rfl, by simp, wrong, (Nat.zero_add _).symm⟩
    · rename_i right
      obtain ⟨before, declaration, after, rfl, earlier, wrong, rfl⟩ := ih found
      refine ⟨first :: before, declaration, after, rfl, ?_, wrong, ?_⟩
      · exact List.forall_mem_cons.mpr ⟨Declaration.exists_source_iff.mp ⟨_, right⟩, earlier⟩
      · rw [List.length_cons]
        omega

theorem Section.offends_of_firstFault {s : Section} {position : Nat} {fault : SourceFault}
    (found : firstFault 1 s.dependencies = some (position, fault)) : s.Offends position fault := by
  obtain ⟨before, declaration, after, split, earlier, wrong, position_eq⟩ := firstFault_eq_some found
  obtain ⟨other, kind⟩ := Declaration.source_eq_error_iff.mp wrong
  exact ⟨before, declaration, after, split, earlier, other, position_eq, kind⟩

/-- Of several configurations the first one counts that has a fault. -/
theorem firstFaultOfEach_eq (list : List (String × Section)) : firstFaultOfEach list =
    list.findSome? fun c => (firstFault 1 c.2.dependencies).map fun found => (c.1, found) := by
  induction list with
  | nil => rfl
  | cons first rest ih =>
    obtain ⟨name, s⟩ := first
    rw [firstFaultOfEach, List.findSome?_cons, ih]
    cases firstFault 1 s.dependencies <;> rfl

def sorted (m : Manifest) : List (String × Section) := m.configurations.mergeSort (fun a b => a.1 ≤ b.1)

theorem mem_sorted {m : Manifest} {c : String × Section} : c ∈ m.sorted ↔ c ∈ m.configurations :=
  (List.mergeSort_perm m.configurations _).mem_iff

theorem pairwise_sorted (m : Manifest) : m.sorted.Pairwise fun a b => a.1 ≤ b.1 := by
  have ordered : m.sorted.Pairwise fun a b => decide (a.1 ≤ b.1) := by
    refine List.pairwise_mergeSort ?_ ?_ m.configurations
    · intro a b c
      simpa using String.le_trans
    · intro a b
      simpa using String.le_total a.1 b.1
  simpa using ordered

def Definite (m : Manifest) : Prop := ∀ c ∈ m.configurations, c.2.Definite

/-- The first declaration that is not in order: the first one of its configuration, whose name no
other configuration comes before that has one. -/
def Offends (m : Manifest) (name : String) (position : Nat) (fault : SourceFault) : Prop :=
  ∃ s, (name, s) ∈ m.configurations ∧ s.Offends position fault ∧
    ∀ c ∈ m.configurations, ¬ c.2.Definite → Text.bytes name ≤ Text.bytes c.1

theorem firstFaultOfEach_sorted_eq_none_iff {m : Manifest} :
    firstFaultOfEach m.sorted = none ↔ m.Definite := by
  rw [firstFaultOfEach_eq, List.findSome?_eq_none_iff]
  simp only [mem_sorted, Option.map_eq_none_iff, firstFault_eq_none_iff]
  rfl

theorem offends_of_firstFaultOfEach {m : Manifest} {name : String} {position : Nat} {fault : SourceFault}
    (found : firstFaultOfEach m.sorted = some (name, position, fault)) :
    m.Offends name position fault := by
  rw [firstFaultOfEach_eq] at found
  obtain ⟨before, ⟨name, s⟩, after, split, first, earlier⟩ := List.findSome?_eq_some_iff.mp found
  obtain ⟨_, inner, ⟨⟩⟩ := Option.map_eq_some_iff.mp first
  have ordered := m.pairwise_sorted
  rw [split] at ordered
  have behind := (List.pairwise_cons.mp (List.pairwise_append.mp ordered).2.1).1
  refine ⟨s, mem_sorted.mp (by rw [split]; simp), Section.offends_of_firstFault inner, ?_⟩
  intro c mem wrong
  rw [Text.bytes_le_iff]
  -- those in front are in order, and those behind have no lower names
  rcases List.mem_append.mp (split ▸ mem_sorted.mpr mem) with early | late
  · exact absurd (firstFault_eq_none_iff.mp (Option.map_eq_none_iff.mp (earlier c early))) wrong
  · rcases List.mem_cons.mp late with rfl | late
    · exact String.le_refl _
    · exact behind c late

theorem validate_eq_ok_iff {m : Manifest} : m.validate = .ok () ↔ m.Definite := by
  rw [← firstFaultOfEach_sorted_eq_none_iff, sorted, validate]
  split <;> simp [*]

theorem validate_eq_error {m : Manifest} {e : ManifestError} (failed : m.validate = .error e) :
    ∃ name position fault, e = .invalid (some (name, position)) fault ∧
      m.Offends name position fault := by
  unfold validate at failed
  split at failed
  · rename_i found
    cases failed
    exact ⟨_, _, _, rfl, offends_of_firstFaultOfEach found⟩
  · cases failed

section
variable {path : Path} {text : String} {m : Manifest}

theorem ofText_eq (decoded : parse text = .ok m) : ofText path text = m.validate.map fun _ => m := by
  cases checked : m.validate <;>
    simp [ofText, decoded, checked, Except.mapError, Except.map, bind, Except.bind, pure, Except.pure]

theorem ofText_eq_ok_iff {found : Manifest} :
    ofText path text = .ok found ↔ parse text = .ok found ∧ found.Definite := by
  cases decoded : parse text with
  | error fault => simp [ofText, decoded, Except.mapError, bind, Except.bind]
  | ok m =>
    rw [ofText_eq decoded, map_eq_ok_iff]
    constructor
    · rintro ⟨⟨⟩, valid, rfl⟩
      exact ⟨rfl, validate_eq_ok_iff.mp valid⟩
    · rintro ⟨same, definite⟩
      cases same
      exact ⟨(), validate_eq_ok_iff.mpr definite, rfl⟩

/-- A text that cannot be decoded has no manifest that could be invalid. -/
theorem ofText_eq_invalid {place : Option (String × Nat)} {fault : SourceFault}
    (failed : ofText path text = .error (.invalid place fault)) :
    ∃ m, parse text = .ok m ∧ m.validate = .error (.invalid place fault) := by
  cases decoded : parse text with
  | error e =>
    rw [ofText, decoded] at failed
    cases failed
  | ok m =>
    rw [ofText_eq decoded] at failed
    exact ⟨m, rfl, map_eq_error_iff.mp failed⟩

theorem load_eq_of_readText {d : Disk} (read : d.readText path = .ok text) :
    load d path = ofText path text := by
  rw [load, read]
  rfl

end
end Buildpath.Manifest
