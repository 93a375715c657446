import Mathlib
import Buildpath.Proofs.Lockfile.Unfolding

/-! The order of the modules in a lock document. Reading refuses a document that locks an id
twice. In one that is read an id has one entry, wherever that stands, so nothing that is resolved
from it depends on the order. -/
namespace Buildpath.Lockfile

def ids (l : Lockfile) : List String := l.modules.map (·.id)

def FirstRepeated (ids : List String) (id : String) : Prop :=
  ∃ before after, ids = before ++ id :: after ∧ before.Nodup ∧ id ∈ before

def Decodes (d : Disk) (path : Path) (l : Lockfile) : Prop :=
  d.exists? path = true ∧ ∃ text, d.readText path = .ok text ∧ parse text = .ok l

theorem Decodes.unique {d : Disk} {path : Path} {l other : Lockfile} (decodes : Decodes d path l)
    (again : Decodes d path other) : l = other := by
  obtain ⟨-, text, read, parsed⟩ := decodes
  obtain ⟨-, text', read', parsed'⟩ := again
  obtain rfl := Except.ok.inj (read.symm.trans read')
  exact Except.ok.inj (parsed.symm.trans parsed')

theorem decodes_of_file {d : Disk} {path : Path} {place : Disk.Place} {text : String} {l : Lockfile}
    (located : d.locate path = .ok place) (file : d.get? place.location = some (.file text.toUTF8))
    (parsed : parse text = .ok l) : Decodes d path l := by
  have there : d.exists? path = true := by rw [Disk.exists?, located, Except.isOk, Except.toBool]
  have read : d.readText path = .ok text := by
    rw [Disk.readText, located]
    exact Disk.readAt_text file
  exact ⟨there, text, read, parsed⟩

/-- The ids that were seen and those before the one that is found are the document so far. -/
theorem firstRepeat?_eq_some_iff {seen : List String} (distinct : seen.Nodup)
    {modules : List LockedModule} {id : String} : firstRepeat? seen modules = some id ↔
      ∃ before after, modules.map (·.id) = before ++ id :: after ∧
        (before.reverse ++ seen).Nodup ∧ id ∈ before.reverse ++ seen := by
  induction modules generalizing seen with
  | nil => simp [firstRepeat?]
  | cons m rest ih =>
    rw [firstRepeat?, List.map_cons]
    by_cases old : m.id ∈ seen
    · rw [if_pos old, Option.some.injEq]
      constructor
      · rintro rfl
        exact ⟨[], _, rfl, distinct, old⟩
      · rintro ⟨before, after, split, apart, -⟩
        cases before with
        | nil => exact (List.cons.inj split).1
        | cons first before =>
          obtain ⟨rfl, -⟩ := List.cons.inj split
          rw [List.reverse_cons, List.append_assoc, List.singleton_append, List.nodup_middle] at apart
          exact absurd (List.mem_append_right _ old) (List.nodup_cons.mp apart).1
    · rw [if_neg old, ih (List.nodup_cons.mpr ⟨old, distinct⟩)]
      constructor
      · rintro ⟨before, after, split, apart, again⟩
        exact ⟨m.id :: before, after, by rw [split, List.cons_append], by simpa using apart,
          by simpa using again⟩
      · rintro ⟨before, after, split, apart, again⟩
        cases before with
        | nil =>
          obtain ⟨rfl, -⟩ := List.cons.inj split
          exact absurd again old
        | cons first before =>
          obtain ⟨rfl, later⟩ := List.cons.inj split
          exact ⟨before, after, later, by simpa using apart, by simpa using again⟩

theorem firstRepeat?_nil_eq_some_iff {l : Lockfile} {id : String} :
    firstRepeat? [] l.modules = some id ↔ FirstRepeated l.ids id := by
  simp [firstRepeat?_eq_some_iff List.nodup_nil, FirstRepeated, ids]

/-- Where some id repeats an earlier one there is a first that does. -/
theorem exists_firstRepeated_iff {ids : List String} : (∃ id, FirstRepeated ids id) ↔ ¬ ids.Nodup := by
  constructor
  · rintro ⟨id, before, after, rfl, -, mem⟩ distinct
    exact (List.nodup_append.mp distinct).2.2 id mem id List.mem_cons_self rfl
  · intro repeated
    induction ids using List.reverseRecOn with
    | nil => exact absurd List.nodup_nil repeated
    | append_singleton before last ih =>
      by_cases distinct : before.Nodup
      · refine ⟨last, before, [], rfl, distinct, ?_⟩
        by_contra new
        exact repeated (List.nodup_append.mpr ⟨distinct, List.nodup_singleton _, by grind⟩)
      · obtain ⟨id, first, after, rfl, rest⟩ := ih distinct
        exact ⟨id, first, after ++ [last], by simp, rest⟩

theorem firstRepeat?_eq_none_iff {l : Lockfile} : firstRepeat? [] l.modules = none ↔ l.ids.Nodup := by
  rw [Option.eq_none_iff_forall_not_mem, ← not_iff_not, ← exists_firstRepeated_iff]
  simp [firstRepeat?_nil_eq_some_iff]

theorem ofText_eq_duplicate_iff {path at_ : Path} {text id : String} :
    ofText path text = .error (.duplicate at_ id) ↔
      at_ = path ∧ ∃ l, parse text = .ok l ∧ FirstRepeated l.ids id := by
  simp only [← firstRepeat?_nil_eq_some_iff]
  unfold ofText
  cases parsed : parse text with
  | error fault => simp [Except.mapError, bind, Except.bind]
  | ok l =>
    cases repeated : firstRepeat? [] l.modules with
    | none => simp [Except.mapError, bind, Except.bind, pure, Except.pure, repeated]
    | some first => simp [Except.mapError, bind, Except.bind, repeated, eq_comm]

theorem ofText_eq_ok_iff {path : Path} {text : String} {l : Lockfile} :
    ofText path text = .ok l ↔ parse text = .ok l ∧ l.ids.Nodup := by
  rw [← firstRepeat?_eq_none_iff, ofText, bind_eq_ok_iff]
  simp only [mapError_eq_ok_iff]
  constructor
  · rintro ⟨decoded, parsed, ok⟩
    split at ok
    · cases ok
    · rename_i distinct
      cases ok
      exact ⟨parsed, distinct⟩
  · rintro ⟨parsed, distinct⟩
    exact ⟨l, parsed, by simp only [distinct, pure, Except.pure]⟩

theorem load_eq_duplicate_iff {d : Disk} {path at_ : Path} {id : String} :
    load d path = .error (.duplicate at_ id) ↔
      at_ = path ∧ ∃ l, Decodes d path l ∧ FirstRepeated l.ids id := by
  unfold load Decodes
  cases there : d.exists? path with
  | false => simp [pure, Except.pure]
  | true =>
    cases given : d.readText path with
    | error fault => simp [Except.mapError, bind, Except.bind]
    | ok text => simp [Except.mapError, bind, Except.bind, ofText_eq_duplicate_iff]

theorem load_eq_ok_iff {d : Disk} {path : Path} {l : Lockfile} : load d path = .ok l ↔
    (d.exists? path = false ∧ l = {}) ∨ (Decodes d path l ∧ l.ids.Nodup) := by
  unfold load Decodes
  cases there : d.exists? path with
  | false => simp [pure, Except.pure, eq_comm]
  | true =>
    cases given : d.readText path with
    | error fault => simp [Except.mapError, bind, Except.bind]
    | ok text => simp [Except.mapError, bind, Except.bind, ofText_eq_ok_iff]

theorem module?_eq_some_iff {l : Lockfile} (distinct : l.ids.Nodup) {id : String} {m : LockedModule} :
    l.module? id = some m ↔ m ∈ l.modules ∧ m.id = id := by
  constructor
  · intro found
    exact ⟨List.mem_of_find?_eq_some found, by simpa using List.find?_some found⟩
  · rintro ⟨mem, rfl⟩
    obtain ⟨first, found⟩ : ∃ first, l.module? m.id = some first :=
      Option.isSome_iff_exists.mp (List.find?_isSome.mpr ⟨m, mem, by simp⟩)
    have same : first.id = m.id := by simpa using List.find?_some found
    rw [found, List.inj_on_of_nodup_map distinct (List.mem_of_find?_eq_some found) mem same]

/-- Where every id has one entry it has the same in any order. -/
theorem module?_perm {l other : Lockfile} (distinct : l.ids.Nodup)
    (perm : other.modules.Perm l.modules) (id : String) : other.module? id = l.module? id := by
  have distinct' : other.ids.Nodup := (perm.map _).nodup_iff.mpr distinct
  ext m
  rw [module?_eq_some_iff distinct, module?_eq_some_iff distinct', perm.mem_iff]

theorem resolve_perm {l other : Lockfile} (distinct : l.ids.Nodup)
    (perm : other.modules.Perm l.modules) (repository : Path) (heap : Heap) (h : Handle) :
    other.resolve repository heap h = l.resolve repository heap h := by
  have agree : ∀ w ∈ declaredModules (heap.transitive h) (heap.dependencies h), l.Agrees other w := by
    intro w _
    exact ⟨by rw [module?_perm distinct perm], fun _ id _ => module?_perm distinct perm id⟩
  rw [resolve, resolve, declaredTrees_congr agree]

/-- An id that is locked twice, by the places of its entries. -/
theorem not_nodup_ids_iff {l : Lockfile} : ¬ l.ids.Nodup ↔ ∃ (i j : Nat) (m m' : LockedModule), i < j ∧
    l.modules[i]? = some m ∧ l.modules[j]? = some m' ∧ m.id = m'.id := by
  rw [ids, List.Nodup, List.pairwise_map, List.pairwise_iff_getElem]
  constructor
  · intro repeated
    push Not at repeated
    obtain ⟨i, j, hi, hj, lt, same⟩ := repeated
    exact ⟨i, j, _, _, lt, List.getElem?_eq_getElem hi, List.getElem?_eq_getElem hj, same⟩
  · rintro ⟨i, j, m, m', lt, first, second, same⟩ distinct
    obtain ⟨hi, rfl⟩ := List.getElem?_eq_some_iff.mp first
    obtain ⟨hj, rfl⟩ := List.getElem?_eq_some_iff.mp second
    exact distinct i j hi hj lt same

/-- Reading a lock document fails for an id that is locked twice exactly if there is one, and
names the first in the document that repeats an earlier one. Of a document that is read the order
of the modules makes no difference to anything that is resolved. -/
theorem load_in_any_order (d : Disk) (path : Path) :
    (∀ at_ id, load d path = .error (.duplicate at_ id) ↔
      at_ = path ∧ ∃ l, Decodes d path l ∧ FirstRepeated l.ids id) ∧
    (∀ l, Decodes d path l → ((∃ id, load d path = .error (.duplicate path id)) ↔
      ∃ (i j : Nat) (m m' : LockedModule), i < j ∧
        l.modules[i]? = some m ∧ l.modules[j]? = some m' ∧ m.id = m'.id)) ∧
    ∀ l, load d path = .ok l → ∀ other : Lockfile, other.modules.Perm l.modules →
      ∀ repository heap h, other.resolve repository heap h = l.resolve repository heap h ∧
        View.resolve (other.backend repository) heap h = View.resolve (l.backend repository) heap h := by
  refine ⟨fun at_ id => load_eq_duplicate_iff, fun l decodes => ?_, fun l ok other perm => ?_⟩
  · rw [← not_nodup_ids_iff, ← exists_firstRepeated_iff]
    simp only [load_eq_duplicate_iff, true_and]
    constructor
    · rintro ⟨id, l', decodes', first⟩
      exact ⟨id, decodes.unique decodes' ▸ first⟩
    · rintro ⟨id, first⟩
      exact ⟨id, l, decodes, first⟩
  · intro repository heap h
    have distinct : l.ids.Nodup := by
      rcases load_eq_ok_iff.mp ok with ⟨-, rfl⟩ | ⟨-, distinct⟩
      · exact List.nodup_nil
      · exact distinct
    have same := resolve_perm distinct perm repository heap h
    exact ⟨same, by rw [View.resolve_eq, View.resolve_eq, backend, backend, same]⟩

/-! Two documents, of which only the first can be read. -/

def soundText : String := "module=[\x7bid=\"g:a:1\",dependencies=[\"g:b:1\"]\x7d,\x7bid=\"g:b:1\"\x7d]"

def soundLock : Lockfile := ⟨[⟨"g:a:1", ["g:b:1"], []⟩, ⟨"g:b:1", [], []⟩]⟩

def twiceText : String := "module=[\x7bid=\"a\"\x7d,\x7bid=\"b\"\x7d,\x7bid=\"b\"\x7d,\x7bid=\"a\"\x7d]"

def twiceLock : Lockfile := ⟨[⟨"a", [], []⟩, ⟨"b", [], []⟩, ⟨"b", [], []⟩, ⟨"a", [], []⟩]⟩

def lockDocuments : Disk where
  top := [("sound", .file soundText.toUTF8), ("twice", .file twiceText.toUTF8)]

theorem parse_sound : parse soundText = .ok soundLock := by cbv

theorem decodes_sound : Decodes lockDocuments ⟨"/sound"⟩ soundLock := by
  have located : lockDocuments.locate ⟨"/sound"⟩ = .ok ⟨["sound"], 0⟩ := by cbv
  exact decodes_of_file located rfl parse_sound

theorem decodes_twice : Decodes lockDocuments ⟨"/twice"⟩ twiceLock := by
  have located : lockDocuments.locate ⟨"/twice"⟩ = .ok ⟨["twice"], 0⟩ := by cbv
  have parsed : parse twiceText = .ok twiceLock := by cbv
  exact decodes_of_file located rfl parsed

/-- Two ids repeat an earlier one, and `b` does so first. The other document is resolved with its
modules the other way round. -/
theorem load_lock_documents :
    let a : Coordinate := ⟨"g", "a", "1", "jar"⟩
    let b : Coordinate := ⟨"g", "b", "1", "jar"⟩
    let heap : Heap := ⟨[⟨"c", true, [.module a none]⟩]⟩
    let swapped : Lockfile := ⟨soundLock.modules.reverse⟩
    load lockDocuments ⟨"/twice"⟩ = .error (.duplicate ⟨"/twice"⟩ "b") ∧
    (∃ (i j : Nat) (m m' : LockedModule), i < j ∧ twiceLock.modules[i]? = some m ∧
      twiceLock.modules[j]? = some m' ∧ m.id = m'.id) ∧
    load lockDocuments ⟨"/sound"⟩ = .ok soundLock ∧
    swapped.resolve ⟨"r"⟩ heap 0 = .ok ⟨[.node a.moduleId "c" (artifactsOf ⟨"r"⟩ a ⟨"g:a:1", ["g:b:1"], []⟩)
      [.node b.moduleId "c" (artifactsOf ⟨"r"⟩ b ⟨"g:b:1", [], []⟩) []]]⟩ := by
  intro a b heap swapped
  obtain ⟨named, twice, -⟩ := load_in_any_order lockDocuments ⟨"/twice"⟩
  obtain ⟨-, -, ordered⟩ := load_in_any_order lockDocuments ⟨"/sound"⟩
  have first : load lockDocuments ⟨"/twice"⟩ = .error (.duplicate ⟨"/twice"⟩ "b") :=
    (named _ _).mpr ⟨rfl, twiceLock, decodes_twice, ["a", "b"], ["a"], rfl, by decide, by decide⟩
  have accepted : load lockDocuments ⟨"/sound"⟩ = .ok soundLock :=
    load_eq_ok_iff.mpr (.inr ⟨decodes_sound, by decide⟩)
  have runs : Runs soundLock ⟨"r"⟩ "c" [] [.ok ⟨a, true⟩] _ :=
    .node (by decide) rfl (.node (by decide) rfl .nil .nil) .nil
  have resolved := (runs_declaredTrees soundLock ⟨"r"⟩ "c" true [.module a none]).unique runs
  refine ⟨first, (twice _ decodes_twice).mp ⟨"b", first⟩, accepted, ?_⟩
  rw [(ordered _ accepted swapped (List.reverse_perm _) ⟨"r"⟩ heap 0).1]
  exact map_eq_ok_iff.mpr ⟨_, resolved, rfl⟩

end Buildpath.Lockfile
