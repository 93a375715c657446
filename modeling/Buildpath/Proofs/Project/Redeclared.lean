import Buildpath.Proofs.Disk.Outline
import Buildpath.Proofs.Project.Acyclic

/-! Declaring a configuration intransitive. The loader reads a flag only to write it into the
configuration it makes, so a disk that declares another one is loaded alike but for that
configuration. Below itself a pair cannot be loaded again: all that is loaded on the way is
loaded from manifests and sections that are the same on both disks. -/
namespace Buildpath

open Relation

namespace Manifest

def Section.intransitive (s : Section) : Section := { s with transitive := false }

def intransitive (m : Manifest) (name : String) : Manifest :=
  { m with configurations := m.configurations.map fun c =>
      (c.1, if c.1 = name then c.2.intransitive else c.2) }

theorem configuration_intransitive (m : Manifest) (name other : String) :
    (m.intransitive name).configuration other = (m.configuration other).map fun s =>
      if other = name then s.intransitive else s := by
  have found : (m.intransitive name).configurations.lookup other =
      (m.configurations.lookup other).map fun s => if other = name then s.intransitive else s := by
    unfold intransitive
    induction m.configurations with
    | nil => rfl
    | cons c rest ih =>
      rw [List.map_cons, List.lookup_cons, List.lookup_cons]
      cases same : other == c.1 with
      | false => exact ih
      | true => rw [eq_of_beq same]; rfl
  rw [configuration, found, configuration]
  cases m.configurations.lookup other <;> rfl

end Manifest

theorem Heap.setTransitive_alloc (heap : Heap) (c : Configuration) (transitive : Bool) :
    (heap.alloc c).1.setTransitive (heap.alloc c).2 transitive =
      (heap.alloc { c with transitive }).1 := by
  simp [setTransitive, modify, alloc, size, List.modify_eq_take_cons_drop]

namespace Project

/-- Of two disks the second differs in this only: the manifest of the project at `root`
declares its configuration `name` intransitive. -/
structure Redeclared (d d' : Disk) (root : Path) (name : String) : Prop where
  outline : d'.outline = d.outline
  manifest : ∀ l, d.canonicalize root = .ok l →
    manifestAt d' l = (manifestAt d l).map (·.intransitive name)
  others : ∀ l, d.canonicalize root ≠ .ok l → manifestAt d' l = manifestAt d l
  lock : Lockfile.load d' (root.join Lockfile.documentName) =
    Lockfile.load d (root.join Lockfile.documentName)

variable {d d' : Disk}

theorem demand_congr (same : d'.outline = d.outline) (key : Key) (declaration : Manifest.Declaration) :
    demand d' key declaration = demand d key declaration := by
  simp only [demand, rootOf, Disk.canonicalize_congr same]

/-- A manifest is the same if it is the same text. -/
theorem manifestAt_congr (same : d'.outline = d.outline) {l : Location}
    (text : ∀ place, d.child ⟨l, 0⟩ manifestName = .ok place →
      d'.readAt place.location = d.readAt place.location) : manifestAt d' l = manifestAt d l := by
  unfold manifestAt
  rw [Disk.child_congr same]
  cases found : d.child ⟨l, 0⟩ manifestName with
  | error => rfl
  | ok place => simp only [text place found]

variable {root : Path} {name : String} {l : Location} {way : List Step} {key : Key} {st : State}

/-- Of the sections that manifests have for a pair, one may have another flag. -/
theorem Redeclared.manifests (redeclared : Redeclared d d' root name)
    (located : d.canonicalize root = .ok l) (key : Key) :
    SameOutcome (fun m m' => m'.package = m.package ∧ m'.configuration key.2 =
        (m.configuration key.2).map fun s => if key = (l, name) then s.intransitive else s)
      (manifestAt d key.1) (manifestAt d' key.1) := by
  by_cases here : key.1 = l
  · have only : key = (l, name) ↔ key.2 = name := by simp [Prod.ext_iff, here]
    rw [redeclared.manifest key.1 (here ▸ located)]
    cases manifestAt d key.1 with
    | error => exact .error
    | ok m =>
      refine .ok ⟨rfl, ?_⟩
      simp only [m.configuration_intransitive, only]
  · have other : key ≠ (l, name) := fun same => here (congrArg Prod.fst same)
    have elsewhere : d.canonicalize root ≠ .ok key.1 := by
      rw [located]
      exact fun same => here (Except.ok.inj same).symm
    rw [redeclared.others key.1 elsewhere]
    cases manifestAt d key.1 with
    | error => exact .error
    | ok m =>
      refine .ok ⟨rfl, ?_⟩
      simp only [if_neg other]
      cases m.configuration key.2 <;> rfl

/-- A pair is entered alike, but for that flag. -/
theorem Redeclared.enters (redeclared : Redeclared d d' root name)
    (located : d.canonicalize root = .ok l) (way : List Step) (key : Key) :
    SameOutcome (fun a b => label b.1 key = label a.1 key ∧ b.1.package = a.1.package ∧
        b.2 = if key = (l, name) then a.2.intransitive else a.2)
      (enterPair d way key) (enterPair d' way key) := by
  have manifests := redeclared.manifests located key
  unfold enterPair
  generalize manifestAt d key.1 = read, manifestAt d' key.1 = again at manifests
  cases manifests with
  | error => exact .error
  | @ok m m' same =>
    obtain ⟨package, sections⟩ := same
    have labels : label m' key = label m key := by rw [label, package, label]
    simp only [labels, sections]
    by_cases on : way.any (·.key = key)
    · rw [if_pos on, if_pos on]
      exact .error
    · rw [if_neg on, if_neg on]
      cases m.configuration key.2 with
      | error => exact .error
      | ok s => exact .ok ⟨labels, package, rfl⟩

theorem Redeclared.enterPair_eq_error (redeclared : Redeclared d d' root name)
    (located : d.canonicalize root = .ok l) (entered : enterPair d way key = .error e) :
    enterPair d' way key = .error e := by
  have same := redeclared.enters located way key
  rw [entered] at same
  exact same.of_error

/-- Another pair than the one on the way has its section on both disks. -/
theorem Redeclared.enterPair_eq_ok (redeclared : Redeclared d d' root name)
    (located : d.canonicalize root = .ok l) (on : (l, name) ∈ way.map (·.key))
    (entered : enterPair d way key = .ok (m, s)) :
    ∃ m', enterPair d' way key = .ok (m', s) ∧ label m' key = label m key ∧
      m'.package = m.package := by
  have same := redeclared.enters located way key
  rw [entered] at same
  obtain ⟨⟨m', s'⟩, again, labels, package, flag⟩ := same.of_ok
  have other : key ≠ (l, name) := by
    rintro rfl
    exact (enterPair_eq_ok_iff.mp entered).2.1 on
  obtain rfl : s' = s := flag.trans (if_neg other)
  exact ⟨m', again, labels, package⟩

theorem State.finish_congr {m m' : Manifest} (package : m'.package = m.package) (st : State)
    (key : Key) (s : Manifest.Section) (deps : List Dependency) :
    st.finish key m' s deps = st.finish key m s deps := by
  rw [State.finish, published, package, State.finish, published]

/-- While the pair is on the way, all that is loaded is loaded alike. -/
theorem Redeclared.kept (redeclared : Redeclared d d' root name)
    (located : d.canonicalize root = .ok l) : Kept d
    (fun way key st result => (l, name) ∈ way.map (·.key) → loadPair d' way key st = result)
    (fun way key declarations st result => (l, name) ∈ way.map (·.key) →
      loadEach d' way key declarations st = result) where
  hit memo _ := by
    rw [loadPair_eq]
    simp only [memo]
  refused memo entered _ := by
    rw [loadPair_eq]
    simp only [memo, redeclared.enterPair_eq_error located entered]
  stopped memo entered each on := by
    obtain ⟨m', again, labels, _⟩ := redeclared.enterPair_eq_ok located on entered
    rw [loadPair_eq]
    simp only [memo, again, labels, each (List.mem_cons_of_mem _ on)]
  finished memo entered each on := by
    obtain ⟨m', again, labels, package⟩ := redeclared.enterPair_eq_ok located on entered
    rw [loadPair_eq]
    simp only [memo, again, labels, each (List.mem_cons_of_mem _ on), State.finish_congr package]
  nil _ := loadEach_nil
  misread asked _ := by
    rw [loadEach_cons, demand_congr redeclared.outline, asked]
  files asked each on := by
    rw [loadEach_cons, demand_congr redeclared.outline, asked]
    simp only [each on]
  module asked each on := by
    rw [loadEach_cons, demand_congr redeclared.outline, asked]
    simp only [each on]
  unloaded asked pair on := by
    rw [loadEach_cons, demand_congr redeclared.outline, asked]
    simp only [pair on]
  loaded asked pair each on := by
    rw [loadEach_cons, demand_congr redeclared.outline, asked]
    simp only [pair on, each on]

/-- The pair itself is made with another flag, when all below it is made. -/
theorem Redeclared.loads (redeclared : Redeclared d d' root name)
    (located : d.canonicalize root = .ok l) (heap : Heap) :
    loadPair d' [] (l, name) { heap } = (loadPair d [] (l, name) { heap }).map
      fun r => (r.1, { r.2 with heap := r.2.heap.setTransitive r.1.configuration false }) := by
  have same := redeclared.enters located [] (l, name)
  rw [loadPair_eq, loadPair_eq, List.lookup_nil]
  dsimp only
  generalize enterPair d [] (l, name) = entered, enterPair d' [] (l, name) = again at same
  cases same with
  | error => rfl
  | @ok a b same =>
    obtain ⟨m, s⟩ := a
    obtain ⟨m', s'⟩ := b
    obtain ⟨labels, package, flag⟩ := same
    obtain rfl : s' = s.intransitive := flag.trans (if_pos rfl)
    have below := (redeclared.kept located).each [⟨(l, name), label m (l, name)⟩] (l, name)
      s.dependencies { heap } List.mem_cons_self
    dsimp only at labels ⊢
    rw [labels, Manifest.Section.intransitive, below]
    cases loadEach d [⟨(l, name), label m (l, name)⟩] (l, name) s.dependencies { heap } with
    | error => rfl
    | ok result =>
      obtain ⟨deps, after⟩ := result
      simp only [Except.map, State.finish_congr package]
      simp only [State.finish, Heap.setTransitive_alloc]
      rfl

theorem Redeclared.load_eq (redeclared : Redeclared d d' root name) (heap : Heap) :
    load d' root name heap = (load d root name heap).map
      fun r => (r.1, r.2.setTransitive r.1 false) := by
  rw [load, Disk.canonicalize_congr redeclared.outline, load]
  cases located : d.canonicalize root with
  | error => rfl
  | ok l =>
    simp only [redeclared.loads located]
    cases loadPair d [] (l, name) { heap } <;> rfl

/-- A flag that is set after loading reaches none of what was loaded for it. -/
theorem load_setTransitive_below {heap loaded : Heap} {h k : Handle}
    (run : load d root name heap = .ok (h, loaded))
    (path : TransGen (loaded.Leads Dependency.target?) h k) (transitive : Bool) :
    k ≠ h ∧ (loaded.setTransitive h transitive).get? k = loaded.get? k := by
  have other : k ≠ h := by
    rintro rfl
    exact (load_acyclic run).1 _ .refl path
  rw [Heap.setTransitive, Heap.get?_modify, if_neg other.symm]
  exact ⟨other, rfl⟩

/-! The two projects again, with the configuration of `app` declared intransitive. -/

def quietText : String :=
  "package.name=\"app\"\n[configurations.c]\ntransitive=false\ndependencies=[\x7bproject=\"../core\"\x7d,\x7bproject=\"./../core\"\x7d]"

def quietProjects : Disk where
  top := [("app", .directory [("ferrule.toml", .file quietText.toUTF8)]),
    ("core", .directory [("ferrule.toml", .file coreText.toUTF8)])]

theorem ofText_quiet : Manifest.ofText ⟨"/app/ferrule.toml"⟩ quietText =
    .ok ⟨{ name := "app" }, [("c", appSection.intransitive)]⟩ := by cbv

theorem manifestAt_quiet : manifestAt quietProjects ["app"] = .ok (appManifest.intransitive "c") := by
  have child : quietProjects.child ⟨["app"], 0⟩ manifestName = .ok ⟨["ferrule.toml", "app"], 0⟩ := rfl
  exact manifestAt_eq_ok child (by decide) (by decide) (Disk.readAt_text rfl) ofText_quiet

theorem outline_quiet : quietProjects.outline = twoProjects.outline := outline_projects _ _

theorem redeclared_app : Redeclared twoProjects quietProjects ⟨"/app"⟩ "c" where
  outline := outline_quiet
  manifest l located := by
    obtain rfl := Except.ok.inj (canonicalize_app.symm.trans located)
    rw [manifestAt_quiet, manifestAt_app]
    rfl
  others l apart := by
    refine manifestAt_congr outline_quiet fun place found => ?_
    have directories : twoProjects.directories = [[], ["app"], ["core"]] := rfl
    have mem := Disk.mem_directories_of_child found
    simp only [directories, List.mem_cons, List.not_mem_nil, or_false] at mem
    rcases mem with rfl | rfl | rfl
    · cases found
    · exact absurd canonicalize_app apart
    · obtain rfl : (⟨["ferrule.toml", "core"], 0⟩ : Disk.Place) = place := Except.ok.inj found
      have quiet : quietProjects.readAt ["ferrule.toml", "core"] = .ok coreText := Disk.readAt_text rfl
      have two : twoProjects.readAt ["ferrule.toml", "core"] = .ok coreText := Disk.readAt_text rfl
      rw [quiet, two]
  lock := by
    have absent : twoProjects.exists? ⟨"/app/ferrule.lock"⟩ = false := by cbv
    have joined : Path.join ⟨"/app"⟩ Lockfile.documentName = ⟨"/app/ferrule.lock"⟩ := by decide
    rw [joined, Lockfile.load, Lockfile.load, Disk.exists?_congr outline_quiet, absent]
    simp only [Bool.false_eq_true, if_false]

end Project
end Buildpath
