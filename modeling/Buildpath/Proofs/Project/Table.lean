import Buildpath.Proofs.Project.Reading

/-! Loading with the table of loaded pairs comes to what plain reading comes to. A hit in
the table skips all that is checked where a pair is entered. Plain reading would find no
fault there either: what lies below a loaded pair is loaded too, and no loaded pair is on
the way. A run that fails leaves no table behind. -/
namespace Buildpath.Project

open Relation

def State.keys (st : State) : List Key := st.loaded.map (·.1)

structure Represents (d : Disk) (heap : Heap) (key : Key) (found : Loaded) (reading : Reading) :
    Prop where
  reads : Reads d key reading
  name : found.name = reading.name
  artifacts : found.artifacts = reading.artifacts
  expands : Expands heap found.configuration reading.configuration

/-- What holds of the table of loaded pairs wherever the loader stands. -/
structure Sound (d : Disk) (way : List Step) (st : State) : Prop where
  represents : ∀ entry ∈ st.loaded, ∃ reading, Represents d st.heap entry.1 entry.2 reading
  closed : ∀ key ∈ st.keys, ∀ target, Declares d key target → target ∈ st.keys
  apart : ∀ key ∈ st.keys, key ∉ way.map (·.key)

structure Grows (st after : State) : Prop where
  heap : st.heap.Extends after.heap
  keys : st.keys ⊆ after.keys

structure LoadsAs (d : Disk) (way : List Step) (key : Key) (st : State) (found : Loaded)
    (after : State) (reading : Reading) : Prop where
  plain : readPair d way key = .ok reading
  represents : Represents d after.heap key found reading
  sound : Sound d way after
  grows : Grows st after
  mem : key ∈ after.keys

structure LoadsEachAs (d : Disk) (way : List Step) (key : Key)
    (declarations : List Manifest.Declaration) (st : State) (deps : List Dependency)
    (after : State) (others : List ExpandedDependency) : Prop where
  plain : readEach d way key declarations = .ok others
  reads : ReadsEach d key declarations others
  expands : ExpandsEach after.heap deps others
  sound : Sound d way after
  grows : Grows st after
  targets : ∀ declaration ∈ declarations, ∀ target override,
    demand d key declaration = .ok (.load target override) → target ∈ after.keys

theorem Grows.refl (st : State) : Grows st st := ⟨.refl _, List.Subset.refl _⟩

theorem Grows.trans {first second third : State} (left : Grows first second)
    (right : Grows second third) : Grows first third :=
  ⟨left.heap.trans right.heap, List.Subset.trans left.keys right.keys⟩

theorem Represents.extend {d : Disk} {heap larger : Heap} {key : Key} {found : Loaded}
    {reading : Reading} (represents : Represents d heap key found reading)
    (extends_ : heap.Extends larger) : Represents d larger key found reading :=
  ⟨represents.reads, represents.name, represents.artifacts, represents.expands.extend extends_⟩

/-- A dependency on what was loaded expands to one on what was read. -/
theorem Represents.dependency {d : Disk} {heap : Heap} {key : Key} {found : Loaded}
    {reading : Reading} (represents : Represents d heap key found reading) {override : Option Bool}
    {deps : List Dependency} {others : List ExpandedDependency}
    (rest : ExpandsEach heap deps others) :
    ExpandsEach heap (found.dependency override :: deps) (reading.dependency override :: others) := by
  unfold Loaded.dependency Reading.dependency
  rw [represents.name, represents.artifacts]
  exact .project represents.expands rest

section
variable {d : Disk} {way : List Step} {key : Key} {st after : State}

theorem sound_initial (heap : Heap) : Sound d way { heap } where
  represents := by simp
  closed := by simp [State.keys]
  apart := by simp [State.keys]

/-- All that lies below a loaded pair is loaded. -/
theorem Sound.below (sound : Sound d way st) (mem : key ∈ st.keys) {target : Key}
    (path : ReflTransGen (Declares d) key target) : target ∈ st.keys := by
  induction path with
  | refl => exact mem
  | tail _ step ih => exact sound.closed _ ih _ step

/-- A hit in the table: plain reading goes through below it, whatever the way. -/
theorem Sound.hit {found : Loaded} (sound : Sound d way st)
    (memo : st.loaded.lookup key = some found) : ∃ reading, LoadsAs d way key st found st reading := by
  obtain ⟨reading, represents⟩ := sound.represents _ (mem_of_lookup memo)
  have mem : key ∈ st.keys := List.mem_map_of_mem (mem_of_lookup memo)
  have plain := represents.reads.readPair_eq_ok way fun k path => sound.apart k (sound.below mem path)
  exact ⟨reading, plain, represents, sound, .refl st, mem⟩

/-- A pair that is not loaded may be put on the way. -/
theorem Sound.enter (sound : Sound d way st) (memo : st.loaded.lookup key = none) (label : String) :
    Sound d (⟨key, label⟩ :: way) st where
  represents := sound.represents
  closed := sound.closed
  apart := by
    intro other mem
    rw [List.map_cons, List.mem_cons, not_or]
    refine ⟨?_, sound.apart other mem⟩
    rintro rfl
    obtain ⟨entry, old, same⟩ := List.mem_map.mp mem
    have fresh := List.lookup_eq_none_iff.mp memo entry old
    simp [same] at fresh

theorem State.grows_finish (st : State) (key : Key) (m : Manifest) (s : Manifest.Section)
    (deps : List Dependency) : Grows st (st.finish key m s deps).2 :=
  ⟨Heap.extends_alloc _ _, List.subset_cons_self _ _⟩

/-- The end of a pair that was entered: its dependencies are loaded, so the table stays
closed with it. -/
theorem LoadsEachAs.finish {m : Manifest} {s : Manifest.Section} {deps : List Dependency}
    {others : List ExpandedDependency} (entered : enterPair d way key = .ok (m, s))
    (each : LoadsEachAs d (⟨key, label m key⟩ :: way) key s.dependencies st deps after others) :
    LoadsAs d way key st (after.finish key m s deps).1 (after.finish key m s deps).2
      (.of key m s others) := by
  obtain ⟨read, new, declared⟩ := enterPair_eq_ok_iff.mp entered
  have grows := after.grows_finish key m s deps
  have found : Represents d (after.finish key m s deps).2.heap key (after.finish key m s deps).1
      (.of key m s others) :=
    ⟨.pair read declared each.reads, rfl, rfl,
      .configuration (Heap.get?_alloc _ _) (each.expands.extend grows.heap)⟩
  refine ⟨?plain, found, ⟨?represents, ?closed, ?apart⟩, each.grows.trans grows,
    List.mem_cons_self⟩
  case plain =>
    rw [readPair_eq]
    simp only [entered, each.plain]
  case represents =>
    intro entry mem
    rcases List.mem_cons.mp mem with rfl | mem
    · exact ⟨_, found⟩
    · obtain ⟨reading, represents⟩ := each.sound.represents entry mem
      exact ⟨reading, represents.extend grows.heap⟩
  case closed =>
    intro other mem target declares
    rcases List.mem_cons.mp mem with rfl | mem
    · -- The pair declares what was loaded for it just now: its manifest has not changed.
      obtain ⟨m', s', declaration, override, read', declared', mem, asked⟩ := declares
      obtain rfl := Except.ok.inj (read.symm.trans read')
      obtain rfl := Except.ok.inj (declared.symm.trans declared')
      exact grows.keys (each.targets declaration mem target override asked)
    · exact grows.keys (each.sound.closed other mem target declares)
  case apart =>
    intro other mem
    rcases List.mem_cons.mp mem with rfl | mem
    · exact new
    · exact fun on => each.sound.apart other mem (List.mem_cons_of_mem _ on)

end

/-- The run of a pair beside plain reading: both fail alike, or both succeed. -/
inductive PairRun (d : Disk) (way : List Step) (key : Key) (st : State) :
    Except ResolveError (Loaded × State) → Prop
  | failed : readPair d way key = .error e → PairRun d way key st (.error e)
  | loaded : LoadsAs d way key st found after reading → PairRun d way key st (.ok (found, after))

inductive EachRun (d : Disk) (way : List Step) (key : Key)
    (declarations : List Manifest.Declaration) (st : State) :
    Except ResolveError (List Dependency × State) → Prop
  | failed : readEach d way key declarations = .error e →
      EachRun d way key declarations st (.error e)
  | loaded : LoadsEachAs d way key declarations st deps after others →
      EachRun d way key declarations st (.ok (deps, after))

section
variable {d : Disk} {way : List Step} {key : Key} {declaration : Manifest.Declaration}
  {rest : List Manifest.Declaration} {st : State}

/-- A declaration that loads nothing goes before a run of the others. -/
theorem EachRun.cons {result : Except ResolveError (List Dependency × State)} {dep : Dependency}
    {other : ExpandedDependency}
    (plain : readEach d way key (declaration :: rest) = (readEach d way key rest).map (other :: ·))
    (reads : ∀ {others}, ReadsEach d key rest others →
      ReadsEach d key (declaration :: rest) (other :: others))
    (expands : ∀ {heap deps others}, ExpandsEach heap deps others →
      ExpandsEach heap (dep :: deps) (other :: others))
    (unloading : ∀ target override, demand d key declaration ≠ .ok (.load target override))
    (each : EachRun d way key rest st result) :
    EachRun d way key (declaration :: rest) st (result.map fun r => (dep :: r.1, r.2)) := by
  cases each with
  | failed failed =>
    rw [failed] at plain
    exact .failed plain
  | loaded each =>
    rw [each.plain] at plain
    refine .loaded ⟨plain, reads each.reads, expands each.expands, each.sound, each.grows, ?_⟩
    intro declared mem target override asked
    rcases List.mem_cons.mp mem with rfl | mem
    · exact absurd asked (unloading target override)
    · exact each.targets declared mem target override asked

end

/-- Loading goes along with plain reading, step by step. -/
theorem kept_sound (d : Disk) : Kept d
    (fun way key st result => Sound d way st → PairRun d way key st result)
    (fun way key declarations st result => Sound d way st →
      EachRun d way key declarations st result) where
  hit memo sound := by
    obtain ⟨reading, found⟩ := sound.hit memo
    exact .loaded found
  refused _ refused _ := by
    refine .failed ?_
    rw [readPair_eq]
    simp only [refused]
  stopped memo entered each sound := by
    cases each (sound.enter memo _) with
    | failed plain =>
      refine .failed ?_
      rw [readPair_eq]
      simp only [entered, plain]
  finished memo entered each sound := by
    cases each (sound.enter memo _) with
    | loaded each => exact .loaded (each.finish entered)
  nil sound := .loaded ⟨by rw [readEach], .nil, .nil, sound, .refl _, by simp⟩
  misread misread _ := by
    refine .failed ?_
    rw [readEach]
    simp only [misread]
  files asked each sound := by
    refine (each sound).cons ?_ (.files asked) .files ?_
    · rw [readEach]
      simp only [asked]
    · simp [asked]
  module asked each sound := by
    refine (each sound).cons ?_ (.module asked) .module ?_
    · rw [readEach]
      simp only [asked]
    · simp [asked]
  unloaded asked pair sound := by
    cases pair sound with
    | failed plain =>
      refine .failed ?_
      rw [readEach]
      simp only [asked, plain]
  loaded asked pair each sound := by
    cases pair sound with
    | loaded first =>
      cases each first.sound with
      | failed plain =>
        refine .failed ?_
        rw [readEach]
        simp only [asked, first.plain, plain, Except.map]
      | loaded others =>
        refine .loaded ⟨?plain, .project asked first.represents.reads others.reads,
          (first.represents.extend others.grows.heap).dependency others.expands, others.sound,
          first.grows.trans others.grows, ?targets⟩
        case plain =>
          rw [readEach]
          simp only [asked, first.plain, others.plain, Except.map]
        case targets =>
          intro declared mem target override asked'
          rcases List.mem_cons.mp mem with rfl | mem
          · obtain ⟨rfl, _⟩ := Demand.load.inj (Except.ok.inj (asked.symm.trans asked'))
            exact others.grows.keys first.mem
          · exact others.targets declared mem target override asked'

/-- Loading a configuration comes to what reading it without a table comes to: the same
error, or a handle that stands for what was read. -/
theorem load_eq_read (d : Disk) (root : Path) (name : String) (heap : Heap) :
    match load d root name heap, read d root name with
    | .ok (h, heap'), .ok expanded => Expands heap' h expanded
    | .error e, .error e' => e = e'
    | _, _ => False := by
  unfold load read
  cases d.canonicalize root with
  | error => rfl
  | ok l =>
    dsimp only
    have outcome := (kept_sound d).pair [] (l, name) { heap } (sound_initial heap)
    generalize loadPair d [] (l, name) { heap } = result at outcome ⊢
    cases outcome with
    | failed plain => rw [plain]; rfl
    | loaded found => rw [found.plain]; exact found.represents.expands

/-! `app` again, which depends twice on a `core` that publishes files. -/

def publishingText : String :=
  "package=\x7bname=\"core\",artifacts=[\"out/*.jar\"]\x7d\nconfigurations.c.transitive=false"

def publishingProjects : Disk where
  top := [("app", .directory [("ferrule.toml", .file appText.toUTF8)]),
    ("core", .directory [("ferrule.toml", .file publishingText.toUTF8)])]

def publishingManifest : Manifest :=
  ⟨{ name := "core", artifacts := ["out/*.jar"] }, [("c", { transitive := false })]⟩

theorem canonicalize_publishing (p : Path) :
    publishingProjects.canonicalize p = twoProjects.canonicalize p :=
  Disk.canonicalize_congr (outline_projects _ _) p

theorem enterPair_publishing_app :
    enterPair publishingProjects [] (["app"], "c") = .ok (appManifest, appSection) := by
  have child : publishingProjects.child ⟨["app"], 0⟩ manifestName = .ok ⟨["ferrule.toml", "app"], 0⟩ := rfl
  have read : manifestAt publishingProjects ["app"] = .ok appManifest :=
    manifestAt_eq_ok child (by decide) (by decide) (Disk.readAt_text rfl) ofText_app
  exact enterPair_eq_ok_iff.mpr ⟨read, by simp, rfl⟩

theorem enterPair_publishing_core :
    enterPair publishingProjects [⟨(["app"], "c"), label appManifest (["app"], "c")⟩] (["core"], "c") =
      .ok (publishingManifest, { transitive := false }) := by
  have child : publishingProjects.child ⟨["core"], 0⟩ manifestName = .ok ⟨["ferrule.toml", "core"], 0⟩ := rfl
  have parsed : Manifest.ofText ⟨"/core/ferrule.toml"⟩ publishingText = .ok publishingManifest := by cbv
  have read : manifestAt publishingProjects ["core"] = .ok publishingManifest :=
    manifestAt_eq_ok child (by decide) (by decide) (Disk.readAt_text rfl) parsed
  exact enterPair_eq_ok_iff.mpr ⟨read, by simp, rfl⟩

theorem demand_publishing {relative : String} (found : rootOf twoProjects ["app"] relative = .ok ["core"]) :
    demand publishingProjects (["app"], "c") { project := some relative } =
      .ok (.load (["core"], "c") none) := by
  refine demand_project ?_
  simpa only [rootOf, canonicalize_publishing] using found

theorem read_publishing : read publishingProjects ⟨"/app"⟩ "c" =
    let core : ExpandedDependency :=
      .project "core" (.configuration "c" false []) (.union [.glob ⟨"/core"⟩ "out/*.jar"]) none
    .ok (.configuration "c" true [core, core]) := by
  have place := (canonicalize_publishing ⟨"/app"⟩).trans canonicalize_app
  have app := enterPair_publishing_app
  have core := enterPair_publishing_core
  have first := demand_publishing rootOf_core
  have second := demand_publishing rootOf_core_again
  have base : Location.path ["core"] = ⟨"/core"⟩ := by decide
  simp [read, place, readPair_eq, app, appSection, readEach, first, core, second, Except.map, Reading.of,
    Reading.dependency, publishingManifest, base]

/-- The table holds `core` when it is met again under another spelling, and it is read again without. -/
theorem load_eq_read_publishing :
    let core : ExpandedDependency :=
      .project "core" (.configuration "c" false []) (.union [.glob ⟨"/core"⟩ "out/*.jar"]) none
    let app : Expanded := .configuration "c" true [core, core]
    read publishingProjects ⟨"/app"⟩ "c" = .ok app ∧
      ∃ h heap, load publishingProjects ⟨"/app"⟩ "c" {} = .ok (h, heap) ∧ Expands heap h app := by
  intro core app
  have same := load_eq_read publishingProjects ⟨"/app"⟩ "c" {}
  rw [read_publishing] at same
  refine ⟨read_publishing, ?_⟩
  cases loaded : load publishingProjects ⟨"/app"⟩ "c" {} with
  | error =>
    rw [loaded] at same
    exact same.elim
  | ok result =>
    rw [loaded] at same
    exact ⟨result.1, result.2, rfl, same⟩

end Buildpath.Project
