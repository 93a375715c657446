import Buildpath.Project
import Buildpath.Proofs.Disk.Outline
import Mathlib

/-! Loading, step by step. What a declaration asks for and whether a pair may be entered
are read off the disk; the table of loaded pairs only decides whether a pair is entered at
all. A run of the loader is then made of a few kinds of steps, and what all of them keep
holds of every run. -/
namespace Buildpath.Project

/-- What a declaration asks for; a project is a pair to be loaded. -/
inductive Demand where
  | files (collection : Collection)
  | module (coordinate : Coordinate) (override : Option Bool)
  | load (target : Key) (override : Option Bool)

def demand (d : Disk) (key : Key) (declaration : Manifest.Declaration) :
    Except ResolveError Demand :=
  match declaration.source with
  | .error fault => .error (.manifest (.invalid none fault))
  | .ok (.files files) => .ok (.files (.list (files.map key.1.path.join)))
  | .ok (.glob pattern) => .ok (.files (.glob key.1.path pattern))
  | .ok (.module text) =>
    match Coordinate.parse text with
    | .error e => .error (.coordinate e)
    | .ok c => .ok (.module c declaration.transitive)
  | .ok (.project path configuration) =>
    match rootOf d key.1 path with
    | .error e => .error e
    | .ok target => .ok (.load (target, configuration.getD key.2) declaration.transitive)

def label (m : Manifest) (key : Key) : String := m.package.name ++ ":" ++ key.2

/-- The manifest and the section of a pair, if it may be entered behind `way`. -/
def enterPair (d : Disk) (way : List Step) (key : Key) :
    Except ResolveError (Manifest × Manifest.Section) :=
  match manifestAt d key.1 with
  | .error e => .error e
  | .ok m =>
    if way.any (·.key = key) then
      .error (.cycle ⟨(way.reverse.dropWhile (·.key ≠ key)).map (·.label) ++ [label m key]⟩)
    else match m.configuration key.2 with
      | .error e => .error (.manifest e)
      | .ok s => .ok (m, s)

def Loaded.dependency (loaded : Loaded) (override : Option Bool) : Dependency :=
  .project loaded.name loaded.configuration loaded.artifacts override

section
variable {d : Disk} {way : List Step} {key : Key} {st : State}

theorem mem_of_lookup {table : List (Key × Loaded)} {found : Loaded}
    (memo : table.lookup key = some found) : (key, found) ∈ table := by
  obtain ⟨before, rest, split, _⟩ := List.lookup_eq_some_iff.mp memo
  rw [split]
  exact List.mem_append_right _ List.mem_cons_self

theorem any_key_iff : way.any (·.key = key) ↔ key ∈ way.map (·.key) := by
  simp [List.any_eq_true]

theorem enterPair_eq_ok_iff {m : Manifest} {s : Manifest.Section} :
    enterPair d way key = .ok (m, s) ↔ manifestAt d key.1 = .ok m ∧
      key ∉ way.map (·.key) ∧ m.configuration key.2 = .ok s := by
  unfold enterPair
  constructor
  · intro entered
    split at entered
    · simp at entered
    · rename_i read
      split at entered
      · simp at entered
      · rename_i new
        split at entered
        · simp at entered
        · rename_i found
          obtain ⟨rfl, rfl⟩ := Prod.mk.inj (Except.ok.inj entered)
          exact ⟨read, mt any_key_iff.mpr new, found⟩
  · rintro ⟨read, new, found⟩
    simp only [read, if_neg (mt any_key_iff.mp new), found]

theorem loadPair_eq : loadPair d way key st =
    match st.loaded.lookup key with
    | some loaded => .ok (loaded, st)
    | none =>
      match enterPair d way key with
      | .error e => .error e
      | .ok (m, s) =>
        match loadEach d (⟨key, label m key⟩ :: way) key s.dependencies st with
        | .error e => .error e
        | .ok (dependencies, st) => .ok (st.finish key m s dependencies) := by
  rw [loadPair]
  cases st.loaded.lookup key with
  | some found => rfl
  | none =>
    dsimp only
    split
    · rename_i read
      simp only [enterPair, read]
    · rename_i read
      split
      · rename_i on
        simp only [enterPair, read, if_pos (any_key_iff.mpr on)]
        rfl
      · rename_i new
        have off := mt any_key_iff.mp new
        split
        · rename_i found
          simp only [enterPair, read, if_neg off, found]
        · rename_i found
          simp only [enterPair, read, if_neg off, found]
          rfl

@[simp] theorem loadEach_nil : loadEach d way key [] st = .ok ([], st) := by
  rw [loadEach]

theorem loadEach_cons {declaration : Manifest.Declaration} {rest : List Manifest.Declaration} :
    loadEach d way key (declaration :: rest) st =
    match demand d key declaration with
    | .error e => .error e
    | .ok (.files collection) =>
      (loadEach d way key rest st).map fun r => (.files collection :: r.1, r.2)
    | .ok (.module coordinate override) =>
      (loadEach d way key rest st).map fun r => (.module coordinate override :: r.1, r.2)
    | .ok (.load target override) =>
      match loadPair d way target st with
      | .error e => .error e
      | .ok (loaded, st) =>
        (loadEach d way key rest st).map fun r => (loaded.dependency override :: r.1, r.2) := by
  rw [loadEach]
  split
  · rename_i source
    simp only [demand, source]
  · rename_i source
    simp only [demand, source]
  · rename_i source
    simp only [demand, source]
  · rename_i source
    split
    · rename_i parsed
      simp only [demand, source, parsed]
    · rename_i parsed
      simp only [demand, source, parsed]
  · rename_i source
    split
    · rename_i found
      simp only [demand, source, found]
    · rename_i found
      simp only [demand, source, found]
      rfl

end

/-- What every step of the loader keeps, about the run of a pair and about the run of the
declarations of a pair. -/
structure Kept (d : Disk)
    (Pair : List Step → Key → State → Except ResolveError (Loaded × State) → Prop)
    (Each : List Step → Key → List Manifest.Declaration → State →
      Except ResolveError (List Dependency × State) → Prop) : Prop where
  hit : st.loaded.lookup key = some found → Pair way key st (.ok (found, st))
  refused : st.loaded.lookup key = none → enterPair d way key = .error e →
    Pair way key st (.error e)
  stopped : st.loaded.lookup key = none → enterPair d way key = .ok (m, s) →
    Each (⟨key, label m key⟩ :: way) key s.dependencies st (.error e) → Pair way key st (.error e)
  finished : st.loaded.lookup key = none → enterPair d way key = .ok (m, s) →
    Each (⟨key, label m key⟩ :: way) key s.dependencies st (.ok (deps, after)) →
    Pair way key st (.ok (after.finish key m s deps))
  nil : Each way key [] st (.ok ([], st))
  misread : demand d key declaration = .error e → Each way key (declaration :: rest) st (.error e)
  files : demand d key declaration = .ok (.files collection) → Each way key rest st result →
    Each way key (declaration :: rest) st (result.map fun r => (.files collection :: r.1, r.2))
  module : demand d key declaration = .ok (.module coordinate override) →
    Each way key rest st result → Each way key (declaration :: rest) st
      (result.map fun r => (.module coordinate override :: r.1, r.2))
  unloaded : demand d key declaration = .ok (.load target override) →
    Pair way target st (.error e) → Each way key (declaration :: rest) st (.error e)
  loaded : demand d key declaration = .ok (.load target override) →
    Pair way target st (.ok (found, middle)) → Each way key rest middle result →
    Each way key (declaration :: rest) st
      (result.map fun r => (found.dependency override :: r.1, r.2))

section
variable {d : Disk} {Pair : List Step → Key → State → Except ResolveError (Loaded × State) → Prop}
  {Each : List Step → Key → List Manifest.Declaration → State →
    Except ResolveError (List Dependency × State) → Prop}

mutual
theorem Kept.pair (kept : Kept d Pair Each) (way : List Step) (key : Key) (st : State) :
    Pair way key st (loadPair d way key st) := by
  rw [loadPair_eq]
  cases memo : st.loaded.lookup key with
  | some found => exact kept.hit memo
  | none =>
    cases entered : enterPair d way key with
    | error e => exact kept.refused memo entered
    | ok found =>
      obtain ⟨m, s⟩ := found
      obtain ⟨read, new, declared⟩ := enterPair_eq_ok_iff.mp entered
      have inner := kept.each (⟨key, label m key⟩ :: way) key s.dependencies st
      dsimp only
      cases run : loadEach d (⟨key, label m key⟩ :: way) key s.dependencies st with
      | error e =>
        rw [run] at inner
        exact kept.stopped memo entered inner
      | ok result =>
        rw [run] at inner
        exact kept.finished memo entered inner
termination_by (outside d (way.map (·.key)), 0)
decreasing_by exact Prod.Lex.left _ _ (outside_cons_lt (mem_declared read declared) new)

theorem Kept.each (kept : Kept d Pair Each) (way : List Step) (key : Key)
    (declarations : List Manifest.Declaration) (st : State) :
    Each way key declarations st (loadEach d way key declarations st) := by
  cases declarations with
  | nil =>
    rw [loadEach_nil]
    exact kept.nil
  | cons declaration rest =>
    rw [loadEach_cons]
    cases asked : demand d key declaration with
    | error e => exact kept.misread asked
    | ok ask =>
      cases ask with
      | files collection => exact kept.files asked (kept.each way key rest st)
      | module coordinate override => exact kept.module asked (kept.each way key rest st)
      | load target override =>
        have first := kept.pair way target st
        dsimp only
        cases run : loadPair d way target st with
        | error e =>
          rw [run] at first
          exact kept.unloaded asked first
        | ok result =>
          rw [run] at first
          exact kept.loaded asked first (kept.each way key rest result.2)
termination_by (outside d (way.map (·.key)), declarations.length)
decreasing_by all_goals exact Prod.Lex.right _ (by simp)
end

end

structure KeptOk (d : Disk) (Pair : List Step → Key → State → Loaded → State → Prop)
    (Each : List Step → Key → List Manifest.Declaration → State →
      List Dependency → State → Prop) : Prop where
  hit : st.loaded.lookup key = some found → Pair way key st found st
  finished : st.loaded.lookup key = none → enterPair d way key = .ok (m, s) →
    Each (⟨key, label m key⟩ :: way) key s.dependencies st deps after →
    Pair way key st (after.finish key m s deps).1 (after.finish key m s deps).2
  nil : Each way key [] st [] st
  files : demand d key declaration = .ok (.files collection) → Each way key rest st deps after →
    Each way key (declaration :: rest) st (.files collection :: deps) after
  module : demand d key declaration = .ok (.module coordinate override) →
    Each way key rest st deps after →
    Each way key (declaration :: rest) st (.module coordinate override :: deps) after
  loaded : demand d key declaration = .ok (.load target override) →
    Pair way target st found middle → Each way key rest middle deps after →
    Each way key (declaration :: rest) st (found.dependency override :: deps) after

section
variable {d : Disk} {Pair : List Step → Key → State → Loaded → State → Prop}
  {Each : List Step → Key → List Manifest.Declaration → State → List Dependency → State → Prop}

theorem KeptOk.kept (ok : KeptOk d Pair Each) :
    Kept d (fun way key st result => ∀ found after, result = .ok (found, after) →
        Pair way key st found after)
      (fun way key declarations st result => ∀ deps after, result = .ok (deps, after) →
        Each way key declarations st deps after) where
  hit memo := by
    intro _ _ eq
    cases eq
    exact ok.hit memo
  refused _ _ := nofun
  stopped _ _ _ := nofun
  finished memo entered each := by
    intro _ _ eq
    cases eq
    exact ok.finished memo entered (each _ _ rfl)
  nil := by
    intro _ _ _ _ _ eq
    cases eq
    exact ok.nil
  misread _ := nofun
  files {_ _ _ _ _ _ result} asked each := by
    intro _ _ eq
    cases result with
    | error e => cases eq
    | ok result =>
      cases eq
      exact ok.files asked (each _ _ rfl)
  module {_ _ _ _ _ _ _ result} asked each := by
    intro _ _ eq
    cases result with
    | error e => cases eq
    | ok result =>
      cases eq
      exact ok.module asked (each _ _ rfl)
  unloaded _ _ := nofun
  loaded {_ _ _ _ _ _ _ _ _ result} asked pair each := by
    intro _ _ eq
    cases result with
    | error e => cases eq
    | ok result =>
      cases eq
      exact ok.loaded asked (pair _ _ rfl) (each _ _ rfl)

theorem KeptOk.pair (ok : KeptOk d Pair Each) {way : List Step} {key : Key} {st after : State}
    {found : Loaded} (run : loadPair d way key st = .ok (found, after)) :
    Pair way key st found after := ok.kept.pair way key st found after run

end

theorem load_eq_ok {d : Disk} {root : Path} {name : String} {heap heap' : Heap} {h : Handle}
    (run : load d root name heap = .ok (h, heap')) : ∃ l found after,
      d.canonicalize root = .ok l ∧ loadPair d [] (l, name) { heap } = .ok (found, after) ∧
      found.configuration = h ∧ after.heap = heap' := by
  unfold load at run
  split at run
  · simp at run
  · rename_i l at_
    cases pair : loadPair d [] (l, name) { heap } with
    | error e => simp [pair, Except.map] at run
    | ok result =>
      simp only [pair, Except.map, Except.ok.injEq, Prod.mk.injEq] at run
      exact ⟨l, result.1, result.2, at_, pair, run.1, run.2⟩

/-- A manifest that can be found, read and understood. -/
theorem manifestAt_eq_ok {d : Disk} {root : Location} {place : Disk.Place} {path : Path}
    {text : String} {m : Manifest} (child : d.child ⟨root, 0⟩ manifestName = .ok place)
    (short : Location.size (manifestName :: root) ≤ Disk.maxPath)
    (joined : root.path.join manifestName = path) (read : d.readAt place.location = .ok text)
    (parsed : Manifest.ofText path text = .ok m) : manifestAt d root = .ok m := by
  have fits : ¬ Disk.maxPath < Location.size (manifestName :: root) := Nat.not_lt.mpr short
  simp only [manifestAt, child, if_neg fits, joined, read, parsed, Except.mapError]

/-- A path to another project that leads somewhere. -/
theorem rootOf_eq_ok {d : Disk} {parent target : Location} {relative : String} {path : Path}
    (inside : Path.isAbsolute relative = false)
    (few : ((Path.mk relative).components.takeWhile (· = .up)).length ≤ maxParents)
    (joined : parent.path.join relative = path) (found : d.canonicalize path = .ok target) :
    rootOf d parent relative = .ok target := by
  have fits : ¬ maxParents < ((Path.mk relative).components.takeWhile (· = .up)).length :=
    Nat.not_lt.mpr few
  simp only [rootOf, inside, if_neg fits, joined, found, Except.mapError, Bool.false_eq_true, if_false]

/-- A project dependency whose path leads somewhere. -/
theorem demand_project {d : Disk} {key : Key} {path : String} {configuration : Option String}
    {override : Option Bool} {target : Location} (found : rootOf d key.1 path = .ok target) :
    demand d key { project := some path, configuration, transitive := override } =
      .ok (.load (target, configuration.getD key.2) override) := by
  have source : Manifest.Declaration.source
      { project := some path, configuration, transitive := override } =
      .ok (.project path configuration) := rfl
  simp only [demand, source, found]

/-- A dependency on a module whose coordinate can be read. -/
theorem demand_module {d : Disk} {key : Key} {text : String} {override : Option Bool} {c : Coordinate}
    (read : Coordinate.parse text = .ok c) :
    demand d key { module := some text, transitive := override } = .ok (.module c override) := by
  have source : Manifest.Declaration.source { module := some text, transitive := override } =
      .ok (.module text) := rfl
  simp only [demand, source, read]

/-! The manifests of two projects, read and loaded. -/

def appText : String :=
  "package.name=\"app\"\nconfigurations.c.dependencies=[\x7bproject=\"../core\"\x7d,\x7bproject=\"./../core\"\x7d]"

def coreText : String := "package.name=\"core\"\nconfigurations.c.transitive=true"

/-- A project `app` that depends twice on a project `core`. -/
def twoProjects : Disk where
  top := [("app", .directory [("ferrule.toml", .file appText.toUTF8)]),
    ("core", .directory [("ferrule.toml", .file coreText.toUTF8)])]

/-- Whatever the manifests of two such projects say, they lie where these do. -/
theorem outline_projects (app core : ByteArray) :
    Disk.outline ⟨[("app", .directory [("ferrule.toml", .file app)]),
      ("core", .directory [("ferrule.toml", .file core)])], []⟩ = twoProjects.outline :=
  let emptied : Disk := ⟨[("app", .directory [("ferrule.toml", .file .empty)]),
    ("core", .directory [("ferrule.toml", .file .empty)])], []⟩
  have two : twoProjects.outline = emptied := rfl
  two.symm

def appSection : Manifest.Section :=
  { dependencies := [{ project := some "../core" }, { project := some "./../core" }] }

def appManifest : Manifest := ⟨{ name := "app" }, [("c", appSection)]⟩

def coreManifest : Manifest := ⟨{ name := "core" }, [("c", {})]⟩

theorem canonicalize_app : twoProjects.canonicalize ⟨"/app"⟩ = .ok ["app"] := by cbv

theorem ofText_app : Manifest.ofText ⟨"/app/ferrule.toml"⟩ appText = .ok appManifest := by cbv

theorem manifestAt_app : manifestAt twoProjects ["app"] = .ok appManifest := by
  have child : twoProjects.child ⟨["app"], 0⟩ manifestName = .ok ⟨["ferrule.toml", "app"], 0⟩ := rfl
  exact manifestAt_eq_ok child (by decide) (by decide) (Disk.readAt_text rfl) ofText_app

theorem manifestAt_core : manifestAt twoProjects ["core"] = .ok coreManifest := by
  have child : twoProjects.child ⟨["core"], 0⟩ manifestName = .ok ⟨["ferrule.toml", "core"], 0⟩ := rfl
  have parsed : Manifest.ofText ⟨"/core/ferrule.toml"⟩ coreText = .ok coreManifest := by cbv
  exact manifestAt_eq_ok child (by decide) (by decide) (Disk.readAt_text rfl) parsed

theorem canonicalize_core : twoProjects.canonicalize ⟨"/app/../core"⟩ = .ok ["core"] := by cbv

theorem rootOf_core : rootOf twoProjects ["app"] "../core" = .ok ["core"] :=
  rootOf_eq_ok (by decide) (by decide) (by decide) canonicalize_core

theorem rootOf_core_again : rootOf twoProjects ["app"] "./../core" = .ok ["core"] := by
  have found : twoProjects.canonicalize ⟨"/app/./../core"⟩ = .ok ["core"] := by cbv
  exact rootOf_eq_ok (by decide) (by decide) (by decide) found

/-- `core` has one configuration here, and both dependencies of `app` share it. -/
def appHeap : Heap :=
  let core := .project "core" 0 (published (Location.path ["core"]) coreManifest) none
  ⟨[{ name := "c" }, { name := "c", dependencies := [core, core] }]⟩

theorem load_app : load twoProjects ⟨"/app"⟩ "c" {} = .ok (1, appHeap) := by
  have app : enterPair twoProjects [] (["app"], "c") = .ok (appManifest, appSection) :=
    enterPair_eq_ok_iff.mpr ⟨manifestAt_app, by simp, rfl⟩
  have core : enterPair twoProjects [⟨(["app"], "c"), label appManifest (["app"], "c")⟩]
      (["core"], "c") = .ok (coreManifest, {}) :=
    enterPair_eq_ok_iff.mpr ⟨manifestAt_core, by simp, rfl⟩
  have first : demand twoProjects (["app"], "c") { project := some "../core" } =
      .ok (.load (["core"], "c") none) := demand_project rootOf_core
  have second : demand twoProjects (["app"], "c") { project := some "./../core" } =
      .ok (.load (["core"], "c") none) := demand_project rootOf_core_again
  simp [load, canonicalize_app, loadPair_eq, app, appSection, loadEach_cons, first, core, second, Except.map,
    State.finish, Heap.alloc, Heap.size, Loaded.dependency, appHeap, coreManifest, published]

end Buildpath.Project
