import Buildpath.Proofs.Project.Faults

/-! How deep the loading of a configuration nests. Texts read from the disk lead from one manifest
to the next, along links and back up, but a pair is compared with those on the way by the place of
its directory, and it is put there only after its manifest was found to declare it. So the pairs on a
way are distinct and declared, and a call stands below no more others than there are such pairs.
The loader with a limit gives up below that many calls, and wherever it finds itself behind another
way. -/
namespace Buildpath.Project

def loadEachBy (d : Disk) (call : Key → State → Option (Except ResolveError (Loaded × State)))
    (key : Key) : List Manifest.Declaration → State →
      Option (Except ResolveError (List Dependency × State))
  | [], st => some (.ok ([], st))
  | declaration :: rest, st =>
    let more (dependency : Dependency) (st : State) :=
      (loadEachBy d call key rest st).map (·.map fun r => (dependency :: r.1, r.2))
    match demand d key declaration with
    | .error e => some (.error e)
    | .ok (.files collection) => more (.files collection) st
    | .ok (.module coordinate override) => more (.module coordinate override) st
    | .ok (.load target override) =>
      match call target st with
      | none => none
      | some (.error e) => some (.error e)
      | some (.ok (loaded, st)) => more (loaded.dependency override) st

/-- Loads a pair with at most `depth` calls inside each other. None if they are not enough, or if
some call stands behind a way that is not clear. -/
def loadPairWithin (d : Disk) : Nat → List Step → Key → State →
    Option (Except ResolveError (Loaded × State))
  | 0, _, _, _ => none
  | depth + 1, way, key, st =>
    if Clear (declared d) (way.map (·.key)) then
      match st.loaded.lookup key with
      | some loaded => some (.ok (loaded, st))
      | none =>
        match enterPair d way key with
        | .error e => some (.error e)
        | .ok (m, s) =>
          (loadEachBy d (loadPairWithin d depth (⟨key, label m key⟩ :: way)) key s.dependencies st).map
            (·.map fun r => r.2.finish key m s r.1)
    else none

def loadWithin (d : Disk) (depth : Nat) (root : Path) (name : String) (heap : Heap) :
    Option (Except ResolveError (Handle × Heap)) :=
  match d.canonicalize root with
  | .error _ => some (.error (.projectNotFound root.text root))
  | .ok l =>
    (loadPairWithin d depth [] (l, name) { heap }).map (·.map fun r => (r.1.configuration, r.2.heap))

variable {d : Disk} {key : Key} {way : List Step}

theorem isDirectoryAt_of_manifestAt {root : Location} {m : Manifest} (read : manifestAt d root = .ok m) :
    d.isDirectoryAt root = true := by
  unfold manifestAt at read
  split at read
  · cases read
  · rename_i found
    exact Disk.isDirectoryAt_of_child found

/-- A pair is declared by the manifest in a directory. -/
theorem mem_declared_iff : key ∈ declared d ↔ d.isDirectoryAt key.1 = true ∧
    ∃ m s, manifestAt d key.1 = .ok m ∧ m.configuration key.2 = .ok s := by
  constructor
  · intro mem
    obtain ⟨root, -, listed⟩ := List.mem_flatMap.mp mem
    split at listed
    · rename_i m read
      obtain ⟨c, named, rfl⟩ := List.mem_map.mp listed
      obtain ⟨s, found⟩ := Manifest.exists_configuration named
      exact ⟨isDirectoryAt_of_manifestAt read, m, s, read, found⟩
    · cases listed
  · rintro ⟨-, m, s, read, found⟩
    exact mem_declared read found

theorem clear_entered {m : Manifest} {s : Manifest.Section}
    (clear : Clear (declared d) (way.map (·.key))) (entered : enterPair d way key = .ok (m, s)) :
    Clear (declared d) ((⟨key, label m key⟩ :: way : List Step).map (·.key)) := by
  obtain ⟨read, new, found⟩ := enterPair_eq_ok_iff.mp entered
  exact clear.cons new (mem_declared read found)

theorem length_le_of_clear (clear : Clear (declared d) (way.map (·.key))) :
    way.length ≤ (declared d).dedup.length := by
  simpa using clear.length_le

/-- What the loader comes to stands behind a clear way. -/
theorem Led.clear {start : Key} (led : Led d start way key) :
    Clear (Project.declared d) (way.map (·.key)) := by
  induction led with
  | requested => exact .nil
  | declared _ entered _ _ ih => exact clear_entered ih entered

theorem loadEachBy_eq {call : Key → State → Option (Except ResolveError (Loaded × State))}
    (called : ∀ target st, call target st = some (loadPair d way target st))
    (declarations : List Manifest.Declaration) (st : State) :
    loadEachBy d call key declarations st = some (loadEach d way key declarations st) := by
  induction declarations generalizing st with
  | nil => rw [loadEachBy, loadEach_nil]
  | cons declaration rest ih =>
    rw [loadEachBy, loadEach_cons]
    cases demand d key declaration with
    | error e => rfl
    | ok ask =>
      cases ask with
      | files collection => simp only [ih, Option.map_some]
      | module coordinate override => simp only [ih, Option.map_some]
      | load target override =>
        simp only [called, ih, Option.map_some]
        cases loadPair d way target st <;> rfl

/-- As many calls inside each other are enough as there are declared pairs not on the way, and one. -/
theorem loadPairWithin_eq {depth : Nat} (clear : Clear (declared d) (way.map (·.key)))
    (enough : (declared d).dedup.length < depth + way.length) (key : Key) (st : State) :
    loadPairWithin d depth way key st = some (loadPair d way key st) := by
  induction depth generalizing way key st with
  | zero =>
    have bound := length_le_of_clear clear
    omega
  | succ depth ih =>
    rw [loadPairWithin, if_pos clear, loadPair_eq]
    cases st.loaded.lookup key with
    | some loaded => rfl
    | none =>
      cases entered : enterPair d way key with
      | error e => rfl
      | ok found =>
        obtain ⟨m, s⟩ := found
        have further : (declared d).dedup.length < depth + (⟨key, label m key⟩ :: way).length := by
          rw [List.length_cons]
          omega
        have inner := ih (clear_entered clear entered) further
        dsimp only
        rw [loadEachBy_eq inner, Option.map_some]
        cases loadEach d (⟨key, label m key⟩ :: way) key s.dependencies st <;> rfl

/-- Loading ends, whatever the manifests say. The pairs on a way are distinct, at every depth, and
each is one that the manifest in a directory declares. There are no more calls inside each other
than there are such pairs, and one. -/
theorem load_nesting_le (d : Disk) (root : Path) (name : String) (heap : Heap) :
    let pairs := (declared d).dedup.length
    (∀ key, key ∈ declared d ↔ d.isDirectoryAt key.1 = true ∧
      ∃ m s, manifestAt d key.1 = .ok m ∧ m.configuration key.2 = .ok s) ∧
    loadWithin d (pairs + 1) root name heap = some (load d root name heap) ∧
    ∀ l way key, d.canonicalize root = .ok l → Led d (l, name) way key →
      Clear (declared d) (way.map (·.key)) ∧ way.length ≤ pairs := by
  refine ⟨fun key => mem_declared_iff, ?_, fun l way key _ led => ?_⟩
  · rw [loadWithin, load]
    cases d.canonicalize root with
    | error fault => rfl
    | ok l =>
      dsimp only
      rw [loadPairWithin_eq .nil (by simp), Option.map_some]
  · exact ⟨led.clear, length_le_of_clear led.clear⟩

/-- The project `app` again, where what it depends on is a link to itself. -/
def linkedProject : Disk where
  top := [("app", .directory [("ferrule.toml", .file appText.toUTF8)]), ("core", .link "app")]

theorem outline_linked : linkedProject.outline =
    ⟨[("app", .directory [("ferrule.toml", .file .empty)]), ("core", .link "app")], []⟩ := rfl

/-- One pair is declared, and it takes two calls inside each other to see that it depends on itself. -/
theorem load_nesting_linked :
    let cycle : ResolveError := .cycle ⟨["app:c", "app:c"]⟩
    declared linkedProject = [(["app"], "c")] ∧
      loadWithin linkedProject 1 ⟨"/app"⟩ "c" {} = none ∧
      loadWithin linkedProject 2 ⟨"/app"⟩ "c" {} = some (.error cycle) ∧
      load linkedProject ⟨"/app"⟩ "c" {} = .error cycle ∧
      ∃ way, way.map (·.key) = [(["app"], "c")] ∧
        Led linkedProject (["app"], "c") way (["app"], "c") ∧
        Clear [(["app"], "c")] (way.map (·.key)) ∧ way.length ≤ 1 := by
  intro cycle
  have located : linkedProject.canonicalize ⟨"/app"⟩ = .ok ["app"] := by
    rw [← Disk.canonicalize_outline, outline_linked]
    cbv
  have read : manifestAt linkedProject ["app"] = .ok appManifest := by
    have child : linkedProject.child ⟨["app"], 0⟩ manifestName = .ok ⟨["ferrule.toml", "app"], 0⟩ := rfl
    exact manifestAt_eq_ok child (by decide) (by decide) (Disk.readAt_text rfl) ofText_app
  have back : demand linkedProject (["app"], "c") { project := some "../core" } =
      .ok (.load (["app"], "c") none) := by
    have found : linkedProject.canonicalize ⟨"/app/../core"⟩ = .ok ["app"] := by
      rw [← Disk.canonicalize_outline, outline_linked]
      cbv
    exact demand_project (rootOf_eq_ok (by decide) (by decide) (by decide) found)
  have pairs : declared linkedProject = [(["app"], "c")] := by
    have directories : linkedProject.directories = [[], ["app"]] := rfl
    have top : manifestAt linkedProject [] = .error (.projectNotFound "" ⟨"/"⟩) := rfl
    rw [declared, directories]
    simp [top, read, appManifest]
  have first : enterPair linkedProject [] (["app"], "c") = .ok (appManifest, appSection) :=
    enterPair_eq_ok_iff.mpr ⟨read, by simp, rfl⟩
  have again : enterPair linkedProject [⟨(["app"], "c"), label appManifest (["app"], "c")⟩]
      (["app"], "c") = .error cycle := by
    rw [enterPair, read]
    rfl
  have few : loadWithin linkedProject 1 ⟨"/app"⟩ "c" {} = none := by
    simp [loadWithin, located, loadPairWithin, pairs, Clear.iff, first, loadEachBy, appSection, back]
  have enough : loadWithin linkedProject 2 ⟨"/app"⟩ "c" {} = some (.error cycle) := by
    simp [loadWithin, located, loadPairWithin, pairs, Clear.iff, first, loadEachBy, appSection, back,
      again, Except.map]
  obtain ⟨-, ends, bound⟩ := load_nesting_le linkedProject ⟨"/app"⟩ "c" {}
  have led : Led linkedProject (["app"], "c") _ (["app"], "c") :=
    .declared .requested first List.mem_cons_self back
  rw [pairs] at ends bound
  exact ⟨pairs, few, enough, Option.some.inj (ends.symm.trans enough), _, rfl, led,
    bound _ _ _ located led⟩

end Buildpath.Project
