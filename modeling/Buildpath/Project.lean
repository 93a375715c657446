import Buildpath.Error

/-! Loading configurations from project manifests. A project dependency leads to
another directory with a manifest, whose configuration is loaded in turn. Each pair of
a directory and a configuration name is loaded once, so two ways to it end at one
handle, and it must not lead back to itself.

A pair is entered only if the manifest in its directory declares it, and only while it
is not being entered; a disk has finitely many such pairs, so loading ends. -/
namespace Buildpath.Project

def manifestName : String := "ferrule.toml"

/-- How many `..` a path to another project may start with. -/
def maxParents : Nat := 3

/-- The files a project publishes, by the globs of its package. -/
def published (root : Path) (m : Manifest) : Collection :=
  .union (m.package.artifacts.map (.glob root))

/-- All sources that the dependencies of a manifest name. -/
def sources (m : Manifest) : List Manifest.Source :=
  m.configurations.flatMap fun c => c.2.dependencies.filterMap (·.source.toOption)

def globs (m : Manifest) : List String :=
  m.package.artifacts ++ (sources m).filterMap fun
    | .glob pattern => some pattern
    | _ => none

/-- The paths to other projects. -/
def neighbours (m : Manifest) : List String :=
  (sources m).filterMap fun
    | .project path _ => some path
    | _ => none

/-- The manifest in a directory. -/
def manifestAt (d : Disk) (root : Location) : Except ResolveError Manifest :=
  let absent := ResolveError.projectNotFound (root.head?.getD "") root.path
  match d.child ⟨root, 0⟩ manifestName with
  | .error _ => .error absent
  | .ok place =>
    if Disk.maxPath < Location.size (manifestName :: root) then .error absent
    else
      let path := root.path.join manifestName
      match d.readAt place.location with
      | .error fault => .error (.manifest (.read path fault))
      | .ok text => (Manifest.ofText path text).mapError .manifest

/-- The directory that a path to another project leads to. -/
def rootOf (d : Disk) (parent : Location) (relative : String) : Except ResolveError Location :=
  let path := parent.path.join relative
  if Path.isAbsolute relative then .error (.projectEscapes relative ⟨relative⟩)
  else if maxParents < ((Path.mk relative).components.takeWhile (· = .up)).length then
    .error (.projectEscapes relative path)
  else (d.canonicalize path).mapError fun _ => .projectNotFound relative path

/-- A directory and the name of a configuration. -/
abbrev Key := Location × String

/-- All pairs that some manifest on the disk declares. -/
def declared (d : Disk) : List Key :=
  d.directories.flatMap fun root =>
    match manifestAt d root with
    | .ok m => m.configurations.map fun c => (root, c.1)
    | .error _ => []

theorem mem_declared {d : Disk} {root : Location} {name : String} {m : Manifest} {s : Manifest.Section}
    (read : manifestAt d root = .ok m) (found : m.configuration name = .ok s) :
    (root, name) ∈ declared d := by
  have directory : root ∈ d.directories := by
    unfold manifestAt at read
    split at read
    · simp at read
    · rename_i found
      exact Disk.mem_directories_of_child found
  refine List.mem_flatMap.mpr ⟨_, directory, ?_⟩
  simp only [read]
  unfold Manifest.configuration at found
  split at found
  · rename_i other hl
    obtain ⟨before, after, eq, _⟩ := List.lookup_eq_some_iff.mp hl
    exact List.mem_map.mpr ⟨(name, other), by rw [eq]; simp, rfl⟩
  · simp at found

/-- How many declared pairs are not on the way. -/
def outside (d : Disk) (way : List Key) : Nat :=
  ((declared d).filter (· ∉ way)).length

theorem outside_cons_lt {d : Disk} {key : Key} {way : List Key} (mem : key ∈ declared d)
    (new : key ∉ way) : outside d (key :: way) < outside d way := by
  unfold outside
  have split : (declared d).filter (· ∉ key :: way) =
      ((declared d).filter (· ∉ way)).filter (· ≠ key) := by
    rw [List.filter_filter]
    apply List.filter_congr
    intro x _
    simp
  rw [split]
  apply List.length_filter_lt_length_iff_exists.mpr
  exact ⟨key, by simp [mem, new], by simp⟩

/-- A loaded configuration with what a project dependency needs to know of its project. -/
structure Loaded where
  name : String
  artifacts : Collection
  configuration : Handle

structure State where
  heap : Heap
  loaded : List (Key × Loaded) := []

/-- A pair being entered, with its label. -/
structure Step where
  key : Key
  label : String

/-- Makes the configuration of a pair whose dependencies are loaded, and remembers it. -/
def State.finish (st : State) (key : Key) (m : Manifest) (s : Manifest.Section)
    (dependencies : List Dependency) : Loaded × State :=
  let (heap, h) := st.heap.alloc ⟨key.2, s.transitive, dependencies⟩
  let loaded := ⟨m.package.name, published key.1.path m, h⟩
  (loaded, ⟨heap, (key, loaded) :: st.loaded⟩)

mutual
/-- Loads one pair. `way` holds the pairs that lead to it, the innermost first. -/
def loadPair (d : Disk) (way : List Step) (key : Key) (st : State) :
    Except ResolveError (Loaded × State) :=
  match st.loaded.lookup key with
  | some loaded => .ok (loaded, st)
  | none =>
    match _read : manifestAt d key.1 with
    | .error e => .error e
    | .ok m =>
      let label := m.package.name ++ ":" ++ key.2
      if _new : key ∈ way.map (·.key) then
        .error (.cycle ⟨(way.reverse.dropWhile (·.key ≠ key)).map (·.label) ++ [label]⟩)
      else match _found : m.configuration key.2 with
        | .error e => .error (.manifest e)
        | .ok s =>
          match loadEach d (⟨key, label⟩ :: way) key s.dependencies st with
          | .error e => .error e
          | .ok (dependencies, st) => .ok (st.finish key m s dependencies)
termination_by (outside d (way.map (·.key)), 0)
decreasing_by exact Prod.Lex.left _ _ (outside_cons_lt (mem_declared _read _found) _new)

/-- Loads the dependencies declared by a pair, in order. -/
def loadEach (d : Disk) (way : List Step) (key : Key) (declarations : List Manifest.Declaration)
    (st : State) : Except ResolveError (List Dependency × State) :=
  match declarations with
  | [] => .ok ([], st)
  | declaration :: rest =>
    let root := key.1.path
    let more (dependency : Dependency) (st : State) :=
      (loadEach d way key rest st).map fun (others, st) => (dependency :: others, st)
    match declaration.source with
    | .error fault => .error (.manifest (.invalid none fault))
    | .ok (.files files) => more (.files (.list (files.map root.join))) st
    | .ok (.glob pattern) => more (.files (.glob root pattern)) st
    | .ok (.module text) =>
      match Coordinate.parse text with
      | .error e => .error (.coordinate e)
      | .ok c => more (.module c declaration.transitive) st
    | .ok (.project path configuration) =>
      match rootOf d key.1 path with
      | .error e => .error e
      | .ok target =>
        match loadPair d way (target, configuration.getD key.2) st with
        | .error e => .error e
        | .ok (loaded, st) =>
          more (.project loaded.name loaded.configuration loaded.artifacts declaration.transitive) st
termination_by (outside d (way.map (·.key)), declarations.length)
decreasing_by all_goals exact Prod.Lex.right _ (by simp)
end

/-- Loads configuration `name` of the project at `root` into the heap. -/
def load (d : Disk) (root : Path) (name : String) (heap : Heap) : Except ResolveError (Handle × Heap) :=
  match d.canonicalize root with
  | .error _ => .error (.projectNotFound root.text root)
  | .ok l => (loadPair d [] (l, name) { heap }).map fun (loaded, st) => (loaded.configuration, st.heap)

end Buildpath.Project
