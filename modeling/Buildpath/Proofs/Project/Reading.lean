import Buildpath.Proofs.Configuration.Graph
import Buildpath.Proofs.Project.Loading

/-! Reading a configuration off the disk without a table of loaded pairs: the whole tree
below it, with every project read again wherever it is met. `readPair` does so with the
loader's check for cycles, `Reads` without any: a tree is finite, so a pair that can be read
is on no cycle, and it is read alike behind every way that it does not come back to. -/
namespace Buildpath

open Relation

mutual
/-- A configuration with those of its projects in the place of their handles. -/
inductive Expanded where
  | configuration (name : String) (transitive : Bool) (dependencies : List ExpandedDependency)

inductive ExpandedDependency where
  | files (collection : Collection)
  | project (name : String) (target : Expanded) (artifacts : Collection) (override : Option Bool)
  | module (coordinate : Coordinate) (override : Option Bool)
end

mutual
inductive Expands (heap : Heap) : Handle → Expanded → Prop
  | configuration : heap.get? h = some c → ExpandsEach heap c.dependencies expanded →
      Expands heap h (.configuration c.name c.transitive expanded)

inductive ExpandsEach (heap : Heap) : List Dependency → List ExpandedDependency → Prop
  | nil : ExpandsEach heap [] []
  | files : ExpandsEach heap rest others →
      ExpandsEach heap (.files collection :: rest) (.files collection :: others)
  | project : Expands heap target expanded → ExpandsEach heap rest others →
      ExpandsEach heap (.project name target artifacts override :: rest)
        (.project name expanded artifacts override :: others)
  | module : ExpandsEach heap rest others →
      ExpandsEach heap (.module coordinate override :: rest) (.module coordinate override :: others)
end

def Heap.Extends (heap larger : Heap) : Prop :=
  ∀ h c, heap.get? h = some c → larger.get? h = some c

theorem Heap.Extends.refl (heap : Heap) : heap.Extends heap := fun _ _ found => found

theorem Heap.Extends.trans {first second third : Heap} (left : first.Extends second)
    (right : second.Extends third) : first.Extends third :=
  fun h c found => right h c (left h c found)

theorem Heap.extends_alloc (heap : Heap) (c : Configuration) : heap.Extends (heap.alloc c).1 := by
  intro h other found
  have lt : h < heap.size := (List.getElem?_eq_some_iff.mp found).1
  rw [get?_alloc_of_lt heap c lt, found]

mutual
theorem Expands.extend {heap larger : Heap} (extends_ : heap.Extends larger) {h : Handle}
    {expanded : Expanded} : Expands heap h expanded → Expands larger h expanded
  | .configuration found each => .configuration (extends_ _ _ found) (each.extend extends_)

theorem ExpandsEach.extend {heap larger : Heap} (extends_ : heap.Extends larger)
    {deps : List Dependency} {expanded : List ExpandedDependency} :
    ExpandsEach heap deps expanded → ExpandsEach larger deps expanded
  | .nil => .nil
  | .files rest => .files (rest.extend extends_)
  | .project target rest => .project (target.extend extends_) (rest.extend extends_)
  | .module rest => .module (rest.extend extends_)
end

namespace Project

structure Reading where
  name : String
  artifacts : Collection
  configuration : Expanded

def Reading.dependency (reading : Reading) (override : Option Bool) : ExpandedDependency :=
  .project reading.name reading.configuration reading.artifacts override

def Reading.of (key : Key) (m : Manifest) (s : Manifest.Section)
    (dependencies : List ExpandedDependency) : Reading :=
  ⟨m.package.name, .union (m.package.artifacts.map (.glob key.1.path)),
    .configuration key.2 s.transitive dependencies⟩

mutual
/-- Reads a pair and all below it. Nothing is remembered but the way. -/
def readPair (d : Disk) (way : List Step) (key : Key) : Except ResolveError Reading :=
  match _entered : enterPair d way key with
  | .error e => .error e
  | .ok (m, s) =>
    match readEach d (⟨key, label m key⟩ :: way) key s.dependencies with
    | .error e => .error e
    | .ok dependencies => .ok (.of key m s dependencies)
termination_by (outside d (way.map (·.key)), 0)
decreasing_by
  obtain ⟨read, new, found⟩ := enterPair_eq_ok_iff.mp _entered
  exact Prod.Lex.left _ _ (outside_cons_lt (mem_declared read found) new)

def readEach (d : Disk) (way : List Step) (key : Key) :
    List Manifest.Declaration → Except ResolveError (List ExpandedDependency)
  | [] => .ok []
  | declaration :: rest =>
    match demand d key declaration with
    | .error e => .error e
    | .ok (.files collection) => (readEach d way key rest).map (.files collection :: ·)
    | .ok (.module coordinate override) =>
      (readEach d way key rest).map (.module coordinate override :: ·)
    | .ok (.load target override) =>
      match readPair d way target with
      | .error e => .error e
      | .ok reading => (readEach d way key rest).map (reading.dependency override :: ·)
termination_by declarations => (outside d (way.map (·.key)), declarations.length)
decreasing_by all_goals exact Prod.Lex.right _ (by simp)
end

def read (d : Disk) (root : Path) (name : String) : Except ResolveError Expanded :=
  match d.canonicalize root with
  | .error _ => .error (.projectNotFound root.text root)
  | .ok l => (readPair d [] (l, name)).map (·.configuration)

def Declares (d : Disk) (key target : Key) : Prop :=
  ∃ m s declaration override, manifestAt d key.1 = .ok m ∧ m.configuration key.2 = .ok s ∧
    declaration ∈ s.dependencies ∧ demand d key declaration = .ok (.load target override)

mutual
/-- What a pair reads as if nobody looks out for cycles. -/
inductive Reads (d : Disk) : Key → Reading → Prop
  | pair : manifestAt d key.1 = .ok m → m.configuration key.2 = .ok s →
      ReadsEach d key s.dependencies dependencies → Reads d key (.of key m s dependencies)

inductive ReadsEach (d : Disk) : Key → List Manifest.Declaration → List ExpandedDependency → Prop
  | nil : ReadsEach d key [] []
  | files : demand d key declaration = .ok (.files collection) → ReadsEach d key rest others →
      ReadsEach d key (declaration :: rest) (.files collection :: others)
  | module : demand d key declaration = .ok (.module coordinate override) →
      ReadsEach d key rest others →
      ReadsEach d key (declaration :: rest) (.module coordinate override :: others)
  | project : demand d key declaration = .ok (.load target override) → Reads d target reading →
      ReadsEach d key rest others →
      ReadsEach d key (declaration :: rest) (reading.dependency override :: others)
end

variable {d : Disk}

mutual
/-- Below a pair that can be read every descent ends. -/
theorem Reads.acc {key : Key} {reading : Reading} :
    Reads d key reading → Acc (fun target key => Declares d key target) key
  | .pair read found each => by
    constructor
    rintro target ⟨m, s, declaration, override, read', found', mem, asked⟩
    obtain rfl := Except.ok.inj (read.symm.trans read')
    obtain rfl := Except.ok.inj (found.symm.trans found')
    exact each.acc mem asked

theorem ReadsEach.acc {key target : Key} {declarations : List Manifest.Declaration}
    {declaration : Manifest.Declaration} {override : Option Bool}
    {dependencies : List ExpandedDependency} :
    ReadsEach d key declarations dependencies → declaration ∈ declarations →
    demand d key declaration = .ok (.load target override) →
    Acc (fun target key => Declares d key target) target
  | .nil, mem, _ => by simp at mem
  | .files other rest, mem, asked => by
    rcases List.mem_cons.mp mem with rfl | mem
    · rw [other] at asked
      cases asked
    · exact rest.acc mem asked
  | .module other rest, mem, asked => by
    rcases List.mem_cons.mp mem with rfl | mem
    · rw [other] at asked
      cases asked
    · exact rest.acc mem asked
  | .project other reads rest, mem, asked => by
    have below := reads.acc
    rcases List.mem_cons.mp mem with rfl | mem
    · rw [other] at asked
      cases asked
      exact below
    · exact rest.acc mem asked
end

theorem readPair_eq {way : List Step} {key : Key} : readPair d way key =
    match enterPair d way key with
    | .error e => .error e
    | .ok (m, s) =>
      match readEach d (⟨key, label m key⟩ :: way) key s.dependencies with
      | .error e => .error e
      | .ok dependencies => .ok (.of key m s dependencies) := by
  rw [readPair]
  split <;> rename_i entered <;> simp only [entered]

mutual
/-- Behind a way that a pair never comes back to, it reads as if there were none. -/
theorem Reads.readPair_eq_ok {key : Key} {reading : Reading} : Reads d key reading →
    ∀ way : List Step, (∀ k, ReflTransGen (Declares d) key k → k ∉ way.map (·.key)) →
      readPair d way key = .ok reading
  | @Reads.pair _ key m s _ read found each, way, apart => by
    have acc := (Reads.pair read found each).acc
    have entered : enterPair d way key = .ok (m, s) :=
      enterPair_eq_ok_iff.mpr ⟨read, apart key .refl, found⟩
    have inner := each.readEach_eq_ok (⟨key, label m key⟩ :: way) fun declaration mem target
        override asked k path => by
      have step : Declares d key target := ⟨m, s, declaration, override, read, found, mem, asked⟩
      rw [List.map_cons, List.mem_cons, not_or]
      refine ⟨?_, apart k (.head step path)⟩
      -- Coming back to the pair itself would be a cycle below it.
      rintro rfl
      exact not_transGen_of_acc acc .refl (.head' step path)
    simp only [readPair_eq, entered, inner]

theorem ReadsEach.readEach_eq_ok {key : Key} {declarations : List Manifest.Declaration}
    {dependencies : List ExpandedDependency} : ReadsEach d key declarations dependencies →
    ∀ way : List Step, (∀ declaration ∈ declarations, ∀ target override,
        demand d key declaration = .ok (.load target override) →
        ∀ k, ReflTransGen (Declares d) target k → k ∉ way.map (·.key)) →
      readEach d way key declarations = .ok dependencies
  | .nil, way, _ => by rw [readEach]
  | .files asked rest, way, apart => by
    have others := rest.readEach_eq_ok way fun other mem => apart other (List.mem_cons_of_mem _ mem)
    rw [readEach]
    simp only [asked, others, Except.map]
  | .module asked rest, way, apart => by
    have others := rest.readEach_eq_ok way fun other mem => apart other (List.mem_cons_of_mem _ mem)
    rw [readEach]
    simp only [asked, others, Except.map]
  | .project asked reads rest, way, apart => by
    have first := reads.readPair_eq_ok way (apart _ List.mem_cons_self _ _ asked)
    have others := rest.readEach_eq_ok way fun other mem => apart other (List.mem_cons_of_mem _ mem)
    rw [readEach]
    simp only [asked, first, others, Except.map]
end

end Project
end Buildpath
