import Buildpath.Collection
import Buildpath.Coordinate

/-! Configurations: named, ordered lists of dependencies with a flag. They live in a
heap and are known by handles, so that several names and several project dependencies
can share one of them and see each other's changes. Two configurations are the same
when their handles are equal, whatever they are called. -/
namespace Buildpath

abbrev Handle := Nat

inductive Dependency where
  | files (collection : Collection)
  | project (name : String) (target : Handle) (artifacts : Collection) (override : Option Bool)
  | module (coordinate : Coordinate) (override : Option Bool)

namespace Dependency

/-- Can its files be found without the module graph? -/
def selfResolving : Dependency → Bool
  | .module .. => false
  | _ => true

def displayName : Dependency → String
  | .files _ => "files"
  | .project name .. => "project " ++ name
  | .module coordinate _ => "module " ++ coordinate.id

end Dependency

structure Configuration where
  name : String
  transitive : Bool := true
  dependencies : List Dependency := []

/-- All configurations; the handle of one is its position. -/
structure Heap where
  configurations : List Configuration := []

namespace Heap

def size (heap : Heap) : Nat := heap.configurations.length

def get? (heap : Heap) (h : Handle) : Option Configuration := heap.configurations[h]?

def name (heap : Heap) (h : Handle) : String := ((heap.get? h).map (·.name)).getD ""

def transitive (heap : Heap) (h : Handle) : Bool := ((heap.get? h).map (·.transitive)).getD true

def dependencies (heap : Heap) (h : Handle) : List Dependency :=
  ((heap.get? h).map (·.dependencies)).getD []

/-- Makes a configuration; its handle is new. -/
def alloc (heap : Heap) (c : Configuration) : Heap × Handle :=
  (⟨heap.configurations ++ [c]⟩, heap.size)

def modify (heap : Heap) (h : Handle) (change : Configuration → Configuration) : Heap :=
  ⟨heap.configurations.modify h change⟩

/-- New dependencies go to the end. -/
def addDependency (heap : Heap) (h : Handle) (d : Dependency) : Heap :=
  heap.modify h fun c => { c with dependencies := c.dependencies ++ [d] }

def setTransitive (heap : Heap) (h : Handle) (transitive : Bool) : Heap :=
  heap.modify h fun c => { c with transitive }

@[simp] theorem size_modify (heap : Heap) (h : Handle) (change) :
    (heap.modify h change).size = heap.size := by simp [size, modify]

theorem get?_modify (heap : Heap) (h k : Handle) (change) :
    (heap.modify h change).get? k = if h = k then (heap.get? k).map change else heap.get? k := by
  by_cases hk : h = k <;> simp [get?, modify, hk]

theorem get?_alloc (heap : Heap) (c : Configuration) :
    (heap.alloc c).1.get? (heap.alloc c).2 = some c := by simp [alloc, get?, size]

theorem get?_alloc_of_lt (heap : Heap) (c : Configuration) {h : Handle} (lt : h < heap.size) :
    (heap.alloc c).1.get? h = heap.get? h := by
  simp only [alloc, get?]
  exact List.getElem?_append_left lt

theorem dependencies_of_size_le {heap : Heap} {h : Handle} (le : heap.size ≤ h) :
    heap.dependencies h = [] := by
  simp [dependencies, get?, List.getElem?_eq_none le]

/-- How many configurations are not among the given handles. -/
def outside (heap : Heap) (handles : List Handle) : Nat :=
  ((List.range heap.size).filter (· ∉ handles)).length

theorem outside_cons_le (heap : Heap) (h : Handle) (handles : List Handle) :
    heap.outside (h :: handles) ≤ heap.outside handles := by
  unfold outside
  apply List.Sublist.length_le
  have : (List.range heap.size).filter (· ∉ h :: handles) =
      ((List.range heap.size).filter (· ∉ handles)).filter (· ≠ h) := by
    rw [List.filter_filter]
    apply List.filter_congr
    intro x _
    simp
  rw [this]
  exact List.filter_sublist

theorem outside_cons_lt {heap : Heap} {h : Handle} {handles : List Handle}
    (lt : h < heap.size) (new : h ∉ handles) :
    heap.outside (h :: handles) < heap.outside handles := by
  unfold outside
  have eq : (List.range heap.size).filter (· ∉ h :: handles) =
      ((List.range heap.size).filter (· ∉ handles)).filter (· ≠ h) := by
    rw [List.filter_filter]
    apply List.filter_congr
    intro x _
    simp
  rw [eq]
  apply List.length_filter_lt_length_iff_exists.mpr
  exact ⟨h, by simp [lt, new], by simp⟩

end Heap
end Buildpath
