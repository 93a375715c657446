import Buildpath.Coordinate
import Buildpath.Distinct

/-! Resolved modules: ids, published artifacts and trees. A tree and an artifact
hold file values of any type; with files read as path components, two of them are
equal when they differ at most in how a path is spelled. -/
namespace Buildpath

structure ModuleId where
  group : String
  name : String
  version : String
deriving DecidableEq, Repr

namespace ModuleId

def display (m : ModuleId) : String := m.group ++ ":" ++ m.name ++ ":" ++ m.version

instance : Ord ModuleId where
  compare a b := ((compare a.group b.group).then (compare a.name b.name)).then (compare a.version b.version)

/-- In the order of group, name and version, each id once. -/
def sortDistinct (ids : List ModuleId) : List ModuleId :=
  distinctBy (fun m => m) (ids.mergeSort (fun a b => (compare a b).isLE))

end ModuleId

def Coordinate.moduleId (c : Coordinate) : ModuleId := ⟨c.group, c.artifact, c.version⟩

structure ArtifactOf (File : Type) where
  module : ModuleId
  name : String
  extension : String
  classifier : Option String
  file : File
deriving DecidableEq, Repr

abbrev Artifact := ArtifactOf Path

namespace ArtifactOf

def map (f : File → File') (a : ArtifactOf File) : ArtifactOf File' :=
  { a with file := f a.file }

def display (a : ArtifactOf File) : String :=
  let classifier := match a.classifier with
    | some classifier => "-" ++ classifier
    | none => ""
  a.module.display ++ " (" ++ a.name ++ classifier ++ "." ++ a.extension ++ ")"

/-- The artifact up to the spelling of its path. -/
def key (a : Artifact) : ArtifactOf (List Path.Component) := a.map Path.components

end ArtifactOf

inductive TreeOf (File : Type) where
  | node (module : ModuleId) (configuration : String) (artifacts : List (ArtifactOf File))
      (children : List (TreeOf File))

abbrev Tree := TreeOf Path

namespace TreeOf

def module : TreeOf File → ModuleId
  | .node module _ _ _ => module

def configuration : TreeOf File → String
  | .node _ configuration _ _ => configuration

def artifacts : TreeOf File → List (ArtifactOf File)
  | .node _ _ artifacts _ => artifacts

def children : TreeOf File → List (TreeOf File)
  | .node _ _ _ children => children

mutual
/-- A module's own artifacts come before those of its children, depth first. -/
def allArtifacts : TreeOf File → List (ArtifactOf File)
  | .node _ _ artifacts children => artifacts ++ allArtifactsOfEach children

def allArtifactsOfEach : List (TreeOf File) → List (ArtifactOf File)
  | [] => []
  | tree :: trees => allArtifacts tree ++ allArtifactsOfEach trees
end

mutual
def map (f : File → File') : TreeOf File → TreeOf File'
  | .node module configuration artifacts children =>
    .node module configuration (artifacts.map (·.map f)) (mapEach f children)

def mapEach (f : File → File') : List (TreeOf File) → List (TreeOf File')
  | [] => []
  | tree :: trees => map f tree :: mapEach f trees
end

mutual
def same [DecidableEq File] : TreeOf File → TreeOf File → Bool
  | .node m c as ts, .node m' c' as' ts' => m = m' && c = c' && as = as' && sameEach ts ts'

def sameEach [DecidableEq File] : List (TreeOf File) → List (TreeOf File) → Bool
  | [], [] => true
  | t :: ts, t' :: ts' => same t t' && sameEach ts ts'
  | _, _ => false
end

mutual
theorem same_iff [DecidableEq File] : ∀ t t' : TreeOf File, same t t' = true ↔ t = t'
  | .node m c as ts, .node m' c' as' ts' => by
    simp [same, sameEach_iff ts ts', and_assoc]

theorem sameEach_iff [DecidableEq File] :
    ∀ ts ts' : List (TreeOf File), sameEach ts ts' = true ↔ ts = ts'
  | [], [] => by simp [sameEach]
  | [], _ :: _ => by simp [sameEach]
  | _ :: _, [] => by simp [sameEach]
  | t :: ts, t' :: ts' => by simp [sameEach, same_iff t t', sameEach_iff ts ts']
end

instance [DecidableEq File] : DecidableEq (TreeOf File) := fun t t' =>
  decidable_of_iff _ (same_iff t t')

/-- The tree up to the spelling of its paths. -/
def key (t : Tree) : TreeOf (List Path.Component) := t.map Path.components

theorem allArtifactsOfEach_eq (ts : List (TreeOf File)) :
    allArtifactsOfEach ts = ts.flatMap allArtifacts := by
  induction ts with
  | nil => rfl
  | cons t ts ih => simp [allArtifactsOfEach, ih]

mutual
theorem allArtifacts_map (f : File → File') :
    ∀ t : TreeOf File, (t.map f).allArtifacts = t.allArtifacts.map (·.map f)
  | .node _ _ _ children => by simp [map, allArtifacts, allArtifactsOfEach_map f children]

theorem allArtifactsOfEach_map (f : File → File') :
    ∀ ts : List (TreeOf File), allArtifactsOfEach (mapEach f ts) = (allArtifactsOfEach ts).map (·.map f)
  | [] => rfl
  | t :: ts => by
    simp [mapEach, allArtifactsOfEach, allArtifacts_map f t, allArtifactsOfEach_map f ts]
end

end TreeOf
end Buildpath
