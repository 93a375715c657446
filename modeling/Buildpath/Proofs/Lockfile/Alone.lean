import Buildpath.Proofs.Lockfile.Unfolding
import Mathlib.Data.List.Flatten

/-! Modules that are wanted alone. Their trees are those of the same modules with all that
they depend on, less everything below the roots. So nothing that could be resolved with its
dependencies fails without them, and the artifacts that are left keep their order. -/
namespace Buildpath

def TreeOf.alone : TreeOf File → TreeOf File
  | .node module configuration artifacts _ => .node module configuration artifacts []

theorem TreeOf.key_alone (t : Tree) : t.alone.key = t.key.alone := by
  cases t
  rfl

/-- A tree's own artifacts come first. -/
theorem TreeOf.allArtifacts_alone_sublist (t : TreeOf File) :
    t.alone.allArtifacts.Sublist t.allArtifacts := by
  cases t with
  | node module configuration artifacts children =>
    rw [alone, allArtifacts, allArtifacts, allArtifactsOfEach, List.append_nil]
    exact List.sublist_append_left artifacts _

def Wanted.alone (w : Wanted) : Wanted := { w with transitive := false }

/-- Without the flag the same modules are declared. -/
theorem declaredModules_false (t : Bool) (deps : List Dependency) :
    declaredModules false deps = (declaredModules t deps).map Wanted.alone := by
  induction deps with
  | nil => rfl
  | cons d rest ih =>
    cases d with
    | files => exact ih
    | project => exact ih
    | module => rw [declaredModules, declaredModules, List.map_cons, ih, Bool.false_and, Wanted.alone]

namespace Lockfile

variable {l : Lockfile} {repository : Path} {configuration : String}

theorem Unfolds.alone {todo : List Wanted} {trees : List Tree}
    (unfolds : Unfolds l repository configuration todo trees) :
    Unfolds l repository configuration (todo.map Wanted.alone) (trees.map TreeOf.alone) := by
  induction unfolds with
  | nil => exact .nil
  | @node _ _ _ _ _ _ w first carries _ _ _ _ ih =>
    have root : l.FirstEntry w.alone.coordinate.id _ := first
    exact .node root carries rfl .nil ih

/-- First levels with equal trees dropped: dropping equal roots later takes out no more than
dropping equal trees first. -/
theorem firstOccurrences_alone (trees : List Tree) :
    (firstOccurrences TreeOf.key (trees.map TreeOf.alone)).Sublist
      ((firstOccurrences TreeOf.key trees).map TreeOf.alone) := by
  have same : ∀ t t' : Tree, t.key = t'.key →
      [t.alone].map TreeOf.key = [t'.alone].map TreeOf.key := by
    intro t t' eq
    rw [List.map_singleton, List.map_singleton, TreeOf.key_alone, TreeOf.key_alone, eq]
  have kept := firstOccurrences_flatMap (f := fun t => [t.alone]) same trees
  rw [← List.map_eq_flatMap, ← List.map_eq_flatMap] at kept
  rw [← kept, ← distinctBy_eq]
  exact sublist_distinctFrom _ _ _

theorem walk_alone_sublist {r fewer : Resolved} {trees : List Tree}
    (firstLevel : r.firstLevel = firstOccurrences TreeOf.key trees)
    (roots : fewer.firstLevel = firstOccurrences TreeOf.key (trees.map TreeOf.alone)) :
    fewer.walk.Sublist r.walk := by
  have kept : fewer.firstLevel.Sublist (r.firstLevel.map TreeOf.alone) := by
    rw [firstLevel, roots]
    exact firstOccurrences_alone trees
  have listed := kept.flatMap TreeOf.allArtifacts
  rw [List.flatMap_map] at listed
  exact listed.trans (.flatMap_right _ fun t _ => t.allArtifacts_alone_sublist)

/-- A configuration that loses at most its flag still resolves, and lists nothing new. -/
theorem resolve_weaker {heap other : Heap} {h : Handle} {r : Resolved}
    (resolved : l.resolve repository heap h = .ok r) (name : other.name h = heap.name h)
    (dependencies : other.dependencies h = heap.dependencies h)
    (weaker : other.transitive h = true → heap.transitive h = true) :
    ∃ fewer, l.resolve repository other h = .ok fewer ∧ fewer.walk.Sublist r.walk := by
  cases flag : other.transitive h with
  | true =>
    refine ⟨r, ?_, List.Sublist.refl _⟩
    rw [← resolved, resolve, resolve, name, dependencies, flag, weaker flag]
  | false =>
    obtain ⟨trees, unfolds, firstLevel⟩ := resolve_eq_ok_iff.mp resolved
    have roots := unfolds.alone
    rw [← declaredModules_false, ← name, ← dependencies, ← flag] at roots
    let fewer : Resolved := ⟨firstOccurrences TreeOf.key (trees.map TreeOf.alone)⟩
    exact ⟨fewer, resolve_eq_ok_iff.mpr ⟨_, roots, rfl⟩, walk_alone_sublist firstLevel rfl⟩

end Lockfile
end Buildpath
