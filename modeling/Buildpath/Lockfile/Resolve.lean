import Buildpath.View

/-! Resolving modules against a lock document. The tree of a module is unfolded from
the document, once for every way that leads to it. An id may be met again, but not
below itself; the unfolding ends because the ids on the way are locked and distinct. -/
namespace Buildpath.Lockfile

/-- The artifacts that a locked module publishes, with their places in a repository. -/
def artifactsOf (repository : Path) (c : Coordinate) (locked : LockedModule) : List Artifact :=
  if locked.artifacts.isEmpty then
    [⟨c.moduleId, c.artifact, c.packaging, none, c.localPath repository⟩]
  else
    locked.artifacts.map fun a =>
      let name := a.name.getD c.artifact
      ⟨c.moduleId, name, a.extension, a.classifier,
        c.artifactPath repository name a.classifier a.extension⟩

/-- How many of the locked ids are not on the way. -/
def outside (l : Lockfile) (way : List String) : Nat :=
  (l.modules.filter (·.id ∉ way)).length

theorem outside_cons_lt {l : Lockfile} {id : String} {way : List String} {m : LockedModule}
    (found : l.module? id = some m) (new : id ∉ way) : l.outside (id :: way) < l.outside way := by
  have mem := List.mem_of_find?_eq_some found
  have eq : m.id = id := by simpa using List.find?_some found
  unfold outside
  have split : l.modules.filter (·.id ∉ id :: way) =
      (l.modules.filter (·.id ∉ way)).filter (·.id ≠ id) := by
    rw [List.filter_filter]
    apply List.filter_congr
    intro x _
    simp
  rw [split]
  apply List.length_filter_lt_length_iff_exists.mpr
  exact ⟨m, by simp [mem, eq, new], by simp [eq]⟩

mutual
/-- The tree of a module. `way` holds the ids that lead to it, the innermost first. -/
def unfold (l : Lockfile) (repository : Path) (configuration : String) (way : List String)
    (c : Coordinate) (transitive : Bool) : Except ResolveError Tree :=
  if _new : c.id ∈ way then
    .error (.cycle ⟨way.reverse.dropWhile (· ≠ c.id) ++ [c.id]⟩)
  else match _found : l.module? c.id with
    | none => .error (.unresolvedModule c.id configuration)
    | some locked =>
      let tree (children : List Tree) : Tree :=
        .node c.moduleId configuration (artifactsOf repository c locked) children
      if transitive then
        (l.unfoldEach repository configuration (c.id :: way) locked.dependencies).map tree
      else .ok (tree [])
termination_by (l.outside way, 0)
decreasing_by exact Prod.Lex.left _ _ (outside_cons_lt _found _new)

def unfoldEach (l : Lockfile) (repository : Path) (configuration : String) (way : List String) :
    List String → Except ResolveError (List Tree)
  | [] => .ok []
  | id :: rest =>
    match Coordinate.parse id with
    | .error e => .error (.coordinate e)
    | .ok c =>
      match l.unfold repository configuration way c true with
      | .error e => .error e
      | .ok tree => (l.unfoldEach repository configuration way rest).map (tree :: ·)
termination_by ids => (l.outside way, ids.length)
decreasing_by
  · exact Prod.Lex.right _ (by simp)
  · exact Prod.Lex.right _ (by simp)
end

/-- The trees of the declared modules, in order. A module is unfolded if neither the
configuration nor the module itself says otherwise. -/
def declaredTrees (l : Lockfile) (repository : Path) (configuration : String) (transitive : Bool) :
    List Dependency → Except ResolveError (List Tree)
  | [] => .ok []
  | .module c override :: rest =>
    match l.unfold repository configuration [] c (transitive && override.getD true) with
    | .error e => .error e
    | .ok tree => (l.declaredTrees repository configuration transitive rest).map (tree :: ·)
  | _ :: rest => l.declaredTrees repository configuration transitive rest

/-- The modules of one configuration, resolved. -/
structure Resolved where
  firstLevel : List Tree

namespace Resolved

/-- Depth first through all trees; a module that is met again is listed again. -/
def walk (r : Resolved) : List Artifact := r.firstLevel.flatMap TreeOf.allArtifacts

def artifacts (r : Resolved) : List Artifact := distinctBy ArtifactOf.key r.walk

def files (r : Resolved) (filter : Filter) : Except ResolveError (List Path) :=
  acceptedFiles filter r.walk

def view (r : Resolved) : BackendView :=
  { files := r.files, firstLevel := .ok r.firstLevel, artifacts := .ok r.artifacts }

end Resolved

def resolve (l : Lockfile) (repository : Path) (heap : Heap) (h : Handle) : Except ResolveError Resolved :=
  (l.declaredTrees repository (heap.name h) (heap.transitive h) (heap.dependencies h)).map
    fun trees => ⟨distinctBy TreeOf.key trees⟩

def backend (l : Lockfile) (repository : Path) : Backend := fun heap h =>
  (l.resolve repository heap h).map Resolved.view

end Buildpath.Lockfile
