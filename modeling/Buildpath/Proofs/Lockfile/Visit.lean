import Buildpath.Proofs.Lockfile.Unfolding
import Buildpath.Proofs.Traversal

/-! The artifacts of a resolved configuration. The trees list a module once for every way that
leads to it; keeping the first of equal artifacts gives what a walk through the lock document
gives that passes over what it has met before. A coordinate that is met alone and with its
dependencies is met twice by such a walk, and so are coordinates that differ in packaging. -/
namespace Buildpath.Lockfile

def graph (l : Lockfile) : Graph Wanted where
  next w := (((l.module? w.coordinate.id).map (·.asks w.transitive)).getD []).filterMap Except.toOption
  listed := l.modules.flatMap fun m => (m.asks true).filterMap Except.toOption
  closed w v mem := by
    cases locked : l.module? w.coordinate.id with
    | none => simp [locked] at mem
    | some m =>
      simp only [locked, Option.map_some, Option.getD_some, List.mem_filterMap] at mem
      obtain ⟨ask, asked, read⟩ := mem
      obtain ⟨_, asked⟩ := mem_asks.mp asked
      have whole : ask ∈ m.asks true := mem_asks.mpr ⟨rfl, asked⟩
      exact List.mem_flatMap.mpr ⟨m, List.mem_of_find?_eq_some locked,
        List.mem_filterMap.mpr ⟨ask, whole, read⟩⟩

def artifactsAt (l : Lockfile) (repository : Path) (w : Wanted) : List Artifact :=
  ((l.module? w.coordinate.id).map (artifactsOf repository w.coordinate)).getD []

variable {l : Lockfile} {repository : Path} {configuration : String}

theorem next_graph {w : Wanted} {m : LockedModule} {below : List Wanted}
    (locked : l.module? w.coordinate.id = some m) (asks : m.asks w.transitive = below.map .ok) :
    l.graph.next w = below := by
  simp only [graph, locked, asks, Option.map_some, Option.getD_some, List.filterMap_map]
  exact List.filterMap_some

/-- Trees are a way of writing down every meeting with a module. -/
theorem Unfolds.unrolls {todo : List Wanted} {trees : List Tree}
    (unfolds : Unfolds l repository configuration todo trees) : ∃ met, l.graph.Unrolls todo met ∧
      trees.flatMap TreeOf.allArtifacts = met.flatMap (l.artifactsAt repository) := by
  induction unfolds with
  | nil => exact ⟨[], .nil, rfl⟩
  | @node m carried below children rest trees w first carries asks _ _ ihBelow ihRest =>
    obtain ⟨inner, unrolls, artifacts⟩ := ihBelow
    obtain ⟨others, more, later⟩ := ihRest
    have locked := firstEntry_iff.mp first
    rw [← next_graph locked asks] at unrolls
    refine ⟨_, .node unrolls more, ?_⟩
    have own : l.artifactsAt repository w = carried := by
      simp only [artifactsAt, locked, Option.map_some, Option.getD_some, carries_iff.mp carries]
    rw [List.flatMap_cons, List.flatMap_cons, List.flatMap_append, own, later, ← artifacts,
      TreeOf.allArtifacts, TreeOf.allArtifactsOfEach_eq, List.append_assoc]

/-- Trees that differ only in the spelling of paths have artifacts that differ only in that. -/
theorem allArtifacts_keys {t t' : Tree} (same : t.key = t'.key) :
    t.allArtifacts.map ArtifactOf.key = t'.allArtifacts.map ArtifactOf.key := by
  have listed := congrArg TreeOf.allArtifacts same
  rw [TreeOf.key, TreeOf.key, TreeOf.allArtifacts_map, TreeOf.allArtifacts_map] at listed
  exact listed

theorem artifacts_eq {r : Resolved} {trees : List Tree}
    (firstLevel : r.firstLevel = firstOccurrences TreeOf.key trees) :
    r.artifacts = firstOccurrences ArtifactOf.key (trees.flatMap TreeOf.allArtifacts) := by
  rw [Resolved.artifacts, Resolved.walk, firstLevel, distinctBy_eq]
  exact firstOccurrences_flatMap (fun _ _ => allArtifacts_keys) trees

/-- The artifacts of a resolved configuration are those of the modules that a walk from the
declared ones meets, in the order of first meetings and each once. The walk meets every module
that can be reached, and none twice. -/
theorem artifacts_eq_visited {l : Lockfile} {repository : Path} {heap : Heap} {h : Handle}
    {r : Resolved} (resolved : l.resolve repository heap h = .ok r) :
    let declared := declaredModules (heap.transitive h) (heap.dependencies h)
    let visited := l.graph.visit [] declared
    r.view.artifacts = .ok (firstOccurrences ArtifactOf.key (visited.flatMap (l.artifactsAt repository))) ∧
    visited.Nodup ∧ (∀ w, w ∈ visited ↔ ∃ first ∈ declared, l.graph.Reaches first w) ∧
    (r.artifacts.map ArtifactOf.key).Nodup ∧
    ∀ k, k ∈ r.artifacts.map ArtifactOf.key ↔ ∃ first ∈ declared, ∃ w, l.graph.Reaches first w ∧
      k ∈ (l.artifactsAt repository w).map ArtifactOf.key := by
  intro declared visited
  obtain ⟨trees, unfolds, firstLevel⟩ := resolve_eq_ok_iff.mp resolved
  obtain ⟨met, unrolls, walked⟩ := unfolds.unrolls
  have order : visited = firstOccurrences id met := unrolls.visit_eq_firstOccurrences
  have artifacts : r.artifacts =
      firstOccurrences ArtifactOf.key (visited.flatMap (l.artifactsAt repository)) := by
    have same : ∀ w v : Wanted, id w = id v → (l.artifactsAt repository w).map ArtifactOf.key =
        (l.artifactsAt repository v).map ArtifactOf.key := by
      rintro w _ rfl
      rfl
    rw [artifacts_eq firstLevel, walked, order]
    exact (firstOccurrences_flatMap same met).symm
  have reached : ∀ w, w ∈ visited ↔ ∃ first ∈ declared, l.graph.Reaches first w :=
    fun w => unrolls.mem_visit_iff
  refine ⟨congrArg _ artifacts, unrolls.nodup_visit, reached, ?_, ?_⟩
  · rw [artifacts]
    exact nodup_map_firstOccurrences _ _
  · intro k
    rw [artifacts, mem_map_firstOccurrences, List.map_flatMap, List.mem_flatMap]
    constructor
    · rintro ⟨w, mem, published⟩
      obtain ⟨first, member, path⟩ := (reached w).mp mem
      exact ⟨first, member, w, path, published⟩
    · rintro ⟨first, member, w, path, published⟩
      exact ⟨w, (reached w).mpr ⟨first, member, path⟩, published⟩

/-- A module `b` that is declared alone and met again with what it depends on, and a module
`c` that is met in two packagings. -/
theorem artifacts_mixed_packaging :
    let l : Lockfile := ⟨[⟨"g:a:1", ["g:b:1", "g:c:1:war", "g:b:1"], []⟩, ⟨"g:b:1", ["g:c:1"], []⟩,
      ⟨"g:c:1", [], []⟩]⟩
    let a : Coordinate := ⟨"g", "a", "1", "jar"⟩
    let b : Coordinate := ⟨"g", "b", "1", "jar"⟩
    let heap : Heap := ⟨[⟨"compile", true, [.module b (some false), .module a none]⟩]⟩
    ∃ r, l.resolve ⟨"r"⟩ heap 0 = .ok r ∧
      r.artifacts.map (·.file.text) =
        ["r/g/b/1/b-1.jar", "r/g/a/1/a-1.jar", "r/g/c/1/c-1.jar", "r/g/c/1/c-1.war"] ∧
      r.view.artifacts = .ok (firstOccurrences ArtifactOf.key
        ((l.graph.visit [] [⟨b, false⟩, ⟨a, true⟩]).flatMap (l.artifactsAt ⟨"r"⟩))) ∧
      (l.graph.visit [] [⟨b, false⟩, ⟨a, true⟩]).Nodup := by
  intro l a b heap
  let c : Coordinate := ⟨"g", "c", "1", "jar"⟩
  have jar : Unfolds l ⟨"r"⟩ "compile" [⟨c, true⟩] _ := .of_locked rfl rfl .nil .nil
  have war : Unfolds l ⟨"r"⟩ "compile" [⟨{ c with packaging := "war" }, true⟩, ⟨b, true⟩] _ :=
    .of_locked rfl rfl .nil (.of_locked rfl (by rfl) jar .nil)
  have whole : Unfolds l ⟨"r"⟩ "compile" [⟨b, true⟩, ⟨{ c with packaging := "war" }, true⟩, ⟨b, true⟩] _ :=
    .of_locked rfl (by rfl) jar war
  have unfolds : Unfolds l ⟨"r"⟩ "compile" [⟨b, false⟩, ⟨a, true⟩] _ :=
    .of_locked rfl rfl .nil (.of_locked rfl (by rfl) whole .nil)
  have resolved : l.resolve ⟨"r"⟩ heap 0 = .ok _ := resolve_eq_ok_iff.mpr ⟨_, unfolds, rfl⟩
  have walked := artifacts_eq_visited resolved
  refine ⟨_, resolved, ?_, walked.1, walked.2.1⟩
  decide

end Buildpath.Lockfile
