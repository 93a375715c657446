import Buildpath.Proofs.Lockfile.Unfolding
import Buildpath.Proofs.Module.Forest
import Buildpath.Proofs.Project.Loading

/-! Coordinates that were read from texts. A loaded configuration declares no others, and a lock
document leads to no others, so the parts of all ids in the trees of such a configuration can be told
apart. -/
namespace Buildpath

theorem Coordinate.legible_of_parse {text : String} {c : Coordinate} (read : parse text = .ok c) :
    c.Legible :=
  (parse_eq_ok_iff.mp read).legible

theorem Coordinate.Legible.parted {c : Coordinate} (legible : c.Legible) : c.moduleId.Parted :=
  ⟨legible.group.whole, legible.artifact.whole, legible.version.whole⟩

def Dependency.Legible : Dependency → Prop
  | .module c _ => c.Legible
  | _ => True

def Heap.Legible (heap : Heap) : Prop := ∀ h, ∀ d ∈ heap.dependencies h, d.Legible

namespace Project

variable {d : Disk} {key : Key}

theorem legible_of_demand {declaration : Manifest.Declaration} {c : Coordinate} {override : Option Bool}
    (asked : demand d key declaration = .ok (.module c override)) : c.Legible := by
  unfold demand at asked
  split at asked
  · cases asked
  · cases asked
  · cases asked
  · split at asked
    · cases asked
    · rename_i read
      cases asked
      exact Coordinate.legible_of_parse read
  · split at asked <;> cases asked

theorem keptOk_legible (d : Disk) :
    KeptOk d (fun _ _ st _ after => st.heap.Legible → after.heap.Legible)
      (fun _ _ _ st deps after => st.heap.Legible →
        after.heap.Legible ∧ ∀ dep ∈ deps, dep.Legible) where
  hit _ legible := legible
  finished {st key way m s deps after} _ _ each legible := by
    obtain ⟨before, made⟩ := each legible
    intro h
    rw [State.finish, Heap.dependencies_alloc]
    split
    · exact made
    · exact before h
  nil legible := ⟨legible, nofun⟩
  files _ each legible := by
    obtain ⟨after, rest⟩ := each legible
    exact ⟨after, List.forall_mem_cons.mpr ⟨trivial, rest⟩⟩
  module asked each legible := by
    obtain ⟨after, rest⟩ := each legible
    exact ⟨after, List.forall_mem_cons.mpr ⟨legible_of_demand asked, rest⟩⟩
  loaded _ pair each legible := by
    obtain ⟨after, rest⟩ := each (pair legible)
    exact ⟨after, List.forall_mem_cons.mpr ⟨trivial, rest⟩⟩

theorem legible_load {root : Path} {name : String} {heap loaded : Heap} {h : Handle}
    (legible : heap.Legible) (run : load d root name heap = .ok (h, loaded)) : loaded.Legible := by
  obtain ⟨l, found, after, -, pair, -, rfl⟩ := load_eq_ok run
  exact (keptOk_legible d).pair pair legible

end Project

namespace Lockfile

variable {l : Lockfile} {repository : Path} {configuration : String}

theorem legible_of_asks {m : LockedModule} {transitive : Bool} {below : List Wanted}
    (asks : m.asks transitive = below.map .ok) : ∀ w ∈ below, w.coordinate.Legible := by
  intro w mem
  have asked : .ok w ∈ m.asks transitive := asks ▸ List.mem_map_of_mem mem
  obtain ⟨-, id, -, meant⟩ := mem_asks.mp asked
  obtain ⟨c, read, rfl⟩ := ofId_eq_ok.mp meant
  exact Coordinate.legible_of_parse read

theorem Unfolds.parted {todo : List Wanted} {trees : List Tree}
    (unfolds : Unfolds l repository configuration todo trees)
    (legible : ∀ w ∈ todo, w.coordinate.Legible) : TreeOf.Every ModuleId.Parted trees := by
  induction unfolds with
  | nil => exact TreeOf.every_nil
  | node _ _ asks _ _ ihBelow ihRest =>
    obtain ⟨first, others⟩ := List.forall_mem_cons.mp legible
    exact TreeOf.every_cons.mpr ⟨first.parted, ihBelow (legible_of_asks asks), ihRest others⟩

theorem parted_of_resolve {heap : Heap} {h : Handle} {r : Resolved} (legible : heap.Legible)
    (resolved : l.resolve repository heap h = .ok r) : TreeOf.Every ModuleId.Parted r.firstLevel := by
  obtain ⟨trees, unfolds, eq⟩ := resolve_eq_ok_iff.mp resolved
  have declared : ∀ w ∈ declaredModules (heap.transitive h) (heap.dependencies h), w.coordinate.Legible := by
    intro w mem
    obtain ⟨override, mem, -⟩ := mem_declaredModules.mp mem
    exact legible h _ mem
  have all := TreeOf.every_iff_forall_mem.mp (unfolds.parted declared)
  rw [eq, TreeOf.every_iff_forall_mem, ← distinctBy_eq]
  intro tree mem
  exact all tree ((sublist_distinctFrom TreeOf.key [] trees).subset mem)

end Lockfile

end Buildpath
