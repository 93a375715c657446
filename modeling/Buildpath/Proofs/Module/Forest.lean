import Buildpath.Proofs.Coordinate.Grammar
import Buildpath.Module

/-! Places in a forest of modules. A tree is found under the numbers that lead to it: first which tree
of the forest, then which child of it, and so on. The places in lexicographic order are the nodes
depth first, since a place stands before those that continue it, and these before the next number. -/
namespace Buildpath

structure ModuleId.Parted (m : ModuleId) : Prop where
  group : ':' ∉ m.group.toList
  name : ':' ∉ m.name.toList
  version : ':' ∉ m.version.toList

/-- Then the parts can be told from the id as it is written. -/
theorem ModuleId.Parted.eq_of_display {m m' : ModuleId} (parted : m.Parted) (parted' : m'.Parted)
    (same : m.display = m'.display) : m = m' := by
  have cut (m : ModuleId) (parted : m.Parted) : Text.cut ':' m.display = [m.group, m.name, m.version] := by
    rw [display, Coordinate.cut_colon, Coordinate.cut_colon, Text.cut_of_not_mem parted.group,
      Text.cut_of_not_mem parted.name, Text.cut_of_not_mem parted.version]
    rfl
  have parts := cut m parted
  rw [same, cut m' parted', List.cons.injEq, List.cons.injEq, List.cons.injEq] at parts
  obtain ⟨group, name, version, -⟩ := parts
  change (⟨m.group, m.name, m.version⟩ : ModuleId) = ⟨m'.group, m'.name, m'.version⟩
  rw [group, name, version]

namespace TreeOf

variable {File : Type}

/-- The tree below another under the numbers of the children on the way down. -/
def below? (tree : TreeOf File) : List Nat → Option (TreeOf File)
  | [] => some tree
  | i :: place => tree.children[i]?.bind (below? · place)

def treeAt? (forest : List (TreeOf File)) : List Nat → Option (TreeOf File)
  | [] => none
  | i :: place => forest[i]?.bind (·.below? place)

def moduleAt? (forest : List (TreeOf File)) (place : List Nat) : Option ModuleId :=
  (treeAt? forest place).map (·.module)

def idAt? (forest : List (TreeOf File)) (place : List Nat) : Option String :=
  (moduleAt? forest place).map (·.display)

def Every (P : ModuleId → Prop) (forest : List (TreeOf File)) : Prop :=
  ∀ place m, moduleAt? forest place = some m → P m

/-- Lists every node of a forest with its place, depth first and each once. -/
structure Preorder (forest : List (TreeOf File)) (nodes : List (List Nat × TreeOf File)) : Prop where
  sorted : nodes.Pairwise fun a b => a.1 < b.1
  mem_iff : ∀ place tree, (place, tree) ∈ nodes ↔ treeAt? forest place = some tree

mutual
def nodes : TreeOf File → List (List Nat × TreeOf File)
  | .node module configuration artifacts children =>
    ([], .node module configuration artifacts children) :: nodesFrom 0 children

/-- The nodes of a forest whose first tree has the number `i`. -/
def nodesFrom (i : Nat) : List (TreeOf File) → List (List Nat × TreeOf File)
  | [] => []
  | tree :: rest => (nodes tree).map (fun n => (i :: n.1, n.2)) ++ nodesFrom (i + 1) rest
end

/-- What holds of a forest if it holds of what is below its first tree and of the other trees. -/
theorem forest_induction {motive : List (TreeOf File) → Prop} (nil : motive [])
    (cons : ∀ module configuration artifacts children rest, motive children → motive rest →
      motive (.node module configuration artifacts children :: rest)) : ∀ forest, motive forest
  | [] => nil
  | .node module configuration artifacts children :: rest =>
    cons module configuration artifacts children rest (forest_induction nil cons children)
      (forest_induction nil cons rest)

/-- A place in a forest with a first tree is its top, below its top or in the rest, if it is any. -/
theorem place_cases {motive : List Nat → Prop} (nil : motive []) (top : motive [0])
    (below : ∀ j place, motive (0 :: j :: place)) (later : ∀ i place, motive ((i + 1) :: place)) :
    ∀ place, motive place
  | [] => nil
  | [0] => top
  | 0 :: j :: place => below j place
  | (i + 1) :: place => later i place

section
variable {tree : TreeOf File} {rest forest : List (TreeOf File)} {P : ModuleId → Prop} {m : ModuleId}
  {configuration : String} {artifacts : List (ArtifactOf File)} {children : List (TreeOf File)}

@[simp] theorem treeAt?_nil (place : List Nat) : treeAt? ([] : List (TreeOf File)) place = none := by
  cases place <;> rfl

theorem every_nil : Every P ([] : List (TreeOf File)) := by
  intro place m found
  simp [moduleAt?] at found

theorem every_cons : Every P (.node m configuration artifacts children :: rest) ↔
    P m ∧ Every P children ∧ Every P rest := by
  constructor
  · intro every
    refine ⟨every [0] m rfl, fun place other found => ?_, fun place other found => ?_⟩
    · cases place with
      | nil => cases found
      | cons j place => exact every (0 :: j :: place) other found
    · cases place with
      | nil => cases found
      | cons i place => exact every ((i + 1) :: place) other found
  · rintro ⟨top, below, later⟩ place other found
    induction place using place_cases with
    | nil => cases found
    | top => exact Option.some.inj found ▸ top
    | below j place => exact below (j :: place) other found
    | later i place => exact later (i :: place) other found

theorem every_iff_forall_mem :
    Every P forest ↔ ∀ tree ∈ forest, P tree.module ∧ Every P tree.children := by
  induction forest with
  | nil => simp [every_nil]
  | cons tree rest ih =>
    obtain ⟨m, configuration, artifacts, children⟩ := tree
    rw [every_cons, ih, List.forall_mem_cons, and_assoc]
    rfl

/-- Counted from zero, the number of the first tree changes no place. -/
theorem exists_from_zero_iff {place : List Nat} :
    (∃ k rest, place = (0 + k) :: rest ∧ treeAt? forest (k :: rest) = some tree) ↔
      treeAt? forest place = some tree := by
  constructor
  · rintro ⟨k, rest, rfl, found⟩
    rwa [Nat.zero_add]
  · intro found
    cases place with
    | nil => cases found
    | cons k rest => exact ⟨k, rest, by rw [Nat.zero_add], found⟩

mutual
theorem mem_nodes (tree : TreeOf File) (place : List Nat) (other : TreeOf File) :
    (place, other) ∈ nodes tree ↔ tree.below? place = some other := by
  obtain ⟨m, configuration, artifacts, children⟩ := tree
  rw [nodes, List.mem_cons, mem_nodesFrom 0 children, exists_from_zero_iff]
  cases place with
  | nil => simp [below?, treeAt?, eq_comm]
  | cons j place => simp [below?, treeAt?, TreeOf.children]

theorem mem_nodesFrom (i : Nat) (forest : List (TreeOf File)) (place : List Nat) (other : TreeOf File) :
    (place, other) ∈ nodesFrom i forest ↔
      ∃ k rest, place = (i + k) :: rest ∧ treeAt? forest (k :: rest) = some other := by
  cases forest with
  | nil => simp [nodesFrom]
  | cons tree rest =>
    rw [nodesFrom, List.mem_append, List.mem_map, mem_nodesFrom (i + 1) rest]
    constructor
    · rintro (⟨⟨inner, same⟩, mem, eq⟩ | ⟨k, inner, rfl, found⟩)
      · obtain ⟨rfl, rfl⟩ := Prod.mk.inj eq
        exact ⟨0, inner, rfl, (mem_nodes tree inner same).mp mem⟩
      · exact ⟨k + 1, inner, by rw [Nat.add_right_comm, Nat.add_assoc], found⟩
    · rintro ⟨k, inner, rfl, found⟩
      cases k with
      | zero => exact .inl ⟨(inner, other), (mem_nodes tree inner other).mpr found, rfl⟩
      | succ k => exact .inr ⟨k, inner, by rw [Nat.add_right_comm, Nat.add_assoc], found⟩
end

mutual
theorem pairwise_nodes (tree : TreeOf File) : (nodes tree).Pairwise fun a b => a.1 < b.1 := by
  obtain ⟨m, configuration, artifacts, children⟩ := tree
  rw [nodes, List.pairwise_cons]
  refine ⟨fun ⟨place, other⟩ mem => ?_, pairwise_nodesFrom 0 children⟩
  obtain ⟨k, rest, rfl, -⟩ := (mem_nodesFrom 0 children place other).mp mem
  exact List.nil_lt_cons _ _

theorem pairwise_nodesFrom (i : Nat) (forest : List (TreeOf File)) :
    (nodesFrom i forest).Pairwise fun a b => a.1 < b.1 := by
  cases forest with
  | nil => simp [nodesFrom]
  | cons tree rest =>
    rw [nodesFrom, List.pairwise_append, List.pairwise_map]
    refine ⟨?_, pairwise_nodesFrom (i + 1) rest, ?_⟩
    · exact (pairwise_nodes tree).imp fun lt => List.cons_lt_cons_iff.mpr (.inr ⟨rfl, lt⟩)
    · rintro _ first ⟨place, other⟩ mem
      obtain ⟨inner, -, rfl⟩ := List.mem_map.mp first
      obtain ⟨k, rest, rfl, -⟩ := (mem_nodesFrom (i + 1) _ place other).mp mem
      exact List.cons_lt_cons_iff.mpr (.inl (by omega))
end

theorem preorder_nodes (forest : List (TreeOf File)) : Preorder forest (nodesFrom 0 forest) where
  sorted := pairwise_nodesFrom 0 forest
  mem_iff place tree := (mem_nodesFrom 0 forest place tree).trans exists_from_zero_iff

end

end TreeOf

end Buildpath
