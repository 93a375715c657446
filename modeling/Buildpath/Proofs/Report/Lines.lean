import Buildpath.Report
import Buildpath.Proofs.Module.Forest

/-! What a printed forest tells. Each node is a line, and where the ids are whole and do not open with
white space the lines tell how deep their nodes are and what their ids are. The nodes below one come
before the next that is not deeper, so the forest can be told from the lines. That white space is
taken away from the end of the text only removes the last line end. -/
namespace Buildpath

namespace Text

def linesOf (text : String) : List String := if text = "" then [] else cut '\n' text

structure Trim (text : String) : Prop where
  whole : '\n' ∉ text.toList
  opens : ∀ c ∈ text.toList.head?, isBlank c = false
  ends : ∀ c ∈ text.toList.getLast?, isBlank c = false

theorem trim_iff {text : String} : Trim text ↔ '\n' ∉ text.toList ∧
    text.toList.head?.all (fun c => !isBlank c) = true ∧ text.toList.getLast?.all (fun c => !isBlank c) = true := by
  simp only [Option.all_eq_true, Bool.not_eq_true']
  exact ⟨fun ⟨whole, opens, ends⟩ => ⟨whole, opens, ends⟩, fun ⟨whole, opens, ends⟩ => ⟨whole, opens, ends⟩⟩

instance (text : String) : Decidable (Trim text) := decidable_of_iff _ trim_iff.symm

def Ends (text : String) : Prop := ∃ c, text.toList.getLast? = some c ∧ isBlank c = false

theorem trimEnd_line {text : String} (ends : Ends text) : trimEnd (text ++ "\n") = text := by
  obtain ⟨c, last, shows⟩ := ends
  obtain ⟨front, split⟩ := List.getLast?_eq_some_iff.mp last
  have blank : isBlank '\n' = true := by decide
  have backwards : (text ++ "\n").toList.reverse = '\n' :: c :: front.reverse := by simp [split]
  have kept : (text ++ "\n").toList.reverse.dropWhile isBlank = text.toList.reverse := by
    rw [backwards, List.dropWhile_cons_of_pos blank, List.dropWhile_cons_of_neg (by simp [shows]), split]
    simp
  rw [trimEnd, kept, List.reverse_reverse, String.ofList_toList]

end Text

namespace Report

section
variable {items : List String}

theorem lines_cons_cons (item next : String) (rest : List String) :
    lines (item :: next :: rest) = item ++ "\n" ++ lines (next :: rest) := by
  simp [lines, String.intercalate_cons_cons]

/-- Items that each end a line make the lines and one more line end. -/
theorem flatMap_line_end (some : items ≠ []) :
    items.flatMap (fun item => item.toList ++ ['\n']) = (lines items ++ "\n").toList := by
  induction items with
  | nil => exact absurd rfl some
  | cons item rest ih =>
    cases rest with
    | nil => simp [lines]
    | cons next rest =>
      rw [List.flatMap_cons, ih (List.cons_ne_nil _ _), lines_cons_cons]
      simp

theorem ends_lines (some : items ≠ []) (ends : ∀ item ∈ items, Text.Ends item) :
    Text.Ends (lines items) := by
  induction items with
  | nil => exact absurd rfl some
  | cons item rest ih =>
    obtain ⟨first, others⟩ := List.forall_mem_cons.mp ends
    cases rest with
    | nil => simpa [lines] using first
    | cons next rest =>
      obtain ⟨c, last, shows⟩ := ih (List.cons_ne_nil _ _) others
      refine ⟨c, ?_, shows⟩
      rw [lines_cons_cons, String.toList_append, List.getLast?_append, last]
      rfl

theorem linesOf_lines (whole : ∀ item ∈ items, '\n' ∉ item.toList) (written : ∀ item ∈ items, item ≠ "") :
    Text.linesOf (lines items) = items := by
  by_cases some : items = []
  · subst some
    rfl
  · have cut : Text.cut '\n' (lines items) = items := Text.cut_eq_iff.mpr ⟨some, whole, rfl⟩
    rw [Text.linesOf, if_neg, cut]
    intro empty
    rw [empty] at cut
    have mem : "" ∈ items := cut ▸ List.mem_cons_self
    exact written "" mem rfl

end

section
variable {File : Type}

mutual
/-- How deep the nodes of a tree are, and their ids, in the order in which they are printed. -/
def levelsOf (depth : Nat) : TreeOf File → List (Nat × String)
  | .node module _ _ children => (depth, module.display) :: levels (depth + 1) children

def levels (depth : Nat) : List (TreeOf File) → List (Nat × String)
  | [] => []
  | tree :: rest => levelsOf depth tree ++ levels depth rest
end

end

def line (entry : Nat × String) : String := indent entry.1 ++ entry.2

section
variable {File File' : Type} {forest : List (TreeOf File)} {forest' : List (TreeOf File')} {depth : Nat}

open TreeOf

theorem toList_nodes (depth : Nat) (forest : List (TreeOf File)) :
    (nodes depth forest).toList = (levels depth forest).flatMap fun entry => (line entry).toList ++ ['\n'] := by
  induction forest using forest_induction generalizing depth with
  | nil => rfl
  | cons m configuration artifacts children rest below later =>
    simp [nodes, node, levels, levelsOf, line, below, later]

mutual
theorem levelsOf_eq (depth : Nat) (tree : TreeOf File) : levelsOf depth tree =
    tree.nodes.map fun n => (depth + n.1.length, n.2.module.display) := by
  obtain ⟨m, configuration, artifacts, children⟩ := tree
  rw [levelsOf, TreeOf.nodes, List.map_cons, levels_eq (depth + 1) 0 children, List.cons.injEq]
  refine ⟨rfl, List.map_congr_left fun n mem => ?_⟩
  obtain ⟨k, rest, eq, -⟩ := (mem_nodesFrom 0 children n.1 n.2).mp mem
  rw [eq, List.length_cons, Nat.add_sub_cancel, Nat.add_right_comm, Nat.add_assoc]

/-- The places of the nodes tell how deep they are. -/
theorem levels_eq (depth i : Nat) (forest : List (TreeOf File)) : levels depth forest =
    (nodesFrom i forest).map fun n => (depth + (n.1.length - 1), n.2.module.display) := by
  cases forest with
  | nil => rfl
  | cons tree rest =>
    rw [levels, nodesFrom, List.map_append, levels_eq depth (i + 1) rest, levelsOf_eq depth tree, List.map_map]
    rfl
end

theorem every_of_levels {P : String → Prop} (every : Every (fun m => P m.display) forest) :
    ∀ entry ∈ levels 0 forest, ∃ m : ModuleId, entry.2 = m.display ∧ P m.display := by
  intro entry mem
  rw [levels_eq 0 0 forest, List.mem_map] at mem
  obtain ⟨⟨place, tree⟩, mem, rfl⟩ := mem
  have found := ((preorder_nodes forest).mem_iff place tree).mp mem
  exact ⟨tree.module, rfl, every place tree.module (by simp [moduleAt?, found])⟩

theorem depth_of_head {later : List (Nat × String)}
    (outer : ∀ entry, later.head? = some entry → entry.1 < depth) :
    ∀ entry, (levels depth forest ++ later).head? = some entry → entry.1 < depth + 1 := by
  intro entry first
  cases forest with
  | nil => exact Nat.lt_succ_of_lt (outer entry first)
  | cons tree rest =>
    obtain ⟨m, configuration, artifacts, children⟩ := tree
    obtain rfl := Option.some.inj first
    exact Nat.lt_succ_self depth

/-- The next line that is not deeper ends what is below a node, so from the lines and what follows them
the forest can be told, and where it ends. -/
theorem levels_append_injective {later later' : List (Nat × String)}
    (outer : ∀ entry, later.head? = some entry → entry.1 < depth)
    (outer' : ∀ entry, later'.head? = some entry → entry.1 < depth)
    (same : levels depth forest ++ later = levels depth forest' ++ later') :
    (∀ place, idAt? forest place = idAt? forest' place) ∧ later = later' := by
  -- Below a node `later` is the rest of its forest too, whose first line is not deeper than the node.
  induction forest using forest_induction generalizing depth forest' later later' with
  | nil =>
    cases forest' with
    | nil => exact ⟨fun place => by simp [idAt?, moduleAt?], same⟩
    | cons tree rest =>
      obtain ⟨m, configuration, artifacts, children⟩ := tree
      have first : later.head? = some (depth, m.display) := by
        rw [show later = _ from same]
        rfl
      exact absurd (outer _ first) (Nat.lt_irrefl depth)
  | cons m configuration artifacts children rest ihBelow ihRest =>
    cases forest' with
    | nil =>
      have first : later'.head? = some (depth, m.display) := by
        rw [show later' = _ from same.symm]
        rfl
      exact absurd (outer' _ first) (Nat.lt_irrefl depth)
    | cons tree rest' =>
      obtain ⟨m', configuration', artifacts', children'⟩ := tree
      simp only [levels, levelsOf, List.cons_append, List.append_assoc, List.cons.injEq, Prod.mk.injEq,
        true_and] at same
      obtain ⟨top, more⟩ := same
      obtain ⟨below, more⟩ := ihBelow (depth_of_head outer) (depth_of_head outer') more
      obtain ⟨others, ended⟩ := ihRest outer outer' more
      refine ⟨fun place => ?_, ended⟩
      induction place using place_cases with
      | nil => rfl
      | top => exact congrArg some top
      | below j place => exact below (j :: place)
      | later i place => exact others (i :: place)

theorem replicate_append_injective {c : Char} {n n' : Nat} {rest rest' : List Char}
    (opens : rest.head? ≠ some c) (opens' : rest'.head? ≠ some c)
    (same : List.replicate n c ++ rest = List.replicate n' c ++ rest') : n = n' ∧ rest = rest' := by
  induction n generalizing n' with
  | zero =>
    cases n' with
    | zero => exact ⟨rfl, same⟩
    | succ n' =>
      rw [show rest = _ from same] at opens
      exact absurd rfl opens
  | succ n ih =>
    cases n' with
    | zero =>
      rw [show rest' = _ from same.symm] at opens'
      exact absurd rfl opens'
    | succ n' =>
      obtain ⟨equal, eq⟩ := ih (List.cons.inj same).2
      exact ⟨congrArg Nat.succ equal, eq⟩

/-- Before a text that does not open with white space the blanks can be counted. -/
theorem line_injective {entry entry' : Nat × String} (trim : Text.Trim entry.2) (trim' : Text.Trim entry'.2)
    (same : line entry = line entry') : entry = entry' := by
  have shows {text : String} (trim : Text.Trim text) : text.toList.head? ≠ some ' ' := by
    intro blank
    exact absurd (trim.opens ' ' blank) (by decide)
  have chars : List.replicate (4 * entry.1) ' ' ++ entry.2.toList =
      List.replicate (4 * entry'.1) ' ' ++ entry'.2.toList := by
    simpa [line, indent] using congrArg String.toList same
  obtain ⟨blanks, id⟩ := replicate_append_injective (shows trim) (shows trim') chars
  exact Prod.ext (by omega) (String.toList_inj.mp id)

theorem lines_injective {entries entries' : List (Nat × String)} (trim : ∀ entry ∈ entries, Text.Trim entry.2)
    (trim' : ∀ entry ∈ entries', Text.Trim entry.2) (same : entries.map line = entries'.map line) :
    entries = entries' := by
  induction entries generalizing entries' with
  | nil => exact (List.map_eq_nil_iff.mp same.symm).symm
  | cons entry rest ih =>
    obtain ⟨entry', rest', rfl, first, others⟩ := List.map_eq_cons_iff.mp same.symm
    obtain ⟨here, there⟩ := List.forall_mem_cons.mp trim
    obtain ⟨here', there'⟩ := List.forall_mem_cons.mp trim'
    rw [line_injective here here' first.symm, ih there there' others.symm]

def Tidy (forest : List (TreeOf File)) : Prop := Every (fun m => Text.Trim m.display) forest

theorem colon_mem_display (m : ModuleId) : ':' ∈ m.display.toList := by
  simp [ModuleId.display]

theorem Tidy.trim (tidy : Tidy forest) : ∀ entry ∈ levels 0 forest, Text.Trim entry.2 := by
  intro entry mem
  obtain ⟨m, eq, trim⟩ := every_of_levels tidy entry mem
  exact eq ▸ trim

/-- A line of a forest is not broken, and ends with what its id ends with. -/
theorem Tidy.line (tidy : Tidy forest) {text : String} (mem : text ∈ (levels 0 forest).map line) :
    '\n' ∉ text.toList ∧ Text.Ends text := by
  obtain ⟨entry, listed, rfl⟩ := List.mem_map.mp mem
  obtain ⟨m, eq, trim⟩ := every_of_levels tidy entry listed
  have written : m.display.toList ≠ [] := List.ne_nil_of_mem (colon_mem_display m)
  have last := List.getLast?_eq_some_getLast written
  refine ⟨?_, _, ?_, trim.ends _ last⟩
  · simp [Report.line, eq, indent, trim.whole]
  · rw [Report.line, String.toList_append, eq, List.getLast?_append, last]
    rfl

theorem trees_eq (tidy : Tidy forest) : trees forest = lines ((levels 0 forest).map line) := by
  cases forest with
  | nil => rfl
  | cons tree rest =>
    have some : (levels 0 (tree :: rest)).map line ≠ [] := by
      obtain ⟨m, configuration, artifacts, children⟩ := tree
      simp [levels, levelsOf]
    have text : nodes 0 (tree :: rest) = lines ((levels 0 (tree :: rest)).map line) ++ "\n" := by
      apply String.toList_inj.mp
      rw [toList_nodes, ← flatMap_line_end some, List.flatMap_map]
    rw [trees, text, Text.trimEnd_line (ends_lines some fun _ mem => (tidy.line mem).2)]

theorem linesOf_trees (tidy : Tidy forest) : Text.linesOf (trees forest) = (levels 0 forest).map line := by
  rw [trees_eq tidy]
  refine linesOf_lines (fun _ mem => (tidy.line mem).1) fun item mem empty => ?_
  obtain ⟨c, last, -⟩ := (tidy.line mem).2
  rw [empty] at last
  cases last

/-- The lines are those of the nodes, depth first, and the blanks in front count the depth. -/
theorem exists_preorder_lines (tidy : Tidy forest) : ∃ nodes, Preorder forest nodes ∧
    Text.linesOf (trees forest) = nodes.map fun n => indent (n.1.length - 1) ++ n.2.module.display := by
  refine ⟨nodesFrom 0 forest, preorder_nodes forest, ?_⟩
  rw [linesOf_trees tidy, levels_eq 0 0 forest, List.map_map]
  refine List.map_congr_left fun n _ => ?_
  rw [Function.comp_apply, line, Nat.zero_add]

theorem idAt?_of_trees (tidy : Tidy forest) (tidy' : Tidy forest') (same : trees forest = trees forest') :
    ∀ place, idAt? forest place = idAt? forest' place := by
  have printed := congrArg Text.linesOf same
  rw [linesOf_trees tidy, linesOf_trees tidy'] at printed
  have entries := lines_injective tidy.trim tidy'.trim printed
  have ended : ∀ entry : Nat × String, ([] : List (Nat × String)).head? = some entry → entry.1 < 0 := nofun
  exact (levels_append_injective ended ended (by rw [entries])).1

/-- Where no part of an id has a colon the ids are the same if they are written alike. -/
theorem moduleAt?_of_idAt? (parted : Every ModuleId.Parted forest) (parted' : Every ModuleId.Parted forest')
    {place : List Nat} (same : idAt? forest place = idAt? forest' place) :
    moduleAt? forest place = moduleAt? forest' place := by
  unfold idAt? at same
  cases here : moduleAt? forest place with
  | none =>
    rw [here, Option.map_none, eq_comm, Option.map_eq_none_iff] at same
    exact same.symm
  | some m =>
    rw [here, Option.map_some, eq_comm, Option.map_eq_some_iff] at same
    obtain ⟨m', there, display⟩ := same
    rw [there, (parted place m here).eq_of_display (parted' place m' there) display.symm]

end

end Report

end Buildpath
