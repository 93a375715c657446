import Buildpath.Context
import Buildpath.Proofs.FirstFault
import Mathlib.Data.List.Basic

/-! The outline of a disk: its directories, links and names, without what its files say.
Nothing that follows, lists or matches paths opens a file, so each of these operations gives
on the outline what it gives on the disk, and disks with one outline list the same files. -/
namespace Buildpath

namespace Disk

mutual
/-- The entry with every file emptied. -/
def Entry.outline : Entry → Entry
  | .directory children => .directory (Entry.outlineEach children)
  | .file _ => .file .empty
  | .link target => .link target

def Entry.outlineEach : List (String × Entry) → List (String × Entry)
  | [] => []
  | (name, e) :: rest => (name, e.outline) :: Entry.outlineEach rest
end

def outline (d : Disk) : Disk := { d with top := Entry.outlineEach d.top }

namespace Entry

theorem lookup_outlineEach (children : List (String × Entry)) (name : String) :
    (outlineEach children).lookup name = (children.lookup name).map outline := by
  induction children with
  | nil => rfl
  | cons first rest ih =>
    obtain ⟨other, e⟩ := first
    rw [outlineEach, List.lookup_cons, List.lookup_cons]
    cases name == other
    · exact ih
    · rfl

theorem map_fst_outlineEach (children : List (String × Entry)) :
    (outlineEach children).map (·.1) = children.map (·.1) := by
  induction children with
  | nil => rfl
  | cons first rest ih => rw [outlineEach, List.map_cons, List.map_cons, ih]

@[simp] theorem children?_outline (e : Entry) : e.outline.children? = e.children?.map outlineEach := by
  cases e <;> rfl

@[simp] theorem child?_outline (e : Entry) (name : String) :
    e.outline.child? name = (e.child? name).map outline := by
  rw [child?, child?, children?_outline]
  cases e.children? with
  | none => rfl
  | some children => exact lookup_outlineEach children name

end Entry

variable (d : Disk)

@[simp] theorem cwd_outline : d.outline.cwd = d.cwd := rfl

@[simp] theorem get?_outline (l : Location) : d.outline.get? l = (d.get? l).map Entry.outline := by
  induction l with
  | nil => rfl
  | cons name l ih =>
    rw [get?, get?, ih]
    cases d.get? l with
    | none => rfl
    | some e => exact e.child?_outline name

theorem children?_get?_outline (l : Location) : (d.outline.get? l).bind Entry.children? =
    ((d.get? l).bind Entry.children?).map Entry.outlineEach := by
  rw [get?_outline]
  cases d.get? l with
  | none => rfl
  | some e => exact e.children?_outline

@[simp] theorem isDirectoryAt_outline (l : Location) : d.outline.isDirectoryAt l = d.isDirectoryAt l := by
  rw [isDirectoryAt, children?_get?_outline, Option.isSome_map, isDirectoryAt]

@[simp] theorem isFileAt_outline (l : Location) : d.outline.isFileAt l = d.isFileAt l := by
  rw [isFileAt, get?_outline, isFileAt]
  cases d.get? l with
  | none => rfl
  | some e => cases e <;> rfl

@[simp] theorem names_outline (l : Location) : d.outline.names l = d.names l := by
  rw [names, children?_get?_outline, names]
  cases (d.get? l).bind Entry.children? with
  | none => rfl
  | some children => exact Entry.map_fst_outlineEach children

@[simp] theorem walk_outline (l : Location) (links : Nat) (stretches : List String) :
    d.outline.walk l links stretches = d.walk l links stretches := by
  fun_induction walk d l links stretches with
  | case1 => rw [walk]
  | case2 _ _ _ _ stuck => rw [walk, isDirectoryAt_outline, if_pos stuck]
  | case3 _ _ _ _ there skip ih => rw [walk, isDirectoryAt_outline, if_neg there, if_pos skip, ih]
  | case4 _ _ _ there skip ih =>
    rw [walk, isDirectoryAt_outline, if_neg there, if_neg skip, if_pos rfl, ih]
  | case5 _ _ _ _ there skip up long =>
    rw [walk, isDirectoryAt_outline, if_neg there, if_neg skip, if_neg up, if_pos long]
  | case6 _ _ _ _ there skip up short missing =>
    rw [walk, isDirectoryAt_outline, if_neg there, if_neg skip, if_neg up, if_neg short,
      get?_outline, missing, Option.map_none]
  | case7 _ _ _ _ there skip up short _ found few ih =>
    rw [walk, isDirectoryAt_outline, if_neg there, if_neg skip, if_neg up, if_neg short,
      get?_outline, found, Option.map_some, Entry.outline]
    simp only [if_pos few, ih]
  | case8 _ _ _ _ there skip up short _ found many =>
    rw [walk, isDirectoryAt_outline, if_neg there, if_neg skip, if_neg up, if_neg short,
      get?_outline, found, Option.map_some, Entry.outline]
    simp only [if_neg many]
  | case9 _ _ _ _ there skip up short e plain found ih =>
    rw [walk, isDirectoryAt_outline, if_neg there, if_neg skip, if_neg up, if_neg short,
      get?_outline, found, Option.map_some]
    cases e with
    | directory => exact ih
    | file => exact ih
    | link target => exact absurd rfl (plain target)

@[simp] theorem follow_outline (p : Path) : d.outline.follow p = d.follow p := by
  simp only [follow, walk_outline, cwd_outline]

@[simp] theorem locate_outline (p : Path) : d.outline.locate p = d.locate p := by
  simp only [locate, follow_outline]

@[simp] theorem exists?_outline (p : Path) : d.outline.exists? p = d.exists? p := by
  rw [exists?, locate_outline, exists?]

@[simp] theorem directory_outline (p : Path) : d.outline.directory p = d.directory p := by
  simp only [directory, locate_outline, isDirectoryAt_outline]

@[simp] theorem canonicalize_outline (p : Path) : d.outline.canonicalize p = d.canonicalize p := by
  rw [canonicalize, follow_outline, canonicalize]

@[simp] theorem child_outline (p : Place) (name : String) : d.outline.child p name = d.child p name := by
  rw [child, get?_outline, child]
  cases d.get? (name :: p.location) with
  | none => rfl
  | some e =>
    cases e with
    | link target => simp only [Option.map_some, Entry.outline, walk_outline]
    | directory => rfl
    | file => rfl

@[simp] theorem children_outline (p : Place) : d.outline.children p = d.children p := by
  simp only [children, isDirectoryAt_outline, names_outline, child_outline]

/-- The search below a directory, without what shows that it ends. -/
theorem filesBelow_eq (extension : String) (path : Path) (place : Place) :
    d.filesBelow extension path place = (d.names place.location).flatMap fun name =>
      let entry := path.join name
      let leaf := if entry.extension? = some extension then [entry] else []
      match d.child place name with
      | .ok inner =>
        if entry.size ≤ maxPath && d.isDirectoryAt inner.location then
          d.filesBelow extension entry inner
        else leaf
      | .error _ => leaf := by
  rw [filesBelow]
  congr 1
  funext name
  split <;> rename_i found <;> simp only [found]

@[simp] theorem filesBelow_outline (extension : String) (path : Path) (place : Place) :
    d.outline.filesBelow extension path place = d.filesBelow extension path place := by
  induction path, place using filesBelow.induct d with
  | case1 path place ih =>
    rw [filesBelow_eq, filesBelow_eq, names_outline]
    congr 1
    funext name
    rw [child_outline]
    cases found : d.child place name with
    | error => rfl
    | ok inner => simp only [isDirectoryAt_outline, ih name inner found]

end Disk

namespace Glob

open Disk

variable (d : Disk)

@[simp] theorem lookUp?_outline (m : Reached) (name : String) :
    m.lookUp? d.outline name = m.lookUp? d name := by
  simp only [Reached.lookUp?, walk_outline]

@[simp] theorem dots_outline (ts : List Token) (m : Reached) : dots d.outline ts m = dots d ts m := by
  simp only [dots, walk_outline]

/-- What the children of a directory give, without what shows that the descent ends. -/
theorem descend_eq (segments : List Segment) (m : Reached) : descend d segments m =
    if d.isDirectoryAt m.place.location && maxPath < m.path.size then .error ⟨m.path⟩
    else ((d.children m.place).mapM fun (name, place) =>
      let inner : Reached := ⟨m.below name, place⟩
      let here : Except Unlistable (List Reached) := match segments with
        | [] => .ok (if d.isDirectoryAt place.location then [inner] else [])
        | segment :: rest => if segment.takes name then expand d rest inner else .ok []
      if m.shows name place then do return (← here) ++ (← descend d segments inner)
      else .ok []).map List.flatten := by
  rw [descend]
  congr 1
  exact congrArg (Except.map List.flatten) (mapM_attach fun _ _ => rfl)

mutual
theorem expand_outline (segments : List Segment) (m : Reached) :
    expand d.outline segments m = expand d segments m := by
  match segments with
  | [] => rw [expand, expand]
  | .exactly name :: rest =>
    rw [expand, expand, lookUp?_outline]
    cases m.lookUp? d name with
    | none => rfl
    | some found => exact expand_outline rest found
  | .covering ts :: rest =>
    have below : expand d.outline rest = expand d rest := funext fun inner => expand_outline rest inner
    rw [expand, expand]
    simp only [isDirectoryAt_outline, children_outline, dots_outline, below]
  | .anyDirectories :: rest =>
    rw [expand, expand]
    exact descend_outline _ m
termination_by (segments.length, 0, 0)
decreasing_by
  · exact Prod.Lex.left _ _ (Nat.lt_succ_self _)
  · exact Prod.Lex.left _ _ (Nat.lt_succ_self _)
  · exact Prod.Lex.left _ _ (Nat.lt_succ_of_le (List.dropWhile_sublist _).length_le)

theorem descend_outline (segments : List Segment) (m : Reached) :
    descend d.outline segments m = descend d segments m := by
  rw [descend_eq, descend_eq]
  simp only [isDirectoryAt_outline, children_outline]
  congr 2
  refine mapM_congr fun child mem => ?_
  obtain ⟨name, place⟩ := child
  have inner := descend_outline segments ⟨m.below name, place⟩
  match segments with
  | [] => simp only [inner]
  | segment :: rest => simp only [inner, expand_outline rest]
termination_by (segments.length, maxLinks - m.place.links, d.below m.place.location)
decreasing_by
  · exact Prod.Lex.right _ (children_descend mem)
  · exact Prod.Lex.left _ _ (by simp)
end

theorem Pattern.expand_outline (p : Pattern) : p.expand d.outline = p.expand d := by
  simp only [Pattern.expand, Glob.expand_outline, isDirectoryAt_outline, cwd_outline]

@[simp] theorem filesAmong_outline (reached : List Reached) :
    filesAmong d.outline reached = filesAmong d reached := by
  simp only [filesAmong, isFileAt_outline]

end Glob

namespace Collection

open Disk

variable (d : Disk)

@[simp] theorem globFiles_outline (base : Path) (pattern : String) :
    globFiles d.outline base pattern = globFiles d base pattern := by
  simp only [globFiles, Glob.Pattern.expand_outline, Glob.filesAmong_outline]

@[simp] theorem extensionFiles_outline (directory : Path) (extension : String) :
    extensionFiles d.outline directory extension = extensionFiles d directory extension := by
  simp only [extensionFiles, directory_outline, filesBelow_outline]

mutual
theorem files_outline : ∀ c : Collection, c.files d.outline = c.files d
  | .list _ => rfl
  | .glob base text => globFiles_outline d base text
  | .extension directory wanted => extensionFiles_outline d directory wanted
  | .union members => filesOfEach_outline members

theorem filesOfEach_outline : ∀ members : List Collection,
    filesOfEach d.outline members = filesOfEach d members
  | [] => rfl
  | c :: cs => by rw [filesOfEach, filesOfEach, files_outline c, filesOfEach_outline cs]
end

end Collection

/-! Disks with one outline. -/

section
variable {d d' : Disk}

theorem Disk.canonicalize_congr (same : d'.outline = d.outline) (p : Path) :
    d'.canonicalize p = d.canonicalize p := by
  rw [← canonicalize_outline, same, canonicalize_outline]

theorem Disk.exists?_congr (same : d'.outline = d.outline) (p : Path) : d'.exists? p = d.exists? p := by
  rw [← exists?_outline, same, exists?_outline]

theorem Disk.child_congr (same : d'.outline = d.outline) (p : Disk.Place) (name : String) :
    d'.child p name = d.child p name := by
  rw [← child_outline, same, child_outline]

theorem Context.files_congr (same : d'.outline = d.outline) (ctx : Context) :
    ctx.files d' = ctx.files d := by
  have each (c : Collection) : c.files d' = c.files d := by
    rw [← c.files_outline, same, c.files_outline]
  simp only [Context.files, each]

end
end Buildpath
