import Buildpath.Path

/-! A disk as a finite tree of directories, files and symbolic links. A path is followed
from left to right, through links, to a place; at most forty links are followed on the
way, and neither a name nor the text of the path may be too long. Going from a directory
to one of its children either follows a link or leads to a smaller tree, and that is why
every descent ends, also on a disk whose links lead back up. -/
namespace Buildpath

/-- The names from a place up to the top directory, the innermost first. -/
abbrev Location := List String

namespace Disk

inductive Entry where
  | directory (children : List (String × Entry))
  | file (content : ByteArray)
  | link (target : String)

inductive Fault where
  | missing
  | notDirectory
  | isDirectory
  | tooManyLinks
  | nameTooLong
  | nulByte
  | notText
deriving DecidableEq, Repr

def Fault.message : Fault → String
  | .missing => "No such file or directory (os error 2)"
  | .notDirectory => "Not a directory (os error 20)"
  | .isDirectory => "Is a directory (os error 21)"
  | .tooManyLinks => "Too many levels of symbolic links (os error 40)"
  | .nameTooLong => "File name too long (os error 36)"
  | .nulByte => "file name contained an unexpected NUL byte"
  | .notText => "stream did not contain valid UTF-8"

/-- Where a path leads, and how many links were followed to get there. -/
structure Place where
  location : Location
  links : Nat := 0
deriving DecidableEq, Repr

def maxLinks : Nat := 40

/-- The most bytes that a name may have. -/
def maxName : Nat := 255

/-- The most bytes that the text of a path may have. The targets of links on the way are
paths of their own. -/
def maxPath : Nat := 4095

end Disk

open Disk

structure Disk where
  /-- What the top directory holds. -/
  top : List (String × Entry) := []
  /-- The working directory, where relative paths start. -/
  cwd : Location := []

def Location.path (l : Location) : Path := ⟨"/" ++ String.intercalate "/" l.reverse⟩

/-- How many bytes the path of a place takes, a slash in front of each name. -/
def Location.size : Location → Nat
  | [] => 0
  | name :: l => Location.size l + 1 + name.utf8ByteSize

namespace Disk

namespace Entry

/-- What a directory holds. -/
def children? : Entry → Option (List (String × Entry))
  | .directory children => some children
  | _ => none

def child? (e : Entry) (name : String) : Option Entry := e.children?.bind (·.lookup name)

theorem child?_mem {e c : Entry} {name : String} (h : e.child? name = some c) :
    ∃ children, e = .directory children ∧ (name, c) ∈ children := by
  cases e with
  | directory children =>
    obtain ⟨before, after, eq, _⟩ := List.lookup_eq_some_iff.mp h
    exact ⟨children, rfl, by simp [eq]⟩
  | file => simp [child?, children?] at h
  | link => simp [child?, children?] at h

mutual
/-- The places of the directories in an entry that lies at `l`, its own included. -/
def directories (l : Location) : Entry → List Location
  | .directory children => l :: directoriesAmong l children
  | _ => []

def directoriesAmong (l : Location) : List (String × Entry) → List Location
  | [] => []
  | (name, e) :: rest => directories (name :: l) e ++ directoriesAmong l rest
end

theorem directories_subset {l : Location} {name : String} {e : Entry}
    {children : List (String × Entry)} (mem : (name, e) ∈ children) :
    e.directories (name :: l) ⊆ directoriesAmong l children := by
  induction children with
  | nil => simp at mem
  | cons first rest ih =>
    intro k hk
    rw [directoriesAmong]
    rcases List.mem_cons.mp mem with rfl | mem
    · exact List.mem_append_left _ hk
    · exact List.mem_append_right _ (ih mem hk)

theorem child?_smaller {e c : Entry} {name : String} (h : e.child? name = some c) :
    sizeOf c < sizeOf e := by
  obtain ⟨children, rfl, mem⟩ := child?_mem h
  have := List.sizeOf_lt_of_mem mem
  simp at this ⊢
  omega

/-- Changes what some names, read from the top, lead to; `none` is what is not there.
Directories that are missing on the way are made. -/
def alter (change : Option Entry → Option Entry) : List String → Option Entry → Option Entry
  | [], e => change e
  | name :: rest, e =>
    match (e.getD (.directory [])).children? with
    | none => e
    | some children =>
      let others := children.filter (·.1 ≠ name)
      match alter change rest (children.lookup name) with
      | some inner => some (.directory ((name, inner) :: others))
      | none => e.map fun _ => .directory others

end Entry

def get? (d : Disk) : Location → Option Entry
  | [] => some (.directory d.top)
  | name :: l => (d.get? l).bind (·.child? name)

def isDirectoryAt (d : Disk) (l : Location) : Bool := ((d.get? l).bind Entry.children?).isSome

theorem isDirectoryAt_iff {d : Disk} {l : Location} :
    d.isDirectoryAt l = true ↔ ∃ children, d.get? l = some (.directory children) := by
  unfold isDirectoryAt
  cases d.get? l with
  | none => simp
  | some e => cases e <;> simp [Entry.children?]

def isFileAt (d : Disk) (l : Location) : Bool :=
  match d.get? l with
  | some (.file _) => true
  | _ => false

/-- The places of all directories. -/
def directories (d : Disk) : List Location := Entry.directories [] (.directory d.top)

theorem directories_subset {d : Disk} {l : Location} {e : Entry} (h : d.get? l = some e) :
    e.directories l ⊆ d.directories := by
  induction l generalizing e with
  | nil =>
    cases h
    exact List.Subset.refl _
  | cons name l ih =>
    obtain ⟨parent, found, child⟩ := Option.bind_eq_some_iff.mp h
    obtain ⟨children, rfl, mem⟩ := Entry.child?_mem child
    intro k hk
    exact ih found (List.mem_cons_of_mem _ (Entry.directories_subset mem hk))

/-- What has a child is a directory. -/
theorem mem_directories {d : Disk} {l : Location} {name : String} {e : Entry}
    (h : d.get? (name :: l) = some e) : l ∈ d.directories := by
  obtain ⟨parent, found, child⟩ := Option.bind_eq_some_iff.mp h
  obtain ⟨children, rfl, _⟩ := Entry.child?_mem child
  exact directories_subset found (by simp [Entry.directories])

/-- Where the stretches of a path text start: at the top if it is absolute. -/
def start (text : String) (relative : Location) : Location :=
  if Path.isAbsolute text then [] else relative

/-- Follows the stretches of a path. Each of them, also an empty one or a dot, asks
for a directory to be read in. A name has to be short enough only when it is looked up
there. -/
def walk (d : Disk) (l : Location) (links : Nat) : List String → Except Fault Place
  | [] => .ok ⟨l, links⟩
  | stretch :: rest =>
    if d.isDirectoryAt l = false then .error .notDirectory
    else if stretch = "" ∨ stretch = "." then d.walk l links rest
    else if stretch = ".." then d.walk l.tail links rest
    else if maxName < stretch.utf8ByteSize then .error .nameTooLong
    else match d.get? (stretch :: l) with
      | none => .error .missing
      | some (.link target) =>
        if links < maxLinks then
          d.walk (start target l) (links + 1) (Text.cut '/' target ++ rest)
        else .error .tooManyLinks
      | some _ => d.walk (stretch :: l) links rest
termination_by stretches => (maxLinks - links, stretches.length)

theorem walk_links {d : Disk} {l : Location} {links : Nat} {stretches : List String} {q : Place}
    (h : d.walk l links stretches = .ok q) :
    links ≤ q.links ∧ (q.links = links ∨ q.links ≤ maxLinks) := by
  fun_induction walk d l links stretches with
  | case1 => simp at h; subst h; simp
  | case2 => simp at h
  | case3 _ _ _ _ _ _ ih => exact ih h
  | case4 _ _ _ _ _ ih => exact ih h
  | case5 => simp at h
  | case6 => simp at h
  | case7 _ _ _ _ _ _ _ _ _ _ hlt ih => have := ih h; omega
  | case8 => simp at h
  | case9 _ _ _ _ _ _ _ _ _ _ _ ih => exact ih h

/-- Where a path leads when it is followed name by name, so that its text may have any
length. -/
def follow (d : Disk) (p : Path) : Except Fault Place :=
  if '\x00' ∈ p.text.toList then .error .nulByte
  else if p.text = "" then .error .missing
  else d.walk (start p.text d.cwd) 0 (Text.cut '/' p.text)

/-- Where a path leads when it is used as a whole. -/
def locate (d : Disk) (p : Path) : Except Fault Place :=
  if '\x00' ∈ p.text.toList then .error .nulByte
  else if maxPath < p.size then .error .nameTooLong
  else d.follow p

/-- The child `name` of a directory, read as a link if it is one. -/
def child (d : Disk) (p : Place) (name : String) : Except Fault Place :=
  match d.get? (name :: p.location) with
  | none => .error .missing
  | some (.link target) =>
    if p.links < maxLinks then
      d.walk (start target p.location) (p.links + 1) (Text.cut '/' target)
    else .error .tooManyLinks
  | some _ => .ok ⟨name :: p.location, p.links⟩

/-- Only a directory has children. -/
theorem mem_directories_of_child {d : Disk} {p q : Place} {name : String}
    (found : d.child p name = .ok q) : p.location ∈ d.directories := by
  unfold child at found
  split at found
  · simp at found
  · rename_i there
    exact mem_directories there
  · rename_i there
    exact mem_directories there

theorem isDirectoryAt_of_child {d : Disk} {p q : Place} {name : String}
    (found : d.child p name = .ok q) : d.isDirectoryAt p.location = true := by
  obtain ⟨e, there⟩ : ∃ e, d.get? (name :: p.location) = some e := by
    cases entry : d.get? (name :: p.location) with
    | none => simp [child, entry] at found
    | some e => exact ⟨e, rfl⟩
  obtain ⟨parent, found, inner⟩ := Option.bind_eq_some_iff.mp there
  obtain ⟨children, rfl, -⟩ := Entry.child?_mem inner
  exact isDirectoryAt_iff.mpr ⟨children, found⟩

def names (d : Disk) (l : Location) : List String :=
  (((d.get? l).bind Entry.children?).getD []).map (·.1)

def exists? (d : Disk) (p : Path) : Bool := (d.locate p).isOk

/-- The place of a directory that can be listed. -/
def directory (d : Disk) (p : Path) : Except Fault Place :=
  match d.locate p with
  | .error fault => .error fault
  | .ok place => if d.isDirectoryAt place.location then .ok place else .error .notDirectory

def readAt (d : Disk) (l : Location) : Except Fault String :=
  match d.get? l with
  | some (.directory _) => .error .isDirectory
  | some (.file content) =>
    match String.fromUTF8? content with
    | some text => .ok text
    | none => .error .notText
  | _ => .error .missing

theorem readAt_text {d : Disk} {l : Location} {text : String}
    (h : d.get? l = some (.file text.toUTF8)) : d.readAt l = .ok text := by
  have decoded : String.fromUTF8? text.toUTF8 = some text := by
    unfold String.fromUTF8?
    split
    · rfl
    · rename_i invalid
      exact absurd text.isValidUTF8 invalid
  simp only [readAt, h, decoded]

def readText (d : Disk) (p : Path) : Except Fault String :=
  match d.locate p with
  | .error fault => .error fault
  | .ok place => d.readAt place.location

/-- The place a path leads to, without links, dots or doubled slashes. -/
def canonicalize (d : Disk) (p : Path) : Except Fault Location :=
  (d.follow p).map (·.location)

/-! Changes. -/

def alter (d : Disk) (l : Location) (change : Option Entry → Option Entry) : Disk :=
  match Entry.alter change l.reverse (some (.directory d.top)) with
  | some (.directory top) => { d with top }
  | _ => d

/-- Puts an entry at a place, and directories where there is nothing above it. -/
def put (d : Disk) (l : Location) (e : Entry) : Disk := d.alter l fun _ => some e

/-- Enters a directory, making it if its name is missing. -/
def enterOrMake (at_ : Disk × Location) (stretch : String) : Except Fault (Disk × Location) :=
  match at_.1.walk at_.2 0 [stretch] with
  | .ok place =>
    if at_.1.isDirectoryAt place.location then .ok (at_.1, place.location) else .error .notDirectory
  | .error .missing =>
    if (at_.1.get? (stretch :: at_.2)).isSome then .error .missing
    else .ok (at_.1.put (stretch :: at_.2) (.directory []), stretch :: at_.2)
  | .error fault => .error fault

/-- Where a file comes to lie that is written by these stretches: where they lead, and if
only what the last of them names is missing, there. -/
def destination (d : Disk) (l : Location) (links : Nat) (stretches : List String) :
    Except Fault Place :=
  match d.walk l links stretches with
  | .ok place => .ok place
  | .error .missing =>
    match _h : d.walk l links stretches.dropLast with
    | .error fault => .error fault
    | .ok parent =>
      let name := stretches.getLastD ""
      match d.get? (name :: parent.location) with
      | none => .ok ⟨name :: parent.location, parent.links⟩
      | some (.link target) =>
        if parent.links < maxLinks then
          d.destination (start target parent.location) (parent.links + 1) (Text.cut '/' target)
        else .error .tooManyLinks
      | some _ => .error .missing
  | .error fault => .error fault
termination_by maxLinks - links
decreasing_by
  have := walk_links _h
  omega

/-- Writes an entry; missing parent directories are made, and a file is written
through links. -/
def write (d : Disk) (p : Path) (e : Entry) : Except Fault Disk := do
  if maxPath < p.size then throw .nameTooLong
  let stretches := Text.cut '/' p.text
  match e with
  | .directory _ =>
    let (d, _) ← stretches.foldlM enterOrMake (d, start p.text d.cwd)
    return d
  | .file _ =>
    let (d, parent) ← stretches.dropLast.foldlM enterOrMake (d, start p.text d.cwd)
    let place ← d.destination parent 0 [stretches.getLastD ""]
    if d.isDirectoryAt place.location then throw .isDirectory
    return d.put place.location e
  | .link _ =>
    let (d, parent) ← stretches.dropLast.foldlM enterOrMake (d, start p.text d.cwd)
    return d.put (stretches.getLastD "" :: parent) e

/-- Removes a file, a link, or a directory with all below it. -/
def remove (d : Disk) (p : Path) : Except Fault Disk := do
  let stretches := (Text.cut '/' p.text).filter (· ≠ "")
  let parent ← d.walk (start p.text d.cwd) 0 stretches.dropLast
  let l := stretches.getLastD "" :: parent.location
  match d.get? l with
  | none => .error .missing
  | some _ => .ok (d.alter l fun _ => none)

/-! Descents. -/

/-- The size of the tree below a place. -/
noncomputable def below (d : Disk) (l : Location) : Nat := ((d.get? l).map sizeOf).getD 0

theorem below_lt {d : Disk} {name : String} {l : Location} {e : Entry}
    (h : d.get? (name :: l) = some e) : d.below (name :: l) < d.below l := by
  obtain ⟨parent, found, child⟩ := Option.bind_eq_some_iff.mp h
  simp only [below, h, found, Option.map_some, Option.getD_some]
  exact Entry.child?_smaller child

/-- A child is reached through a link, or its tree is smaller. -/
theorem child_descends {d : Disk} {p q : Place} {name : String} (h : d.child p name = .ok q) :
    Prod.Lex (· < ·) (· < ·) (maxLinks - q.links, d.below q.location)
      (maxLinks - p.links, d.below p.location) := by
  unfold child at h
  split at h
  · simp at h
  · split at h
    · have := walk_links h
      exact Prod.Lex.left _ _ (by omega)
    · simp at h
  · rename_i _ he
    simp at h
    subst h
    exact Prod.Lex.right _ (below_lt he)

/-- The children of a directory that lead somewhere, in the order of their names. -/
def children (d : Disk) (p : Place) : List (String × Place) :=
  if d.isDirectoryAt p.location then
    (d.names p.location).mergeSort.filterMap fun name =>
      match d.child p name with
      | .ok place => some (name, place)
      | .error _ => none
  else []

theorem child_of_mem_children {d : Disk} {p q : Place} {name : String}
    (h : (name, q) ∈ d.children p) : d.child p name = .ok q := by
  unfold children at h
  split at h
  · obtain ⟨other, _, ho⟩ := List.mem_filterMap.mp h
    split at ho
    · rename_i hc
      simp only [Option.some.injEq, Prod.mk.injEq] at ho
      rw [← ho.1, ← ho.2, hc]
    · simp at ho
  · simp at h

theorem children_descend {d : Disk} {p q : Place} {name : String} (h : (name, q) ∈ d.children p) :
    Prod.Lex (· < ·) (· < ·) (maxLinks - q.links, d.below q.location)
      (maxLinks - p.links, d.below p.location) :=
  child_descends (child_of_mem_children h)

/-- All files with an extension below a directory, at any depth and through links.
`path` is how the directory was named. What leads nowhere, also because its path is too
long, counts as a file. -/
def filesBelow (d : Disk) (extension : String) (path : Path) (place : Place) : List Path :=
  (d.names place.location).flatMap fun name =>
    let entry := path.join name
    let leaf := if entry.extension? = some extension then [entry] else []
    match _h : d.child place name with
    | .ok inner =>
      if entry.size ≤ maxPath && d.isDirectoryAt inner.location then
        d.filesBelow extension entry inner
      else leaf
    | .error _ => leaf
termination_by (maxLinks - place.links, d.below place.location)
decreasing_by exact child_descends _h

end Disk
end Buildpath
