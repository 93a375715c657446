import Buildpath.Text

/-! Paths keep the spelling they were written with. Two paths name the same thing
to a file set when their components agree, so `a//b`, `a/./b` and `a/b/` all are
`a/b`; a leading `.` of a relative path is a component of its own. Order is the
lexicographic order of components, not of spellings. -/
namespace Buildpath

structure Path where
  text : String
deriving DecidableEq, Inhabited, Repr

namespace Path

inductive Component where
  | root
  | here
  | up
  | name (text : String)
deriving DecidableEq, Repr

/-- How many bytes the spelling takes. -/
def size (p : Path) : Nat := p.text.utf8ByteSize

/-- Roots come first, then `.`, then `..`, then names in the order of their characters. -/
def Component.rank : Component → Nat × String
  | .root => (0, "")
  | .here => (1, "")
  | .up => (2, "")
  | .name text => (3, text)

instance : Ord Component where
  compare a b := (compare a.rank.1 b.rank.1).then (compare a.rank.2 b.rank.2)

/-- What a stretch between two slashes stands for, if for anything. -/
def Component.ofStretch? (stretch : String) : Option Component :=
  if stretch = "" ∨ stretch = "." then none
  else if stretch = ".." then some .up
  else some (.name stretch)

def isAbsolute (text : String) : Bool := Text.startsWith '/' text

def components (p : Path) : List Component :=
  let stretches := Text.cut '/' p.text
  let inner := stretches.filterMap Component.ofStretch?
  if isAbsolute p.text then .root :: inner
  else if stretches.head? = some "." then .here :: inner
  else inner

/-- Equal components, whatever the spelling. -/
def Same (p q : Path) : Prop := p.components = q.components

instance (p q : Path) : Decidable (p.Same q) := inferInstanceAs (Decidable (_ = _))

instance : Ord Path where
  compare p q := compare p.components q.components

def sort (paths : List Path) : List Path :=
  paths.mergeSort (fun p q => (compare p q).isLE)

/-- An absolute `text` replaces the path; anything else is written behind it. -/
def join (p : Path) (text : String) : Path :=
  if isAbsolute text then ⟨text⟩
  else if p.text = "" || Text.endsWith '/' p.text then ⟨p.text ++ text⟩
  else ⟨p.text ++ "/" ++ text⟩

def fileName? (p : Path) : Option String :=
  match p.components.getLast? with
  | some (.name text) => some text
  | _ => none

/-- The text after the last dot, unless that dot is missing or opens the name. -/
def extensionOf? (name : String) : Option String :=
  let backwards := name.toList.reverse
  match backwards.dropWhile (· ≠ '.') with
  | _ :: _ :: _ => some (String.ofList (backwards.takeWhile (· ≠ '.')).reverse)
  | _ => none

def extension? (p : Path) : Option String := p.fileName?.bind extensionOf?

theorem Same.symm {p q : Path} (h : p.Same q) : q.Same p := Eq.symm h

@[simp] theorem compare_def (p q : Path) : compare p q = compare p.components q.components := rfl

theorem join_absolute (p : Path) {text : String} (h : isAbsolute text) : p.join text = ⟨text⟩ := by simp [join, h]

example : Same ⟨"a//b/./c/"⟩ ⟨"a/b/c"⟩ := by decide
example : ¬ Same ⟨"./a"⟩ ⟨"a"⟩ := by decide
example : components ⟨"/"⟩ = [.root] := by decide
example : extension? ⟨"lib/.hidden"⟩ = none := by decide
example : extension? ⟨"a.tar.gz"⟩ = some "gz" := by decide

end Path
end Buildpath
