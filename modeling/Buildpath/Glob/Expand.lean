import Buildpath.Disk
import Buildpath.Glob.Pattern

/-! Following a pattern through a disk. Names that are written out are looked up;
only a segment with a wildcard lists a directory, in the order of its names. Behind a
`**` every child is offered to the next segment before the child itself is entered.
What a listing shows is known to be a directory or a file without a look-up, so a path
that is too long comes to light only when the directory at its end has to be listed. -/
namespace Buildpath.Glob

open Disk (Place maxPath)

/-- A directory whose path is too long to list it. -/
structure Unlistable where
  path : Path
deriving DecidableEq, Repr

def Unlistable.message (e : Unlistable) : String :=
  "cannot read glob match under " ++ e.path.text ++ ": " ++ Disk.Fault.nameTooLong.message

/-- A path met on the way, and the place it leads to. -/
structure Reached where
  path : Path
  place : Place

namespace Reached

/-- A leading `.` is left out of the paths found below it. -/
def below (m : Reached) (name : String) : Path :=
  if m.path.components = [.here] then ⟨name⟩ else m.path.join name

def lookUp? (d : Disk) (m : Reached) (name : String) : Option Reached :=
  if (m.below name).text = "" ∨ maxPath < (m.below name).size then none
  else match d.walk m.place.location m.place.links [name] with
    | .ok place => some ⟨m.below name, place⟩
    | .error _ => none

/-- Does a listing show the child as what it leads to? A link is followed by its path,
which must not be too long for it; any other child is what it is. -/
def shows (m : Reached) (name : String) (place : Place) : Bool :=
  (m.below name).size ≤ maxPath || place.location = name :: m.place.location

end Reached

/-- Does a segment behind a `**` take a child of this name? -/
def Segment.takes (name : String) : Segment → Bool
  | .exactly other => other = name
  | .covering ts => covers ts name.toList
  | .anyDirectories => false

/-- `..` and `.`, for a segment that opens with a dot and covers them. -/
def dots (d : Disk) (ts : List Token) (m : Reached) : List Reached :=
  if ts.head? = some (.char '.') then
    ["..", "."].filterMap fun dot =>
      if covers ts dot.toList && (m.path.join dot).size ≤ maxPath then
        match d.walk m.place.location m.place.links [dot] with
        | .ok place => some ⟨m.path.join dot, place⟩
        | .error _ => none
      else none
  else []

mutual
def expand (d : Disk) : List Segment → Reached → Except Unlistable (List Reached)
  | [], m => .ok [m]
  | .exactly name :: rest, m =>
    match m.lookUp? d name with
    | some found => expand d rest found
    | none => .ok []
  | .covering ts :: rest, m =>
    if d.isDirectoryAt m.place.location = false then .ok []
    else if maxPath < m.path.size then .error ⟨m.path⟩
    else
      let children := (d.children m.place).filterMap fun (name, place) =>
        if covers ts name.toList && m.shows name place then some ⟨m.below name, place⟩ else none
      ((dots d ts m ++ children).mapM (expand d rest)).map List.flatten
  | .anyDirectories :: rest, m => descend d (rest.dropWhile (· = .anyDirectories)) m
termination_by segments _ => (segments.length, 0, 0)
decreasing_by
  · exact Prod.Lex.left _ _ (Nat.lt_succ_self _)
  · exact Prod.Lex.left _ _ (Nat.lt_succ_self _)
  · exact Prod.Lex.left _ _ (Nat.lt_succ_of_le (List.dropWhile_sublist _).length_le)

/-- What lies below a directory at any depth: the directories themselves if no
segment follows, else what the following segments find. -/
def descend (d : Disk) (segments : List Segment) (m : Reached) :
    Except Unlistable (List Reached) :=
  if d.isDirectoryAt m.place.location && maxPath < m.path.size then .error ⟨m.path⟩
  else
    let found := (d.children m.place).attach.mapM fun ⟨(name, place), _h⟩ =>
      let inner : Reached := ⟨m.below name, place⟩
      let here : Except Unlistable (List Reached) := match segments with
        | [] => .ok (if d.isDirectoryAt place.location then [inner] else [])
        | segment :: rest => if segment.takes name then expand d rest inner else .ok []
      if m.shows name place then do return (← here) ++ (← descend d segments inner)
      else .ok []
    found.map List.flatten
termination_by (segments.length, Disk.maxLinks - m.place.links, d.below m.place.location)
decreasing_by
  · exact Prod.Lex.left _ _ (by simp)
  · exact Prod.Lex.right _ (Disk.children_descend _h)
end

def Pattern.expand (d : Disk) (p : Pattern) : Except Unlistable (List Reached) :=
  let start : Reached := if p.absolute then ⟨⟨"/"⟩, ⟨[], 0⟩⟩ else ⟨⟨"."⟩, ⟨d.cwd, 0⟩⟩
  if p.segments.isEmpty then .ok []
  else (Glob.expand d p.segments start).map fun reached =>
    reached.filter fun m => !p.directoriesOnly || d.isDirectoryAt m.place.location

/-- The paths of the files among what was reached. -/
def filesAmong (d : Disk) (reached : List Reached) : List Path :=
  (reached.filter fun m => m.path.size ≤ maxPath && d.isFileAt m.place.location).map (·.path)

end Buildpath.Glob
