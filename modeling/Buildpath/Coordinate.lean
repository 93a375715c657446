import Buildpath.Path

/-! Module coordinates `group:artifact:version[:packaging]` and the places of their
files in a repository. A part may hold any text that shows and has no colon; parts
are kept as written, without trimming. -/
namespace Buildpath

structure Coordinate where
  group : String
  artifact : String
  version : String
  packaging : String := "jar"
deriving DecidableEq, Repr

namespace Coordinate

inductive Part where
  | group
  | artifact
  | version
  | packaging
deriving DecidableEq, Repr

def Part.label : Part → String
  | .group => "group_id"
  | .artifact => "artifact_id"
  | .version => "version"
  | .packaging => "packaging"

inductive Fault where
  | partCount (parts : Nat)
  | blankPart (part : Part)
deriving DecidableEq, Repr

structure Malformed where
  text : String
  fault : Fault
deriving DecidableEq, Repr

def Fault.message : Fault → String
  | .partCount parts => s!"expected group:artifact:version[:packaging], got {parts} parts"
  | .blankPart part => s!"{part.label} is empty"

def Malformed.message (e : Malformed) : String :=
  "invalid Maven coordinate \"" ++ e.text ++ "\": " ++ e.fault.message

/-- The leftmost part without a visible character. -/
def firstBlank? (parts : List String) : Option Part :=
  ((parts.zip [.group, .artifact, .version, .packaging]).find? (Text.allBlank ·.1)).map (·.2)

def ofParts? : List String → Option Coordinate
  | [group, artifact, version] => some { group, artifact, version }
  | [group, artifact, version, packaging] => some { group, artifact, version, packaging }
  | _ => none

/-- A wrong number of parts is reported before a blank part. -/
def parse (text : String) : Except Malformed Coordinate :=
  let parts := Text.cut ':' text
  match ofParts? parts with
  | none => .error ⟨text, .partCount parts.length⟩
  | some coordinate =>
    match firstBlank? parts with
    | some part => .error ⟨text, .blankPart part⟩
    | none => .ok coordinate

/-- The id under which a module is locked. The packaging is not part of it. -/
def id (c : Coordinate) : String := c.group ++ ":" ++ c.artifact ++ ":" ++ c.version

/-- Every dot of the group opens a directory of its own. -/
def versionDir (c : Coordinate) (repository : Path) : Path :=
  (((Text.cut '.' c.group).foldl Path.join repository).join c.artifact).join c.version

def fileName (c : Coordinate) (name : String) (classifier : Option String) (extension : String) : String :=
  match classifier with
  | some classifier => name ++ "-" ++ c.version ++ "-" ++ classifier ++ "." ++ extension
  | none => name ++ "-" ++ c.version ++ "." ++ extension

def artifactPath (c : Coordinate) (repository : Path) (name : String)
    (classifier : Option String) (extension : String) : Path :=
  (c.versionDir repository).join (c.fileName name classifier extension)

/-- The file of the module's main artifact. -/
def localPath (c : Coordinate) (repository : Path) : Path :=
  c.artifactPath repository c.artifact none c.packaging

example : parse "g: :1" = .error ⟨"g: :1", .blankPart .artifact⟩ := by rfl
example : (Coordinate.mk "org.a" "b" "1" "war").localPath ⟨"repo"⟩ = ⟨"repo/org/a/b/1/b-1.war"⟩ := by decide

end Coordinate
end Buildpath
