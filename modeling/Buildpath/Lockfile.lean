import Buildpath.Manifest

/-! Lock documents: a module graph that was resolved before. A module is listed with
the ids of the modules it depends on and with its artifacts. -/
namespace Buildpath

namespace Lockfile

def documentName : String := "ferrule.lock"

structure LockedArtifact where
  name : Option String := none
  extension : String := "jar"
  classifier : Option String := none
deriving DecidableEq, Repr

structure LockedModule where
  id : String
  dependencies : List String := []
  /-- None means the one main artifact. -/
  artifacts : List LockedArtifact := []
deriving DecidableEq, Repr

end Lockfile

open Lockfile

structure Lockfile where
  modules : List LockedModule := []
deriving DecidableEq, Repr

inductive LockfileError where
  | read (path : Path) (fault : Disk.Fault)
  | parse (path : Path) (fault : Unreadable)
  | duplicate (path : Path) (id : String)

def LockfileError.message : LockfileError → String
  | .read path fault => "cannot read " ++ path.text ++ ": " ++ fault.message
  | .parse path fault => "invalid ferrule.lock at " ++ path.text ++ ": " ++ fault.message
  | .duplicate path id =>
    "invalid ferrule.lock at " ++ path.text ++ ": module `" ++ id ++ "` is locked more than once"

namespace Lockfile

open Toml (Value Read)

def LockedArtifact.read (v : Value) : Read LockedArtifact := do
  let fields ← v.asRecord "ArtifactLock" ["name", "extension", "classifier"]
  fields.fill (fun key v draft => match key with
    | "name" => return { draft with name := some (← v.asText) }
    | "extension" => return { draft with extension := ← v.asText }
    | "classifier" => return { draft with classifier := some (← v.asText) }
    | _ => return draft) {}

structure ModuleDraft where
  id : Option String := none
  dependencies : List String := []
  artifacts : List LockedArtifact := []

def LockedModule.read (v : Value) : Read LockedModule := do
  let fields ← v.asRecord "ModuleLock" ["id", "dependencies", "artifacts"]
  let draft : ModuleDraft ← fields.fill (fun key v draft => match key with
    | "id" => return { draft with id := some (← v.asText) }
    | "dependencies" => return { draft with dependencies := ← v.asList Value.asText }
    | "artifacts" => return { draft with artifacts := ← v.asList LockedArtifact.read }
    | _ => return draft) {}
  return { id := ← fields.require "id" draft.id, dependencies := draft.dependencies,
           artifacts := draft.artifacts }

def read (v : Value) : Read Lockfile := do
  let fields ← v.asRecord "Lockfile" ["module"]
  fields.fill (fun key v draft => match key with
    | "module" => return { draft with modules := ← v.asList LockedModule.read }
    | _ => return draft) {}

def parse (text : String) : Except Unreadable Lockfile :=
  match Toml.parse? text with
  | none => .error .syntaxFault
  | some v => (read v).mapError .shape

/-- The first id that repeats an earlier one. -/
def firstRepeat? (seen : List String) : List LockedModule → Option String
  | [] => none
  | m :: rest => if m.id ∈ seen then some m.id else firstRepeat? (m.id :: seen) rest

/-- Decodes the text of the lock document at `path`; no id may be locked twice. -/
def ofText (path : Path) (text : String) : Except LockfileError Lockfile := do
  let lockfile ← (parse text).mapError (.parse path)
  match firstRepeat? [] lockfile.modules with
  | some id => .error (.duplicate path id)
  | none => return lockfile

/-- A missing document locks nothing. -/
def load (d : Disk) (path : Path) : Except LockfileError Lockfile := do
  if d.exists? path then
    let text ← (d.readText path).mapError (.read path)
    ofText path text
  else return {}

/-- The first entry with this id. -/
def module? (l : Lockfile) (id : String) : Option LockedModule :=
  l.modules.find? (·.id = id)

end Lockfile
end Buildpath
