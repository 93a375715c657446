import Buildpath.CommandLine

/-! The program. Before a command is answered, it reads what the command can look at of
the disk: the listings of the directories that the paths and globs of the project lead
through, and the documents. Of a file that is no document it is enough to know that it
is there. -/
namespace Buildpath.Main

open Disk

/-- What was read so far. -/
structure Seen where
  disk : Disk
  listed : List Location := []
  followed : List (Location × List Glob.Segment) := []

abbrev Reader := StateT Seen IO

/-- The place of an absolute path that holds no links or dots. -/
def locationOf (text : String) : Location := ((Text.cut '/' text).filter (· ≠ "")).reverse

def contentOf (item : IO.FS.DirEntry) : IO ByteArray :=
  if item.fileName = Project.manifestName || item.fileName = Lockfile.documentName then
    IO.FS.readBinFile item.path
  else pure .empty

/-- An entry as its directory lists it. A link to a directory is kept as a link to where
it leads in the end. -/
def entryOf (item : IO.FS.DirEntry) : IO (Option Entry) := do
  match (← item.path.symlinkMetadata).type, (← item.path.metadata).type with
  | .symlink, .dir => return some (.link (← IO.FS.realPath item.path).toString)
  | _, .dir => return some (.directory [])
  | _, .file => return some (.file (← contentOf item))
  | _, _ => return none

/-- Lists a directory, unless that was done. What leads nowhere is left out. -/
def list (l : Location) : Reader Unit := do
  if l ∈ (← get).listed then return
  modify fun seen => { seen with
    listed := l :: seen.listed
    disk := seen.disk.alter l fun known => some (known.getD (.directory [])) }
  let items ← (do (← IO.FS.realPath l.path.text).readDir : IO _).toBaseIO
  for item in items.toOption.getD #[] do
    if let .ok (some entry) ← (entryOf item).toBaseIO then
      modify fun seen => { seen with disk := seen.disk.alter (item.fileName :: l) fun
        | some (.directory children) => some (.directory children)
        | _ => some entry }

mutual
/-- Lists the directories that a pattern leads through, beginning with the one at `l`. -/
partial def explore (l : Location) (segments : List Glob.Segment) : Reader Unit := do
  list l
  match segments with
  | [] => return
  | .exactly name :: rest =>
    if name = "" || name = "." then explore l rest
    else if name = ".." then explore l.tail rest
    else enter (name :: l) rest
  | .covering ts :: rest =>
    if ts.head? = some (.char '.') then
      if Glob.covers ts "..".toList then explore l.tail rest
      if Glob.covers ts ".".toList then explore l rest
    for name in (← get).disk.names l do
      if Glob.covers ts name.toList then enter (name :: l) rest
  | .anyDirectories :: rest =>
    explore l rest
    for name in (← get).disk.names l do
      enter (name :: l) segments

partial def enter (l : Location) (segments : List Glob.Segment) : Reader Unit := do
  match (← get).disk.get? l with
  | some (.directory _) => explore l segments
  | some (.link target) =>
    let step := (locationOf target, segments)
    if step ∈ (← get).followed then return
    modify fun seen => { seen with followed := step :: seen.followed }
    explore step.1 segments
  | _ => return
end

/-- Reads the projects at the given places and those that they depend on. -/
partial def readProjects (done : List Location) : List Location → Reader Unit
  | [] => return
  | l :: rest => do
    if l ∈ done then readProjects done rest
    else
      list l
      match Project.manifestAt (← get).disk l with
      | .error _ => readProjects (l :: done) rest
      | .ok m =>
        for pattern in Project.globs m do
          if let .ok segments := (Glob.stretches pattern).mapM Glob.Segment.parse then
            explore l segments
        for path in Project.neighbours m do
          explore l ((Text.cut '/' path).map .exactly)
        let disk := (← get).disk
        let found := (Project.neighbours m).filterMap fun path => (Project.rootOf disk l path).toOption
        readProjects (l :: done) (found ++ rest)

def answer (command : CommandLine.Command) : IO UInt32 := do
  let directory := (← IO.FS.realPath ".").toString
  if command.verbose then
    IO.eprintln ("resolving `" ++ command.configuration ++ "` in " ++ directory)
  let cwd := locationOf directory
  let (_, seen) ← (readProjects [] [cwd]).run { disk := { cwd } }
  let env : Environment := {
    home := ← IO.getEnv "HOME"
    userProfile := ← IO.getEnv "USERPROFILE" }
  match CommandLine.run seen.disk env command with
  | .ok text => IO.print text; return 0
  | .error failure => IO.eprintln ("error: " ++ failure.message); return 1

end Buildpath.Main

def main (words : List String) : IO UInt32 := do
  match Buildpath.CommandLine.read words with
  | .error .usage => IO.eprint Buildpath.CommandLine.helpText; return 2
  | .error .help => IO.print Buildpath.CommandLine.helpText; return 0
  | .error .version => IO.print Buildpath.CommandLine.versionText; return 0
  | .ok command => Buildpath.Main.answer command
