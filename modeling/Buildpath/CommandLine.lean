import Buildpath.Home
import Buildpath.Lockfile.Resolve
import Buildpath.Project
import Buildpath.Report

/-! The command line. Words are read from left to right; the first fault, request for
help or request for the version ends the reading. A switch is given at most once on
each side of the command word; the two global ones are taken on both sides, and the
one behind the command word wins. -/
namespace Buildpath.CommandLine

inductive Switch where
  | verbose
  | repository
  | configuration
  | intransitive
  | extension
  | json
  | help
  | version
deriving DecidableEq, Repr

namespace Switch

def long : Switch → String
  | verbose => "verbose"
  | repository => "repository"
  | configuration => "configuration"
  | intransitive => "intransitive"
  | extension => "extension"
  | json => "json"
  | help => "help"
  | version => "version"

def short? : Switch → Option Char
  | verbose => some 'v'
  | configuration => some 'c'
  | help => some 'h'
  | version => some 'V'
  | _ => none

def takesValue : Switch → Bool
  | repository | configuration | extension => true
  | _ => false

end Switch

/-- What ends the reading early. -/
inductive Stop where
  | usage
  | help
  | version
deriving DecidableEq, Repr

/-- The switches read so far, each with its value. -/
abbrev Found := List (Switch × String)

/-- Takes in a switch. A path must not be empty. -/
def Found.put (found : Found) (s : Switch) (value : String) : Except Stop Found :=
  if s = .help then .error .help
  else if s = .version then .error .version
  else if found.any (·.1 = s) || (s = .repository && value = "") then .error .usage
  else .ok (found ++ [(s, value)])

/-- Reads the letters behind one dash. The rest of the word, less an equals sign, is the
value of the first letter that takes one; if nothing is left, the next word is. -/
def readLetters (known : List Switch) (found : Found) : List Char → Except Stop (Found × Option Switch)
  | [] => .ok (found, none)
  | c :: rest =>
    match known.find? (·.short? = some c) with
    | none => .error .usage
    | some s =>
      if s.takesValue then
        match rest with
        | [] => .ok (found, some s)
        | '=' :: value => (found.put s (String.ofList value)).map (·, none)
        | value => (found.put s (String.ofList value)).map (·, none)
      else do readLetters known (← found.put s "") rest

/-- Reads a word behind two dashes. -/
def readLong (known : List Switch) (found : Found) (word : List Char) :
    Except Stop (Found × Option Switch) :=
  let name := String.ofList (word.takeWhile (· ≠ '='))
  match known.find? (·.long = name), word.dropWhile (· ≠ '=') with
  | none, _ => .error .usage
  | some s, [] => if s.takesValue then .ok (found, some s) else (found.put s "").map (·, none)
  | some s, _ :: value =>
    if s.takesValue then (found.put s (String.ofList value)).map (·, none) else .error .usage

/-- Starts with a dash and has more to it; a lone dash is a plain word. -/
def isSwitchWord (word : String) : Bool :=
  match word.toList with
  | '-' :: _ :: _ => true
  | _ => false

def readSwitch (known : List Switch) (found : Found) (word : String) :
    Except Stop (Found × Option Switch) :=
  match word.toList with
  | '-' :: '-' :: name => readLong known found name
  | _ :: letters => readLetters known found letters
  | [] => .error .usage

/-- A switch whose value is a word of its own. It is not taken in before the next
switch or the end of the words, so a request for help behind a command word comes first. -/
abbrev Pending := Option (Switch × String)

def Found.settle (found : Found) : Pending → Except Stop Found
  | some (s, value) => found.put s value
  | none => .ok found

/-- What was read up to the first plain word, and that word with what follows it. -/
structure Words where
  found : Found
  pending : Pending
  plain : Option (String × List String)

/-- Reads up to the first plain word. Behind two lone dashes nothing may follow. -/
def readWords (known : List Switch) (found : Found) (pending : Pending) :
    List String → Except Stop Words
  | [] => .ok ⟨found, pending, none⟩
  | word :: rest =>
    if word = "--" then
      if rest.isEmpty then .ok ⟨found, pending, none⟩ else .error .usage
    else if isSwitchWord word then
      match found.settle pending with
      | .error stop => .error stop
      | .ok found =>
        match readSwitch known found word with
        | .error stop => .error stop
        | .ok (found, none) => readWords known found none rest
        | .ok (found, some s) =>
          match rest with
          | [] => .error .usage
          | value :: rest =>
            if isSwitchWord value then .error .usage
            else readWords known found (some (s, value)) rest
    else .ok ⟨found, pending, some (word, rest)⟩

inductive Question where
  | files (intransitive : Bool) (extension : Option String)
  | deps
  | artifacts
deriving DecidableEq, Repr

structure Command where
  question : Question
  configuration : String
  json : Bool
  repository : Option String
  verbose : Bool
deriving DecidableEq, Repr

def switchesOf? : String → Option (List Switch)
  | "files" => some [.verbose, .repository, .configuration, .intransitive, .extension, .json, .help]
  | "deps" => some [.verbose, .repository, .configuration, .json, .help]
  | "artifacts" => some [.verbose, .repository, .configuration, .json, .help]
  | _ => none

def Found.given (found : Found) (s : Switch) : Bool := found.any (·.1 = s)

/-- The switches behind the command word. -/
def readInner (word : String) (rest : List String) : Except Stop Found := do
  let some known := switchesOf? word | .error .usage
  let words ← readWords known [] none rest
  if words.plain.isSome then .error .usage else words.found.settle words.pending

def question (word : String) (found : Found) : Question :=
  match word with
  | "files" => .files (found.given .intransitive) (found.lookup .extension)
  | "deps" => .deps
  | _ => .artifacts

/-- Help can be asked for at most one command. -/
def isTopic : List String → Bool
  | [] => true
  | [word] => word = "help" || (switchesOf? word).isSome
  | _ => false

def read (words : List String) : Except Stop Command := do
  let outer ← readWords [.verbose, .repository, .help, .version] [] none words
  match outer.plain with
  | none => .error .usage
  | some ("help", topic) => .error (if isTopic topic then .help else .usage)
  | some (word, rest) =>
    let inner ← readInner word rest
    let outer ← outer.found.settle outer.pending
    return {
      question := question word inner
      configuration := (inner.lookup .configuration).getD "compile"
      json := inner.given .json
      repository := inner.lookup .repository <|> outer.lookup .repository
      verbose := inner.given .verbose || outer.given .verbose }

/-! Answering a command. -/

inductive Failure where
  | noManifest
  | home (error : HomeError)
  | resolve (error : ResolveError)

def Failure.message : Failure → String
  | .noManifest => "no ferrule.toml found in current directory"
  | .home error => error.message
  | .resolve error => error.message

/-- The working directory, if it is a project. -/
def projectRoot (d : Disk) : Except Failure Path :=
  let root := Location.path d.cwd
  if d.exists? (root.join Project.manifestName) then .ok root else .error .noManifest

/-- The heap and the merged view that a command is answered from. -/
def resolve (d : Disk) (root repository : Path) (configuration : String) (intransitive : Bool) :
    Except ResolveError (Heap × View) := do
  let (h, heap) ← Project.load d root configuration {}
  let heap := if intransitive then heap.setTransitive h false else heap
  let lockfile ← (Lockfile.load d (root.join Lockfile.documentName)).mapError .lockfile
  let view ← View.resolve (lockfile.backend repository) heap h
  return (heap, view)

def extensionFilter : Option String → Filter
  | some extension => Filter.when (·.extension = extension)
  | none => Filter.all

/-- The files that a `files` command lists. -/
def files (d : Disk) (root repository : Path) (configuration : String) (intransitive : Bool)
    (extension : Option String) : Except ResolveError (List Path) := do
  let (heap, view) ← resolve d root repository configuration intransitive
  view.files heap d (extensionFilter extension)

def printFiles (json : Bool) (paths : List Path) : String :=
  if json then (Json.list (paths.map fun p => .text p.text)).display
  else Report.lines (paths.map (·.text))

def printTrees (json : Bool) (trees : List Tree) : String :=
  if json then (Json.list (Report.treesJson trees)).display else Report.trees trees

def printArtifacts (json : Bool) (artifacts : List Artifact) : String :=
  if json then (Json.list (artifacts.map Report.artifactJson)).display
  else Report.lines (artifacts.map Report.artifactLine)

def answer (d : Disk) (root repository : Path) (c : Command) : Except ResolveError String :=
  match c.question with
  | .files intransitive extension =>
    (files d root repository c.configuration intransitive extension).map (printFiles c.json)
  | .deps => do
    let (_, view) ← resolve d root repository c.configuration false
    return printTrees c.json (← view.backend.firstLevel)
  | .artifacts => do
    let (_, view) ← resolve d root repository c.configuration false
    return printArtifacts c.json (← view.backend.artifacts)

/-- What a command prints; nothing at all, not even a line end, if there is nothing to list. -/
def run (d : Disk) (env : Environment) (c : Command) : Except Failure String := do
  let root ← projectRoot d
  let repository ← match c.repository with
    | some path => pure ⟨path⟩
    | none => env.repository.mapError .home
  let output ← (answer d root repository c).mapError .resolve
  return if output = "" then "" else output ++ "\n"

def versionText : String := "ferrule 1.0.0\n"

def helpText : String := Report.lines [
  "Resolve the files of a project configuration",
  "",
  "Usage: ferrule [-v] [--repository PATH] COMMAND",
  "",
  "Commands:",
  "  files [-c NAME] [--intransitive] [--extension EXTENSION] [--json]",
  "  deps [-c NAME] [--json]",
  "  artifacts [-c NAME] [--json]",
  "  help [COMMAND]",
  ""]

end Buildpath.CommandLine
