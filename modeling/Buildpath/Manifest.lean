import Buildpath.Disk
import Buildpath.Toml.Document
import Buildpath.Toml.Shape

/-! Project manifests: the package with the globs of what it publishes, and named
configurations of dependencies, each of which has to name exactly one source. -/
namespace Buildpath

namespace Manifest

structure Package where
  name : String
  artifacts : List String := ["build/libs/*.jar"]
deriving DecidableEq, Repr

/-- A dependency as it is declared; nothing says yet that it makes sense. -/
structure Declaration where
  files : Option (List String) := none
  glob : Option String := none
  module : Option String := none
  project : Option String := none
  configuration : Option String := none
  transitive : Option Bool := none
deriving DecidableEq, Repr

structure Section where
  transitive : Bool := true
  dependencies : List Declaration := []
deriving DecidableEq, Repr

/-- Where a dependency comes from. -/
inductive Source where
  | files (paths : List String)
  | glob (pattern : String)
  | module (coordinate : String)
  | project (path : String) (configuration : Option String)
deriving DecidableEq, Repr

inductive SourceFault where
  | none
  | several
deriving DecidableEq, Repr

def SourceFault.message : SourceFault → String
  | .none => "dependency must set one of `files`, `glob`, `module`, or `project`"
  | .several => "dependency sets more than one of `files`, `glob`, `module`, `project`"

namespace Declaration

def sources (d : Declaration) : List Source :=
  (d.files.map Source.files).toList ++ (d.glob.map Source.glob).toList ++
    (d.module.map Source.module).toList ++
    (d.project.map (Source.project · d.configuration)).toList

def source (d : Declaration) : Except SourceFault Source :=
  match d.sources with
  | [] => .error .none
  | [source] => .ok source
  | _ => .error .several

end Declaration
end Manifest

open Manifest

structure Manifest where
  package : Package
  /-- By name, in the order of the document. -/
  configurations : List (String × Section)
deriving DecidableEq, Repr

/-- What is wrong with the text of a document. -/
inductive Unreadable where
  | syntaxFault
  | shape (error : Toml.ShapeError)

def Unreadable.message : Unreadable → String
  | .syntaxFault => "syntax"
  | .shape error => error.message

inductive ManifestError where
  | read (path : Path) (fault : Disk.Fault)
  | parse (path : Path) (fault : Unreadable)
  /-- The place is a configuration and a position in it, counted from one; a
  declaration that is looked at by itself has none. -/
  | invalid (place : Option (String × Nat)) (fault : SourceFault)
  | unknownConfiguration (package : String) (name : String)

def ManifestError.message : ManifestError → String
  | .read path fault => "cannot read " ++ path.text ++ ": " ++ fault.message
  | .parse path fault => "invalid ferrule.toml at " ++ path.text ++ ": " ++ fault.message
  | .invalid none fault => "invalid ferrule.toml: " ++ fault.message
  | .invalid (some (name, position)) fault =>
    "invalid ferrule.toml: configuration `" ++ name ++ s!"`, dependency #{position}: " ++ fault.message
  | .unknownConfiguration package name =>
    "project `" ++ package ++ "` has no configuration named `" ++ name ++ "`"

namespace Manifest

open Toml (Value Read)

structure PackageDraft where
  name : Option String := none
  artifacts : List String := ["build/libs/*.jar"]

def Package.read (v : Value) : Read Package := do
  let fields ← v.asRecord "Package" ["name", "artifacts"]
  let draft : PackageDraft ← fields.fill (fun key v draft => match key with
    | "name" => return { draft with name := some (← v.asText) }
    | "artifacts" => return { draft with artifacts := ← v.asList Value.asText }
    | _ => return draft) {}
  return { name := ← fields.require "name" draft.name, artifacts := draft.artifacts }

def Declaration.read (v : Value) : Read Declaration := do
  let fields ← v.asRecord "DependencySpec"
    ["files", "glob", "module", "project", "configuration", "transitive"]
  fields.fill (fun key v draft => match key with
    | "files" => return { draft with files := some (← v.asList Value.asText) }
    | "glob" => return { draft with glob := some (← v.asText) }
    | "module" => return { draft with module := some (← v.asText) }
    | "project" => return { draft with project := some (← v.asText) }
    | "configuration" => return { draft with configuration := some (← v.asText) }
    | "transitive" => return { draft with transitive := some (← v.asBoolean) }
    | _ => return draft) {}

def Section.read (v : Value) : Read Section := do
  let fields ← v.asRecord "ConfigurationSpec" ["transitive", "dependencies"]
  fields.fill (fun key v draft => match key with
    | "transitive" => return { draft with transitive := ← v.asBoolean }
    | "dependencies" => return { draft with dependencies := ← v.asList Declaration.read }
    | _ => return draft) {}

structure Draft where
  package : Option Package := none
  configurations : List (String × Section) := []

def read (v : Value) : Read Manifest := do
  let fields ← v.asRecord "Manifest" ["package", "configurations"]
  let draft : Draft ← fields.fill (fun key v draft => match key with
    | "package" => return { draft with package := some (← Package.read v) }
    | "configurations" => return { draft with configurations := ← v.asMap Section.read }
    | _ => return draft) {}
  return { package := ← fields.require "package" draft.package,
           configurations := draft.configurations }

def parse (text : String) : Except Unreadable Manifest :=
  match Toml.parse? text with
  | none => .error .syntaxFault
  | some v => (read v).mapError .shape

/-- The position, counted from one, of the first declaration without a single source. -/
def firstFault (position : Nat) : List Declaration → Option (Nat × SourceFault)
  | [] => none
  | d :: rest =>
    match d.source with
    | .error fault => some (position, fault)
    | .ok _ => firstFault (position + 1) rest

def firstFaultOfEach : List (String × Section) → Option (String × Nat × SourceFault)
  | [] => none
  | (name, s) :: rest =>
    match firstFault 1 s.dependencies with
    | some (position, fault) => some (name, position, fault)
    | none => firstFaultOfEach rest

/-- Configurations are checked in the order of their names. -/
def validate (m : Manifest) : Except ManifestError Unit :=
  match firstFaultOfEach (m.configurations.mergeSort (fun a b => a.1 ≤ b.1)) with
  | some (name, position, fault) => .error (.invalid (some (name, position)) fault)
  | none => .ok ()

/-- Decodes and checks the text of the manifest at `path`. -/
def ofText (path : Path) (text : String) : Except ManifestError Manifest := do
  let manifest ← (parse text).mapError (.parse path)
  manifest.validate
  return manifest

def load (d : Disk) (path : Path) : Except ManifestError Manifest := do
  let text ← (d.readText path).mapError (.read path)
  ofText path text

def configuration (m : Manifest) (name : String) : Except ManifestError Section :=
  match m.configurations.lookup name with
  | some found => .ok found
  | none => .error (.unknownConfiguration m.package.name name)

theorem exists_configuration {m : Manifest} {c : String × Section} (mem : c ∈ m.configurations) :
    ∃ s, m.configuration c.1 = .ok s := by
  rw [configuration]
  cases found : m.configurations.lookup c.1 with
  | some s => exact ⟨s, rfl⟩
  | none => simpa using List.lookup_eq_none_iff.mp found c mem

end Manifest
end Buildpath
