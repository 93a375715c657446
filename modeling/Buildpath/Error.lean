import Buildpath.Context
import Buildpath.Lockfile

/-! Everything that can keep a configuration from being loaded or resolved. -/
namespace Buildpath

inductive ResolveError where
  | file (error : FileError)
  | coordinate (error : Coordinate.Malformed)
  | manifest (error : ManifestError)
  | lockfile (error : LockfileError)
  | unresolvedModule (id : String) (configuration : String)
  | cycle (cycle : Cycle)
  | projectNotFound (name : String) (path : Path)
  | projectEscapes (name : String) (path : Path)
  | filter (artifact : String) (message : String)
  | backend (configuration : String) (message : String)

def ResolveError.message : ResolveError → String
  | .file error => error.message
  | .coordinate error => error.message
  | .manifest error => error.message
  | .lockfile error => error.message
  | .unresolvedModule id configuration =>
    "cannot resolve module " ++ id ++ " for configuration `" ++ configuration ++ "`: not in ferrule.lock"
  | .cycle c => "dependency cycle detected: " ++ c.text
  | .projectNotFound name path => "project dependency `" ++ name ++ "` not found at " ++ path.text
  | .projectEscapes name path =>
    "project dependency `" ++ name ++ "` at " ++ path.text ++ " escapes the project tree"
  | .filter artifact message => "cannot evaluate filter for artifact " ++ artifact ++ ": " ++ message
  | .backend configuration message =>
    "cannot resolve configuration `" ++ configuration ++ "`: " ++ message

end Buildpath
