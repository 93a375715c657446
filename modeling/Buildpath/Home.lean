import Buildpath.Path

/-! The library's directory in the user's home, and the repository kept there. -/
namespace Buildpath

/-- The two environment variables that can name the home directory; the first one set wins. -/
structure Environment where
  home : Option String := none
  userProfile : Option String := none

inductive HomeError where
  | unset
deriving DecidableEq, Repr

namespace Environment

def dataDir (env : Environment) : Except HomeError Path :=
  match env.home <|> env.userProfile with
  | some home => .ok ((Path.mk home).join ".ferrule")
  | none => .error .unset

def repository (env : Environment) : Except HomeError Path :=
  env.dataDir.map (·.join "repository")

end Environment

def HomeError.message : HomeError → String
  | .unset => "cannot determine home directory: set the HOME environment variable"

end Buildpath
