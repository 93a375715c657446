import Buildpath.Toml.Value

/-! Reading records out of values. A record is written as a table, or as an array of
its fields in their fixed order. Fields are read in the order in which they are
written, unknown ones are passed over, and only then is a missing one reported. A date
or time reads as a table with one unknown key. -/
namespace Buildpath.Toml

inductive Expected where
  | text
  | boolean
  | list
  | map
  | record (name : String)
deriving DecidableEq, Repr

def Expected.describe : Expected → String
  | .text => "a string"
  | .boolean => "a boolean"
  | .list => "a sequence"
  | .map => "a map"
  | .record name => "struct " ++ name

inductive ShapeError where
  | mismatch (found : Value) (expected : Expected)
  | missing (field : String)
  | tooShort (length : Nat) (record : String) (fields : Nat)

def ShapeError.message : ShapeError → String
  | .mismatch found expected => "invalid type: " ++ found.describe ++ ", expected " ++ expected.describe
  | .missing field => "missing field `" ++ field ++ "`"
  | .tooShort length record fields =>
    s!"invalid length {length}, expected struct {record} with {fields} elements"

/-- What a reader of shapes returns. -/
abbrev Read (α : Type) := Except ShapeError α

namespace Value

/-- The key under which a date or time stands when a table is asked for. -/
def momentKey : String := "$__toml_private_datetime"

def asText : Value → Read String
  | .text content => .ok content
  | v => .error (.mismatch v .text)

def asBoolean : Value → Read Bool
  | .boolean b => .ok b
  | v => .error (.mismatch v .boolean)

def asList (item : Value → Read α) : Value → Read (List α)
  | .array items => items.mapM item
  | v => .error (.mismatch v .list)

def asMap (item : Value → Read α) : Value → Read (List (String × α))
  | .table entries => entries.mapM fun (key, v) => (item v).map (key, ·)
  | .moment m => (item (.text m)).map fun a => [(momentKey, a)]
  | v => .error (.mismatch v .map)

/-- The written fields of a record, and the error for one that is missing. -/
structure Fields where
  written : List (String × Value)
  lacking : String → ShapeError

def asRecord (name : String) (fields : List String) : Value → Read Fields
  | .table entries => .ok ⟨entries, .missing⟩
  | .moment m => .ok ⟨[(momentKey, .text m)], .missing⟩
  | .array items => .ok ⟨fields.zip items, fun _ => .tooShort items.length name fields.length⟩
  | v => .error (.mismatch v (.record name))

namespace Fields

/-- Reads the written fields into a draft, one after the other. -/
def fill (f : Fields) (set : String → Value → δ → Read δ) (draft : δ) : Read δ :=
  f.written.foldlM (fun draft (key, v) => set key v draft) draft

def require (f : Fields) (field : String) : Option α → Read α
  | some a => .ok a
  | none => .error (f.lacking field)

end Fields
end Value
end Buildpath.Toml
