import Buildpath.Decimal
import Buildpath.Text.Quoted

/-! Values of a TOML document. Tables keep their keys in the order of the document. A
date or time is kept as its text in standard form. -/
namespace Buildpath.Toml

inductive Value where
  | text (content : String)
  | integer (n : Int)
  | real (x : Real64)
  | boolean (b : Bool)
  | moment (text : String)
  | array (items : List Value)
  | table (entries : List (String × Value))

namespace Value

/-- The value as an error message names it. -/
def describe : Value → String
  | .text content => "string " ++ Text.quoted content
  | .integer n => "integer `" ++ toString n ++ "`"
  | .real x => "floating point `" ++ x.display ++ "`"
  | .boolean b => "boolean `" ++ (if b then "true" else "false") ++ "`"
  | .array _ => "sequence"
  | .moment _ | .table _ => "map"

end Value
end Buildpath.Toml
