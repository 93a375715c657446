import Buildpath.Text

/-! JSON values made of texts, lists and records, and their printed form with two
spaces a level. -/
namespace Buildpath

inductive Json where
  | text (content : String)
  | list (items : List Json)
  | record (fields : List (String × Json))

namespace Json

def escapeChar (c : Char) : List Char :=
  if c = '"' then ['\\', '"']
  else if c = '\\' then ['\\', '\\']
  else if c = '\x08' then ['\\', 'b']
  else if c = '\x0c' then ['\\', 'f']
  else if c = '\n' then ['\\', 'n']
  else if c = '\r' then ['\\', 'r']
  else if c = '\t' then ['\\', 't']
  else if c.toNat < 0x20 then
    ['\\', 'u', '0', '0', Nat.digitChar (c.toNat / 16), Nat.digitChar (c.toNat % 16)]
  else [c]

def quote (text : String) : String :=
  String.ofList ('"' :: text.toList.flatMap escapeChar ++ ['"'])

def lineBreak (level : Nat) : String := "\n" ++ String.ofList (List.replicate (2 * level) ' ')

mutual
def pretty (level : Nat) : Json → String
  | .text content => quote content
  | .list [] => "[]"
  | .list (item :: items) =>
    "[" ++ lineBreak (level + 1) ++ pretty (level + 1) item ++ prettyItems (level + 1) items ++
      lineBreak level ++ "]"
  | .record [] => "\x7b\x7d"
  | .record ((key, v) :: fields) =>
    "\x7b" ++ lineBreak (level + 1) ++ quote key ++ ": " ++ pretty (level + 1) v ++
      prettyFields (level + 1) fields ++ lineBreak level ++ "\x7d"

def prettyItems (level : Nat) : List Json → String
  | [] => ""
  | item :: items => "," ++ lineBreak level ++ pretty level item ++ prettyItems level items

def prettyFields (level : Nat) : List (String × Json) → String
  | [] => ""
  | (key, v) :: fields =>
    "," ++ lineBreak level ++ quote key ++ ": " ++ pretty level v ++ prettyFields level fields
end

def display (j : Json) : String := j.pretty 0

end Json
end Buildpath
