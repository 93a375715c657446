import Buildpath.Toml.Token
import Buildpath.Toml.Scalar
import Buildpath.Toml.Table

/-! Reading tokens as a document: lines with a key and a value, and headers that open
tables. Brackets and braces nest less than eighty deep, and a dotted key has fewer than
eighty parts. Every reader returns what it left over, which is shorter than what it got. -/
namespace Buildpath.Toml

def nestingLimit : Nat := 80

abbrev Rest (ts : List Token) := { rest : List Token // rest.length < ts.length }

def isBlankToken (t : Token) : Bool := t = .char ' ' || t = .char '\t'

def isLayout (t : Token) : Bool := isBlankToken t || t = .newline

def skip (p : Token → Bool) (ts : List Token) : { rest : List Token // rest.length ≤ ts.length } :=
  ⟨ts.dropWhile p, (List.dropWhile_sublist p).length_le⟩

/-- Reads one certain character. -/
def expect (c : Char) : (ts : List Token) → Option (Rest ts)
  | .char d :: rest => if d = c then some ⟨rest, by simp⟩ else none
  | _ => none

/-- The longest run of characters from a class. -/
def run (p : Char → Bool) (ts : List Token) : List Char :=
  match ts with
  | .char c :: rest => if p c then c :: run p rest else []
  | _ => []

def isKeyChar (c : Char) : Bool := c.isAlphanum || c = '_' || c = '-'

def isScalarChar (c : Char) : Bool := isKeyChar c || c = '+' || c = '.' || c = ':'

/-- A run of characters, and the tokens behind it; there is no empty run. -/
def readRun (p : Char → Bool) : (ts : List Token) → Option (List Char × Rest ts)
  | .char c :: rest =>
    if p c then
      some (c :: run p rest, ⟨rest.drop (run p rest).length, by
        simp only [List.length_drop, List.length_cons]; omega⟩)
    else none
  | _ => none

def simpleKey (ts : List Token) : Option (String × Rest ts) :=
  match ts with
  | .text content :: rest => some (String.ofList content, ⟨rest, by simp⟩)
  | ts => (readRun isKeyChar ts).map fun (cs, rest) => (String.ofList cs, rest)

/-- The parts of a dotted key, with blanks around each of them. -/
def keyParts (ts : List Token) : Option (List String × Rest ts) := do
  let ⟨ts₁, h₁⟩ := skip isBlankToken ts
  let (part, ⟨ts₂, h₂⟩) ← simpleKey ts₁
  let ⟨ts₃, h₃⟩ := skip isBlankToken ts₂
  match expect '.' ts₃ with
  | none => return ([part], ⟨ts₃, by omega⟩)
  | some ⟨ts₄, h₄⟩ =>
    let (parts, ⟨ts₅, h₅⟩) ← keyParts ts₄
    return (part :: parts, ⟨ts₅, by omega⟩)
termination_by ts.length

/-- A dotted key as the way to it and its last part. -/
def key (ts : List Token) : Option ((List String × String) × Rest ts) := do
  let (parts, rest) ← keyParts ts
  if nestingLimit ≤ parts.length then none
  else return ((parts.dropLast, ← parts.getLast?), rest)

/-- A value without brackets. One space may stand between a date and a time. -/
def scalar (ts : List Token) : Option (Value × Rest ts) := do
  let (cs, ⟨ts₁, h₁⟩) ← readRun isScalarChar ts
  let timed : Option (Value × Rest ts) := do
    if Scalar.isDate cs then
      let ⟨ts₂, h₂⟩ ← expect ' ' ts₁
      let (time, ⟨ts₃, h₃⟩) ← readRun isScalarChar ts₂
      return (← Scalar.parse? (cs ++ ' ' :: time), ⟨ts₃, by omega⟩)
    else none
  match timed with
  | some found => return found
  | none => return (← Scalar.parse? cs, ⟨ts₁, h₁⟩)

mutual
/-- A value; `depth` more brackets may be opened. -/
def value (depth : Nat) (ts : List Token) : Option (Value × Rest ts) :=
  match ts with
  | .text content :: rest => some (.text (String.ofList content), ⟨rest, by simp⟩)
  | .block content :: rest => some (.text (String.ofList content), ⟨rest, by simp⟩)
  | .char '[' :: rest =>
    if depth = 0 then none
    else match items (depth - 1) rest with
      | some (vs, ⟨after, h⟩) => some (.array vs, ⟨after, by simp; omega⟩)
      | none => none
  | .char '\x7b' :: rest =>
    if depth = 0 then none
    else match pairs (depth - 1) rest with
      | some (found, ⟨after, h⟩) =>
        (Entries.insertAll found []).map fun entries =>
          (.table (entryValues entries), ⟨after, by simp; omega⟩)
      | none => none
  | ts => scalar ts
termination_by (ts.length, 0)
decreasing_by all_goals (simp only [Prod.lex_def, List.length_cons]; omega)

/-- The items of an array up to its closing bracket; a comma may stand behind the last. -/
def items (depth : Nat) (ts : List Token) : Option (List Value × Rest ts) :=
  let ⟨ts₁, h₁⟩ := skip isLayout ts
  match expect ']' ts₁ with
  | some ⟨after, h⟩ => some ([], ⟨after, by omega⟩)
  | none => do
    let (v, ⟨ts₂, h₂⟩) ← value depth ts₁
    let ⟨ts₃, h₃⟩ := skip isLayout ts₂
    match expect ',' ts₃ with
    | some ⟨ts₄, h₄⟩ =>
      let (vs, ⟨ts₅, h₅⟩) ← items depth ts₄
      return (v :: vs, ⟨ts₅, by omega⟩)
    | none =>
      let ⟨ts₄, h₄⟩ ← expect ']' ts₃
      return ([v], ⟨ts₄, by omega⟩)
termination_by (ts.length, 1)
decreasing_by all_goals (simp only [Prod.lex_def]; omega)

/-- The pairs of an inline table up to its closing brace, on one line. -/
def pairs (depth : Nat) (ts : List Token) : Option (List Entries.Pair × Rest ts) :=
  let ⟨ts₁, h₁⟩ := skip isBlankToken ts
  match expect '\x7d' ts₁ with
  | some ⟨after, h⟩ => some ([], ⟨after, by omega⟩)
  | none => morePairs depth ts₁ |>.map fun (found, ⟨after, h⟩) => (found, ⟨after, by omega⟩)
termination_by (ts.length, 2)
decreasing_by all_goals (simp only [Prod.lex_def]; omega)

def morePairs (depth : Nat) (ts : List Token) : Option (List Entries.Pair × Rest ts) := do
  let (k, ⟨ts₁, h₁⟩) ← key ts
  let ⟨ts₂, h₂⟩ ← expect '=' ts₁
  let ⟨ts₃, h₃⟩ := skip isBlankToken ts₂
  let (v, ⟨ts₄, h₄⟩) ← value depth ts₃
  let ⟨ts₅, h₅⟩ := skip isBlankToken ts₄
  match expect ',' ts₅ with
  | some ⟨ts₆, h₆⟩ =>
    let (found, ⟨ts₇, h₇⟩) ← morePairs depth ts₆
    return ((k, v) :: found, ⟨ts₇, by omega⟩)
  | none =>
    let ⟨ts₆, h₆⟩ ← expect '\x7d' ts₅
    return ([(k, v)], ⟨ts₆, by omega⟩)
termination_by (ts.length, 1)
decreasing_by all_goals (simp only [Prod.lex_def]; omega)
end

inductive Line where
  | pair (pair : Entries.Pair)
  | header (path : List String) (key : String)
  | member (path : List String) (key : String)

/-- Nothing but blanks up to the end of the line. -/
def lineEnd (ts : List Token) : Option { rest : List Token // rest.length ≤ ts.length } :=
  let ⟨ts₁, h₁⟩ := skip isBlankToken ts
  match ts₁, h₁ with
  | [], _ => some ⟨[], by simp⟩
  | .newline :: rest, h => some ⟨rest, by simp at h; omega⟩
  | _, _ => none

def line (ts : List Token) : Option (Line × Rest ts) := do
  match expect '[' ts with
  | some ⟨ts₁, h₁⟩ =>
    match expect '[' ts₁ with
    | some ⟨ts₂, h₂⟩ =>
      let ((path, last), ⟨ts₃, h₃⟩) ← key ts₂
      let ⟨ts₄, h₄⟩ ← expect ']' ts₃
      let ⟨ts₅, h₅⟩ ← expect ']' ts₄
      let ⟨ts₆, h₆⟩ ← lineEnd ts₅
      return (.member path last, ⟨ts₆, by omega⟩)
    | none =>
      let ((path, last), ⟨ts₃, h₃⟩) ← key ts₁
      let ⟨ts₄, h₄⟩ ← expect ']' ts₃
      let ⟨ts₅, h₅⟩ ← lineEnd ts₄
      return (.header path last, ⟨ts₅, by omega⟩)
  | none =>
    let (k, ⟨ts₁, h₁⟩) ← key ts
    let ⟨ts₂, h₂⟩ ← expect '=' ts₁
    let ⟨ts₃, h₃⟩ := skip isBlankToken ts₂
    let (v, ⟨ts₄, h₄⟩) ← value (nestingLimit - 1) ts₃
    let ⟨ts₅, h₅⟩ ← lineEnd ts₄
    return (.pair (k, v), ⟨ts₅, by omega⟩)

def lines (ts : List Token) : Option (List Line) :=
  let ⟨ts₁, h₁⟩ := skip isLayout ts
  match ts₁, h₁ with
  | [], _ => some []
  | t :: more, _h => do
    let (first, ⟨rest, _hr⟩) ← line (t :: more)
    return first :: (← lines rest)
termination_by ts.length
decreasing_by omega

/-- The pairs up to the next header, and the rest. -/
def leadingPairs : List Line → List Entries.Pair × List Line
  | .pair p :: rest =>
    let (found, after) := leadingPairs rest
    (p :: found, after)
  | ls => ([], ls)

theorem leadingPairs_length (ls : List Line) : (leadingPairs ls).2.length ≤ ls.length := by
  fun_induction leadingPairs ls with
  | case1 p rest found after hs ih => simp_all; omega
  | case2 => simp

/-- Tables open in the order of their headers, each with the pairs below it. -/
def build (entries : Entries) (ls : List Line) : Option Entries :=
  match ls with
  | [] => some entries
  | .pair p :: rest => (Entries.insertAll [p] entries).bind (build · rest)
  | .header path key :: rest =>
    (Entries.alterAt (Entries.openTable key (leadingPairs rest).1) path entries).bind
      (build · (leadingPairs rest).2)
  | .member path key :: rest =>
    (Entries.alterAt (Entries.openMember key (leadingPairs rest).1) path entries).bind
      (build · (leadingPairs rest).2)
termination_by ls.length
decreasing_by
  · simp
  · exact Nat.lt_succ_of_le (leadingPairs_length rest)
  · exact Nat.lt_succ_of_le (leadingPairs_length rest)

/-- The table that a text describes, if it is a TOML document. -/
def parse? (text : String) : Option Value := do
  let entries ← build [] (← lines (← Token.ofText? text))
  return .table (entryValues entries)

end Buildpath.Toml
