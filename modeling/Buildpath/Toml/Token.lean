import Buildpath.Text

/-! Tokens of a TOML text. Strings are read and unescaped, comments and the kinds of
line end are gone, and every other character is a token by itself, blanks included:
whether a dot or a dash belongs to a key, a number or a date depends on where it stands. -/
namespace Buildpath.Toml

inductive Token where
  | char (c : Char)
  | newline
  /-- A string on one line, which may also be a key. -/
  | text (content : List Char)
  /-- A string in triple quotes. -/
  | block (content : List Char)
deriving DecidableEq, Repr

/-- Characters that may stand in strings and comments: a tab, and all but controls of ASCII. -/
def isTextChar (c : Char) : Bool := c = '\t' || (0x20 ≤ c.toNat && c.toNat ≠ 0x7F)

def hexValue? (c : Char) : Option Nat :=
  if '0' ≤ c ∧ c ≤ '9' then some (c.toNat - '0'.toNat)
  else if 'a' ≤ c ∧ c ≤ 'f' then some (c.toNat - 'a'.toNat + 10)
  else if 'A' ≤ c ∧ c ≤ 'F' then some (c.toNat - 'A'.toNat + 10)
  else none

/-- The character with this code in hexadecimal digits. Surrogates are none. -/
def codePoint? (digits : List Char) : Option Char := do
  let n ← digits.foldlM (fun n c => (hexValue? c).map (16 * n + ·)) 0
  if h : n.isValidChar then some (Char.ofNatAux n h) else none

def escape? : Char → Option Char
  | 'b' => some '\x08'
  | 't' => some '\t'
  | 'n' => some '\n'
  | 'f' => some '\x0c'
  | 'r' => some '\r'
  | '"' => some '"'
  | '\\' => some '\\'
  | _ => none

/-- Where a reader of a block string is: at its very start, in the text, behind a
backslash that must be followed by a line end, or in the blanks skipped after that. -/
inductive BlockState where
  | opening
  | inside
  | beforeBreak
  | afterBreak
deriving DecidableEq

mutual
def Token.scan : List Char → Option (List Token)
  | [] => some []
  | '\n' :: rest => (scan rest).map (.newline :: ·)
  | '\r' :: '\n' :: rest => (scan rest).map (.newline :: ·)
  | '#' :: rest => scanComment rest
  | '"' :: '"' :: '"' :: rest => scanBlock .opening [] rest
  | '"' :: rest => scanText [] rest
  | '\'' :: '\'' :: '\'' :: rest => scanRawBlock true [] rest
  | '\'' :: rest => scanRawText [] rest
  | c :: rest => if 0x20 ≤ c.toNat ∨ c = '\t' then (scan rest).map (.char c :: ·) else none
termination_by structural cs => cs

def Token.scanComment : List Char → Option (List Token)
  | [] => some []
  | '\n' :: rest => (scan rest).map (.newline :: ·)
  | '\r' :: '\n' :: rest => (scan rest).map (.newline :: ·)
  | c :: rest => if isTextChar c then scanComment rest else none
termination_by structural cs => cs

/-- A string in double quotes; `read` is what was read of it, backwards. -/
def Token.scanText (read : List Char) : List Char → Option (List Token)
  | '"' :: rest => (scan rest).map (.text read.reverse :: ·)
  | '\\' :: 'u' :: a :: b :: c :: d :: rest =>
    match codePoint? [a, b, c, d] with
    | some e => scanText (e :: read) rest
    | none => none
  | '\\' :: 'U' :: a :: b :: c :: d :: e :: f :: g :: h :: rest =>
    match codePoint? [a, b, c, d, e, f, g, h] with
    | some e => scanText (e :: read) rest
    | none => none
  | '\\' :: c :: rest =>
    match escape? c with
    | some e => scanText (e :: read) rest
    | none => none
  | c :: rest => if isTextChar c then scanText (c :: read) rest else none
  | [] => none
termination_by structural cs => cs

/-- A string in single quotes, without escapes. -/
def Token.scanRawText (read : List Char) : List Char → Option (List Token)
  | '\'' :: rest => (scan rest).map (.text read.reverse :: ·)
  | c :: rest => if isTextChar c then scanRawText (c :: read) rest else none
  | [] => none
termination_by structural cs => cs

/-- A string in three double quotes. Up to two more quotes may stand right before the
closing ones. -/
def Token.scanBlock (state : BlockState) (read : List Char) : List Char → Option (List Token)
  | '\r' :: '\n' :: rest =>
    match state with
    | .opening => scanBlock .inside read rest
    | .inside => scanBlock .inside ('\n' :: read) rest
    | .beforeBreak | .afterBreak => scanBlock .afterBreak read rest
  | '\n' :: rest =>
    match state with
    | .opening => scanBlock .inside read rest
    | .inside => scanBlock .inside ('\n' :: read) rest
    | .beforeBreak | .afterBreak => scanBlock .afterBreak read rest
  | '"' :: '"' :: '"' :: '"' :: '"' :: rest =>
    if state = .beforeBreak then none
    else (scan rest).map (.block (read.reverse ++ ['"', '"']) :: ·)
  | '"' :: '"' :: '"' :: '"' :: rest =>
    if state = .beforeBreak then none
    else (scan rest).map (.block (read.reverse ++ ['"']) :: ·)
  | '"' :: '"' :: '"' :: rest =>
    if state = .beforeBreak then none
    else (scan rest).map (.block read.reverse :: ·)
  | '\\' :: 'u' :: a :: b :: c :: d :: rest =>
    match if state = .beforeBreak then none else codePoint? [a, b, c, d] with
    | some e => scanBlock .inside (e :: read) rest
    | none => none
  | '\\' :: 'U' :: a :: b :: c :: d :: e :: f :: g :: h :: rest =>
    match if state = .beforeBreak then none else codePoint? [a, b, c, d, e, f, g, h] with
    | some e => scanBlock .inside (e :: read) rest
    | none => none
  | '\\' :: '\r' :: '\n' :: rest =>
    if state = .beforeBreak then none else scanBlock .afterBreak read rest
  | '\\' :: c :: rest =>
    if state = .beforeBreak then none
    else if c = '\n' then scanBlock .afterBreak read rest
    else if c = ' ' ∨ c = '\t' then scanBlock .beforeBreak read rest
    else match escape? c with
      | some e => scanBlock .inside (e :: read) rest
      | none => none
  | c :: rest =>
    if (state = .beforeBreak ∨ state = .afterBreak) ∧ (c = ' ' ∨ c = '\t') then scanBlock state read rest
    else if state = .beforeBreak then none
    else if isTextChar c then scanBlock .inside (c :: read) rest
    else none
  | [] => none
termination_by structural cs => cs

/-- A string in three single quotes; `first` says that nothing of it was read yet. -/
def Token.scanRawBlock (first : Bool) (read : List Char) : List Char → Option (List Token)
  | '\r' :: '\n' :: rest => scanRawBlock false (if first then read else '\n' :: read) rest
  | '\n' :: rest => scanRawBlock false (if first then read else '\n' :: read) rest
  | '\'' :: '\'' :: '\'' :: '\'' :: '\'' :: rest =>
    (scan rest).map (.block (read.reverse ++ ['\'', '\'']) :: ·)
  | '\'' :: '\'' :: '\'' :: '\'' :: rest => (scan rest).map (.block (read.reverse ++ ['\'']) :: ·)
  | '\'' :: '\'' :: '\'' :: rest => (scan rest).map (.block read.reverse :: ·)
  | c :: rest => if isTextChar c then scanRawBlock false (c :: read) rest else none
  | [] => none
termination_by structural cs => cs
end

/-- A byte order mark in front of the text is allowed. -/
def Token.ofText? (text : String) : Option (List Token) :=
  match text.toList with
  | '\ufeff' :: rest => Token.scan rest
  | cs => Token.scan cs

end Buildpath.Toml
