import Buildpath.Text

/-! Glob patterns. `?` stands for one character, `*` for any stretch of them, a
bracket for one character in (or, after `!`, outside) some ranges, and a path
component `**` for any number of directories. A pattern is checked as a whole first,
and then each of its components is read on its own, so a bracket that spans a slash
is refused by its component. Positions count characters. -/
namespace Buildpath.Glob

inductive Range where
  | one (c : Char)
  | between (low high : Char)
deriving DecidableEq, Repr

inductive Token where
  | char (c : Char)
  | anyChar
  | anyStretch
  | anyDirectories
  | within (ranges : List Range)
  | without (ranges : List Range)
deriving DecidableEq, Repr

inductive Fault where
  | wildcards
  | recursive
  | range
deriving DecidableEq, Repr

def Fault.message : Fault → String
  | .wildcards => "wildcards are either regular `*` or recursive `**`"
  | .recursive => "recursive wildcards must form a single path component"
  | .range => "invalid range pattern"

structure Malformed where
  position : Nat
  fault : Fault
deriving DecidableEq, Repr

def Malformed.message (e : Malformed) : String :=
  s!"Pattern syntax error near position {e.position}: {e.fault.message}"

def Range.holds (c : Char) : Range → Bool
  | .one d => c = d
  | .between low high => low ≤ c && c ≤ high

/-- A dash makes a range when a character stands on both sides of it. -/
def ranges : List Char → List Range
  | low :: '-' :: high :: rest => .between low high :: ranges rest
  | c :: rest => .one c :: ranges rest
  | [] => []

/-- The inside of a bracket and what follows it. The first character inside may be
the closing bracket itself. -/
def bracket? : List Char → Option (Token × List Char)
  | '!' :: first :: rest => closing? (fun inside => .without (ranges (first :: inside))) rest
  | '!' :: _ => none
  | first :: rest => closing? (fun inside => .within (ranges (first :: inside))) rest
  | [] => none
where
  closing? (token : List Char → Token) (rest : List Char) : Option (Token × List Char) :=
    match rest.dropWhile (· ≠ ']') with
    | _ :: after => some (token (rest.takeWhile (· ≠ ']')), after)
    | [] => none

theorem bracket?_shorter {cs after : List Char} {token : Token} (h : bracket? cs = some (token, after)) :
    after.length < cs.length := by
  have closing {f : List Char → Token} {rest : List Char}
      (h : bracket?.closing? f rest = some (token, after)) : after.length < rest.length := by
    unfold bracket?.closing? at h
    split at h
    · rename_i head tail hd
      simp only [Option.some.injEq, Prod.mk.injEq] at h
      have := (List.dropWhile_sublist (l := rest) (· ≠ ']')).length_le
      rw [hd] at this
      rw [← h.2]
      exact this
    · simp at h
  unfold bracket? at h
  split at h
  · have := closing h; simp; omega
  · simp at h
  · have := closing h; simp; omega
  · simp at h

/-- The tokens of a pattern. `before` is the character read last, `position` how many
were read. -/
def tokensFrom (position : Nat) (before : Option Char) (cs : List Char) : Except Malformed (List Token) :=
  match cs with
  | [] => .ok []
  | '*' :: '*' :: '*' :: _ => .error ⟨position + 2, .wildcards⟩
  | '*' :: '*' :: rest =>
    if before = none ∨ before = some '/' then
      match rest with
      | [] => .ok [.anyDirectories]
      | '/' :: rest => (tokensFrom (position + 3) (some '/') rest).map (.anyDirectories :: ·)
      | _ => .error ⟨position + 2, .recursive⟩
    else .error ⟨position - 1, .recursive⟩
  | '*' :: rest => (tokensFrom (position + 1) (some '*') rest).map (.anyStretch :: ·)
  | '?' :: rest => (tokensFrom (position + 1) (some '?') rest).map (.anyChar :: ·)
  | '[' :: rest =>
    match h : bracket? rest with
    | none => .error ⟨position, .range⟩
    | some (token, after) =>
      have := bracket?_shorter h
      (tokensFrom (position + 1 + (rest.length - after.length)) (some ']') after).map (token :: ·)
  | c :: rest => (tokensFrom (position + 1) (some c) rest).map (.char c :: ·)
termination_by cs.length

def tokens (text : String) : Except Malformed (List Token) := tokensFrom 0 none text.toList

/-- Does the token stand for this one character? -/
def Token.fits (c : Char) : Token → Bool
  | .char d => c = d
  | .anyChar => true
  | .within rs => rs.any (·.holds c)
  | .without rs => !rs.any (·.holds c)
  | .anyStretch | .anyDirectories => false

/-- Which suffixes of a name are covered, the whole name first and the empty one last.
The row of a pattern is made from that of its tail, so a pair of suffixes is looked at
once, however many stretches the pattern has. -/
def coveredSuffixes (cs : List Char) : List Token → List Bool
  | [] => cs.map (fun _ => false) ++ [true]
  | .anyStretch :: ts =>
    (coveredSuffixes cs ts).foldr (fun here later => (here || later.headD false) :: later) []
  | t :: ts =>
    List.zipWith (fun c later => t.fits c && later) cs (coveredSuffixes cs ts).tail ++ [false]

/-- Does the pattern cover the whole name? -/
def covers (ts : List Token) (cs : List Char) : Bool := (coveredSuffixes cs ts).headD false

theorem coveredSuffixes_anyStretch (cs : List Char) (ts : List Token) :
    coveredSuffixes cs (.anyStretch :: ts) =
      (coveredSuffixes cs ts).foldr (fun here later => (here || later.headD false) :: later) [] := rfl

theorem coveredSuffixes_one {t : Token} (one : t ≠ .anyStretch) (cs : List Char) (ts : List Token) :
    coveredSuffixes cs (t :: ts) =
      List.zipWith (fun c later => t.fits c && later) cs (coveredSuffixes cs ts).tail ++ [false] := by
  cases t with
  | anyStretch => exact absurd rfl one
  | _ => rfl

theorem length_coveredSuffixes (cs : List Char) (ts : List Token) :
    (coveredSuffixes cs ts).length = cs.length + 1 := by
  have row (bs : List Bool) :
      (bs.foldr (fun here later => (here || later.headD false) :: later) []).length = bs.length := by
    induction bs with
    | nil => rfl
    | cons b bs ih => exact congrArg (· + 1) ih
  induction ts with
  | nil => simp [coveredSuffixes]
  | cons t ts ih =>
    by_cases one : t = .anyStretch
    · rw [one, coveredSuffixes_anyStretch, row, ih]
    · rw [coveredSuffixes_one one]
      simp [ih]

theorem coveredSuffixes_eq (cs : List Char) (ts : List Token) :
    coveredSuffixes cs ts = covers ts cs :: (coveredSuffixes cs ts).tail := by
  have length := length_coveredSuffixes cs ts
  unfold covers
  cases h : coveredSuffixes cs ts with
  | nil => simp [h] at length
  | cons here later => rfl

/-- The row of a name goes on as the row of its tail. -/
theorem tail_coveredSuffixes (c : Char) (cs : List Char) (ts : List Token) :
    (coveredSuffixes (c :: cs) ts).tail = coveredSuffixes cs ts := by
  induction ts with
  | nil => rfl
  | cons t ts ih =>
    by_cases one : t = .anyStretch
    · rw [one, coveredSuffixes_anyStretch, coveredSuffixes_eq (c :: cs) ts, ih]
      rfl
    · rw [coveredSuffixes_one one, coveredSuffixes_one one, ih, coveredSuffixes_eq cs ts]
      rfl

theorem covers_nil (cs : List Char) : covers [] cs = cs.isEmpty := by
  cases cs <;> rfl

theorem covers_anyStretch_nil (ts : List Token) : covers (.anyStretch :: ts) [] = covers ts [] := by
  have tail : (coveredSuffixes [] ts).tail = [] :=
    List.eq_nil_of_length_eq_zero (by simp [length_coveredSuffixes])
  rw [covers, coveredSuffixes_anyStretch, coveredSuffixes_eq, tail]
  simp

theorem covers_anyStretch_cons (c : Char) (cs : List Char) (ts : List Token) :
    covers (.anyStretch :: ts) (c :: cs) = (covers ts (c :: cs) || covers (.anyStretch :: ts) cs) := by
  rw [covers, coveredSuffixes_anyStretch, coveredSuffixes_eq (c :: cs) ts, tail_coveredSuffixes]
  rfl

theorem covers_one_nil {t : Token} (one : t ≠ .anyStretch) (ts : List Token) :
    covers (t :: ts) [] = false := by
  rw [covers, coveredSuffixes_one one]
  rfl

theorem covers_one_cons {t : Token} (one : t ≠ .anyStretch) (c : Char) (cs : List Char) (ts : List Token) :
    covers (t :: ts) (c :: cs) = (t.fits c && covers ts cs) := by
  rw [covers, coveredSuffixes_one one, tail_coveredSuffixes, coveredSuffixes_eq cs ts]
  rfl

/-- The text with every special character put into a bracket, so that it covers itself only. -/
def escape (text : String) : String :=
  String.ofList (text.toList.flatMap fun c =>
    if c = '?' ∨ c = '*' ∨ c = '[' ∨ c = ']' then ['[', c, ']'] else [c])

/-- One component of a pattern. -/
inductive Segment where
  /-- A name to look up; no directory has to be listed for it. -/
  | exactly (name : String)
  | covering (tokens : List Token)
  | anyDirectories
deriving DecidableEq, Repr

/-- The text that a list of plain characters spells. -/
def plain? : List Token → Option (List Char)
  | [] => some []
  | .char c :: ts => (plain? ts).map (c :: ·)
  | _ => none

def Segment.ofTokens (ts : List Token) : Segment :=
  match plain? ts with
  | some name => .exactly (String.ofList name)
  | none => if ts = [.anyDirectories] then .anyDirectories else .covering ts

def Segment.parse (text : String) : Except Malformed Segment := (tokens text).map Segment.ofTokens

/-- A pattern ready to be followed through a disk. -/
structure Pattern where
  absolute : Bool
  segments : List Segment
  /-- Ends in a slash, so that only directories are meant. -/
  directoriesOnly : Bool
deriving DecidableEq, Repr

/-- The stretches between slashes; a slash at the very end opens no further one. -/
def stretches (text : String) : List String :=
  let all := Text.cut '/' text
  if all.getLast? = some "" then all.dropLast else all

def Pattern.parse (text : String) : Except Malformed Pattern := do
  let _ ← tokens text
  let absolute := Text.startsWith '/' text
  let inner := if absolute then String.ofList (text.toList.drop 1) else text
  let segments ← (stretches inner).mapM Segment.parse
  return {
    absolute
    segments := if text = "/" then [.exactly ""] else segments
    directoriesOnly := Text.endsWith '/' text }

end Buildpath.Glob
