import Buildpath.Toml.Value

/-! Numbers, truth values, dates and times, read from a run of characters that holds
nothing else. Digits may be grouped by single underscores. -/
namespace Buildpath.Toml.Scalar

def digitValue? (base : Nat) (c : Char) : Option Nat :=
  let value :=
    if '0' ≤ c ∧ c ≤ '9' then c.toNat - '0'.toNat
    else if 'a' ≤ c ∧ c ≤ 'f' then c.toNat - 'a'.toNat + 10
    else if 'A' ≤ c ∧ c ≤ 'F' then c.toNat - 'A'.toNat + 10
    else 16
  if value < base then some value else none

def number? (base : Nat) (digits : List Char) : Option Nat :=
  digits.foldlM (fun n c => (digitValue? base c).map (base * n + ·)) 0

/-- The digits of groups that stand between single underscores; no group is empty. -/
def ungroup? (cs : List Char) : Option (List Char) :=
  let groups := cs.splitOn '_'
  if groups.any List.isEmpty then none else some groups.flatten

def grouped? (base : Nat) (cs : List Char) : Option Nat := (ungroup? cs).bind (number? base)

/-- Splits off a sign; the flag says that it was a minus. -/
def sign : List Char → Bool × List Char
  | '-' :: rest => (true, rest)
  | '+' :: rest => (false, rest)
  | cs => (false, cs)

/-- A decimal number without superfluous leading zeros. -/
def decimal? (cs : List Char) : Option (List Char) := do
  let digits ← ungroup? cs
  let _ ← number? 10 digits
  match digits with
  | '0' :: _ :: _ => none
  | digits => some digits

/-- Integers have 64 bits. -/
def bounded? (n : Int) : Option Value :=
  if Int64.minValue.toInt ≤ n ∧ n ≤ Int64.maxValue.toInt then some (.integer n) else none

def integer? (cs : List Char) : Option Value := do
  match cs with
  | '0' :: 'x' :: digits => bounded? (← grouped? 16 digits)
  | '0' :: 'o' :: digits => bounded? (← grouped? 8 digits)
  | '0' :: 'b' :: digits => bounded? (← grouped? 2 digits)
  | cs =>
    let (negative, digits) := sign cs
    let n ← number? 10 (← decimal? digits)
    bounded? (if negative then -(n : Int) else n)

/-- A number that is too large to be finite is refused unless it is negative. -/
def finiteOrNegative? : Real64 → Option Value
  | .infinite false => none
  | x => some (.real x)

def exponent? (cs : List Char) : Option Int :=
  let (negative, digits) := sign cs
  (grouped? 10 digits).map fun n => if negative then -(n : Int) else n

def isExponentMark (c : Char) : Bool := c = 'e' || c = 'E'

def real? (cs : List Char) : Option Value := do
  let (negative, body) := sign cs
  if body = ['i', 'n', 'f'] then return .real (.infinite negative)
  if body = ['n', 'a', 'n'] then return .real .notANumber
  let mantissa := body.takeWhile (fun c => !isExponentMark c)
  let exponent ← match body.dropWhile (fun c => !isExponentMark c) with
    | [] => some 0
    | _ :: digits => exponent? digits
  match mantissa.splitOn '.' with
  | [whole] =>
    if mantissa.length = body.length then none
    else finiteOrNegative? (Decimal.read negative (← number? 10 (← decimal? whole)) exponent)
  | [whole, fraction] =>
    let whole ← decimal? whole
    let fraction ← ungroup? fraction
    let digits ← number? 10 (whole ++ fraction)
    finiteOrNegative? (Decimal.read negative digits (exponent - fraction.length))
  | _ => none

/-- Exactly two digits with a value in a range. -/
def two? (low high : Nat) : List Char → Option (List Char)
  | [a, b] => do
    let n ← number? 10 [a, b]
    if low ≤ n ∧ n ≤ high then some [a, b] else none
  | _ => none

def monthLength (year month : Nat) : Nat :=
  if month = 2 then
    if year % 4 = 0 ∧ (year % 100 ≠ 0 ∨ year % 400 = 0) then 29 else 28
  else if month = 4 ∨ month = 6 ∨ month = 9 ∨ month = 11 then 30
  else 31

def date? (cs : List Char) : Option (List Char) := do
  match cs.splitOn '-' with
  | [year, month, day] =>
    if year.length ≠ 4 then none
    else
      let y ← number? 10 year
      let m ← number? 10 (← two? 1 12 month)
      let _ ← two? 1 (monthLength y m) day
      some cs
  | _ => none

def hourMinute? (cs : List Char) : Option (List Char) := do
  match cs.splitOn ':' with
  | [hour, minute] =>
    let _ ← two? 0 23 hour
    let _ ← two? 0 59 minute
    some cs
  | _ => none

/-- Nine places of the fraction are kept, and of those none of the zeros at the end. -/
def time? (cs : List Char) : Option (List Char) := do
  let clock := cs.takeWhile (· ≠ '.')
  match clock.splitOn ':' with
  | [hour, minute, second] =>
    let _ ← two? 0 23 hour
    let _ ← two? 0 59 minute
    let _ ← two? 0 60 second
    match cs.dropWhile (· ≠ '.') with
    | [] => some clock
    | _ :: fraction =>
      if fraction.isEmpty then none
      else
        let _ ← number? 10 fraction
        let shown := ((fraction.take 9).reverse.dropWhile (· = '0')).reverse
        some (if shown.isEmpty then clock else clock ++ '.' :: shown)
  | _ => none

/-- A time of day with an offset, the offset in standard form. -/
def offsetTime? (cs : List Char) : Option (List Char) := do
  let time := cs.takeWhile (fun c => c ≠ 'Z' && c ≠ 'z' && c ≠ '+' && c ≠ '-')
  match cs.drop time.length with
  | [] => time? time
  | ['Z'] | ['z'] => return (← time? time) ++ ['Z']
  | '+' :: offset => return (← time? time) ++ '+' :: (← hourMinute? offset)
  | '-' :: offset =>
    let offset ← hourMinute? offset
    return (← time? time) ++ (if offset = "00:00".toList then '+' else '-') :: offset
  | _ => none

def moment? (cs : List Char) : Option Value :=
  let text := match cs.drop 10 with
    | [] => date? cs <|> time? cs
    | 'T' :: rest | 't' :: rest | ' ' :: rest => do
      return (← date? (cs.take 10)) ++ 'T' :: (← offsetTime? rest)
    | _ => none
  (text <|> time? cs).map (fun text => .moment (String.ofList text))

/-- Does a blank behind this run belong to it, because a time may follow? -/
def isDate (cs : List Char) : Bool := (date? cs).isSome

def parse? (cs : List Char) : Option Value :=
  if cs = "true".toList then some (.boolean true)
  else if cs = "false".toList then some (.boolean false)
  else moment? cs <|> real? cs <|> integer? cs

end Buildpath.Toml.Scalar
