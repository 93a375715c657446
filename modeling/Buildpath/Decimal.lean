/-! Binary floating point numbers of 64 bits, read from and written as decimals.
Reading rounds to the nearest number, an even mantissa winning a tie. Writing takes
the fewest digits that read back, of those the nearest, and always writes positional
notation. All of it is arithmetic on natural numbers. -/
namespace Buildpath

/-- A fraction `num / den` of natural numbers. -/
structure Decimal.Fraction where
  num : Nat
  den : Nat

inductive Real64 where
  /-- The number `mantissa · 2^exponent`, with its sign. -/
  | finite (negative : Bool) (mantissa : Nat) (exponent : Int)
  | infinite (negative : Bool)
  | notANumber
deriving DecidableEq, Repr

namespace Decimal

def Fraction.le (a b : Fraction) : Bool := a.num * b.den ≤ b.num * a.den
def Fraction.lt (a b : Fraction) : Bool := a.num * b.den < b.num * a.den

/-- `n · base^e`. -/
def scaled (n base : Nat) (e : Int) : Fraction :=
  if 0 ≤ e then ⟨n * Nat.pow base e.toNat, 1⟩ else ⟨n, Nat.pow base (-e).toNat⟩

/-- A quotient rounded to the nearest natural number, a half to the even neighbour. -/
def roundHalfEven (num den : Nat) : Nat :=
  let low := num / den
  let twice := 2 * (num % den)
  if twice < den then low
  else if den < twice then low + 1
  else low + low % 2

/-- The greatest exponent whose power of two does not exceed a positive fraction. -/
def log2Floor (x : Fraction) : Int :=
  let guess : Int := (x.num.log2 : Int) - (x.den.log2 : Int)
  if (scaled 1 2 guess).le x then guess else guess - 1

/-- Mantissas have 53 bits: from this number up to, but not including, twice it. -/
def leastMantissa : Nat := Nat.pow 2 52

/-- The mantissa and exponent nearest to a fraction; nothing beyond the finite range. -/
def nearest? (x : Fraction) : Option (Nat × Int) :=
  if x.num = 0 then some (0, -1074)
  else
    let exponent := max (-1074) (log2Floor x - 52)
    let divisor := scaled 1 2 exponent
    let mantissa := roundHalfEven (x.num * divisor.den) (x.den * divisor.num)
    let (mantissa, exponent) :=
      if mantissa = 2 * leastMantissa then (leastMantissa, exponent + 1) else (mantissa, exponent)
    if exponent > 971 then none else some (mantissa, exponent)

/-- The number nearest to `digits · 10^exponent`. Exponents far outside the range are
cut off first, which keeps the arithmetic small. -/
def read (negative : Bool) (digits : Nat) (exponent : Int) : Real64 :=
  let size : Int := (Nat.toDigits 10 digits).length
  if digits = 0 ∨ exponent + size < -400 then .finite negative 0 (-1074)
  else if exponent + size > 400 then .infinite negative
  else match nearest? (scaled digits 10 exponent) with
    | some (mantissa, e) => .finite negative mantissa e
    | none => .infinite negative

/-- The fractions that read as `mantissa · 2^exponent` reach from the first to the second;
the ends belong to them when the mantissa is even. -/
def interval (mantissa : Nat) (exponent : Int) : Fraction × Fraction :=
  let narrow := mantissa = leastMantissa ∧ -1074 < exponent
  (if narrow then scaled (4 * mantissa - 1) 2 (exponent - 2) else scaled (2 * mantissa - 1) 2 (exponent - 1),
    scaled (2 * mantissa + 1) 2 (exponent - 1))

def within (mantissa : Nat) (ends : Fraction × Fraction) (x : Fraction) : Bool :=
  if mantissa % 2 = 0 then ends.1.le x && x.le ends.2 else ends.1.lt x && x.lt ends.2

/-- The power of ten just above a positive fraction: `10^(k-1) ≤ x < 10^k`. -/
def log10Ceil (x : Fraction) : Int :=
  let guess : Int := (Nat.toDigits 10 x.num).length - (Nat.toDigits 10 x.den).length
  if x.lt (scaled 1 10 guess) then guess else guess + 1

/-- The neighbours of `x` on the grid `10^e`, the nearer one first, halfway the upper one. -/
def neighbours (x : Fraction) (e : Int) : List Nat :=
  let grid := scaled 1 10 e
  let num := x.num * grid.den
  let den := x.den * grid.num
  let low := num / den
  if den ≤ 2 * (num % den) then [low + 1, low] else [low, low + 1]

/-- The digits and the decimal exponent of the shortest decimal that reads back. A
neighbour above may be the power of ten that ends the decade; its zero is no digit. -/
def shortest (mantissa : Nat) (exponent : Int) : Nat × Int :=
  let x := scaled mantissa 2 exponent
  let ends := interval mantissa exponent
  let top := log10Ceil x
  let tries := (List.range 17).filterMap fun (i : Nat) =>
    let e : Int := top - (i + 1)
    ((neighbours x e).find? fun n => within mantissa ends (scaled n 10 e)).map (·, e)
  let (digits, e) := tries.head?.getD (0, 0)
  if digits % 10 = 0 then (digits / 10, e + 1) else (digits, e)

/-- `digits · 10^exponent` written out, with at least one digit after the point. -/
def positional (digits : Nat) (exponent : Int) : String :=
  let all := Nat.toDigits 10 digits
  if 0 ≤ exponent then String.ofList (all ++ List.replicate exponent.toNat '0') ++ ".0"
  else
    let places := (-exponent).toNat
    let padded := List.replicate (places + 1 - all.length) '0' ++ all
    String.ofList (padded.take (padded.length - places)) ++ "." ++
      String.ofList (padded.drop (padded.length - places))

end Decimal

def Real64.display : Real64 → String
  | .notANumber => "NaN"
  | .infinite negative => if negative then "-inf" else "inf"
  | .finite negative mantissa exponent =>
    let sign := if negative then "-" else ""
    if mantissa = 0 then sign ++ "0.0"
    else
      let (digits, e) := Decimal.shortest mantissa exponent
      sign ++ Decimal.positional digits e

end Buildpath
