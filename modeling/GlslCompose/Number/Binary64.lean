/-
`Number/Binary64.lean` -- the numbers of 64-bit binary floating point, held exactly.

A finite number is a sign, a mantissa below 2⁵³ and an exponent of two not below
-1074; it is kept in the form in which the mantissa is as large as those limits
allow. Everything below is arithmetic on natural numbers and integers. Reading a
decimal numeral rounds the exact quotient to the nearest such number, and to the
one with an even mantissa when two are equally near.
-/
import GlslCompose.Text.Blank
import GlslCompose.Text.Digits

set_option autoImplicit false

namespace GlslCompose

/-- A number of 64-bit binary floating point. -/
inductive Binary64 where
  | nan
  | infinite (negative : Bool)
  /-- Plus or minus `mantissa * 2 ^ exponent`. -/
  | finite (negative : Bool) (mantissa : Nat) (exponent : Int)
  deriving DecidableEq, Repr

namespace Binary64

/-! ## Rounding -/

/-- The quotient of two natural numbers, rounded to the nearest, and to the even one of two. -/
def roundDiv (num den : Nat) : Nat :=
  let q := num / den
  let r := num % den
  if den < 2 * r || (2 * r == den && q % 2 == 1) then q + 1 else q

/-- The quotient `num / den` divided by `2 ^ e`, again as a quotient. -/
def scaled (num den : Nat) (e : Int) : Nat × Nat :=
  if 0 ≤ e then (num, den * Nat.pow 2 e.toNat) else (num * Nat.pow 2 (-e).toNat, den)

/-- The number nearest to a quotient. -/
def ofRatio (negative : Bool) (num den : Nat) : Binary64 :=
  if num = 0 then finite negative 0 (-1074)
  else
    -- `num / den` lies between `2 ^ (guess + 52)` and `2 ^ (guess + 54)`.
    let guess : Int := (num.log2 : Int) - den.log2 - 53
    let (a, b) := scaled num den guess
    let e := max (if a < Nat.pow 2 53 * b then guess else guess + 1) (-1074)
    let (a, b) := scaled num den e
    let m := roundDiv a b
    let (m, e) := if m = Nat.pow 2 53 then (Nat.pow 2 52, e + 1) else (m, e)
    if 971 < e then infinite negative else finite negative m e

/-- The number nearest to `digits * 10 ^ power`, where `count` bounds the decimal digits of
`digits`. Powers that lead far outside the range are settled by their size alone. -/
def ofDecimal (negative : Bool) (digits count : Nat) (power : Int) : Binary64 :=
  if digits = 0 || power + count < -400 then finite negative 0 (-1074)
  else if 400 < power then infinite negative
  else if 0 ≤ power then ofRatio negative (digits * Nat.pow 10 power.toNat) 1
  else ofRatio negative digits (Nat.pow 10 (-power).toNat)

/-! ## Reading a numeral -/

/-- A sign at the start of a text: whether it is a minus, and what follows. -/
def sign : Text → Bool × Text
  | '-' :: s => (true, s)
  | '+' :: s => (false, s)
  | s => (false, s)

/-- The exponent part at the end of a numeral. -/
def exponentPart? : Text → Option Int
  | [] => some 0
  | c :: s =>
    if c = 'e' || c = 'E' then
      let (negative, s) := sign s
      match Text.decimalDigits s with
      | (d :: ds, []) =>
        let n := Text.numberIn 10 (d :: ds)
        some (if negative then -(n : Int) else n)
      | _ => none
    else none

/-- Whether a character may stand around a numeral. The separators U+001C to U+001F may not, although
they are white space. -/
def mayStandAround (c : Char) : Bool := Text.isBlank c && !(28 ≤ c.toNat && c.toNat ≤ 31)

/-- The number that a text spells: digits with an optional point and power of ten, or the words
for an infinity and for what is not a number, in any case, after an optional sign. White space
around it does not count, and neither does a low line between two digits. -/
def parse? (text : Text) : Option Binary64 :=
  let (negative, s) := sign (Text.trim mayStandAround text)
  let small := s.map Char.toLower
  if small = "nan" then some nan
  else if small = "inf" || small = "infinity" then some (infinite negative)
  else
    let (whole, s) := Text.decimalDigits s
    let (fraction, s) := match s with
      | '.' :: s => Text.decimalDigits s
      | s => ([], s)
    if whole.isEmpty && fraction.isEmpty then none
    else (exponentPart? s).map fun power =>
      let ds := whole ++ fraction
      ofDecimal negative (Text.numberIn 10 ds) ds.length (power - fraction.length)

/-! ## Exact value -/

/-- The exact value of a finite number, as an integer over a power of two. -/
def dyadic? : Binary64 → Option (Int × Nat)
  | finite negative m e =>
    let signed (n : Nat) : Int := if negative then -(n : Int) else n
    some (if 0 ≤ e then (signed (m * Nat.pow 2 e.toNat), 0) else (signed m, (-e).toNat))
  | _ => none

/-- Whether a number is zero, of either sign. -/
def isZero : Binary64 → Bool
  | finite _ m _ => m == 0
  | _ => false

end Binary64

end GlslCompose
