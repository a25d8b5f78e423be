/-
`Number/Shortest.lean` -- the shortest decimal that reads back as a given number.

All reals in an interval around a number round to it; the ends belong to the
interval when the mantissa is even. For one digit, two digits and so on, the two
neighbours of the number on that decimal grid are tried: the first grid with a
neighbour inside the interval wins, and of two such neighbours the nearer. No
number needs more than seventeen digits.

`decimalText` then writes the digits: positionally while the power of ten of the
first digit lies between -4 and 15, always with a point, and otherwise with an
exponent of at least two digits.
-/
import GlslCompose.Number.Binary64

set_option autoImplicit false

namespace GlslCompose.Binary64

/-! ## The digits -/

/-- **A number and its rounding interval over one denominator.** The number is `value / den`, the
interval runs from `low / den` to `high / den`, and `closed` tells whether its ends belong to it. -/
structure Interval where
  low : Nat
  value : Nat
  high : Nat
  den : Nat
  closed : Bool
  deriving Repr

/-- The interval of reals that round to `m * 2 ^ e`. Below a power of two the numbers lie twice
as close, so there the lower half of the interval is half as wide. -/
def interval (m : Nat) (e : Int) : Interval :=
  let below := if m = Nat.pow 2 52 && -1074 < e then 1 else 2
  let (num, den) := scaled 1 1 (2 - e)
  ⟨(4 * m - below) * num, 4 * m * num, (4 * m + 2) * num, den, m % 2 == 0⟩

/-- The power of ten of the first decimal digit of `num / den`. -/
def firstPower (num den : Nat) : Int :=
  if den ≤ num then (Text.ofNat (num / den)).length - 1
  else -((Text.ofNat ((den + num - 1) / num - 1)).length : Int)

/-- The neighbours of a number on the grid of multiples of `10 ^ power`: the nearer of those that
lie inside the interval, if one does. -/
def onGrid? (i : Interval) (power : Int) : Option Nat :=
  let up := Nat.pow 10 (-power).toNat
  let value := i.value * up
  let low := i.low * up
  let high := i.high * up
  let step := i.den * Nat.pow 10 power.toNat
  let q := value / step
  let inside (d : Nat) : Bool :=
    if i.closed then low ≤ d * step && d * step ≤ high else low < d * step && d * step < high
  if inside q && inside (q + 1) then
    let below := value - q * step
    let above := (q + 1) * step - value
    some (if below < above || (below == above && q % 2 == 0) then q else q + 1)
  else if inside q then some q
  else if inside (q + 1) then some (q + 1)
  else none

/-- The digits of the shortest decimal that reads back as `m * 2 ^ e`, and their power of ten. -/
def shortest (m : Nat) (e : Int) : Nat × Int :=
  let i := interval m e
  let top := firstPower i.value i.den
  let tried := (List.range 17).findSome? fun (n : Nat) =>
    (onGrid? i (top - n)).map fun d => (d, top - (n : Int))
  tried.getD (0, 0)

/-! ## Writing them -/

/-- Zeros, as many as asked for. -/
def zeros (n : Nat) : Text := List.replicate n '0'

/-- Digits with a point behind the one whose power of ten is `0`, where the first one has power
`top`. There is always a digit on both sides of the point. -/
def positional (ds : Text) (top : Int) : Text :=
  if top < 0 then "0." ++ zeros (-top - 1).toNat ++ ds
  else
    let whole := top.toNat + 1
    if ds.length ≤ whole then ds ++ zeros (whole - ds.length) ++ ".0"
    else ds.take whole ++ "." ++ ds.drop whole

/-- Digits with a point behind the first one, and the power of ten of that one. -/
def scientific (ds : Text) (top : Int) : Text :=
  let size := Text.ofNat top.natAbs
  let point : Text := if ds.length ≤ 1 then [] else "." ++ ds.drop 1
  ds.take 1 ++ point ++ "e" ++ (if top < 0 then "-" else "+") ++ zeros (2 - size.length) ++ size

/-- The text of a finite number without its sign. -/
def magnitudeText (m : Nat) (e : Int) : Text :=
  if m = 0 then "0.0"
  else
    let (d, power) := shortest m e
    let all := Text.ofNat d
    let top := power + all.length - 1
    let ds := Text.trimEnd (· == '0') all
    if -4 ≤ top && top < 16 then positional ds top else scientific ds top

/-- The shortest text that reads back as a number. -/
def decimalText : Binary64 → Text
  | nan => "nan"
  | infinite negative => if negative then "-inf" else "inf"
  | finite negative m e => if negative then '-' :: magnitudeText m e else magnitudeText m e

end GlslCompose.Binary64
