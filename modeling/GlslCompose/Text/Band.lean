/-
`Text/Band.lean` -- sets of code points, given by where membership changes.

The tables of the properties of Unicode are long lists of intervals. A strictly
increasing list of code points says the same with half the structure: a code
point belongs to the set when an odd number of the listed points are at or below
it. The tables begin above U+007F; below it each property has a rule of its own,
so nothing about ASCII needs a table.
-/
import GlslCompose.Text.Basic

set_option autoImplicit false

namespace GlslCompose.Text

/-- Whether `n` lies in the set whose membership changes at the listed points. -/
def inBands : List Nat → Nat → Bool
  | [], _ => false
  | a :: points, n => if n < a then false else !inBands points n

/-- Below the first point nothing belongs to the set. -/
theorem inBands_of_lt {a n : Nat} {points : List Nat} (h : n < a) :
    inBands (a :: points) n = false := by
  simp [inBands, h]

end GlslCompose.Text
