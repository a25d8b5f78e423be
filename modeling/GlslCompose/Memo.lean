/-
`Memo.lean` -- a memo of bounded size.

A new key pushes the oldest entry out once the memo is full. A key that is present
gets its new value in place, pushes nothing out, and does not become younger.
-/
import GlslCompose.OrderedMap

set_option autoImplicit false

namespace GlslCompose.Memo

variable {κ ν : Type} [BEq κ]

/-- The number of entries that a memo holds. -/
def capacity : Nat := 16

/-- A memo with a value at a key. -/
def remember (key : κ) (value : ν) (memo : List (κ × ν)) : List (κ × ν) :=
  let kept := if !Pairs.has key memo && capacity ≤ memo.length then memo.drop 1 else memo
  Pairs.put key value kept

end GlslCompose.Memo
