/-
`Text/Digits.lean` -- digits, and the numbers that they spell.

Digits may be set apart by low lines, one at most between two of them. The digits
of all scripts are in `Text/Word`; those of the bases that go by eights are here.
-/
import GlslCompose.Text.Word

set_option autoImplicit false

namespace GlslCompose.Text

/-- What a hexadecimal digit is worth. -/
def hexValue? (c : Char) : Option Nat :=
  let n := c.toNat
  if 48 ≤ n && n ≤ 57 then some (n - 48)
  else if 65 ≤ n && n ≤ 70 then some (n - 55)
  else if 97 ≤ n && n ≤ 102 then some (n - 87)
  else none

/-- What an octal digit is worth. -/
def octalValue? (c : Char) : Option Nat :=
  let n := c.toNat
  if 48 ≤ n && n ≤ 55 then some (n - 48) else none

/-- The number that a row of digits spells in a base. -/
def numberIn (base : Nat) (digits : List Nat) : Nat := digits.foldl (fun n d => base * n + d) 0

/-- The digits at the start of a text, each with at most one low line before it, and what follows
them. -/
def digitsFrom (digit? : Char → Option Nat) : Text → List Nat × Text
  | [] => ([], [])
  | c :: s =>
    match digit? c with
    | some n =>
      let (digits, rest) := digitsFrom digit? s
      (n :: digits, rest)
    | none =>
      if c == '_' && (s.head?.bind digit?).isSome then digitsFrom digit? s else ([], c :: s)

theorem length_digitsFrom_le (digit? : Char → Option Nat) (s : Text) :
    (digitsFrom digit? s).2.length ≤ s.length := by
  induction s with
  | nil => simp [digitsFrom]
  | cons c s ih =>
    unfold digitsFrom
    split
    · simp only [List.length_cons]; omega
    · split
      · simp only [List.length_cons]; omega
      · simp

/-- The decimal digits at the start of a text, with low lines between them alone, and what follows
them. -/
def decimalDigits (s : Text) : List Nat × Text :=
  if s.head? == some '_' then ([], s) else digitsFrom digitValue? s

end GlslCompose.Text
