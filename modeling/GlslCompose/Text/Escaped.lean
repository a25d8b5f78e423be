/-
`Text/Escaped.lean` -- reading escapes: a backslash and what it makes of the
characters behind it.

A letter or a quote stands for one character, `x`, `u` and `U` are followed by the
hexadecimal number of a character, and up to three octal digits are a number too.
A backslash at the end of a line joins it with the next one. A backslash that does
none of this stands for itself; where a character above ASCII follows, that
character is read as its number, in the form in which it would be escaped.

An escape may give the number of one half of a surrogate pair, which is no
character. So what is read is a row of code points, and it is a text only where
each of them is a character.
-/
import GlslCompose.Text.Basic
import GlslCompose.Text.Digits

set_option autoImplicit false

namespace GlslCompose.Text

/-- The character that stands for a single character behind a backslash. -/
def escapedChar? (c : Char) : Option Char :=
  if c = '\\' || c = '\x27' || c = '\x22' then some c
  else if c = 'a' then some '\x07'
  else if c = 'b' then some '\x08'
  else if c = 'f' then some '\x0c'
  else if c = 'n' then some '\n'
  else if c = 'r' then some '\r'
  else if c = 't' then some '\t'
  else if c = 'v' then some '\x0b'
  else none

/-- The number of hexadecimal digits that follow a letter behind a backslash. -/
def escapeWidth? (c : Char) : Option Nat :=
  if c = 'x' then some 2
  else if c = 'u' then some 4
  else if c = 'U' then some 8
  else none

/-- A number that is a code point. -/
def codePoint? (n : Nat) : Option Nat := if n < 0x110000 then some n else none

/-- The text that a row of code points is, if it is one. -/
def ofPoints? (points : List Nat) : Option Text :=
  points.mapM fun n => if h : n.isValidChar then some (Char.ofNatAux n h) else none

/-- The code point whose number is spelled by exactly so many hexadecimal digits at the start of a
text. -/
def hexPoint? (width : Nat) (s : Text) : Option Nat :=
  match (s.take width).mapM hexValue? with
  | some digits => if digits.length = width then codePoint? (numberIn 16 digits) else none
  | none => none

/-- The digits of an octal number at the start of a text: three of them at most. -/
def octalDigits (s : Text) : List Nat :=
  ((s.take 3).takeWhile fun c => (octalValue? c).isSome).filterMap octalValue?

/-- A character above ASCII as it would be escaped, without the backslash. -/
def escapeForm (c : Char) : Text :=
  let n := c.toNat
  if n < 0x100 then 'x' :: hex 2 n
  else if n < 0x10000 then 'u' :: hex 4 n
  else 'U' :: hex 8 n

/-- The code points of a text. -/
def toPoints (s : Text) : List Nat := s.map Char.toNat

/-- What a backslash stands for with the text behind it, and how many characters of that text it
takes up. -/
def escape? (s : Text) : Option (List Nat × Nat) :=
  match s with
  | [] => none
  | c :: rest =>
    if c = '\n' then some ([], 1)
    else
      match escapedChar? c, escapeWidth? c with
      | some d, _ => some ([d.toNat], 1)
      | none, some width => (hexPoint? width rest).map fun n => ([n], width + 1)
      | none, none =>
        match octalDigits s with
        | [] =>
          if c = 'N' then none
          else if c.toNat < 128 then some (toPoints ['\\', c], 1)
          else some (toPoints ('\\' :: escapeForm c), 1)
        | digits => (codePoint? (numberIn 8 digits)).map fun n => ([n], digits.length)

/-- A text with its escapes read. `skip` counts the characters that belong to an escape which was
read already. -/
def unescapeFrom? : Nat → Text → Option (List Nat)
  | _, [] => some []
  | 0, c :: s =>
    if c = '\\' then
      match escape? s with
      | some (t, width) => (unescapeFrom? width s).map (t ++ ·)
      | none => none
    else (unescapeFrom? 0 s).map (c.toNat :: ·)
  | skip + 1, _ :: s => unescapeFrom? skip s

/-- A text with its escapes read, if each of them is one. -/
def unescape? (s : Text) : Option (List Nat) := unescapeFrom? 0 s

/-- A text without a backslash stands for itself. -/
theorem unescape?_of_not_mem {s : Text} (h : '\\' ∉ s) : unescape? s = some (toPoints s) := by
  unfold unescape?
  induction s with
  | nil => rfl
  | cons c s ih =>
    simp only [List.mem_cons, not_or] at h
    have hc : c ≠ '\\' := fun e => h.1 e.symm
    simp [unescapeFrom?, hc, ih h.2, toPoints]

/-- The code points of a text make up that text. -/
@[simp] theorem ofPoints?_toPoints (s : Text) : ofPoints? (toPoints s) = some s := by
  unfold ofPoints? toPoints
  induction s with
  | nil => rfl
  | cons c s ih =>
    have hc : c.toNat.isValidChar := c.valid
    rw [List.map_cons, List.mapM_cons, ih, dif_pos hc]
    rfl

end GlslCompose.Text
