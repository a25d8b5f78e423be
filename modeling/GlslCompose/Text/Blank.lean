/-
`Text/Blank.lean` -- white space: which characters are blank, what a text is
without the blanks around it, and when a line counts as empty.

The class is that of the Unicode property, and it also holds the four separators
U+001C to U+001F, which bidirectional text treats as paragraph and segment ends.
It is wider than what the scanner calls blanks between tokens (see `Token`), and
the two are deliberately kept apart.
-/
import GlslCompose.Text.Basic

set_option autoImplicit false

namespace GlslCompose.Text

/-- Whether a character is white space. -/
def isBlank (c : Char) : Bool :=
  let n := c.toNat
  (9 ≤ n && n ≤ 13) || (28 ≤ n && n ≤ 32) || n == 0x85 || n == 0xA0 || n == 0x1680 ||
  (0x2000 ≤ n && n ≤ 0x200A) || n == 0x2028 || n == 0x2029 || n == 0x202F || n == 0x205F ||
  n == 0x3000

/-- Every character that the core library calls white space is blank. -/
theorem isBlank_of_isWhitespace {c : Char} (h : c.isWhitespace = true) : isBlank c = true := by
  simp only [Char.isWhitespace, Bool.or_eq_true, decide_eq_true_eq] at h
  rcases h with ((h | h) | h) | h <;> subst h <;> decide

/-- A text without the white space around it. -/
def strip (s : Text) : Text := trim isBlank s

/-- A text without the white space before it. -/
def skipBlanks (s : Text) : Text := s.dropWhile isBlank

/-- Whether there is nothing but white space in a text. -/
def isBlankText (s : Text) : Bool := s.all isBlank

end GlslCompose.Text
