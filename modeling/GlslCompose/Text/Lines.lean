/-
`Text/Lines.lean` -- physical lines.

A text breaks after each line feed, carriage return, vertical tab, form feed,
file, group or record separator, next-line, line separator and paragraph
separator; a carriage return directly before a line feed is one break with it.
A break ends a line and does not start one, so a text that ends in a break has
no empty line after it, and the empty text has no line at all.

`lineParts` keeps the breaks, `lines` drops them. Main statement: nothing is
lost, `lineParts` joins back to the text.
-/
import GlslCompose.Text.Basic

set_option autoImplicit false

namespace GlslCompose.Text

/-- Whether a line ends after this character. -/
def isLineBreak (c : Char) : Bool :=
  let n := c.toNat
  (10 ≤ n && n ≤ 13) || (28 ≤ n && n ≤ 30) || n == 0x85 || n == 0x2028 || n == 0x2029

/-- The lines of a text, each with its break. -/
def lineParts : Text → List Text
  | [] => []
  | '\r' :: '\n' :: s => ['\r', '\n'] :: lineParts s
  | c :: s =>
    if isLineBreak c then [c] :: lineParts s
    else match lineParts s with
      | [] => [[c]]
      | l :: ls => (c :: l) :: ls

/-- The lines of a text, without their breaks. -/
def lines : Text → List Text
  | [] => []
  | '\r' :: '\n' :: s => [] :: lines s
  | c :: s =>
    if isLineBreak c then [] :: lines s
    else match lines s with
      | [] => [[c]]
      | l :: ls => (c :: l) :: ls

/-- The lines of a text with their breaks make up the text. -/
theorem flatten_lineParts (s : Text) : (lineParts s).flatten = s := by
  fun_induction lineParts s <;> simp_all

/-- Lines written one after the other, with a line feed between them. -/
def joinLines (ls : List Text) : Text := List.intercalate ['\n'] ls

/-- A text with a line feed for every carriage return, and for every pair of the two. -/
def unifyBreaks : Text → Text
  | [] => []
  | '\r' :: '\n' :: s => '\n' :: unifyBreaks s
  | c :: s => (if c = '\r' then '\n' else c) :: unifyBreaks s

end GlslCompose.Text
