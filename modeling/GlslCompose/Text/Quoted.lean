/-
`Text/Quoted.lean` -- texts and bytes between quotes, as diagnostics show them.

Single quotes are used, unless the content holds a single quote and no double
one. The quote in use and the backslash are written after a backslash; tab, line
feed and carriage return by their letters; every other character that is not
printable by its code point, in the shortest of the three hexadecimal forms.
-/
import GlslCompose.Text.Printable

set_option autoImplicit false

namespace GlslCompose.Text

/-- The quote to put around a content: the single one, unless only that one occurs in it. -/
def quoteFor (hasSingle hasDouble : Bool) : Char :=
  if hasSingle && !hasDouble then '\x22' else '\x27'

/-- How a character is written between quotes of the kind `q`. -/
def quotedChar (q c : Char) : Text :=
  let n := c.toNat
  if c = q || c = '\\' then ['\\', c]
  else if c = '\t' then "\\t"
  else if c = '\n' then "\\n"
  else if c = '\r' then "\\r"
  else if isPrintable c then [c]
  else if n < 0x100 then "\\x" ++ hex 2 n
  else if n < 0x10000 then "\\u" ++ hex 4 n
  else "\\U" ++ hex 8 n

/-- A text between quotes. -/
def quoted (s : Text) : Text :=
  let q := quoteFor (s.contains '\x27') (s.contains '\x22')
  q :: s.flatMap (quotedChar q) ++ [q]

/-- How a byte is written between quotes of the kind `q`: bytes above ASCII are never shown
as characters. -/
def quotedByte (q : Char) (b : UInt8) : Text :=
  if b < 128 then quotedChar q (Char.ofNat b.toNat) else "\\x" ++ hex 2 b.toNat

/-- Bytes between quotes, marked by the letter in front. -/
def quotedBytes (bs : List UInt8) : Text :=
  let q := quoteFor (bs.contains 39) (bs.contains 34)
  'b' :: q :: bs.flatMap (quotedByte q) ++ [q]

end GlslCompose.Text
