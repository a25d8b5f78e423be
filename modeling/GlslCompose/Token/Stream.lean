/-
`Token/Stream.lean` -- shader text as a row of tokens.

A `#` starts a directive when only white space and block comments stand before it
on its line. So the scan keeps, beside the line number, whether the line is still
at its start in that sense. Every token takes at least one character, which is why
the scan ends.
-/
import GlslCompose.Token.Basic

set_option autoImplicit false

namespace GlslCompose

namespace Scan

/-- The number of line feeds in a text. -/
def lineFeeds (s : Text) : Nat := s.count '\n'

/-- Whether the line is at its start behind a piece. White space leaves that as it is unless it
ends the line, a block comment always does. -/
def lineStartAfter (lineStart : Bool) (p : Piece) : Bool :=
  match p.kind with
  | .space => lineStart || p.data.getLast? == some '\n'
  | .blockComment => lineStart
  | _ => false

/-- The tokens of a text that starts on a line, at the start of it or not. -/
def tokensFrom (line : Int) (lineStart : Bool) (s : Text) : List Token :=
  match h : first? lineStart s with
  | none => []
  | some p =>
    have : p.rest.length < s.length := by
      have ⟨hs, hp⟩ := first?_split h
      have := List.length_pos_iff.2 hp
      rw [hs, List.length_append]
      omega
    ⟨p.kind, p.data, line⟩ ::
      tokensFrom (line + lineFeeds p.data) (lineStartAfter lineStart p) p.rest
  termination_by s.length

end Scan

namespace Token

/-- The tokens of a text whose first line has the given number. -/
def ofText (s : Text) (firstLine : Int) : List Token := Scan.tokensFrom firstLine true s

/-- Tokens written one after the other. -/
def toText (tokens : List Token) : Text := tokens.flatMap Token.data

end Token

end GlslCompose
