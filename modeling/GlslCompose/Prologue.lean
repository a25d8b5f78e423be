/-
`Prologue.lean` -- the lines of the active defines, and where they go in a text.

They must stand before everything that can use them, but the language wants
`#version` and `#extension` directives first. So they go below the last of those
at the start of the text, where empty lines between them do not count.
-/
import GlslCompose.Directive
import GlslCompose.MacroTable
import GlslCompose.Text.Lines

set_option autoImplicit false

namespace GlslCompose.Prologue

/-- Whether a line holds a directive that must stay in front. -/
def isHeader (line : Text) : Bool := Directive.isOneOf ["version", "extension"] line

/-- The number of lines up to the last header directive at the start of a text. -/
def headerLength : List Text → Nat
  | [] => 0
  | line :: rest =>
    if isHeader line then headerLength rest + 1
    else if Text.isBlankText line then
      -- an empty line counts only where a header directive still follows
      match headerLength rest with
      | 0 => 0
      | n + 1 => n + 2
    else 0

/-- A text with a prologue below the header directives at its start. -/
def insert (prologue source : Text) : Text :=
  let lines := Text.lineParts source
  let n := headerLength lines
  (lines.take n).flatten ++ prologue ++ (lines.drop n).flatten

/-- A text with the lines for the defines of a value. -/
def injectDefines (source : Text) (defines : Value) : Except Fault Text :=
  if defines.isTrue then
    (MacroTable.ofValue defines).map fun table => insert table.prologue source
  else .ok source

end GlslCompose.Prologue
