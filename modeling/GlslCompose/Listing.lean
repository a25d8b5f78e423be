/-
`Listing.lean` -- source text with line numbers, for reading along with an error.
-/
import GlslCompose.Text.Lines

set_option autoImplicit false

namespace GlslCompose.Listing

/-- A line behind its number, which is aligned up to five digits. -/
def numbered (number : Nat) (line : Text) : Text :=
  Text.padLeft 5 (Text.ofNat number) ++ ": " ++ line

/-- Lines behind their numbers, counted from the given one. -/
def numberedFrom (number : Nat) : List Text → List Text
  | [] => []
  | line :: rest => numbered number line :: numberedFrom (number + 1) rest

/-- The numbered lines of a text, as they are printed. -/
def ofText (source : Text) : Text := Text.joinLines (numberedFrom 1 (Text.lines source)) ++ ['\n']

end GlslCompose.Listing
