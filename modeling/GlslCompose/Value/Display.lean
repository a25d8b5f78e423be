/-
`Value/Display.lean` -- values as text.

`shown` is how a value is named in a diagnostic, with texts between quotes;
`display` is how it is written into a shader: a text as it is, all else as shown.
-/
import GlslCompose.Value.Basic
import GlslCompose.Number.Shortest
import GlslCompose.Text.Quoted

set_option autoImplicit false

namespace GlslCompose.Value

/-- Items between brackets, separated by commas. -/
def bracketed (left right : Text) (items : List Text) : Text :=
  left ++ List.intercalate ", " items ++ right

/-- A table of defines, as diagnostics name it. -/
def tableText (entries : List (Text × Text)) (revision : Nat) : Text :=
  "<DefineTable " ++
    bracketed "\x7b" "\x7d" (entries.map fun (k, v) => Text.quoted k ++ ": " ++ Text.quoted v) ++
    " at rev " ++ Text.ofNat revision ++ ">"

/-- A source of a kind that holds a text, named by the length of the text. -/
def sourceText (kind : Kind) (content : Text) : Text :=
  "<" ++ kind.name ++ " " ++ Text.ofNat content.length ++ " chars>"

mutual

/-- How a value is named in a diagnostic. -/
def shown : Value → Text
  | null => "None"
  | bool b => if b then "True" else "False"
  | int n => Text.ofInt n
  | float x => x.decimalText
  | text s => Text.quoted s
  | bytes bs => Text.quotedBytes bs
  | list items => bracketed "[" "]" (shownItems items)
  | map entries => bracketed "\x7b" "\x7d" (shownEntries entries)
  | table entries revision => tableText entries revision
  | function _ => "<func>"
  | literal s => sourceText .literal s
  | generated _ => "<Generated by <func>>"
  | template s _ => sourceText .template s
  | bareSource => "<Source>"
  | program _ => "<Program>"

/-- The items of a list, as they are shown. -/
def shownItems : List Value → List Text
  | [] => []
  | v :: vs => shown v :: shownItems vs

/-- The entries of a map, as they are shown. -/
def shownEntries : List (Value × Value) → List Text
  | [] => []
  | (k, v) :: entries => (shown k ++ ": " ++ shown v) :: shownEntries entries

end

/-- How a value is written into a text. -/
def display : Value → Text
  | text s => s
  | v => shown v

@[simp] theorem display_text (s : Text) : display (text s) = s := rfl

end GlslCompose.Value
