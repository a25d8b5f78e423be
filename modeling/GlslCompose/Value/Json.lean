/-
`Value/Json.lean` -- the compact JSON text of a value.

Nothing stands between the parts, the text is ASCII throughout, and a map keeps
the order of its keys. Numbers that JSON has no spelling for are written by name.
The text serves as the input of a digest, so what matters is that different
values have different texts.
-/
import GlslCompose.Value.Display

set_option autoImplicit false

namespace GlslCompose.Value

/-! ## Strings -/

/-- One half of a surrogate pair, or any other number of four hexadecimal digits. -/
def jsonUnit (n : Nat) : Text := "\\u" ++ Text.hex 4 n

/-- A character inside a JSON string. -/
def jsonChar (c : Char) : Text :=
  let n := c.toNat
  if c = '\x22' then "\\\x22"
  else if c = '\\' then "\\\\"
  else if c = '\n' then "\\n"
  else if c = '\r' then "\\r"
  else if c = '\t' then "\\t"
  else if n = 8 then "\\b"
  else if n = 12 then "\\f"
  else if 32 ≤ n && n < 127 then [c]
  else if n < 0x10000 then jsonUnit n
  else jsonUnit (0xD800 + (n - 0x10000) / 1024) ++ jsonUnit (0xDC00 + (n - 0x10000) % 1024)

/-- A JSON string. -/
def jsonText (s : Text) : Text := '\x22' :: s.flatMap jsonChar ++ ['\x22']

/-- A floating-point number in JSON. -/
def jsonNumber (x : Binary64) : Text :=
  match x with
  | .nan => "NaN"
  | .infinite negative => if negative then "-Infinity" else "Infinity"
  | x => x.decimalText

/-! ## Values -/

/-- Parts between brackets, separated by commas. -/
def jsonGroup (left right : Char) (parts : List Text) : Text :=
  left :: List.intercalate [','] parts ++ [right]

/-- Why a value has no JSON text: by the kind of the part that has none, and whether that part is
a key. -/
inductive JsonProblem where
  | value (kind : Kind)
  | key (kind : Kind)
  deriving DecidableEq, Repr

/-- The text between the quotes of a key. Numbers and the like serve as keys by their own text. -/
def jsonKey : Value → Except JsonProblem Text
  | null => .ok "null"
  | bool b => .ok (if b then "true" else "false")
  | int n => .ok (Text.ofInt n)
  | float x => .ok (jsonNumber x)
  | text s => .ok s
  | v => .error (.key v.kind)

mutual

/-- The JSON text of a value. -/
def json : Value → Except JsonProblem Text
  | null => .ok "null"
  | bool b => .ok (if b then "true" else "false")
  | int n => .ok (Text.ofInt n)
  | float x => .ok (jsonNumber x)
  | text s => .ok (jsonText s)
  | list items => (jsonItems items).map (jsonGroup '[' ']')
  | map entries => (jsonEntries entries).map (jsonGroup '\x7b' '\x7d')
  | v => .error (.value v.kind)

/-- The JSON texts of the items of a list. -/
def jsonItems : List Value → Except JsonProblem (List Text)
  | [] => .ok []
  | v :: vs => do
    let t ← json v
    let ts ← jsonItems vs
    return t :: ts

/-- The JSON texts of the entries of a map. -/
def jsonEntries : List (Value × Value) → Except JsonProblem (List Text)
  | [] => .ok []
  | (k, v) :: entries => do
    let key ← jsonKey k
    let t ← json v
    let ts ← jsonEntries entries
    return (jsonText key ++ ":" ++ t) :: ts

end

end GlslCompose.Value
