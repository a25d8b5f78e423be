/-
`Template/Basic.lean` -- templates of shader text: what they consist of.

A template is text with names in double braces, whose values are written there,
comments, and statements: `if` with its branches, and `for` over the items of a
value. A statement stands between braces with dollar signs, or on a line of its
own behind two dollar signs; that line then writes nothing, and neither do empty
lines directly behind it. Everything else is text and written as it is.

Reading goes in three steps, each with a file of its own. `Template/Word` reads the
words inside a mark, `Template/Piece` cuts the template into text and marks, and
`Template/Nesting` builds the parts that are defined here.
-/
import GlslCompose.Text.Basic

set_option autoImplicit false

namespace GlslCompose.Template

/-- Something that has a value. -/
inductive Operand where
  | name (name : Text)
  | int (n : Int)
  /-- A string, by its code points. -/
  | text (points : List Nat)
  | bool (b : Bool)
  | null
  deriving DecidableEq, Repr

/-- A condition. -/
inductive Test where
  | holds (x : Operand)
  | equal (x y : Operand)
  | greater (x y : Operand)
  | negation (t : Test)
  | both (t u : Test)
  | either (t u : Test)
  deriving DecidableEq, Repr

/-- A part of a template. -/
inductive Node where
  | text (s : Text)
  | value (x : Operand)
  | choice (test : Test) (yes no : List Node)
  | loop (item : Text) (source : Operand) (body otherwise : List Node)

end GlslCompose.Template
