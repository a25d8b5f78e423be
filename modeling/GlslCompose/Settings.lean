/-
`Settings.lean` -- settings that come from the environment as text.

A flag is set by anything but a few words for no. A level is a number, or one of
the names of the usual levels; anything else leaves the level at warnings, with a
warning that says so.
-/
import GlslCompose.Notice
import GlslCompose.Text.LowerCase
import GlslCompose.Text.Word

set_option autoImplicit false

namespace GlslCompose.Settings

/-! ## Flags -/

/-- Whether the text of a flag means yes. -/
def isYes (value : Text) : Bool :=
  !(["", "false", "0", "no"] : List Text).contains (Text.lowerCase value)

/-- Whether a flag is set, with what holds when there is nothing in the environment. -/
def flag (value : Option Text) (default : Text) : Bool := isYes (value.getD default)

/-! ## Levels -/

/-- The levels by name. -/
def levelNames : List (Text × Nat) := [
  ("NOTSET", 0), ("DEBUG", 10), ("INFO", 20), ("WARN", 30), ("WARNING", 30), ("ERROR", 40),
  ("CRITICAL", 50), ("FATAL", 50)]

/-- The level without any setting. -/
def defaultLevel : Nat := 30

/-- The capital form of a letter, as far as it lies in ASCII. Two letters above ASCII have their
capital forms in it. -/
def capital (c : Char) : Char :=
  if c = '\u0131' then 'I' else if c = '\u017F' then 'S' else c.toUpper

/-- The number that decimal digits of any script spell. -/
def number? : Text → Option Nat
  | s => (s.mapM Text.digitValue?).map fun digits => digits.foldl (fun n d => 10 * n + d) 0

/-- The level that a text names. -/
def level? (value : Text) : Option Nat :=
  if value.all Text.isNumeral then number? value
  else Pairs.get? (value.map capital) levelNames

/-- The level for a setting that may be missing or empty. -/
def level (value : Option Text) : Logged Nat :=
  match value with
  | none | some [] => .done defaultLevel
  | some value =>
    match level? value with
    | some level => .done level
    | none => (Logged.done defaultLevel).note (.badLevel value)

end GlslCompose.Settings
