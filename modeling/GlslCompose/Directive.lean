/-
`Directive.lean` -- what a directive says: its keyword, its text without comments,
the value of a define, and the argument of an include.

Directives are texts here, from the white space before the `#` to the end of the
directive; the functions do not care whether the scanner found them. Comments
inside a directive count as a blank. Between the `#`, the keyword and what
follows, any white space will do, line breaks behind a backslash not included.
-/
import GlslCompose.Fault
import GlslCompose.Token.Basic

set_option autoImplicit false

namespace GlslCompose.Directive

/-! ## The keyword -/

/-- What follows the `#` and the white space behind it. -/
def afterHash? (data : Text) : Option Text :=
  match Text.skipBlanks data with
  | '#' :: s => some (Text.skipBlanks s)
  | _ => none

/-- The keyword of a directive, which is empty where there is none. -/
def keyword (data : Text) : Text :=
  match afterHash? data with
  | some s => Text.word s
  | none => []

/-- Whether a text starts with a `#` and one of some keywords. -/
def isOneOf (keywords : List Text) (data : Text) : Bool := keywords.contains (keyword data)

/-! ## Comments -/

/-- A text with a blank for each closed block comment. -/
def blankComments (s : Text) : Text :=
  match h : Scan.closedComment? s with
  | some (body, rest) =>
    have : rest.length < s.length := by
      have ⟨hs, hb⟩ := Scan.closedComment?_split h
      have := List.length_pos_iff.2 hb
      rw [hs, List.length_append]
      omega
    ' ' :: blankComments rest
  | none =>
    match s with
    | [] => []
    | c :: s => c :: blankComments s
  termination_by s.length

/-- Blanks and tabs, which are dropped where a directive ends. -/
def isTrailing (c : Char) : Bool := c == ' ' || c == '\t'

/-- A directive without its comments, and without the blanks and tabs at its end. -/
def withoutComments (data : Text) : Text := Text.trimEnd isTrailing (blankComments data)

/-! ## Defines -/

/-- **The parts of a define:** everything up to the macro, the macro with its parameter list, and
what follows. -/
structure DefineParts where
  head : Text
  macroName : Text
  tail : Text
  deriving DecidableEq, Repr

/-- A parameter list at the start of a text, from its parenthesis to the first closing one. -/
def parameters (s : Text) : Text × Text :=
  match s with
  | '(' :: t =>
    match Text.cutFirst? ')' t with
    | some (inner, rest) => ('(' :: inner ++ [')'], rest)
    | none => ([], s)
  | s => ([], s)

/-- The parts of a define directive. -/
def defineParts? (data : Text) : Option DefineParts :=
  let indent := data.takeWhile Text.isBlank
  match data.dropWhile Text.isBlank with
  | '#' :: s =>
    let gap := s.takeWhile Text.isBlank
    match Text.after? "define" (s.dropWhile Text.isBlank) with
    | none => none
    | some s =>
      let space := s.takeWhile Text.isBlank
      let s := s.dropWhile Text.isBlank
      let name := Text.word s
      if space.isEmpty || name.isEmpty then none
      else
        let (params, tail) := parameters (s.dropWhile Text.isWord)
        some ⟨indent ++ '#' :: gap ++ "define" ++ space, name ++ params, tail⟩
  | _ => none

/-- A directive without comments in which a define always has a value: `1`, if it had none. -/
def normalDefine (data : Text) : Text :=
  let data := withoutComments data
  match defineParts? data with
  | some parts =>
    if Text.isBlankText parts.tail then parts.head ++ parts.macroName ++ " 1" else data
  | none => data

/-! ## Includes -/

/-- The argument of an include directive, without the white space around it. -/
def includeArgument (data : Text) : Text :=
  match (afterHash? data).bind (Text.after? "include") with
  | some argument => Text.strip argument
  | none => []

/-- **What an include asks for:** a path from the root of the store, or one from the directory of
the file that includes. -/
inductive IncludeTarget where
  | fromRoot (path : Text)
  | fromFile (path : Text)
  deriving DecidableEq, Repr

/-- The delimiter that closes what another one opens. -/
def closing? (opening : Char) : Option Char :=
  if opening = '<' then some '>'
  else if opening = '\x22' then some '\x22'
  else none

/-- What an argument asks for. Only its ends are looked at: it must open with one of the two
delimiters and end in the matching one, and not everything between may be white space. -/
def includeTarget (argument : Text) : Except IncludeProblem IncludeTarget :=
  match argument with
  | [] => .error .noArgument
  | opening :: rest =>
    match closing? opening with
    | none => .error (.badOpening opening)
    | some expected =>
      match rest.getLast? with
      | none => .error (.noClosing opening expected)
      | some last =>
        if last ≠ expected then .error (.badClosing last expected)
        else
          let path := Text.strip rest.dropLast
          if path.isEmpty then .error (.emptyPath argument)
          else if opening = '<' then .ok (.fromRoot path)
          else .ok (.fromFile (if Text.startsWith "." path then path else "./" ++ path))

end GlslCompose.Directive
