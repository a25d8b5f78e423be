/-
`CompiledText.lean` -- from composed text to the text that a driver compiles.

A guard for the shader's name at the end of the source is dropped, since the name
is written differently here. Every precision statement is dropped, and one for the
precision of the library stands at the top, below the version. Empty lines go, and
a comment with the shader's name goes below the header.
-/
import GlslCompose.Directive
import GlslCompose.Text.Lines

set_option autoImplicit false

namespace GlslCompose.CompiledText

/-! ## The guard for the name -/

/-- Whether a text is the last line of a guard, with or without its line feed. -/
def isGuardEnd (s : Text) : Bool := s = "#endif" || s = "#endif\n"

/-- Whether a text is a guard that defines the shader's name, and nothing else. -/
def isGuard (s : Text) : Bool :=
  match Text.after? "#ifndef SHADER_NAME" s with
  | none => false
  | some s =>
    match Text.after? "\n#define SHADER_NAME" (s.dropWhile Directive.isTrailing) with
    | none => false
    | some s =>
      !(s.head?.any Text.isWord) &&
        match s.dropWhile (· != '\n') with
        | [] => false
        | _ :: last => isGuardEnd last

/-- A text without a guard at its end, and without the white space character before that. -/
def dropGuard : Text → Text
  | [] => []
  | c :: s =>
    -- a guard reaches to the end of the text, so there is nothing behind it to keep
    if isGuard (c :: s) || (Text.isBlank c && isGuard s) then [] else c :: dropGuard s

/-! ## Precision statements -/

/-- The white space at the start of a text is passed over, and there must be some. -/
def someBlanks? (s : Text) : Option Text :=
  match s with
  | c :: t => if Text.isBlank c then some (Text.skipBlanks t) else none
  | [] => none

/-- A nonempty run of characters at the start of a text is passed over. -/
def someOf? (p : Char → Bool) (s : Text) : Option Text :=
  match s with
  | c :: t => if p c then some (t.dropWhile p) else none
  | [] => none

/-- Whether a character may stand in a precision qualifier. -/
def isSmallLetter (c : Char) : Bool := 'a' ≤ c && c ≤ 'z'

/-- Whether a character is dropped behind a precision statement. -/
def isStatementTail (c : Char) : Bool := c == ' ' || c == '\t' || c == '\r'

/-- What follows a precision statement at the start of a text: the keyword, a qualifier in small
letters, a word for the type, and a semicolon, with white space where it is needed. -/
def afterStatement? (s : Text) : Option Text := do
  let s ← Text.after? "precision" s
  let s ← someBlanks? s
  let s ← someOf? isSmallLetter s
  let s ← someBlanks? s
  let s ← someOf? Text.isWord s
  let s ← Text.after? ";" (Text.skipBlanks s)
  return s.dropWhile isStatementTail

/-- What follows the blanks and the precision statement at the start of a text. The keyword may
not continue a word, so without blanks it matters whether a word character stands before. -/
def afterPrecision? (inWord : Bool) (s : Text) : Option Text :=
  match s with
  | c :: _ =>
    if Directive.isTrailing c then afterStatement? (s.dropWhile Directive.isTrailing)
    else if inWord then none
    else afterStatement? s
  | [] => none

theorem length_someBlanks?_le {s r : Text} (h : someBlanks? s = some r) : r.length ≤ s.length := by
  unfold someBlanks? at h
  split at h
  · rename_i c t
    split at h
    · simp at h; subst h
      have := Text.length_dropWhile_le Text.isBlank t
      simp only [Text.skipBlanks, List.length_cons]; omega
    · simp at h
  · simp at h

theorem length_someOf?_le {p : Char → Bool} {s r : Text} (h : someOf? p s = some r) :
    r.length ≤ s.length := by
  unfold someOf? at h
  split at h
  · rename_i c t
    split at h
    · simp at h; subst h
      have := Text.length_dropWhile_le p t
      simp only [List.length_cons]; omega
    · simp at h
  · simp at h

/-- A statement takes at least its keyword. -/
theorem length_afterStatement?_lt {s r : Text} (h : afterStatement? s = some r) :
    r.length < s.length := by
  simp only [afterStatement?, bind, Option.bind_eq_some_iff, pure, Option.some.injEq] at h
  obtain ⟨a, ha, b, hb, c, hc, d, hd, e, he, f, hf, rfl⟩ := h
  have h1 := Text.length_after? ha
  have h2 := length_someBlanks?_le hb
  have h3 := length_someOf?_le hc
  have h4 := length_someBlanks?_le hd
  have h5 := length_someOf?_le he
  have h6 := Text.length_after? hf
  have h7 := Text.length_dropWhile_le Text.isBlank e
  have h8 := Text.length_dropWhile_le isStatementTail f
  simp only [Text.skipBlanks] at h6
  have : (String.toList "precision").length = 9 := by decide
  omega

theorem length_afterPrecision?_lt {inWord : Bool} {s r : Text}
    (h : afterPrecision? inWord s = some r) : r.length < s.length := by
  unfold afterPrecision? at h
  split at h
  · split at h
    · exact Nat.lt_of_lt_of_le (length_afterStatement?_lt h) (Text.length_dropWhile_le _ _)
    · split at h
      · simp at h
      · exact length_afterStatement?_lt h
  · simp at h

/-- A text without its precision statements and the blanks around them. `inWord` tells whether a
word character stands before the text. -/
def dropPrecision (inWord : Bool) (s : Text) : Text :=
  match h : afterPrecision? inWord s with
  | some rest =>
    have := length_afterPrecision?_lt h
    -- what was dropped ends in a semicolon or a blank, so no word goes on
    dropPrecision false rest
  | none =>
    match s with
    | [] => []
    | c :: s => c :: dropPrecision (Text.isWord c) s
  termination_by s.length

/-! ## The header -/

/-- Whether a line is the version directive. -/
def isVersion (line : Text) : Bool := Directive.isOneOf ["version"] line

/-- The version directive at the start of some lines, and the lines without it. Only empty lines
may stand before it. -/
def cutVersion? : List Text → Option (Text × List Text)
  | [] => none
  | line :: rest =>
    if isVersion line then some (line, rest)
    else if Text.isBlankText line then
      (cutVersion? rest).map fun (version, rest) => (version, line :: rest)
    else none

/-- The statement that declares a precision. -/
def precisionLine (precision : Text) : Text := "precision " ++ precision ++ ";"

/-- The directive for a version. -/
def versionLine (version : Text) : Text := "#version " ++ version

/-- The lines of a text below its header: the version directive of the text, or else the one of
the library, and the precision statement. -/
def withHeader (precision : Text) (version : Option Text) (lines : List Text) : List Text :=
  match cutVersion? lines with
  | some (found, rest) => Text.strip found :: precisionLine precision :: rest
  | none =>
    match version with
    | some version => Text.strip (versionLine version) :: precisionLine precision :: lines
    | none => precisionLine precision :: lines

/-- A text below its header, in place of its own precision statements. -/
def injectPrecision (precision : Text) (version : Option Text) (source : Text) : Text :=
  Text.joinLines (withHeader precision version (Text.lines (dropPrecision false source)))

/-! ## The whole -/

/-- The body of a compiled text: composed text below its header and without empty lines. -/
def body (precision : Text) (version : Option Text) (composed : Text) : Text :=
  let lines := Text.lines (injectPrecision precision version composed)
  Text.joinLines (lines.filter fun line => !Text.isBlankText line) ++ ['\n']

/-- The comment with a shader's name. -/
def markerLine (name : Text) : Text := "// " ++ name ++ "\n"

/-- A body with the marker below its first line, or below the second if the first is the version
directive. -/
def withMarker (name body : Text) : Text :=
  let lines := Text.lineParts body
  let index := if (lines.head?.any (Text.startsWith "#version")) then 2 else 1
  (lines.take index).flatten ++ markerLine name ++ (lines.drop index).flatten

end GlslCompose.CompiledText
