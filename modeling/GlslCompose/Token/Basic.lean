/-
`Token/Basic.lean` -- the pieces that shader text is cut into, and how one piece is
found at the start of a text.

The scanner does not understand the shading language. It only tells apart what the
walk over directives needs to tell apart: directives, comments, white space, and
all the rest. Each function below looks at the start of a text and answers the
piece found there with what follows it; `first?` puts them together in the order
in which they are tried. Main statement: `first?_split`, a piece and what follows
it make up the text, and a piece is never empty.
-/
import GlslCompose.Text.Word

set_option autoImplicit false

namespace GlslCompose

/-- What kind of piece a token is. -/
inductive TokenKind where
  | directive
  | blockComment
  | lineComment
  | space
  | identifier
  | number
  | other
  deriving DecidableEq, Repr

namespace TokenKind

/-- The name of a kind. -/
def name : TokenKind → Text
  | directive => "preprocessor"
  | blockComment => "block-comment"
  | lineComment => "line-comment"
  | space => "whitespace"
  | identifier => "ident"
  | number => "number"
  | other => "other"

/-- Whether a piece is a comment. -/
def isComment : TokenKind → Bool
  | blockComment | lineComment => true
  | _ => false

end TokenKind

/-- A piece of shader text, and the line on which it starts. -/
structure Token where
  kind : TokenKind
  data : Text
  line : Int
  deriving DecidableEq, Repr

namespace Scan

/-! ## Comments -/

/-- A text cut behind the first `*/` in it. -/
def closeComment? : Text → Option (Text × Text)
  | [] => none
  | '*' :: '/' :: s => some (['*', '/'], s)
  | c :: s => (closeComment? s).map fun (body, rest) => (c :: body, rest)

/-- A block comment that is closed, at the start of a text. -/
def closedComment? : Text → Option (Text × Text)
  | '/' :: '*' :: s => (closeComment? s).map fun (body, rest) => ('/' :: '*' :: body, rest)
  | _ => none

/-- A block comment at the start of a text. One that is never closed runs to the end. -/
def blockComment? : Text → Option (Text × Text)
  | '/' :: '*' :: s =>
    match closeComment? s with
    | some (body, rest) => some ('/' :: '*' :: body, rest)
    | none => some ('/' :: '*' :: s, [])
  | _ => none

/-- A line comment at the start of a text. The line feed that ends it is not part of it. -/
def lineComment? : Text → Option (Text × Text)
  | '/' :: '/' :: s => some ('/' :: '/' :: s.takeWhile (· != '\n'), s.dropWhile (· != '\n'))
  | _ => none

/-! ## White space, identifiers, numbers -/

/-- The blanks between tokens, other than the line feed. -/
def isSpace (c : Char) : Bool :=
  c == ' ' || c == '\t' || c == '\r' || c == '\x0b' || c == '\x0c'

/-- White space at the start of a text: blanks up to and including a line feed, or the blanks
alone. It never holds more than one line feed, so that the start of every line is seen. -/
def space? (s : Text) : Option (Text × Text) :=
  match s.takeWhile isSpace, s.dropWhile isSpace with
  | blanks, '\n' :: rest => some (blanks ++ ['\n'], rest)
  | [], _ => none
  | blanks, rest => some (blanks, rest)

/-- Whether an identifier may start with this character. -/
def isIdentifierStart (c : Char) : Bool := c.isAlpha || c == '_'

/-- An identifier at the start of a text. -/
def identifier? : Text → Option (Text × Text)
  | [] => none
  | c :: s =>
    if isIdentifierStart c then some (c :: s.takeWhile Text.isWord, s.dropWhile Text.isWord)
    else none

/-- Whether a character is a hexadecimal digit. -/
def isHexDigit (c : Char) : Bool :=
  c.isDigit || ('a' ≤ c && c ≤ 'f') || ('A' ≤ c && c ≤ 'F')

/-- A hexadecimal number at the start of a text, with the suffix for an unsigned one. -/
def hexNumber? : Text → Option (Text × Text)
  | '0' :: x :: s =>
    if x == 'x' || x == 'X' then
      match s.takeWhile isHexDigit, s.dropWhile isHexDigit with
      | [], _ => none
      | digits, u :: rest =>
        if u == 'u' || u == 'U' then some ('0' :: x :: digits ++ [u], rest)
        else some ('0' :: x :: digits, u :: rest)
      | digits, [] => some ('0' :: x :: digits, [])
    else none
  | _ => none

/-- The digits and the point of a decimal number at the start of a text. -/
def mantissa? (s : Text) : Option (Text × Text) :=
  match s.takeWhile Text.isDecimalDigit, s.dropWhile Text.isDecimalDigit with
  | [], '.' :: t =>
    match t.takeWhile Text.isDecimalDigit, t.dropWhile Text.isDecimalDigit with
    | [], _ => none
    | digits, rest => some ('.' :: digits, rest)
  | [], _ => none
  | whole, '.' :: t =>
    some (whole ++ '.' :: t.takeWhile Text.isDecimalDigit, t.dropWhile Text.isDecimalDigit)
  | whole, rest => some (whole, rest)

/-- A sign at the start of a text, if there is one. -/
def signPart : Text → Text × Text
  | c :: s => if c == '+' || c == '-' then ([c], s) else ([], c :: s)
  | [] => ([], [])

/-- The exponent of a decimal number at the start of a text, if there is one. -/
def exponentPart : Text → Text × Text
  | [] => ([], [])
  | e :: s =>
    if e == 'e' || e == 'E' then
      let (sign, t) := signPart s
      match t.takeWhile Text.isDecimalDigit, t.dropWhile Text.isDecimalDigit with
      | [], _ => ([], e :: s)
      | digits, rest => (e :: sign ++ digits, rest)
    else ([], e :: s)

/-- Whether a character may stand in the suffix of a number. -/
def isSuffix (c : Char) : Bool :=
  c == 'u' || c == 'U' || c == 'f' || c == 'F' || c == 'l' || c == 'L'

/-- A decimal number at the start of a text. -/
def decimalNumber? (s : Text) : Option (Text × Text) :=
  (mantissa? s).map fun (mantissa, s) =>
    let (exponent, s) := exponentPart s
    (mantissa ++ exponent ++ s.takeWhile isSuffix, s.dropWhile isSuffix)

/-- A number at the start of a text. -/
def number? (s : Text) : Option (Text × Text) :=
  match hexNumber? s with
  | some found => some found
  | none => decimalNumber? s

/-! ## Directives -/

/-- One piece of what follows the `#` of a directive: a line break behind a backslash, a closed
block comment, or a character. There is no piece at the end of the line, at a line comment, and
at a block comment that is never closed; there the directive ends. -/
def directivePiece? : Text → Option (Text × Text)
  | [] => none
  | c :: s =>
    if c = '\n' then none
    else if c = '\\' then
      match s with
      | '\n' :: t => some (['\\', '\n'], t)
      | '\r' :: '\n' :: t => some (['\\', '\r', '\n'], t)
      | s => some (['\\'], s)
    else if c = '/' then
      match s with
      | '/' :: _ => none
      | '*' :: t => (closeComment? t).map fun (body, rest) => ('/' :: '*' :: body, rest)
      | s => some (['/'], s)
    else some ([c], s)

theorem closeComment?_split {s body rest : Text} (h : closeComment? s = some (body, rest)) :
    s = body ++ rest ∧ body ≠ [] := by
  fun_induction closeComment? s generalizing body rest with
  | case1 => simp at h
  | case2 s => simp at h; obtain ⟨rfl, rfl⟩ := h; simp
  | case3 c s _ ih =>
    simp only [Option.map_eq_some_iff, Prod.exists, Prod.mk.injEq] at h
    obtain ⟨b, r, hs, rfl, rfl⟩ := h
    simp [← (ih hs).1]

theorem closedComment?_split {s body rest : Text} (h : closedComment? s = some (body, rest)) :
    s = body ++ rest ∧ body ≠ [] := by
  unfold closedComment? at h
  split at h
  · simp only [Option.map_eq_some_iff, Prod.exists, Prod.mk.injEq] at h
    obtain ⟨b, r, hs, rfl, rfl⟩ := h
    simp [← (closeComment?_split hs).1]
  · simp at h

theorem directivePiece?_split {s piece rest : Text} (h : directivePiece? s = some (piece, rest)) :
    s = piece ++ rest ∧ piece ≠ [] := by
  unfold directivePiece? at h
  split at h
  · simp at h
  · rename_i c s
    by_cases hn : c = '\n'
    · simp [hn] at h
    by_cases hb : c = '\\'
    · subst hb
      simp only [hn, if_false, if_true] at h
      split at h <;> simp at h <;> obtain ⟨rfl, rfl⟩ := h <;> simp
    by_cases hs : c = '/'
    · subst hs
      simp only [hn, hb, if_false, if_true] at h
      split at h
      · simp at h
      · simp only [Option.map_eq_some_iff, Prod.exists, Prod.mk.injEq] at h
        obtain ⟨b, r, ht, rfl, rfl⟩ := h
        simp [← (closeComment?_split ht).1]
      · simp at h; obtain ⟨rfl, rfl⟩ := h; simp
    · simp [hn, hb, hs] at h; obtain ⟨rfl, rfl⟩ := h; simp

/-- What follows the `#` of a directive, and what follows the directive. -/
def directiveBody (s : Text) : Text × Text :=
  match h : directivePiece? s with
  | none => ([], s)
  | some (piece, rest) =>
    have : rest.length < s.length := by
      have ⟨hs, hp⟩ := directivePiece?_split h
      have := List.length_pos_iff.2 hp
      simp [hs]; omega
    let (body, rest) := directiveBody rest
    (piece ++ body, rest)
  termination_by s.length

/-- A directive where a line starts: blanks and tabs, a `#`, and what belongs to it. -/
def directive? (s : Text) : Option (Text × Text) :=
  let isIndent (c : Char) : Bool := c == ' ' || c == '\t'
  match s.dropWhile isIndent with
  | '#' :: t =>
    let (body, rest) := directiveBody t
    some (s.takeWhile isIndent ++ '#' :: body, rest)
  | _ => none

/-! ## The first token -/

/-- A piece of text with its kind, and what follows it. -/
structure Piece where
  kind : TokenKind
  data : Text
  rest : Text
  deriving DecidableEq, Repr

/-- A piece of a kind, from what was found. -/
def Piece.of? (kind : TokenKind) (found : Option (Text × Text)) : Option Piece :=
  found.map fun (data, rest) => ⟨kind, data, rest⟩

/-- The first piece of a text outside a directive. Comments come before the operator that they
start with, and every other single character is a piece of its own. -/
def plain? (s : Text) : Option Piece :=
  Piece.of? .blockComment (blockComment? s) <|>
  Piece.of? .lineComment (lineComment? s) <|>
  Piece.of? .space (space? s) <|>
  Piece.of? .identifier (identifier? s) <|>
  Piece.of? .number (number? s) <|>
  (match s with
    | [] => none
    | c :: rest => some ⟨.other, [c], rest⟩)

/-- The first piece of a text. Directives are looked for only where a line starts. -/
def first? (lineStart : Bool) (s : Text) : Option Piece :=
  (if lineStart then Piece.of? .directive (directive? s) else none) <|> plain? s

/-! ## A piece and what follows it make up the text -/

private theorem takeWhile_split {p : Char → Bool} {s a b : Text} (ha : s.takeWhile p = a)
    (hb : s.dropWhile p = b) : s = a ++ b := by
  rw [← ha, ← hb, List.takeWhile_append_dropWhile]

theorem blockComment?_split {s data rest : Text} (h : blockComment? s = some (data, rest)) :
    s = data ++ rest ∧ data ≠ [] := by
  unfold blockComment? at h
  split at h
  · split at h
    · rename_i hs
      simp at h; obtain ⟨rfl, rfl⟩ := h
      simp [← (closeComment?_split hs).1]
    · simp at h; obtain ⟨rfl, rfl⟩ := h; simp
  · simp at h

theorem lineComment?_split {s data rest : Text} (h : lineComment? s = some (data, rest)) :
    s = data ++ rest ∧ data ≠ [] := by
  unfold lineComment? at h
  split at h
  · simp at h; obtain ⟨rfl, rfl⟩ := h; simp [List.takeWhile_append_dropWhile]
  · simp at h

theorem space?_split {s data rest : Text} (h : space? s = some (data, rest)) :
    s = data ++ rest ∧ data ≠ [] := by
  unfold space? at h
  split at h
  · rename_i hb
    simp at h; obtain ⟨rfl, rfl⟩ := h
    simpa using takeWhile_split rfl hb
  · simp at h
  · rename_i hne _
    simp at h; obtain ⟨rfl, rfl⟩ := h
    exact ⟨takeWhile_split rfl rfl, fun e => hne e⟩

theorem identifier?_split {s data rest : Text} (h : identifier? s = some (data, rest)) :
    s = data ++ rest ∧ data ≠ [] := by
  unfold identifier? at h
  split at h
  · simp at h
  · split at h
    · simp at h; obtain ⟨rfl, rfl⟩ := h; simp [List.takeWhile_append_dropWhile]
    · simp at h

theorem hexNumber?_split {s data rest : Text} (h : hexNumber? s = some (data, rest)) :
    s = data ++ rest ∧ data ≠ [] := by
  unfold hexNumber? at h
  split at h
  · split at h
    · split at h
      · simp at h
      · rename_i hb _
        split at h <;> simp at h <;> obtain ⟨rfl, rfl⟩ := h <;>
          simpa using takeWhile_split rfl hb
      · rename_i hb _
        simp at h; obtain ⟨rfl, rfl⟩ := h
        simpa using takeWhile_split rfl hb
    · simp at h
  · simp at h

theorem mantissa?_split {s data rest : Text} (h : mantissa? s = some (data, rest)) :
    s = data ++ rest ∧ data ≠ [] := by
  unfold mantissa? at h
  split at h
  · rename_i ha hb
    split at h
    · simp at h
    · rename_i t _ hne
      simp at h; obtain ⟨rfl, rfl⟩ := h
      have := takeWhile_split ha hb
      simp [this, List.takeWhile_append_dropWhile]
  · simp at h
  · rename_i hb _
    simp at h; obtain ⟨rfl, rfl⟩ := h
    have := takeWhile_split rfl hb
    simpa [List.takeWhile_append_dropWhile] using this
  · rename_i hne _ _
    simp at h; obtain ⟨rfl, rfl⟩ := h
    exact ⟨takeWhile_split rfl rfl, fun e => hne e⟩

theorem signPart_split (s : Text) : s = (signPart s).1 ++ (signPart s).2 := by
  unfold signPart
  split
  · split <;> simp
  · simp

theorem exponentPart_split (s : Text) : s = (exponentPart s).1 ++ (exponentPart s).2 := by
  unfold exponentPart
  split
  · simp
  · rename_i e s
    split
    · simp only
      split
      · simp
      · have := signPart_split s
        have h2 := takeWhile_split (s := (signPart s).2) (p := Text.isDecimalDigit) rfl rfl
        simp only [List.cons_append, List.append_assoc, ← h2, ← this]
    · simp

theorem decimalNumber?_split {s data rest : Text} (h : decimalNumber? s = some (data, rest)) :
    s = data ++ rest ∧ data ≠ [] := by
  simp only [decimalNumber?, Option.map_eq_some_iff, Prod.exists, Prod.mk.injEq] at h
  obtain ⟨m, t, hm, rfl, rfl⟩ := h
  obtain ⟨rfl, hne⟩ := mantissa?_split hm
  refine ⟨?_, by simp [hne]⟩
  have := exponentPart_split t
  have h2 := takeWhile_split (s := (exponentPart t).2) (p := isSuffix) rfl rfl
  simp only [List.append_assoc, ← h2, ← this]

theorem number?_split {s data rest : Text} (h : number? s = some (data, rest)) :
    s = data ++ rest ∧ data ≠ [] := by
  unfold number? at h
  split at h
  · rename_i hs
    simp at h; subst h
    exact hexNumber?_split hs
  · exact decimalNumber?_split h

theorem directiveBody_split (s : Text) : s = (directiveBody s).1 ++ (directiveBody s).2 := by
  fun_induction directiveBody s with
  | case1 => simp
  | case2 s piece rest h _ body behind hb ih =>
    rw [hb] at ih
    rw [List.append_assoc, ← ih]
    exact (directivePiece?_split h).1

theorem directive?_split {s data rest : Text} (h : directive? s = some (data, rest)) :
    s = data ++ rest ∧ data ≠ [] := by
  simp only [directive?] at h
  split at h
  · rename_i t hb
    simp at h; obtain ⟨rfl, rfl⟩ := h
    refine ⟨?_, by simp⟩
    have := takeWhile_split rfl hb
    simpa [← directiveBody_split t] using this
  · simp at h

theorem Piece.of?_split {kind : TokenKind} {found : Option (Text × Text)} {p : Piece} {s : Text}
    (hf : ∀ data rest, found = some (data, rest) → s = data ++ rest ∧ data ≠ [])
    (h : Piece.of? kind found = some p) : s = p.data ++ p.rest ∧ p.data ≠ [] := by
  simp only [Piece.of?, Option.map_eq_some_iff, Prod.exists] at h
  obtain ⟨data, rest, hs, rfl⟩ := h
  exact hf data rest hs

theorem plain?_split {s : Text} {p : Piece} (h : plain? s = some p) :
    s = p.data ++ p.rest ∧ p.data ≠ [] := by
  simp only [plain?, Option.orElse_eq_orElse, Option.orElse_eq_or, Option.or_eq_some_iff] at h
  rcases h with h | ⟨_, h | ⟨_, h | ⟨_, h | ⟨_, h | ⟨_, h⟩⟩⟩⟩⟩
  · exact Piece.of?_split (fun _ _ => blockComment?_split) h
  · exact Piece.of?_split (fun _ _ => lineComment?_split) h
  · exact Piece.of?_split (fun _ _ => space?_split) h
  · exact Piece.of?_split (fun _ _ => identifier?_split) h
  · exact Piece.of?_split (fun _ _ => number?_split) h
  · split at h
    · simp at h
    · simp at h; subst h; simp

/-- **Nothing is lost and something is taken.** A piece and what follows it make up the text, and
the piece is not empty. -/
theorem first?_split {lineStart : Bool} {s : Text} {p : Piece} (h : first? lineStart s = some p) :
    s = p.data ++ p.rest ∧ p.data ≠ [] := by
  simp only [first?, Option.orElse_eq_orElse, Option.orElse_eq_or, Option.or_eq_some_iff] at h
  rcases h with h | ⟨_, h⟩
  · split at h
    · exact Piece.of?_split (fun _ _ => directive?_split) h
    · simp at h
  · exact plain?_split h

end Scan

end GlslCompose
