/-
`Template/Piece.lean` -- a template cut into stretches of text and marks.

A mark may carry a sign behind its opening and before its end. A minus takes the
white space away on that side of the mark; a plus says that it stays, which it
does anyway.
-/
import GlslCompose.Template.Word
import GlslCompose.Text.Blank
import GlslCompose.Text.Lines

set_option autoImplicit false

namespace GlslCompose.Template

/-! ## The end of a mark -/

/-- **What follows a mark:** the text, and whether it starts at the start of a line. -/
structure Behind where
  rest : Text
  lineStart : Bool
  deriving DecidableEq, Repr

/-- What follows a mark that leaves alone what is behind it. -/
def Behind.whole (s : Text) : Behind := ⟨s, false⟩

/-- What follows a mark that takes the white space behind it away. -/
def Behind.trimmed (s : Text) : Behind :=
  ⟨s.dropWhile Text.isBlank, (s.takeWhile Text.isBlank).getLast? == some '\n'⟩

theorem Behind.length_trimmed_le (s : Text) : (Behind.trimmed s).rest.length ≤ s.length :=
  Text.length_dropWhile_le Text.isBlank s

/-- How a mark ends. -/
inductive Closing where
  | value
  | statement
  | line
  deriving DecidableEq, Repr

/-- What follows a bracket at the start of a text, where a minus may stand before the bracket, and a
plus if that is allowed. -/
def behindBracket? (bracket : Text) (plus : Bool) (s : Text) : Option Behind :=
  match Text.after? bracket s with
  | some rest => some (Behind.whole rest)
  | none =>
    match Text.after? ('-' :: bracket) s with
    | some rest => some (Behind.trimmed rest)
    | none => if plus then (Text.after? ('+' :: bracket) s).map Behind.whole else none

/-- What follows the end of a mark at the start of a text, behind white space. A statement on a
line of its own ends with the last line feed of that white space, or with the template. -/
def Closing.behind? : Closing → Text → Option Behind
  | value, s => behindBracket? "\x7d\x7d" false (Text.skipBlanks s)
  | statement, s => behindBracket? "$\x7d" true (Text.skipBlanks s)
  | line, s =>
    let rest := s.dropWhile Text.isBlank
    if rest.isEmpty then some ⟨[], true⟩
    else (Text.cutLast? '\n' (s.takeWhile Text.isBlank)).map fun (_, behind) => ⟨behind ++ rest, true⟩

theorem length_cutLast?_le {sep : Char} {s before behind : Text}
    (h : Text.cutLast? sep s = some (before, behind)) : behind.length ≤ s.length := by
  induction s generalizing before with
  | nil => simp [Text.cutLast?] at h
  | cons c s ih =>
    unfold Text.cutLast? at h
    split at h
    · rename_i hs
      simp at h; obtain ⟨_, rfl⟩ := h
      have := ih hs
      simp only [List.length_cons]; omega
    · split at h
      · simp at h; obtain ⟨_, rfl⟩ := h; simp
      · simp at h

theorem length_behindBracket?_le {bracket s : Text} {plus : Bool} {behind : Behind}
    (h : behindBracket? bracket plus s = some behind) : behind.rest.length ≤ s.length := by
  unfold behindBracket? at h
  split at h
  · rename_i ha
    simp only [Option.some.injEq] at h; subst h
    have := Text.length_after? ha
    simp only [Behind.whole]; omega
  · split at h
    · rename_i rest ha
      simp only [Option.some.injEq] at h; subst h
      have := Text.length_after? ha
      have := Behind.length_trimmed_le rest
      omega
    · split at h
      · simp only [Option.map_eq_some_iff] at h
        obtain ⟨rest, ha, rfl⟩ := h
        have := Text.length_after? ha
        simp only [Behind.whole]; omega
      · simp at h

theorem Closing.length_behind?_le {closing : Closing} {s : Text} {behind : Behind}
    (h : closing.behind? s = some behind) : behind.rest.length ≤ s.length := by
  unfold Closing.behind? at h
  have hk := Text.length_dropWhile_le Text.isBlank s
  split at h
  · have := length_behindBracket?_le h
    simp only [Text.skipBlanks] at this; omega
  · have := length_behindBracket?_le h
    simp only [Text.skipBlanks] at this; omega
  · simp only at h
    split at h
    · simp at h; subst h; simp
    · simp only [Option.map_eq_some_iff, Prod.exists] at h
      obtain ⟨a, b, hs, rfl⟩ := h
      have h1 := length_cutLast?_le hs
      have h2 := congrArg List.length
        (List.takeWhile_append_dropWhile (p := Text.isBlank) (l := s))
      simp only [List.length_append] at h2 ⊢
      omega

/-- The words of a mark, and what follows it. -/
def words? (closing : Closing) (s : Text) : Option (List Word × Behind) :=
  match closing.behind? s with
  | some behind => some ([], behind)
  | none =>
    match h : word? (Text.skipBlanks s) with
    | none => none
    | some (w, rest) =>
      have : rest.length < s.length :=
        Nat.lt_of_lt_of_le (length_word?_lt h) (Text.length_dropWhile_le _ _)
      (words? closing rest).map fun (ws, behind) => (w :: ws, behind)
  termination_by s.length

theorem length_words?_le {closing : Closing} {s : Text} {ws : List Word} {behind : Behind}
    (h : words? closing s = some (ws, behind)) : behind.rest.length ≤ s.length := by
  induction hn : s.length using Nat.strongRecOn generalizing s ws behind with
  | _ n ih =>
    unfold words? at h
    split at h
    · rename_i hr
      simp at h; obtain ⟨_, rfl⟩ := h
      have := Closing.length_behind?_le hr
      omega
    · split at h
      · simp at h
      · rename_i w rest hw
        simp only [Option.map_eq_some_iff, Prod.exists, Prod.mk.injEq] at h
        obtain ⟨a, b, hs, _, rfl⟩ := h
        have h1 := length_word?_lt hw
        have h2 : (Text.skipBlanks s).length ≤ s.length := Text.length_dropWhile_le _ _
        have := ih rest.length (by omega) hs rfl
        omega

/-- What follows the end of a comment. `dashed` tells whether a minus stands right before the
text. -/
def commentEnd? (dashed : Bool) (s : Text) : Option Behind :=
  match Text.after? "#\x7d" s with
  | some rest => some (if dashed then Behind.trimmed rest else Behind.whole rest)
  | none =>
    match s with
    | [] => none
    | c :: t => commentEnd? (c == '-') t

theorem length_commentEnd?_le {dashed : Bool} {s : Text} {behind : Behind}
    (h : commentEnd? dashed s = some behind) : behind.rest.length ≤ s.length := by
  induction s generalizing dashed with
  | nil =>
    unfold commentEnd? at h
    simp [Text.after?] at h
  | cons c t ih =>
    unfold commentEnd? at h
    split at h
    · rename_i rest ha
      have hr := Text.length_after? ha
      simp only [Option.some.injEq] at h
      subst h
      split
      · have := Behind.length_trimmed_le rest
        omega
      · simp only [Behind.whole]; omega
    · have := ih h
      simp only [List.length_cons]; omega

/-- What follows a comment. One that opens at the end of the template needs no end of its own. -/
def commentBehind? (s : Text) : Option Behind :=
  if s.isEmpty then some (Behind.whole []) else commentEnd? false s

theorem length_commentBehind?_le {s : Text} {behind : Behind} (h : commentBehind? s = some behind) :
    behind.rest.length ≤ s.length := by
  unfold commentBehind? at h
  split at h
  · simp at h; subst h; simp [Behind.whole]
  · exact length_commentEnd?_le h

/-! ## The opening of a mark -/

/-- What a mark holds. -/
inductive Opening where
  | line
  | value
  | statement
  | comment
  deriving DecidableEq, Repr

/-- Whether a character may stand before the dollar signs of a statement's line. -/
def isLineIndent (c : Char) : Bool := c == ' ' || c == '\t' || c == '\x0b'

/-- What follows the mark of a statement's line at the start of a line. -/
def lineMark? (lineStart : Bool) (s : Text) : Option Text :=
  if lineStart then Text.after? "$$" (s.dropWhile isLineIndent) else none

theorem length_lineMark?_lt {lineStart : Bool} {s rest : Text}
    (h : lineMark? lineStart s = some rest) : rest.length < s.length := by
  unfold lineMark? at h
  split at h
  · have h1 := Text.length_after? h
    have h2 := Text.length_dropWhile_le isLineIndent s
    have : (String.toList "$$").length = 2 := by decide
    omega
  · simp at h

/-- The mark that opens at the start of a text, and what follows its opening. -/
def Opening.of? (lineStart : Bool) (s : Text) : Option (Opening × Text) :=
  match lineMark? lineStart s with
  | some rest => some (line, rest)
  | none =>
    match s with
    | '\x7b' :: '\x7b' :: rest => some (value, rest)
    | '\x7b' :: '$' :: rest => some (statement, rest)
    | '\x7b' :: '#' :: rest => some (comment, rest)
    | _ => none

theorem Opening.length_of?_lt {lineStart : Bool} {s rest : Text} {opening : Opening}
    (h : Opening.of? lineStart s = some (opening, rest)) : rest.length < s.length := by
  unfold Opening.of? at h
  split at h
  · rename_i hl
    simp at h; obtain ⟨_, rfl⟩ := h
    exact length_lineMark?_lt hl
  · split at h <;> simp at h <;> obtain ⟨_, rfl⟩ := h <;> simp only [List.length_cons] <;> omega

/-- Whether a mark takes the white space before it away, by the sign behind its opening. -/
def trimsBefore (s : Text) : Bool := s.head? == some '-'

/-- What follows the sign behind an opening, if there is one. -/
def skipSign (s : Text) : Text :=
  if s.head? == some '-' || s.head? == some '+' then s.tail else s

theorem length_skipSign_le (s : Text) : (skipSign s).length ≤ s.length := by
  unfold skipSign
  split
  · have := List.length_tail (l := s); omega
  · omega

/-! ## Pieces -/

/-- A stretch of text, a mark with its words, or the place before a mark that takes white space
away. -/
inductive Piece where
  | text (s : Text)
  | value (ws : List Word)
  | statement (ws : List Word)
  | comment
  | trim
  deriving DecidableEq, Repr

/-- A character before some pieces. White space before a place where it is taken away is lost, as far
back as the mark before that place. -/
def consChar (c : Char) : List Piece → List Piece
  | .text s :: ps => .text (c :: s) :: ps
  | .trim :: ps => if Text.isBlank c then .trim :: ps else .text [c] :: ps
  | ps => .text [c] :: ps

/-- The pieces that a mark stands for, and what follows it. -/
def Opening.pieces? (opening : Opening) (s : Text) : Option (List Piece × Behind) :=
  let lead := if trimsBefore s then [Piece.trim] else []
  let s := skipSign s
  match opening with
  | line => (words? .line s).map fun (ws, behind) => (lead ++ [.statement ws], behind)
  | value => (words? .value s).map fun (ws, behind) => (lead ++ [.value ws], behind)
  | statement => (words? .statement s).map fun (ws, behind) => (lead ++ [.statement ws], behind)
  | comment => (commentBehind? s).map fun behind => (lead ++ [.comment], behind)

theorem Opening.length_pieces?_le {opening : Opening} {s : Text} {ps : List Piece}
    {behind : Behind} (h : opening.pieces? s = some (ps, behind)) :
    behind.rest.length ≤ s.length := by
  unfold Opening.pieces? at h
  have hk := length_skipSign_le s
  simp only at h
  split at h
  · simp only [Option.map_eq_some_iff, Prod.exists, Prod.mk.injEq] at h
    obtain ⟨_, _, hw, _, rfl⟩ := h
    exact Nat.le_trans (length_words?_le hw) hk
  · simp only [Option.map_eq_some_iff, Prod.exists, Prod.mk.injEq] at h
    obtain ⟨_, _, hw, _, rfl⟩ := h
    exact Nat.le_trans (length_words?_le hw) hk
  · simp only [Option.map_eq_some_iff, Prod.exists, Prod.mk.injEq] at h
    obtain ⟨_, _, hw, _, rfl⟩ := h
    exact Nat.le_trans (length_words?_le hw) hk
  · simp only [Option.map_eq_some_iff, Prod.mk.injEq] at h
    obtain ⟨_, hc, _, rfl⟩ := h
    exact Nat.le_trans (length_commentBehind?_le hc) hk

/-- The pieces of a template, where `lineStart` tells whether it starts at the start of a line. -/
def piecesFrom? (lineStart : Bool) (s : Text) : Option (List Piece) :=
  match ho : Opening.of? lineStart s with
  | some (opening, inner) =>
    match hp : opening.pieces? inner with
    | some (ps, behind) =>
      have : behind.rest.length < s.length :=
        Nat.lt_of_le_of_lt (Opening.length_pieces?_le hp) (Opening.length_of?_lt ho)
      (piecesFrom? behind.lineStart behind.rest).map (ps ++ ·)
    | none => none
  | none =>
    match s with
    | [] => some []
    | c :: t => (piecesFrom? (c == '\n') t).map (consChar c)
  termination_by s.length

/-- A text without the line feed at its end. -/
def dropFinalBreak (s : Text) : Text := if s.getLast? == some '\n' then s.dropLast else s

/-- The pieces of a template. -/
def pieces? (s : Text) : Option (List Piece) := piecesFrom? true (dropFinalBreak (Text.unifyBreaks s))

end GlslCompose.Template
