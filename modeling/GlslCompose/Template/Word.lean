/-
`Template/Word.lean` -- the words of a mark.

A word is a name, a whole number, a string or an operator. Numbers are written in
base ten without zeros in front, or behind a zero and a letter in base two, eight
or sixteen; a low line may stand before any digit but the first of a decimal
number. A string ends at the quote that it starts with, unless a backslash stands
before that.
-/
import GlslCompose.Text.Escaped
import GlslCompose.Text.Identifier

set_option autoImplicit false

namespace GlslCompose.Template

/-- A word of a mark. -/
inductive Word where
  | name (s : Text)
  | int (n : Nat)
  /-- A string, by its code points. -/
  | text (points : List Nat)
  | equal
  | greater
  | plus
  | minus
  | colon
  /-- The names that join or turn conditions, once they are told apart from other names. -/
  | both
  | either
  | negation
  deriving DecidableEq, Repr

/-! ## Numbers -/

/-- The base that a letter behind a leading zero announces. -/
def baseOf? (c : Char) : Option Nat :=
  if c = 'b' || c = 'B' then some 2
  else if c = 'o' || c = 'O' then some 8
  else if c = 'x' || c = 'X' then some 16
  else none

/-- What a character is worth as a digit in a base. The digits of all scripts count in the bases that
have all ten of them. -/
def digitIn? (base : Nat) (c : Char) : Option Nat :=
  if base = 16 then
    match Text.hexValue? c with
    | some n => some n
    | none => Text.digitValue? c
  else if base = 10 then Text.digitValue? c
  else (Text.octalValue? c).filter (· < base)

/-- The number whose digits in a base are at the start of a text, behind the digits that are known. -/
def numberFrom (base : Nat) (known : List Nat) (s : Text) : Nat × Text :=
  let (digits, rest) := Text.digitsFrom (digitIn? base) s
  (Text.numberIn base (known ++ digits), rest)

theorem length_numberFrom_le (base : Nat) (known : List Nat) (s : Text) :
    (numberFrom base known s).2.length ≤ s.length :=
  Text.length_digitsFrom_le (digitIn? base) s

/-- The number that starts with a character and goes on in a text, and what follows it. -/
def number? (c : Char) (s : Text) : Option (Nat × Text) :=
  if c = '0' then
    match s.head?.bind baseOf? with
    | some base =>
      if (Text.digitsFrom (digitIn? base) s.tail).1.isEmpty then some (0, s)
      else some (numberFrom base [] s.tail)
    | none => some (0, (Text.digitsFrom (fun c => if c = '0' then some 0 else none) s).2)
  else if c.isDigit then some (numberFrom 10 [c.toNat - 48] s)
  else none

theorem length_number?_le {c : Char} {s rest : Text} {n : Nat} (h : number? c s = some (n, rest)) :
    rest.length ≤ s.length := by
  unfold number? at h
  split at h
  · split at h
    · split at h
      · simp only [Option.some.injEq, Prod.mk.injEq] at h; obtain ⟨_, rfl⟩ := h; omega
      · rename_i base _ _
        simp only [Option.some.injEq] at h
        have := length_numberFrom_le base [] s.tail
        rw [h] at this
        have := List.length_tail (l := s)
        simp only at *; omega
    · simp only [Option.some.injEq, Prod.mk.injEq] at h
      obtain ⟨_, rfl⟩ := h
      exact Text.length_digitsFrom_le _ s
  · split at h
    · simp only [Option.some.injEq] at h
      have := length_numberFrom_le 10 [c.toNat - 48] s
      rw [h] at this
      exact this
    · simp at h

/-! ## Strings -/

/-- A text cut at the quote that ends the string at its start. `escaped` tells whether a backslash
stands before it that is not escaped itself. -/
def cutString? (quote : Char) (escaped : Bool) : Text → Option (Text × Text)
  | [] => none
  | c :: s =>
    if !escaped && c == quote then some ([], s)
    else (cutString? quote (!escaped && c == '\\') s).map fun (inner, rest) => (c :: inner, rest)

theorem length_cutString?_lt {quote : Char} {escaped : Bool} {s inner rest : Text}
    (h : cutString? quote escaped s = some (inner, rest)) : rest.length < s.length := by
  induction s generalizing escaped inner with
  | nil => simp [cutString?] at h
  | cons c s ih =>
    unfold cutString? at h
    split at h
    · simp only [Option.some.injEq, Prod.mk.injEq] at h
      obtain ⟨_, rfl⟩ := h
      simp
    · simp only [Option.map_eq_some_iff, Prod.exists, Prod.mk.injEq] at h
      obtain ⟨a, b, hs, _, rfl⟩ := h
      have := ih hs
      simp only [List.length_cons]; omega

/-- The string that a quote starts, and what follows it. -/
def string? (quote : Char) (s : Text) : Option (List Nat × Text) := do
  let (inner, rest) ← cutString? quote false s
  let points ← Text.unescape? inner
  return (points, rest)

theorem length_string?_lt {quote : Char} {s rest : Text} {points : List Nat}
    (h : string? quote s = some (points, rest)) : rest.length < s.length := by
  unfold string? at h
  simp only [Option.bind_eq_bind, Option.bind_eq_some_iff, Prod.exists, Option.pure_def,
    Option.some.injEq, Prod.mk.injEq] at h
  obtain ⟨inner, behind, hc, u, _, _, rfl⟩ := h
  exact length_cutString?_lt hc

/-! ## Words -/

/-- The word at the start of a text that does not start with white space. -/
def word? : Text → Option (Word × Text)
  | [] => none
  | c :: s =>
    match number? c s with
    | some (n, rest) => some (.int n, rest)
    | none =>
      if Text.isIdentifierPart c then
        some (.name (c :: s.takeWhile Text.isIdentifierPart), s.dropWhile Text.isIdentifierPart)
      else if c = '\x27' || c = '\x22' then
        (string? c s).map fun (points, rest) => (.text points, rest)
      else if c = '=' then (Text.after? "=" s).map fun rest => (.equal, rest)
      else if c = '>' then some (.greater, s)
      else if c = '+' then some (.plus, s)
      else if c = '-' then some (.minus, s)
      else if c = ':' then some (.colon, s)
      else none

theorem length_word?_lt {s rest : Text} {w : Word} (h : word? s = some (w, rest)) :
    rest.length < s.length := by
  unfold word? at h
  split at h
  · simp at h
  · rename_i c s
    have hw := Text.length_dropWhile_le Text.isIdentifierPart s
    simp only [List.length_cons]
    split at h
    · rename_i hn
      simp at h; obtain ⟨_, rfl⟩ := h
      have := length_number?_le hn
      omega
    split at h
    · simp at h; obtain ⟨_, rfl⟩ := h; omega
    split at h
    · simp only [Option.map_eq_some_iff, Prod.exists, Prod.mk.injEq] at h
      obtain ⟨a, b, hs, _, rfl⟩ := h
      have := length_string?_lt hs
      omega
    split at h
    · simp only [Option.map_eq_some_iff, Prod.mk.injEq] at h
      obtain ⟨b, hs, _, rfl⟩ := h
      have := Text.length_after? hs
      omega
    split at h
    · simp at h; obtain ⟨_, rfl⟩ := h; omega
    split at h
    · simp at h; obtain ⟨_, rfl⟩ := h; omega
    split at h
    · simp at h; obtain ⟨_, rfl⟩ := h; omega
    split at h
    · simp at h; obtain ⟨_, rfl⟩ := h; omega
    · simp at h

end GlslCompose.Template
