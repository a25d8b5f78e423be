/-
`Proofs/Reading.lean` -- what the scanner reads at the start of a text, and how much of
the text behind a token takes part in that.

The scanner tries its readers in order, and each of them looks at the text from the
start. To say that a token is read again when something else stands behind it, that
order is of no use: what counts is, kind by kind, what the token is made of and what
may not follow. `Reads` says just that, and `plain?_eq_some_iff` that it is what the
scanner does outside directives. A block comment that is closed may be followed by
anything; white space with its line feed too; an identifier by anything that is no
word character; and so on.

Numbers are the one kind that looks further ahead than a character: in `1e+2` the
`e` belongs to the number only because of the digit two characters behind it. But a
number never looks past a character that can stand in no number
(`number?_append`), so the text behind it matters only up to there.
-/
import GlslCompose.Token.Stream

set_option autoImplicit false

namespace GlslCompose.Scan

/-! ## Runs of characters -/

section Runs

variable {p : Char → Bool} {s t : Text}

/-- A run of characters ends where the text does, if what stands behind it does not go on with it. -/
theorem takeWhile_append_of_head (ht : ∀ c ∈ t.head?, p c = false) :
    (s ++ t).takeWhile p = s.takeWhile p := by
  induction s with
  | nil => cases t with
    | nil => rfl
    | cons c t => simp [ht c rfl]
  | cons c s ih => cases hc : p c <;> simp [hc, ih]

/-- And then what follows the run is only longer by what stands behind the text. -/
theorem dropWhile_append_of_head (ht : ∀ c ∈ t.head?, p c = false) :
    (s ++ t).dropWhile p = s.dropWhile p ++ t := by
  induction s with
  | nil => cases t with
    | nil => rfl
    | cons c t => simp [ht c rfl]
  | cons c s ih => cases hc : p c <;> simp [hc, ih]

theorem all_takeWhile : ∀ c ∈ s.takeWhile p, p c = true := List.all_eq_true.1 List.all_takeWhile

/-- What follows a run of characters does not go on with it. -/
theorem head?_dropWhile : ∀ c ∈ (s.dropWhile p).head?, p c = false := by
  intro c hc
  have := List.head?_dropWhile_not p s
  rw [Option.mem_def] at hc
  rw [hc] at this
  simpa using this

theorem head?_cons_eq_false {c : Char} (hc : p c = false) (t : Text) :
    ∀ d ∈ (c :: t).head?, p d = false := by
  rintro d ⟨⟩
  exact hc

/-- A run is what stands before the first character that does not go on with it. -/
theorem takeWhile_eq_of_all {run : Text} (hrun : ∀ c ∈ run, p c = true)
    (ht : ∀ c ∈ t.head?, p c = false) : (run ++ t).takeWhile p = run ∧ (run ++ t).dropWhile p = t := by
  have htake := takeWhile_append_of_head (s := []) ht
  have hdrop := dropWhile_append_of_head (s := []) ht
  simp only [List.nil_append, List.takeWhile_nil, List.dropWhile_nil] at htake hdrop
  rw [List.takeWhile_append_of_pos hrun, List.dropWhile_append_of_pos hrun, htake, hdrop,
    List.append_nil]
  exact ⟨rfl, rfl⟩

end Runs

/-! ## Numbers -/

/-- Whether a character can stand in a number or in an identifier. Signs can, in an exponent. -/
def isGlue (c : Char) : Bool :=
  Text.isWord c || Text.isDecimalDigit c || c == '.' || c == '+' || c == '-'

/-- Whether a character can stand in a number. -/
def isNumberPart (c : Char) : Bool :=
  isHexDigit c || Text.isDecimalDigit c || isSuffix c || c == 'x' || c == 'X' || c == '.' ||
    c == '+' || c == '-'

/-- A text that neither an identifier nor a number goes on with. -/
def Apart (s : Text) : Prop := ∀ c ∈ s.head?, isGlue c = false

/-- A text that no number goes on with. -/
def NumberEnds (s : Text) : Prop := ∀ c ∈ s.head?, isNumberPart c = false

theorem apart_nil : Apart [] := by simp [Apart]

theorem apart_cons {c : Char} (hc : isGlue c = false) (s : Text) : Apart (c :: s) :=
  head?_cons_eq_false hc s

theorem apart_lineFeed (s : Text) : Apart ('\n' :: s) := apart_cons (by decide) s

/-- What is no character of one class is none of a smaller one. -/
theorem eq_false_of_imp {p q : Char → Bool} {c : Char} (hpq : ∀ c, p c = true → q c = true)
    (hc : q c = false) : p c = false := by
  cases hpc : p c with
  | false => rfl
  | true => rw [hpq c hpc] at hc; cases hc

theorem Apart.not_mem {s : Text} (h : Apart s) {p : Char → Bool}
    (hp : ∀ c, p c = true → isGlue c = true) : ∀ c ∈ s.head?, p c = false :=
  fun c hc => eq_false_of_imp hp (h c hc)

theorem NumberEnds.not_mem {s : Text} (h : NumberEnds s) {p : Char → Bool}
    (hp : ∀ c, p c = true → isNumberPart c = true) : ∀ c ∈ s.head?, p c = false :=
  fun c hc => eq_false_of_imp hp (h c hc)

theorem ne_of_not_isNumberPart {c d : Char} (hc : isNumberPart c = false)
    (hd : isNumberPart d = true) : c ≠ d := by
  rintro rfl
  rw [hd] at hc
  cases hc

theorem isNumberPart_of_isHexDigit {c : Char} (h : isHexDigit c = true) : isNumberPart c = true := by
  simp [isNumberPart, h]

theorem isNumberPart_of_isDecimalDigit {c : Char} (h : Text.isDecimalDigit c = true) :
    isNumberPart c = true := by
  simp [isNumberPart, h]

theorem isNumberPart_of_isSuffix {c : Char} (h : isSuffix c = true) : isNumberPart c = true := by
  simp [isNumberPart, h]

theorem isGlue_of_isWord {c : Char} (h : Text.isWord c = true) : isGlue c = true := by
  simp [isGlue, h]

theorem isGlue_of_isDecimalDigit {c : Char} (h : Text.isDecimalDigit c = true) :
    isGlue c = true := by
  simp [isGlue, h]

/-- The letters and digits of ASCII, by their code points. -/
theorem isAlphanum_iff {c : Char} : c.isAlphanum = true ↔ (65 ≤ c.toNat ∧ c.toNat ≤ 90 ∨
    97 ≤ c.toNat ∧ c.toNat ≤ 122) ∨ 48 ≤ c.toNat ∧ c.toNat ≤ 57 := by
  have hparts : c.isAlphanum = ((c.isUpper || c.isLower) || c.isDigit) := rfl
  have hupper : c.isUpper = true ↔ 65 ≤ c.toNat ∧ c.toNat ≤ 90 := decide_eq_true_iff
  have hlower : c.isLower = true ↔ 97 ≤ c.toNat ∧ c.toNat ≤ 122 := by
    have hbounds : c.isLower = (decide (c.val ≥ 'a'.val) && decide (c.val ≤ 'z'.val)) := rfl
    rw [hbounds, Bool.and_eq_true, decide_eq_true_iff, decide_eq_true_iff]
    rfl
  have hdigit : c.isDigit = true ↔ 48 ≤ c.toNat ∧ c.toNat ≤ 57 := Char.isDigit_iff_toNat
  rw [hparts, Bool.or_eq_true, Bool.or_eq_true, hupper, hlower, hdigit]

theorem isWord_of_isAlphanum {c : Char} (h : c.isAlphanum = true) : Text.isWord c = true := by
  have hlt : c.toNat < 128 := by
    have hascii := isAlphanum_iff.1 h
    omega
  simp [Text.isWord, Text.isAlphanumeric, hlt, h]

theorem isWord_of_isIdentifierStart {c : Char} (h : isIdentifierStart c = true) :
    Text.isWord c = true := by
  simp only [isIdentifierStart, Bool.or_eq_true] at h
  rcases h with h | h
  · have halphanum : c.isAlphanum = true := (Bool.or_eq_true _ _).mpr (.inl h)
    exact isWord_of_isAlphanum halphanum
  · simp [Text.isWord, h]

theorem isGlue_of_isHexDigit {c : Char} (h : isHexDigit c = true) : isGlue c = true := by
  refine isGlue_of_isWord (isWord_of_isAlphanum (isAlphanum_iff.2 ?_))
  simp only [isHexDigit, Bool.or_eq_true, Bool.and_eq_true, decide_eq_true_eq] at h
  rcases h with (h | ⟨hfrom, hto⟩) | ⟨hfrom, hto⟩
  · exact .inr (Char.isDigit_iff_toNat.1 h)
  · have hlow : 97 ≤ c.toNat := hfrom
    have hhigh : c.toNat ≤ 102 := hto
    omega
  · have hlow : 65 ≤ c.toNat := hfrom
    have hhigh : c.toNat ≤ 70 := hto
    omega

theorem isGlue_of_isSuffix {c : Char} (h : isSuffix c = true) : isGlue c = true := by
  simp only [isSuffix, Bool.or_eq_true, beq_iff_eq] at h
  rcases h with ((((rfl | rfl) | rfl) | rfl) | rfl) | rfl <;> decide

theorem isGlue_of_isNumberPart {c : Char} (h : isNumberPart c = true) : isGlue c = true := by
  simp only [isNumberPart, Bool.or_eq_true, beq_iff_eq] at h
  rcases h with ((((((h | h) | h) | rfl) | rfl) | rfl) | rfl) | rfl
  · exact isGlue_of_isHexDigit h
  · exact isGlue_of_isDecimalDigit h
  · exact isGlue_of_isSuffix h
  all_goals decide

theorem Apart.numberEnds {s : Text} (h : Apart s) : NumberEnds s :=
  h.not_mem fun _ => isGlue_of_isNumberPart

section Append

variable {s t : Text}

/-- The digits and the suffix of a hexadecimal number do not go on where numbers end. -/
theorem hexNumber?_append (hs : s ≠ []) (ht : NumberEnds t) :
    hexNumber? (s ++ t) = (hexNumber? s).map fun (data, rest) => (data, rest ++ t) := by
  match s, hs with
  | [z], _ =>
    have hone : hexNumber? [z] = none := by unfold hexNumber?; split <;> simp_all
    rw [hone, List.singleton_append, Option.map_none]
    unfold hexNumber?
    split
    · rename_i x t heq
      obtain ⟨rfl, rfl⟩ := List.cons.inj heq
      -- The mark of a hexadecimal number is a letter.
      have hx : isNumberPart x = false := ht x rfl
      have hmark : ¬ (x == 'x' || x == 'X') = true := by
        simp [ne_of_not_isNumberPart hx (d := 'x') (by decide),
          ne_of_not_isNumberPart hx (d := 'X') (by decide)]
      rw [if_neg hmark]
    · rfl
  | z :: x :: s, _ =>
    -- The mark is read within the text, so only the digits and the suffix can reach its end.
    by_cases hz : z = '0'
    · subst hz
      simp only [List.cons_append, hexNumber?]
      split
      · rw [takeWhile_append_of_head (ht.not_mem fun _ => isNumberPart_of_isHexDigit),
          dropWhile_append_of_head (ht.not_mem fun _ => isNumberPart_of_isHexDigit)]
        cases hdigits : s.takeWhile isHexDigit with
        | nil => rfl
        | cons d digits =>
          cases hrest : s.dropWhile isHexDigit with
          | nil =>
            cases t with
            | nil => rfl
            | cons u t =>
              have hu : isNumberPart u = false := ht u rfl
              have hsuffix : ¬ (u == 'u' || u == 'U') = true := by
                simp [ne_of_not_isNumberPart hu (d := 'u') (by decide),
                  ne_of_not_isNumberPart hu (d := 'U') (by decide)]
              simp [hsuffix]
          | cons u rest =>
            simp only [List.cons_append]
            split <;> simp
      · rfl
    · have hne : ∀ u, hexNumber? (z :: x :: u) = none := by
        intro u
        unfold hexNumber?
        split
        · rename_i heq; exact absurd (List.cons.inj heq).1 hz
        · rfl
      rw [List.cons_append, List.cons_append, hne, hne]
      rfl

/-- The digits of a decimal number do not go on where numbers end, and its point does not stand
there. -/
theorem mantissa?_append (ht : NumberEnds t) :
    mantissa? (s ++ t) = (mantissa? s).map fun (data, rest) => (data, rest ++ t) := by
  have hdigit := ht.not_mem fun _ => isNumberPart_of_isDecimalDigit
  have hpoint : ∀ u, t ≠ '.' :: u := by
    rintro u rfl
    exact absurd (ht '.' rfl) (by decide)
  unfold mantissa?
  rw [takeWhile_append_of_head hdigit, dropWhile_append_of_head hdigit]
  cases hrest : s.dropWhile Text.isDecimalDigit with
  | nil =>
    rw [List.nil_append]
    cases t with
    | nil => cases s.takeWhile Text.isDecimalDigit <;> rfl
    | cons c t =>
      have hc : c ≠ '.' := fun h => hpoint t (h ▸ rfl)
      cases s.takeWhile Text.isDecimalDigit <;> simp
  | cons c rest =>
    -- The digits end within the text, so only those behind a point can reach its end.
    by_cases hc : c = '.'
    · subst hc
      rw [List.cons_append]
      cases s.takeWhile Text.isDecimalDigit with
      | nil =>
        simp only [takeWhile_append_of_head hdigit, dropWhile_append_of_head hdigit]
        cases rest.takeWhile Text.isDecimalDigit <;> rfl
      | cons d digits =>
        simp only [takeWhile_append_of_head hdigit, dropWhile_append_of_head hdigit]
        rfl
    · cases s.takeWhile Text.isDecimalDigit <;> simp [hc]

theorem signPart_append (ht : NumberEnds t) :
    signPart (s ++ t) = ((signPart s).1, (signPart s).2 ++ t) := by
  cases s with
  | cons c s => simp only [List.cons_append, signPart]; split <;> rfl
  | nil =>
    cases t with
    | nil => rfl
    | cons c t =>
      have hc := ht c rfl
      have hsign : (c == '+' || c == '-') = false := by
        simp only [isNumberPart, Bool.or_eq_false_iff] at hc ⊢
        exact ⟨hc.1.2, hc.2⟩
      simp [signPart, hsign]

theorem exponentPart_append (ht : NumberEnds t) :
    exponentPart (s ++ t) = ((exponentPart s).1, (exponentPart s).2 ++ t) := by
  have hdigit := ht.not_mem fun _ => isNumberPart_of_isDecimalDigit
  cases s with
  | nil =>
    cases t with
    | nil => rfl
    | cons c t =>
      have hc : isNumberPart c = false := ht c rfl
      have hmark : ¬ (c == 'e' || c == 'E') = true := by
        simp [ne_of_not_isNumberPart hc (d := 'e') (by decide),
          ne_of_not_isNumberPart hc (d := 'E') (by decide)]
      simp [exponentPart, hmark]
  | cons c s =>
    simp only [List.cons_append, exponentPart]
    split
    · simp only [signPart_append ht, takeWhile_append_of_head hdigit,
        dropWhile_append_of_head hdigit]
      cases (signPart s).2.takeWhile Text.isDecimalDigit <;> rfl
    · rfl

theorem decimalNumber?_append (ht : NumberEnds t) :
    decimalNumber? (s ++ t) = (decimalNumber? s).map fun (data, rest) => (data, rest ++ t) := by
  have hsuffix := ht.not_mem fun _ => isNumberPart_of_isSuffix
  simp only [decimalNumber?, mantissa?_append ht]
  cases mantissa? s with
  | none => rfl
  | some found =>
    simp only [Option.map_some, exponentPart_append ht, takeWhile_append_of_head hsuffix,
      dropWhile_append_of_head hsuffix]

/-- **A number never looks past a character that can stand in no number.** -/
theorem number?_append (hs : s ≠ []) (ht : NumberEnds t) :
    number? (s ++ t) = (number? s).map fun (data, rest) => (data, rest ++ t) := by
  simp only [number?, hexNumber?_append hs ht, decimalNumber?_append ht]
  cases hexNumber? s <;> rfl

end Append

/-! ## One token outside directives -/

/-- Whether a character is neither blank nor the start of an identifier. -/
def isMark (c : Char) : Bool := !(isSpace c || c == '\n' || isIdentifierStart c)

/-- **What the scanner reads outside directives.** `Reads kind data rest` says that the text
`data ++ rest` starts with the token `data` of that kind. -/
inductive Reads : TokenKind → Text → Text → Prop
  /-- A block comment up to the first `*/`. -/
  | closedComment {body rest : Text} : closeComment? body = some (body, []) →
      Reads .blockComment ('/' :: '*' :: body) rest
  /-- A block comment that is never closed. Nothing can stand behind it. -/
  | openComment {body : Text} : closeComment? body = none →
      Reads .blockComment ('/' :: '*' :: body) []
  /-- A line comment, up to a line feed. -/
  | lineComment {body rest : Text} : (∀ c ∈ body, (c != '\n') = true) →
      (∀ c ∈ rest.head?, (c != '\n') = false) → Reads .lineComment ('/' :: '/' :: body) rest
  /-- White space with the line feed that ends it. -/
  | lineFeed {blanks rest : Text} : (∀ c ∈ blanks, isSpace c = true) →
      Reads .space (blanks ++ ['\n']) rest
  /-- White space within a line. -/
  | blanks {blanks rest : Text} : blanks ≠ [] → (∀ c ∈ blanks, isSpace c = true) →
      (∀ c ∈ rest.head?, isSpace c = false) → rest.head? ≠ some '\n' → Reads .space blanks rest
  /-- An identifier. -/
  | identifier {c : Char} {word rest : Text} : isIdentifierStart c = true →
      (∀ c ∈ word, Text.isWord c = true) → (∀ c ∈ rest.head?, Text.isWord c = false) →
      Reads .identifier (c :: word) rest
  /-- A number. -/
  | number {c : Char} {digits rest : Text} : isMark c = true → c ≠ '/' →
      number? (c :: digits ++ rest) = some (c :: digits, rest) → Reads .number (c :: digits) rest
  /-- Any other character, if it opens neither a comment nor a number. -/
  | other {c : Char} {rest : Text} : isMark c = true →
      (c = '/' → rest.head? ≠ some '/' ∧ rest.head? ≠ some '*') →
      number? (c :: rest) = none → Reads .other [c] rest

/-- A comment ends in the same place in front of anything. -/
theorem closeComment?_append {s body rest t : Text} (h : closeComment? s = some (body, rest)) :
    closeComment? (s ++ t) = some (body, rest ++ t) := by
  fun_induction closeComment? s generalizing body rest with
  | case1 => cases h
  | case2 s =>
    obtain ⟨rfl, rfl⟩ : _ ∧ s = rest := by simpa using h
    rfl
  | case3 c s hc ih =>
    simp only [Option.map_eq_some_iff, Prod.exists, Prod.mk.injEq] at h
    obtain ⟨body, rest, hs, rfl, rfl⟩ := h
    rw [List.cons_append, closeComment?, ih hs]
    · rfl
    · -- A star before the text would have had its slash inside the text.
      rintro u rfl heq
      cases s with
      | nil => cases hs
      | cons d s => exact hc s rfl (by rw [(List.cons.inj heq).1])

/-- No character but a slash closes a comment. -/
theorem closeComment?_concat {s : Text} {c : Char} (hc : c ≠ '/') :
    closeComment? (s ++ [c]) = (closeComment? s).map fun (body, rest) => (body, rest ++ [c]) := by
  fun_induction closeComment? s with
  | case1 => simp [closeComment?]
  | case2 s => rfl
  | case3 d s hd ih =>
    rw [List.cons_append, closeComment?, ih]
    · cases closeComment? s <;> rfl
    · rintro t rfl heq
      cases s with
      | nil => exact hc (List.cons.inj heq).1
      | cons e s => exact hd s rfl (by rw [(List.cons.inj heq).1])

/-- And it takes nothing but what it is made of to see where it ends. -/
theorem closeComment?_body {s body rest : Text} (h : closeComment? s = some (body, rest)) :
    closeComment? body = some (body, []) := by
  fun_induction closeComment? s generalizing body rest with
  | case1 => cases h
  | case2 s =>
    obtain ⟨rfl, rfl⟩ : _ ∧ s = rest := by simpa [eq_comm] using h
    rfl
  | case3 c s hc ih =>
    simp only [Option.map_eq_some_iff, Prod.exists, Prod.mk.injEq] at h
    obtain ⟨body, rest, hs, rfl, rfl⟩ := h
    rw [closeComment?, ih hs]
    · rfl
    · rintro t rfl rfl
      exact hc (t ++ rest) rfl (closeComment?_split hs).1

/-! The readers, by the first character of the text. -/

section Readers

variable {c : Char} {s : Text}

theorem number?_slash (s : Text) : number? ('/' :: s) = none := by
  have hdigit : Text.isDecimalDigit '/' = false := by decide
  have hhex : hexNumber? ('/' :: s) = none := by
    unfold hexNumber?
    split
    · rename_i heq
      exact absurd (List.cons.inj heq).1 (by decide)
    · rfl
  simp [number?, hhex, decimalNumber?, mantissa?, hdigit]

theorem isMark_iff : isMark c = true ↔
    isSpace c = false ∧ c ≠ '\n' ∧ isIdentifierStart c = false := by
  simp [isMark, and_assoc]

/-- What no comment opens is blank, an identifier, a number or a character by itself. -/
theorem plain?_of_ne (hline : c = '/' → s.head? ≠ some '/' ∧ s.head? ≠ some '*') :
    plain? (c :: s) = (Piece.of? .space (space? (c :: s)) <|>
      Piece.of? .identifier (identifier? (c :: s)) <|> Piece.of? .number (number? (c :: s)) <|>
      some ⟨.other, [c], s⟩) := by
  have hblock : blockComment? (c :: s) = none := by
    unfold blockComment?
    split
    · rename_i heq
      obtain ⟨rfl, rfl⟩ := List.cons.inj heq
      exact absurd rfl (hline rfl).2
    · rfl
  have hcomment : lineComment? (c :: s) = none := by
    unfold lineComment?
    split
    · rename_i heq
      obtain ⟨rfl, rfl⟩ := List.cons.inj heq
      exact absurd rfl (hline rfl).1
    · rfl
  simp [plain?, hblock, hcomment, Piece.of?]

theorem space?_lineFeed {blanks rest : Text} (hb : ∀ c ∈ blanks, isSpace c = true) :
    space? (blanks ++ '\n' :: rest) = some (blanks ++ ['\n'], rest) := by
  have hhead : ∀ c ∈ ('\n' :: rest).head?, isSpace c = false := by simp [isSpace]
  obtain ⟨htake, hdrop⟩ := takeWhile_eq_of_all hb hhead
  simp [space?, htake, hdrop]

theorem space?_blanks {blanks rest : Text} (hne : blanks ≠ []) (hb : ∀ c ∈ blanks, isSpace c = true)
    (hrest : ∀ c ∈ rest.head?, isSpace c = false) (hfeed : rest.head? ≠ some '\n') :
    space? (blanks ++ rest) = some (blanks, rest) := by
  obtain ⟨htake, hdrop⟩ := takeWhile_eq_of_all hb hrest
  obtain ⟨b, blanks, rfl⟩ := List.exists_cons_of_ne_nil hne
  unfold space?
  rw [htake, hdrop]
  cases rest with
  | nil => rfl
  | cons c rest =>
    have hc : c ≠ '\n' := by simpa using hfeed
    simp [hc]

theorem space?_of_isMark (h : isMark c = true) : space? (c :: s) = none := by
  obtain ⟨hspace, hfeed, -⟩ := isMark_iff.1 h
  simp [space?, hspace, hfeed]

theorem identifier?_of_isMark (h : isMark c = true) : identifier? (c :: s) = none := by
  obtain ⟨-, -, hstart⟩ := isMark_iff.1 h
  simp [identifier?, hstart]

theorem isMark_of_none (hspace : space? (c :: s) = none) (hid : identifier? (c :: s) = none) :
    isMark c = true := by
  rw [isMark_iff]
  refine ⟨?_, ?_, ?_⟩
  · by_cases hc : isSpace c = true
    · exfalso
      unfold space? at hspace
      rw [List.takeWhile_cons, if_pos hc, List.dropWhile_cons, if_pos hc] at hspace
      split at hspace <;> simp_all
    · simpa using hc
  · rintro rfl
    rw [← List.nil_append ('\n' :: s), space?_lineFeed (by simp)] at hspace
    cases hspace
  · by_cases hc : isIdentifierStart c = true
    · simp [identifier?, hc] at hid
    · simpa using hc

theorem plain?_of_space {data rest : Text} (h : space? s = some (data, rest)) :
    plain? s = some ⟨.space, data, rest⟩ := by
  cases s with
  | nil => cases h
  | cons c s =>
    have hc : c ≠ '/' := by
      rintro rfl
      rw [space?_of_isMark (by decide)] at h
      cases h
    rw [plain?_of_ne (fun hslash => absurd hslash hc), h]
    rfl

theorem isMark_of_isIdentifierStart (h : isIdentifierStart c = true) :
    c ≠ '/' ∧ isSpace c = false ∧ c ≠ '\n' := by
  refine ⟨?_, ?_, ?_⟩
  · rintro rfl; revert h; decide
  · cases hc : isSpace c with
    | false => rfl
    | true =>
      simp only [isSpace, Bool.or_eq_true, beq_iff_eq] at hc
      rcases hc with (((rfl | rfl) | rfl) | rfl) | rfl <;> revert h <;> decide
  · rintro rfl; revert h; decide

end Readers

section Found

variable {s data rest : Text}

theorem reads_of_blockComment? (h : blockComment? s = some (data, rest)) :
    Reads .blockComment data rest := by
  unfold blockComment? at h
  split at h
  · split at h
    · rename_i hclose
      obtain ⟨rfl, rfl⟩ : _ ∧ _ = rest := by simpa using h
      exact .closedComment (closeComment?_body hclose)
    · rename_i hopen
      obtain ⟨rfl, rfl⟩ : _ ∧ [] = rest := by simpa using h
      exact .openComment hopen
  · cases h

theorem reads_of_lineComment? (h : lineComment? s = some (data, rest)) :
    Reads .lineComment data rest := by
  unfold lineComment? at h
  split at h
  · obtain ⟨rfl, rfl⟩ : _ ∧ _ = rest := by simpa using h
    exact .lineComment all_takeWhile head?_dropWhile
  · cases h

theorem reads_of_space? (h : space? s = some (data, rest)) : Reads .space data rest := by
  have hblanks : ∀ c ∈ s.takeWhile isSpace, isSpace c = true := all_takeWhile
  unfold space? at h
  split at h
  · obtain ⟨rfl, rfl⟩ : _ ∧ _ = rest := by simpa using h
    exact .lineFeed hblanks
  · cases h
  · rename_i hne hfeed
    obtain ⟨rfl, rfl⟩ : _ ∧ _ = rest := by simpa using h
    refine .blanks (fun h => hne h) hblanks head?_dropWhile fun hhead => ?_
    obtain ⟨t, ht⟩ := List.head?_eq_some_iff.1 hhead
    exact hfeed t ht

theorem reads_of_identifier? (h : identifier? s = some (data, rest)) :
    Reads .identifier data rest := by
  unfold identifier? at h
  split at h
  · cases h
  · split at h
    · rename_i hc
      obtain ⟨rfl, rfl⟩ : _ ∧ _ = rest := by simpa using h
      exact .identifier hc all_takeWhile head?_dropWhile
    · cases h

end Found

/-- What the scanner finds outside directives is as `Reads` has it. -/
theorem reads_of_plain? {s : Text} {p : Piece} (h : plain? s = some p) :
    Reads p.kind p.data p.rest := by
  -- Each reader comes to its turn only where those before it found nothing.
  simp only [plain?, Option.orElse_eq_orElse, Option.orElse_eq_or, Option.or_eq_some_iff,
    Piece.of?, Option.map_eq_some_iff, Option.map_eq_none_iff, Prod.exists] at h
  rcases h with ⟨_, _, h, rfl⟩ | ⟨hblock, ⟨_, _, h, rfl⟩ | ⟨hline, ⟨_, _, h, rfl⟩ | ⟨hspace,
    ⟨_, _, h, rfl⟩ | ⟨hid, ⟨_, _, h, rfl⟩ | ⟨hnumber, h⟩⟩⟩⟩⟩
  · exact reads_of_blockComment? h
  · exact reads_of_lineComment? h
  · exact reads_of_space? h
  · exact reads_of_identifier? h
  · rename_i data rest
    obtain ⟨hsplit, hne⟩ := number?_split h
    obtain ⟨c, digits, rfl⟩ := List.exists_cons_of_ne_nil hne
    subst hsplit
    refine .number (isMark_of_none hspace hid) ?_ h
    rintro rfl
    rw [List.cons_append, number?_slash] at h
    cases h
  · cases s with
    | nil => cases h
    | cons c s =>
      obtain rfl : _ = p := by simpa using h
      refine .other (isMark_of_none hspace hid) ?_ hnumber
      -- A slash came to its turn, so no comment was found there.
      rintro rfl
      refine ⟨fun hhead => ?_, fun hhead => ?_⟩
      · obtain ⟨t, rfl⟩ := List.head?_eq_some_iff.1 hhead
        cases hline
      · obtain ⟨t, rfl⟩ := List.head?_eq_some_iff.1 hhead
        unfold blockComment? at hblock
        cases hclose : closeComment? t <;> simp [hclose] at hblock

/-- **The scanner outside directives** finds the token that the text starts with. -/
theorem plain?_eq_some_iff {s : Text} {p : Piece} :
    plain? s = some p ↔ s = p.data ++ p.rest ∧ Reads p.kind p.data p.rest := by
  refine ⟨fun h => ⟨(plain?_split h).1, reads_of_plain? h⟩, ?_⟩
  obtain ⟨kind, data, rest⟩ := p
  rintro ⟨rfl, h⟩
  dsimp only at h ⊢
  cases h with
  | closedComment h =>
    have hbody := closeComment?_append (t := rest) h
    simp only [List.nil_append] at hbody
    simp [plain?, blockComment?, hbody, Piece.of?]
  | openComment h => simp [plain?, blockComment?, h, Piece.of?]
  | lineComment hbody hrest =>
    obtain ⟨htake, hdrop⟩ := takeWhile_eq_of_all hbody hrest
    simp [plain?, blockComment?, lineComment?, htake, hdrop, Piece.of?]
  | lineFeed hblanks =>
    refine plain?_of_space ?_
    rw [List.append_assoc]
    exact space?_lineFeed hblanks
  | blanks hne hblanks hspace hfeed => exact plain?_of_space (space?_blanks hne hblanks hspace hfeed)
  | @identifier c word _ hc hword hrest =>
    obtain ⟨hslash, hspace, hfeed⟩ := isMark_of_isIdentifierStart hc
    obtain ⟨htake, hdrop⟩ := takeWhile_eq_of_all hword hrest
    have hnone : space? (c :: (word ++ rest)) = none := by simp [space?, hspace, hfeed]
    rw [List.cons_append, plain?_of_ne (fun h => absurd h hslash), hnone]
    simp [identifier?, hc, htake, hdrop, Piece.of?]
  | number hc hslash h =>
    rw [List.cons_append, plain?_of_ne (fun h => absurd h hslash), space?_of_isMark hc,
      identifier?_of_isMark hc, ← List.cons_append, h]
    rfl
  | other hc hslash h =>
    rw [List.singleton_append, plain?_of_ne hslash, space?_of_isMark hc,
      identifier?_of_isMark hc, h]
    rfl

/-- A token outside directives is not empty. -/
theorem Reads.ne_nil {kind : TokenKind} {data rest : Text} (h : Reads kind data rest) :
    data ≠ [] := by
  cases h <;> simp_all

/-- A text starts with one token. -/
theorem Reads.unique {kind kind' : TokenKind} {data data' rest rest' : Text}
    (h : Reads kind data rest) (h' : Reads kind' data' rest') (heq : data ++ rest = data' ++ rest') :
    kind = kind' ∧ data = data' ∧ rest = rest' := by
  have hp := plain?_eq_some_iff (p := ⟨kind, data, rest⟩).2 ⟨rfl, h⟩
  have hp' := plain?_eq_some_iff (p := ⟨kind', data', rest'⟩).2 ⟨rfl, h'⟩
  dsimp only at hp hp'
  rw [heq, hp'] at hp
  simpa [eq_comm] using hp

/-- Every text that is not empty starts with a token. -/
theorem exists_reads {s : Text} (hs : s ≠ []) :
    ∃ kind data rest, s = data ++ rest ∧ Reads kind data rest := by
  obtain ⟨c, t, rfl⟩ := List.exists_cons_of_ne_nil hs
  have hsome : (plain? (c :: t)).isSome = true := by
    simp [plain?, Option.orElse_eq_orElse, Option.orElse_eq_or]
  obtain ⟨p, hp⟩ := Option.isSome_iff_exists.1 hsome
  exact ⟨p.kind, p.data, p.rest, plain?_eq_some_iff.1 hp⟩

/-! ## Code tokens in front of another text -/

/-- Whether a token is code: neither a directive, nor a comment, nor white space. -/
def isCode : TokenKind → Bool
  | .identifier | .number | .other => true
  | _ => false

/-- **What a code token depends on.** It is read again in front of a text that agrees with the one
behind it up to a character that can stand in no number, as long as the two do not open a comment
together. -/
theorem Reads.of_apart {kind : TokenKind} {data common t t' : Text}
    (h : Reads kind data (common ++ t)) (hcode : isCode kind = true) (ht : Apart t) (ht' : Apart t')
    (hslash : common = [] → data = ['/'] → t'.head? ≠ some '/' ∧ t'.head? ≠ some '*') :
    Reads kind data (common ++ t') := by
  have hnumber : ∀ c word, number? (c :: word ++ (common ++ t))
      = (number? (c :: word ++ common)).map fun (data, rest) => (data, rest ++ t) := by
    intro c word
    rw [← List.append_assoc, number?_append (by simp) ht.numberEnds]
  have hnumber' : ∀ c word, number? (c :: word ++ (common ++ t'))
      = (number? (c :: word ++ common)).map fun (data, rest) => (data, rest ++ t') := by
    intro c word
    rw [← List.append_assoc, number?_append (by simp) ht'.numberEnds]
  -- What is behind the token is made a variable, so that the way it was read can be told apart.
  generalize hrest : common ++ t = rest at h
  cases h with
  | closedComment _ => cases hcode
  | openComment _ => cases hcode
  | lineComment _ _ => cases hcode
  | lineFeed _ => cases hcode
  | blanks _ _ _ _ => cases hcode
  | identifier hc hword hhead =>
    subst hrest
    refine .identifier hc hword ?_
    cases common with
    | nil => exact ht'.not_mem fun _ => isGlue_of_isWord
    | cons d common => exact hhead
  | @number c digits _ hc hne h =>
    subst hrest
    refine .number hc hne ?_
    rw [hnumber] at h
    rw [hnumber']
    simp only [Option.map_eq_some_iff, Prod.exists, Prod.mk.injEq] at h ⊢
    obtain ⟨data, rest, hfound, rfl, hrest⟩ := h
    exact ⟨_, rest, hfound, rfl, by rw [List.append_cancel_right hrest]⟩
  | @other c _ hc hopens h =>
    subst hrest
    refine .other hc (fun hs => ?_) ?_
    · cases common with
      | nil => exact hslash rfl (by rw [hs])
      | cons d common => exact hopens hs
    · have hnone := hnumber c []
      have hnone' := hnumber' c []
      simp only [List.singleton_append] at hnone hnone'
      rw [h, eq_comm, Option.map_eq_none_iff] at hnone
      rw [hnone', hnone]
      rfl

/-- A line feed at the end of the text changes no code token. -/
theorem Reads.append_lineFeed {kind : TokenKind} {data rest : Text} (h : Reads kind data rest)
    (hcode : isCode kind = true) (t : Text) : Reads kind data (rest ++ '\n' :: t) := by
  rw [← List.append_nil rest] at h
  exact h.of_apart hcode apart_nil (apart_lineFeed t) fun _ _ => by simp

end GlslCompose.Scan
