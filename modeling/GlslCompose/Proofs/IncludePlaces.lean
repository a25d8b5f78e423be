/-
`Proofs/IncludePlaces.lean` -- where in a text an include could be read, character by
character.

The scanner cuts a text into tokens, and what one token is depends on the others: when a
comment is dropped its neighbours may join, and every token behind them is another one.
To tell whether a directive asks for an include, nothing of that is needed. In a text
without comments it is enough to know where a character stands: where a line starts,
inside a directive, or anywhere else on a line. `Place.next` says how that changes with a
character, and an include is a `#` where a line starts with the right keyword behind it
(`HasInclude`).

Two facts make this useful. It errs on the safe side of the scanner: whatever the scanner
reads as an include is one (`hasInclude_of_mem_lexemes`). And it is monotone: inside a
directive a text has no include that it would not have at the start of a line or behind
code (`HasInclude.mono`). Where a backslash swallows a line feed, or a line is dropped that
ended a directive, the text behind only comes to stand further inside.
-/
import Mathlib.Data.List.Chain
import GlslCompose.Proofs.CommentRemoval
import GlslCompose.Proofs.DirectiveText

set_option autoImplicit false

namespace GlslCompose.Scan

/-! ## Places -/

/-- What stands right before a character in a directive, as far as it decides about a line feed. -/
inductive Escape where
  | no
  | backslash
  | backslashReturn
  deriving DecidableEq

/-- Where a character stands. -/
inductive Place where
  /-- Nothing but white space stands before it on its line. -/
  | start
  /-- Something else does. -/
  | code
  /-- It belongs to a directive, unless it ends it. -/
  | directive (escape : Escape)
  deriving DecidableEq

namespace Place

/-- **Where the next character stands.** A line feed ends a directive, unless it is escaped. -/
def next : Place → Char → Place
  | start, c =>
    if c = '\n' ∨ isSpace c then start
    else if c = '#' then directive .no
    else code
  | code, c => if c = '\n' then start else code
  | directive escape, c =>
    if c = '\n' then if escape = .no then start else directive .no
    else if c = '\\' then directive .backslash
    else if c = '\r' ∧ escape = .backslash then directive .backslashReturn
    else directive .no

/-- Where the character behind a text stands. -/
def run (place : Place) (s : Text) : Place := s.foldl next place

@[simp] theorem run_nil (place : Place) : place.run [] = place := rfl

@[simp] theorem run_cons (place : Place) (c : Char) (s : Text) :
    place.run (c :: s) = (place.next c).run s := rfl

theorem run_append (place : Place) (s t : Text) : place.run (s ++ t) = (place.run s).run t :=
  List.foldl_append

/-- The place of a text that the scanner reads at the start of a line, or not. -/
def ofLineStart (lineStart : Bool) : Place := if lineStart then start else code

theorem next_lineFeed (place : Place) :
    place.next '\n' = start ∨ place.next '\n' = directive .no ∧ ∃ escape, place = directive escape := by
  cases place with
  | start => exact .inl rfl
  | code => exact .inl rfl
  | directive escape =>
    by_cases hescape : escape = .no
    · exact .inl (by rw [hescape]; rfl)
    · exact .inr ⟨by simp [next, hescape], escape, rfl⟩

/-! ## Further inside -/

/-- **A place that is further inside a directive than another one.** Whatever it takes to get from
there to the start of a line leads from the other place there as well. -/
def Within (place other : Place) : Prop :=
  place = other ∨
    (∃ escape, place = directive escape) ∧ ∀ escape, other = directive escape → escape = .no

theorem Within.refl (place : Place) : Within place place := .inl rfl

theorem within_of_directive (escape : Escape) {other : Place}
    (h : ∀ escape, other = directive escape → escape = .no) : Within (directive escape) other :=
  .inr ⟨⟨escape, rfl⟩, h⟩

theorem within_start (escape : Escape) : Within (directive escape) start :=
  within_of_directive escape nofun

theorem within_code (escape : Escape) : Within (directive escape) code :=
  within_of_directive escape nofun

theorem within_no (escape : Escape) : Within (directive escape) (directive .no) := by
  apply within_of_directive
  rintro _ ⟨⟩
  rfl

/-- In a directive everything but an escaped line feed leads on in it. -/
theorem next_directive (escape : Escape) {c : Char} (hc : c ≠ '\n') :
    ∃ escape', (directive escape).next c = directive escape' := by
  rw [next, if_neg hc]
  split
  · exact ⟨_, rfl⟩
  · split
    · exact ⟨_, rfl⟩
    · exact ⟨_, rfl⟩

/-- **A step leads from further inside to further inside.** -/
theorem Within.next {place other : Place} (h : Within place other) (c : Char) :
    Within (place.next c) (other.next c) := by
  rcases h with rfl | ⟨⟨escape, rfl⟩, hother⟩
  · exact .refl _
  by_cases hfeed : c = '\n'
  · -- The other place is at the start of a line then.
    have hstart : other.next '\n' = start := by
      rcases next_lineFeed other with hstart | ⟨-, escape, rfl⟩
      · exact hstart
      · rw [hother escape rfl]
        rfl
    rw [hfeed, hstart]
    rcases next_lineFeed (directive escape) with hnext | ⟨hnext, -⟩
    · rw [hnext]
      exact .refl _
    · rw [hnext]
      exact within_start _
  · -- A directive goes on, and only one that is escaped is not further inside than the other place.
    obtain ⟨escape', hnext⟩ := next_directive escape hfeed
    cases other with
    | start =>
      rw [hnext, Place.next]
      split
      · exact within_start _
      · split
        · exact within_no _
        · exact within_code _
    | code =>
      rw [hnext, Place.next, if_neg hfeed]
      exact within_code _
    | directive otherEscape =>
      obtain rfl := hother otherEscape rfl
      by_cases hback : c = '\\'
      · rw [hback]
        exact .refl _
      · have hno : (directive .no).next c = directive .no := by
          simp [Place.next, hfeed, hback]
        rw [hnext, hno]
        exact within_no _

end Place

/-! ## Includes -/

/-- Whether a character is white space within a line. -/
def isGap (c : Char) : Bool := Text.isBlank c && c != '\n'

/-- Whether the keyword behind a `#` is the one of an include. -/
def asksToInclude (s : Text) : Bool := Text.word (s.dropWhile isGap) = String.toList "include"

/-- **An include in a text,** given where the text stands: a `#` where a line starts, with the keyword
of an include behind it. -/
inductive HasInclude : Place → Text → Prop
  | here {s : Text} : asksToInclude s = true → HasInclude .start ('#' :: s)
  | later {place : Place} {c : Char} {s : Text} : HasInclude (place.next c) s →
      HasInclude place (c :: s)

/-- **Further inside a directive a text has no more includes.** -/
theorem HasInclude.mono {place other : Place} {s : Text} (h : HasInclude place s)
    (hwithin : Place.Within place other) : HasInclude other s := by
  induction h generalizing other with
  | here hasks =>
    rcases hwithin with rfl | ⟨⟨escape, hplace⟩, -⟩
    · exact .here hasks
    · cases hplace
  | later _ ih => exact .later (ih (hwithin.next _))

theorem not_hasInclude_nil (place : Place) : ¬ HasInclude place [] := nofun

/-- What is found behind a text is found in the whole. -/
theorem HasInclude.append {place : Place} (s : Text) {t : Text} (h : HasInclude (place.run s) t) :
    HasInclude place (s ++ t) := by
  induction s generalizing place with
  | nil => exact h
  | cons c s ih => exact .later (ih h)

/-- A character that starts no directive can be passed over. -/
theorem hasInclude_cons_iff {place : Place} {c : Char} {s : Text} (hne : place ≠ .start ∨ c ≠ '#') :
    HasInclude place (c :: s) ↔ HasInclude (place.next c) s := by
  refine ⟨fun h => ?_, .later⟩
  cases h with
  | here _ =>
    rcases hne with hne | hne
    · exact absurd rfl hne
    · exact absurd rfl hne
  | later h => exact h

/-- Behind code nothing on the line is an include. -/
theorem hasInclude_code_append_iff {s : Text} (h : '\n' ∉ s) (t : Text) :
    HasInclude .code (s ++ t) ↔ HasInclude .code t := by
  induction s with
  | nil => rfl
  | cons c s ih =>
    rw [List.mem_cons, not_or] at h
    rw [List.cons_append, hasInclude_cons_iff (.inl (by decide)), Place.next,
      if_neg (Ne.symm h.1), ih h.2]

/-- Blanks leave the line at its start. -/
theorem hasInclude_blanks_append_iff {blanks : Text} (h : ∀ c ∈ blanks, isSpace c = true) (t : Text) :
    HasInclude .start (blanks ++ t) ↔ HasInclude .start t := by
  induction blanks with
  | nil => rfl
  | cons c blanks ih =>
    have hc := h c List.mem_cons_self
    have hhash : c ≠ '#' := by
      rintro rfl
      revert hc
      decide
    rw [List.cons_append, hasInclude_cons_iff (.inr hhash), Place.next, if_pos (.inr hc),
      ih fun d hd => h d (List.mem_cons_of_mem _ hd)]

/-- A text that is empty or starts with a line feed. -/
def EndsLine (s : Text) : Prop := ∀ c ∈ s.head?, c = '\n'

instance (s : Text) : Decidable (EndsLine s) := Option.decidableForallMem s.head?

theorem endsLine_nil : EndsLine [] := nofun

theorem endsLine_lineFeed (s : Text) : EndsLine ('\n' :: s) := by
  rintro c ⟨⟩
  rfl

theorem EndsLine.cases {s : Text} (h : EndsLine s) : s = [] ∨ ∃ t, s = '\n' :: t := by
  cases s with
  | nil => exact .inl rfl
  | cons c t =>
    rw [h c rfl]
    exact .inr ⟨t, rfl⟩

/-- **Where a line ends, it does not matter what was on it.** -/
theorem HasInclude.of_endsLine {place : Place} {s : Text} (h : HasInclude place s)
    (hs : EndsLine s) : HasInclude .code s := by
  rcases hs.cases with rfl | ⟨t, rfl⟩
  · exact absurd h (not_hasInclude_nil place)
  · have hbehind := (hasInclude_cons_iff (.inr (by decide))).1 h
    rcases Place.next_lineFeed place with hnext | ⟨hnext, -⟩
    · rw [hnext] at hbehind
      exact .later hbehind
    · rw [hnext] at hbehind
      exact .later (hbehind.mono (Place.within_start _))

/-! ## The keyword -/

theorem isBlank_of_isGap {c : Char} (h : isGap c = true) : Text.isBlank c = true :=
  (Bool.and_eq_true _ _ ▸ h).1

theorem not_isGap_lineFeed : isGap '\n' = false := by decide

theorem not_isWord_lineFeed : Text.isWord '\n' = false := by decide

/-- What asks for an include has the keyword behind some blanks. -/
theorem exists_of_asksToInclude {s : Text} (h : asksToInclude s = true) :
    ∃ gap t, s = gap ++ String.toList "include" ++ t ∧ (∀ c ∈ gap, isGap c = true) ∧
      ∀ c ∈ t.head?, Text.isWord c = false := by
  have hword : Text.word (s.dropWhile isGap) = String.toList "include" := of_decide_eq_true h
  have hsplit := List.takeWhile_append_dropWhile (p := Text.isWord) (l := s.dropWhile isGap)
  rw [show (s.dropWhile isGap).takeWhile Text.isWord = String.toList "include" from hword] at hsplit
  refine ⟨s.takeWhile isGap, (s.dropWhile isGap).dropWhile Text.isWord, ?_, all_takeWhile,
    head?_dropWhile⟩
  rw [List.append_assoc, hsplit, List.takeWhile_append_dropWhile]

theorem asksToInclude_append {gap t : Text} (hgap : ∀ c ∈ gap, isGap c = true)
    (ht : ∀ c ∈ t.head?, Text.isWord c = false) :
    asksToInclude (gap ++ (String.toList "include" ++ t)) = true := by
  have hhead : ∀ c ∈ (String.toList "include" ++ t).head?, isGap c = false := by
    rintro c ⟨⟩
    decide
  have hword : ∀ c ∈ String.toList "include", Text.isWord c = true :=
    List.all_eq_true.1 (by decide)
  rw [asksToInclude, (takeWhile_eq_of_all hgap hhead).2, Text.word, (takeWhile_eq_of_all hword ht).1]
  exact decide_eq_true rfl

/-- The keyword is on the line of the `#`. -/
theorem asksToInclude_append_of_endsLine {s t : Text} (ht : EndsLine t) :
    asksToInclude (s ++ t) = asksToInclude s := by
  have hgap : ∀ c ∈ t.head?, isGap c = false := by
    intro c hc
    rw [ht c hc]
    exact not_isGap_lineFeed
  have hword : ∀ c ∈ t.head?, Text.isWord c = false := by
    intro c hc
    rw [ht c hc]
    exact not_isWord_lineFeed
  rw [asksToInclude, asksToInclude, dropWhile_append_of_head hgap, Text.word, Text.word,
    takeWhile_append_of_head hword]

/-- Without blanks, what asks for an include starts with the keyword. -/
theorem skipBlanks_of_asksToInclude {s : Text} (h : asksToInclude s = true) :
    ∃ behind, (∀ t, Text.skipBlanks (s ++ t) = String.toList "include" ++ (behind ++ t)) ∧
      ∀ c ∈ behind.head?, Text.isWord c = false := by
  obtain ⟨gap, behind, rfl, hgap, hbehind⟩ := exists_of_asksToInclude h
  refine ⟨behind, fun t => ?_, hbehind⟩
  have hblank : ∀ c ∈ gap, Text.isBlank c = true := fun c hc => isBlank_of_isGap (hgap c hc)
  have hhead : ∀ c ∈ (String.toList "include" ++ (behind ++ t)).head?, Text.isBlank c = false := by
    rintro c ⟨⟩
    decide
  rw [List.append_assoc, List.append_assoc]
  exact (takeWhile_eq_of_all hblank hhead).2

/-- **What asks for an include has its keyword.** -/
theorem word_of_asksToInclude {s : Text} (h : asksToInclude s = true) :
    Text.word (Text.skipBlanks s) = String.toList "include" := by
  obtain ⟨behind, hskip, hbehind⟩ := skipBlanks_of_asksToInclude h
  have hword : ∀ c ∈ String.toList "include", Text.isWord c = true :=
    List.all_eq_true.1 (by decide)
  have hself := hskip []
  rw [List.append_nil, List.append_nil] at hself
  rw [hself, Text.word, (takeWhile_eq_of_all hword hbehind).1]

theorem isBlank_of_isIndent {c : Char} (h : isIndent c = true) : Text.isBlank c = true := by
  simp only [isIndent, Bool.or_eq_true, beq_iff_eq] at h
  rcases h with rfl | rfl <;> decide

/-- The keyword of a directive is behind its `#`. -/
theorem keyword_append {indent body : Text} (hindent : ∀ c ∈ indent, isIndent c = true) :
    Directive.keyword (indent ++ '#' :: body) = Text.word (Text.skipBlanks body) := by
  have hblank : ∀ c ∈ indent, Text.isBlank c = true := fun c hc => isBlank_of_isIndent (hindent c hc)
  have hskip : Text.skipBlanks (indent ++ '#' :: body) = '#' :: body :=
    (takeWhile_eq_of_all hblank (head?_cons_eq_false (by decide) body)).2
  rw [Directive.keyword, Directive.afterHash?, hskip]
  rfl

/-! ## Texts without comments -/

/-- Two characters that open no comment together. -/
def NoOpening (c d : Char) : Prop := c = '/' → d ≠ '/' ∧ d ≠ '*'

instance : DecidableRel NoOpening := fun c d =>
  inferInstanceAs (Decidable (c = '/' → d ≠ '/' ∧ d ≠ '*'))

/-- **A text in which nothing opens a comment.** -/
def NoComment (s : Text) : Prop := s.IsChain NoOpening

instance (s : Text) : Decidable (NoComment s) := inferInstanceAs (Decidable (s.IsChain NoOpening))

theorem NoComment.left {s t : Text} (h : NoComment (s ++ t)) : NoComment s := List.IsChain.left_of_append h

theorem NoComment.right {s t : Text} (h : NoComment (s ++ t)) : NoComment t :=
  List.IsChain.right_of_append h

/-- A slash in such a text opens no comment. -/
theorem NoComment.head?_of_slash {s : Text} (h : NoComment ('/' :: s)) :
    s.head? ≠ some '/' ∧ s.head? ≠ some '*' := by
  cases s with
  | nil => exact ⟨nofun, nofun⟩
  | cons c s =>
    have hc := (List.isChain_cons_cons.1 h).1 rfl
    exact ⟨fun heq => hc.1 (Option.some.inj heq), fun heq => hc.2 (Option.some.inj heq)⟩

/-- Texts without comments can be put together where no comment opens. -/
theorem NoComment.append {s t : Text} (hs : NoComment s) (ht : NoComment t)
    (hbetween : s.getLast? = some '/' → t.head? ≠ some '/' ∧ t.head? ≠ some '*') :
    NoComment (s ++ t) := by
  refine List.isChain_append.2 ⟨hs, ht, fun c hc d hd hslash => ?_⟩
  have hhead := hbetween (by rw [← hslash]; exact hc)
  rw [Option.mem_def] at hd
  rw [hd] at hhead
  exact ⟨fun heq => hhead.1 (by rw [heq]), fun heq => hhead.2 (by rw [heq])⟩

/-- A text without comments is one in which neither of the two openers stands. -/
theorem noComment_iff_not_infix {s : Text} :
    NoComment s ↔ ¬ String.toList "//" <:+: s ∧ ¬ String.toList "/*" <:+: s := by
  constructor
  · intro h
    refine ⟨?_, ?_⟩
    · rintro ⟨before, behind, rfl⟩
      exact absurd h.left.right (by decide)
    · rintro ⟨before, behind, rfl⟩
      exact absurd h.left.right (by decide)
  · rintro ⟨hline, hblock⟩
    induction s with
    | nil => exact List.isChain_nil
    | cons c s ih =>
      have hs : NoComment s := ih (fun h => hline (h.trans (List.suffix_cons c s).isInfix))
        (fun h => hblock (h.trans (List.suffix_cons c s).isInfix))
      refine List.IsChain.cons hs fun d hd hslash => ?_
      obtain ⟨t, rfl⟩ := List.head?_eq_some_iff.1 hd
      subst hslash
      exact ⟨fun hd => hline ⟨[], t, by rw [hd]; rfl⟩, fun hd => hblock ⟨[], t, by rw [hd]; rfl⟩⟩

theorem noComment_of_notMem {s : Text} (h : '/' ∉ s) : NoComment s := by
  induction s with
  | nil => exact List.isChain_nil
  | cons c s ih =>
    rw [List.mem_cons, not_or] at h
    refine List.IsChain.cons (ih h.2) ?_
    exact fun d _ hc => absurd hc.symm h.1

theorem EndsLine.noOpening {s : Text} (h : EndsLine s) : s.head? ≠ some '/' ∧ s.head? ≠ some '*' := by
  constructor <;> intro hs <;> exact absurd (h _ hs) (by decide)

/-- A comment does not start a text without comments. -/
theorem not_isComment_of_noComment {kind : TokenKind} {data rest : Text}
    (hreads : Reads kind data rest) (h : NoComment (data ++ rest)) : kind.isComment = false := by
  cases hreads with
  | closedComment _ => exact absurd rfl (h.head?_of_slash).2
  | openComment _ => exact absurd rfl (h.head?_of_slash).2
  | lineComment _ _ => exact absurd rfl (h.head?_of_slash).1
  | lineFeed _ => rfl
  | blanks _ _ _ _ => rfl
  | identifier _ _ _ => rfl
  | number _ _ _ => rfl
  | other _ _ _ => rfl

/-! ## The scanner's includes -/

/-- A number is made of characters that can stand in one. -/
theorem notMem_of_number {data rest : Text} (h : number? (data ++ rest) = some (data, rest)) {c : Char}
    (hc : isGlue c = false) : c ∉ data := by
  intro hmem
  obtain ⟨front, behind, rfl⟩ := List.append_of_mem hmem
  rw [List.append_assoc, List.cons_append] at h
  by_cases hne : front = []
  · rw [hne, List.nil_append, number?_of_apart (apart_cons hc _)] at h
    cases h
  · -- A number never looks past such a character, so it would have ended before it.
    rw [number?_append hne (apart_cons hc _).numberEnds] at h
    simp only [Option.map_eq_some_iff, Prod.exists, Prod.mk.injEq] at h
    obtain ⟨data, left, hfound, rfl, -⟩ := h
    have hlength := congrArg List.length (number?_split hfound).1
    simp at hlength

/-- A code token of more than one character is made of such characters. -/
theorem Reads.notMem_of_code {kind : TokenKind} {data rest : Text} (h : Reads kind data rest)
    (hcode : isCode kind = true) {c : Char} (hc : isGlue c = false) : data = [c] ∨ c ∉ data := by
  have hword : Text.isWord c = false := by
    cases hw : Text.isWord c with
    | false => rfl
    | true => rw [isGlue_of_isWord hw] at hc; cases hc
  cases h with
  | @identifier d word _ hd hall _ =>
    refine .inr fun hmem => ?_
    have hmem' : Text.isWord c = true := by
      rcases List.mem_cons.1 hmem with rfl | hmem
      · exact isWord_of_isIdentifierStart hd
      · exact hall c hmem
    rw [hword] at hmem'
    cases hmem'
  | number _ _ hnumber => exact .inr (notMem_of_number hnumber hc)
  | @other d _ _ _ _ =>
    by_cases heq : c = d
    · exact .inl (by rw [heq])
    · exact .inr fun hmem => heq (List.mem_singleton.1 hmem)
  | closedComment _ => cases hcode
  | openComment _ => cases hcode
  | lineComment _ _ => cases hcode
  | lineFeed _ => cases hcode
  | blanks _ _ _ _ => cases hcode

/-- No code token holds a line feed. -/
theorem Reads.lineFeed_notMem {kind : TokenKind} {data rest : Text} (h : Reads kind data rest)
    (hcode : isCode kind = true) : '\n' ∉ data := by
  rcases h.notMem_of_code hcode (c := '\n') (by decide) with hdata | hmem
  · obtain ⟨c, t, heq, -, hne⟩ := h.exists_cons hcode
    rw [hdata] at heq
    exact absurd (List.cons.inj heq).1.symm hne
  · exact hmem

/-- **A token that is neither a directive nor a comment is passed over.** What is an include behind it
is one in the whole. -/
theorem Reads.hasInclude_iff {lineStart : Bool} {kind : TokenKind} {data rest : Text}
    (h : Reads kind data rest) (hhash : lineStart = true → NoHash (data ++ rest))
    (hcomment : kind.isComment = false) (t : Text) :
    HasInclude (.ofLineStart lineStart) (data ++ t)
      ↔ HasInclude (.ofLineStart (startBehind lineStart kind data)) t := by
  have hspaces : ∀ blanks : Text, (∀ c ∈ blanks, isSpace c = true) → ∀ t,
      HasInclude (.ofLineStart lineStart) (blanks ++ t) ↔ HasInclude (.ofLineStart lineStart) t := by
    intro blanks hblanks t
    cases lineStart with
    | false => exact hasInclude_code_append_iff (fun hmem => absurd (hblanks _ hmem) (by decide)) t
    | true => exact hasInclude_blanks_append_iff hblanks t
  by_cases hcode : isCode kind = true
  · have hfeed := h.lineFeed_notMem hcode
    rw [startBehind_of_isCode hcode]
    cases lineStart with
    | false => exact hasInclude_code_append_iff hfeed t
    | true =>
      -- The first character ends the start of the line, and is no hash.
      obtain ⟨c, word, rfl, hspace, hne⟩ := h.exists_cons hcode
      have hindent := isIndent_of_not_isSpace hspace
      have hc : c ≠ '#' := by simpa [NoHash, hindent] using hhash rfl
      have hnext : Place.start.next c = .code := by simp [Place.next, hne, hspace, hc]
      rw [List.cons_append, hasInclude_cons_iff (.inr hc), show Place.ofLineStart true = .start from rfl,
        hnext]
      exact hasInclude_code_append_iff (fun hmem => hfeed (List.mem_cons_of_mem _ hmem)) t
  · cases h with
    | @lineFeed blanks _ hblanks =>
      rw [startBehind_lineFeed, List.append_assoc, hspaces blanks hblanks, List.singleton_append,
        hasInclude_cons_iff (.inr (by decide))]
      cases lineStart <;> rfl
    | blanks _ hblanks _ _ =>
      rw [startBehind_blanks lineStart hblanks]
      exact hspaces _ hblanks t
    | closedComment _ => cases hcomment
    | openComment _ => cases hcomment
    | lineComment _ _ => cases hcomment
    | identifier _ _ _ => exact absurd rfl hcode
    | number _ _ _ => exact absurd rfl hcode
    | other _ _ _ => exact absurd rfl hcode

/-- An escape after which a directive may go on with a text: it does not swallow a line feed there. -/
def Escape.Fits : Escape → Text → Prop
  | .no, _ => True
  | .backslash, s => s.head? ≠ some '\n' ∧ ∀ t, s ≠ '\r' :: '\n' :: t
  | .backslashReturn, s => s.head? ≠ some '\n'

/-- **A directive stays inside itself** up to where it ends, and does not end in an escape that would
swallow a line feed. -/
theorem run_of_extent {body rest : Text} (h : Extent body rest) (hbare : NoComment (body ++ rest))
    (escape : Escape) (hfits : escape.Fits (body ++ rest)) :
    ∃ escape' : Escape, (Place.directive escape).run body = .directive escape' ∧
      escape'.Fits rest := by
  induction h generalizing escape with
  | ends _ => exact ⟨escape, rfl, hfits⟩
  | @goesOn piece body rest hpiece hbody ih =>
    rw [List.append_assoc] at hbare hfits
    have hrest := hbare.right
    rw [Place.run_append]
    cases hpiece with
    | lineBreak => exact ih hrest .no trivial
    | returnBreak => exact ih hrest .no trivial
    | backslash hline hreturn => exact ih hrest .backslash ⟨hline, hreturn⟩
    | comment _ => exact absurd rfl hbare.head?_of_slash.2
    | slash _ _ => exact ih hrest .no trivial
    | @char c _ hfeed hback hslash =>
      -- A carriage return behind a backslash might go on to escape a line feed, but there is none.
      by_cases hreturn : c = '\r' ∧ escape = .backslash
      · obtain ⟨rfl, rfl⟩ := hreturn
        refine ih hrest .backslashReturn fun hhead => ?_
        obtain ⟨t, ht⟩ := List.head?_eq_some_iff.1 hhead
        exact hfits.2 t (by rw [ht]; rfl)
      · have hnext : (Place.directive escape).next c = .directive .no := by
          rw [Place.next, if_neg hfeed, if_neg hback, if_neg hreturn]
        rw [Place.run_cons, Place.run_nil, hnext]
        exact ih hrest .no trivial

/-- Only a backslash stands before a line feed inside a directive, so blanks at its start are on one
line. -/
theorem isGap_of_extent {body rest : Text} (h : Extent body rest) {gap t : Text}
    (hbody : body = gap ++ t) (hgap : ∀ c ∈ gap, Text.isBlank c = true) :
    ∀ c ∈ gap, isGap c = true := by
  induction h generalizing gap with
  | ends _ =>
    obtain ⟨rfl, -⟩ := List.append_eq_nil_iff.1 hbody.symm
    exact fun c hc => absurd hc List.not_mem_nil
  | @goesOn piece body rest hpiece hbehind ih =>
    cases gap with
    | nil => exact fun c hc => absurd hc List.not_mem_nil
    | cons c gap =>
      have hc := hgap c List.mem_cons_self
      cases hpiece with
      | char hfeed hback hslash =>
        obtain ⟨heq, hrest⟩ := List.cons.inj hbody
        rw [heq] at hfeed
        have hfirst : isGap c = true := by simp [isGap, hc, hfeed]
        exact List.forall_mem_cons.2
          ⟨hfirst, ih hrest fun d hd => hgap d (List.mem_cons_of_mem _ hd)⟩
      | lineBreak => obtain ⟨rfl, -⟩ := List.cons.inj hbody; exact absurd hc (by decide)
      | returnBreak => obtain ⟨rfl, -⟩ := List.cons.inj hbody; exact absurd hc (by decide)
      | backslash _ _ => obtain ⟨rfl, -⟩ := List.cons.inj hbody; exact absurd hc (by decide)
      | comment _ => obtain ⟨rfl, -⟩ := List.cons.inj hbody; exact absurd hc (by decide)
      | slash _ _ => obtain ⟨rfl, -⟩ := List.cons.inj hbody; exact absurd hc (by decide)

/-- Where a directive may end in a text without comments, a line ends. -/
theorem Edge.endsLine {s : Text} (h : Edge s) (hbare : NoComment s) : EndsLine s := by
  rcases edge_iff.1 h with rfl | hfeed | ⟨t, rfl⟩ | ⟨t, rfl, -⟩
  · exact endsLine_nil
  · obtain ⟨t, rfl⟩ := List.head?_eq_some_iff.1 hfeed
    exact endsLine_lineFeed t
  · exact absurd rfl hbare.head?_of_slash.1
  · exact absurd rfl hbare.head?_of_slash.2

/-- Behind a directive an include is found if it is found behind code. -/
theorem HasInclude.behind_directive {escape : Escape} {rest : Text} (h : HasInclude .code rest)
    (hrest : EndsLine rest) (hfits : escape.Fits rest) : HasInclude (.directive escape) rest := by
  rcases hrest.cases with rfl | ⟨t, rfl⟩
  · exact absurd h (not_hasInclude_nil _)
  · have hbehind := (hasInclude_cons_iff (.inr (by decide))).1 h
    have hno : escape = .no := by
      cases escape with
      | no => rfl
      | backslash => exact absurd rfl hfits.1
      | backslashReturn => exact absurd rfl hfits
    rw [hno]
    exact .later hbehind

/-- **Whatever the scanner reads as an include is one,** in a text without comments. -/
theorem hasInclude_of_mem_lexemes {lineStart : Bool} {s data : Text} (hbare : NoComment s)
    (hmem : (TokenKind.directive, data) ∈ lexemes lineStart s)
    (hkeyword : Directive.keyword data = String.toList "include") :
    HasInclude (.ofLineStart lineStart) s := by
  induction lineStart, s using scan_induction with
  | nil lineStart =>
    rw [lexemes_nil] at hmem
    exact absurd hmem List.not_mem_nil
  | cons lineStart kind piece rest hstarts ih =>
    rw [lexemes_append hstarts] at hmem
    have hbehind := fun hmem => ih hbare.right hmem
    cases hstarts with
    | @directive indent body _ hstart hindent hextent =>
      subst hstart
      have hbody : NoComment (body ++ rest) := by
        rw [List.append_assoc, List.cons_append] at hbare
        exact hbare.right.right (s := ['#'])
      have hrest := hextent.edge.endsLine hbody.right
      have hblanks : ∀ c ∈ indent, isSpace c = true := fun c hc => isSpace_of_isIndent (hindent c hc)
      rw [List.append_assoc, List.cons_append, show Place.ofLineStart true = .start from rfl,
        hasInclude_blanks_append_iff hblanks]
      rcases List.mem_cons.1 hmem with hdata | hmem
      · -- The directive itself is the include: its keyword is on the line of its `#`.
        obtain ⟨-, rfl⟩ := Prod.mk.inj hdata
        apply HasInclude.here
        rw [asksToInclude_append_of_endsLine hrest]
        rw [keyword_append hindent] at hkeyword
        have hsplit := List.takeWhile_append_dropWhile (p := Text.isBlank) (l := body)
        have hgap := isGap_of_extent hextent hsplit.symm all_takeWhile
        have hword := List.takeWhile_append_dropWhile (p := Text.isWord) (l := Text.skipBlanks body)
        rw [show (Text.skipBlanks body).takeWhile Text.isWord = _ from hkeyword] at hword
        rw [← hsplit, show body.dropWhile Text.isBlank = Text.skipBlanks body from rfl, ← hword]
        exact asksToInclude_append hgap head?_dropWhile
      · -- An include behind the directive is found where the place is once the directive was run.
        apply HasInclude.later
        obtain ⟨escape, hrun, hfits⟩ := run_of_extent hextent hbody .no trivial
        apply HasInclude.append
        rw [show Place.start.next '#' = .directive .no from rfl, hrun]
        exact (hbehind hmem).behind_directive hrest hfits
    | plain hhash hreads =>
      have hcomment := not_isComment_of_noComment hreads hbare
      rw [hreads.hasInclude_iff hhash hcomment]
      rcases List.mem_cons.1 hmem with hdata | hmem
      · obtain ⟨rfl, -⟩ := Prod.mk.inj hdata
        cases hreads
      · exact hbehind hmem

end GlslCompose.Scan
