/-
`Proofs/KeptLines.lean` -- the lines of a compiled text: which of a text pass through the
assembly as they are, what is put above them, and where a block of lines stays a block.

What a mark or a precision statement is depends on the text around it, so in general
nothing can be said about a part of a text alone. Lines that hold neither a mark nor the
word that starts a statement are different (`SelfContained`): the break at their end keeps
apart what stands before and what stands behind, and the rest is assembled as if they were
not there (`SelfContained.assembled_append`).

A compiled text is its header, the marker in it or right below, and the visible lines of
what was assembled (`withMarker_body_eq`). The first of these decides whether the version
comes from the text, and nothing else depends on it; so a block of lines among the visible
lines is a block of the compiled text, if the same line comes first with it and without it
(`inserted_fed_iff`).
-/
import GlslCompose.Proofs.IncludeFree
import GlslCompose.Proofs.ReturnedAssembly

set_option autoImplicit false

namespace GlslCompose

namespace Text

/-! ## A block within a text -/

/-- **One text is another with a block put into it.** -/
def Inserted (block former latter : Text) : Prop :=
  ∃ before behind, former = before ++ behind ∧ latter = before ++ block ++ behind

/-- It suffices to try every place in the text. -/
theorem inserted_iff {block former latter : Text} : Inserted block former latter ↔
    ∃ place ∈ List.range (former.length + 1),
      latter = former.take place ++ block ++ former.drop place := by
  constructor
  · rintro ⟨before, behind, rfl, rfl⟩
    refine ⟨before.length, ?_, by rw [List.take_left, List.drop_left]⟩
    rw [List.mem_range, List.length_append]
    omega
  · rintro ⟨place, -, hlatter⟩
    exact ⟨_, _, (List.take_append_drop place former).symm, hlatter⟩

instance (block former latter : Text) : Decidable (Inserted block former latter) :=
  decidable_of_iff _ inserted_iff.symm

theorem Inserted.length_eq {block former latter : Text} (h : Inserted block former latter) :
    latter.length = former.length + block.length := by
  obtain ⟨before, behind, rfl, rfl⟩ := h
  simp only [List.length_append]
  omega

/-- Where the two texts start differently, the block comes first. -/
theorem Inserted.head?_eq {block former latter : Text} (h : Inserted block former latter)
    (hblock : block ≠ []) (hhead : latter.head? ≠ former.head?) : latter.head? = block.head? := by
  obtain ⟨before, behind, rfl, rfl⟩ := h
  cases before with
  | nil => rw [List.nil_append, List.head?_append_of_ne_nil _ hblock]
  | cons c before => exact absurd rfl hhead

/-! ## Words -/

/-- **No word of a text is the keyword.** `inWord` tells whether the text stands behind a word
character, so that no word starts there. -/
def lacksWord (keyword : Text) : Bool → Text → Bool
  | _, [] => true
  | inWord, c :: s => (inWord || word (c :: s) != keyword) && lacksWord keyword (isWord c) s

/-- The code points of white space. -/
def blankPoints : List Nat := [9, 10, 11, 12, 13, 28, 29, 30, 31, 32, 0x85, 0xA0, 0x1680, 0x2000,
  0x2001, 0x2002, 0x2003, 0x2004, 0x2005, 0x2006, 0x2007, 0x2008, 0x2009, 0x200A, 0x2028, 0x2029,
  0x202F, 0x205F, 0x3000]

/-- A class that holds none of these characters holds no white space. -/
theorem eq_false_of_isBlank {p : Char → Bool} (hp : ∀ n ∈ blankPoints, p (Char.ofNat n) = false)
    {c : Char} (h : isBlank c = true) : p c = false := by
  have hc := hp c.toNat
  rw [Char.ofNat_toNat] at hc
  apply hc
  simp only [isBlank, Bool.or_eq_true, Bool.and_eq_true, decide_eq_true_eq, beq_iff_eq] at h
  simp only [blankPoints, List.mem_cons, List.not_mem_nil, or_false]
  omega

/-- White space is not part of a word. -/
theorem isWord_of_isBlank {c : Char} (h : isBlank c = true) : isWord c = false :=
  eq_false_of_isBlank (by decide +kernel) h

theorem isBlank_of_isWord {c : Char} (h : isWord c = true) : isBlank c = false := by
  cases hblank : isBlank c with
  | false => rfl
  | true =>
    rw [isWord_of_isBlank hblank] at h
    cases h

/-- So no line breaks within a word. -/
theorem unbroken_of_isWord {s : Text} (h : ∀ c ∈ s, isWord c = true) : Unbroken s :=
  fun c hc => Scan.eq_false_of_imp (fun _ => isBlank_of_isLineBreak) (isBlank_of_isWord (h c hc))

/-- A word ends in front of a character that is part of none. -/
theorem word_append_cons {c : Char} (hc : isWord c = false) (s t : Text) :
    word (s ++ c :: t) = word s := by
  rw [word, word, List.takeWhile_append]
  split
  · rename_i hall
    have hnone : ¬ isWord c = true := Bool.eq_false_iff.1 hc
    rw [List.takeWhile_cons, if_neg hnone, List.append_nil]
    exact ((List.takeWhile_prefix isWord).eq_of_length hall).symm
  · rfl

theorem lacksWord_cons (keyword : Text) (inWord : Bool) (c : Char) (s : Text) :
    lacksWord keyword inWord (c :: s)
      = ((inWord || word (c :: s) != keyword) && lacksWord keyword (isWord c) s) := rfl

theorem lacksWord_append_cons {keyword : Text} (hkeyword : keyword ≠ []) {c : Char}
    (hc : isWord c = false) (inWord : Bool) (s t : Text) :
    lacksWord keyword inWord (s ++ c :: t)
      = (lacksWord keyword inWord s && lacksWord keyword false t) := by
  induction s generalizing inWord with
  | nil =>
    have hword : word (c :: t) = [] := word_append_cons hc [] t
    have hne : (([] : Text) != keyword) = true := bne_iff_ne.2 hkeyword.symm
    rw [List.nil_append, lacksWord_cons, hword, hne, hc, Bool.or_true]
    rfl
  | cons d s ih =>
    rw [List.cons_append, lacksWord_cons, lacksWord_cons, ih, Bool.and_assoc, ← List.cons_append,
      word_append_cons hc]

/-- A word that another word character stands in front of is none by itself. -/
theorem lacksWord_true_of_isWord {keyword name : Text} (h : ∀ c ∈ name, isWord c = true) :
    lacksWord keyword true name = true := by
  induction name with
  | nil => rfl
  | cons c name ih =>
    rw [List.forall_mem_cons] at h
    rw [lacksWord_cons, h.1, ih h.2]
    rfl

theorem word_eq_self {name : Text} (h : ∀ c ∈ name, isWord c = true) : word name = name :=
  List.takeWhile_eq_self_iff.2 h

/-- A word lacks every other word. -/
theorem lacksWord_of_isWord {keyword name : Text} (h : ∀ c ∈ name, isWord c = true)
    (hne : name ≠ keyword) : lacksWord keyword false name = true := by
  cases name with
  | nil => rfl
  | cons c name =>
    have hword := word_eq_self h
    rw [List.forall_mem_cons] at h
    rw [lacksWord_cons, hword, bne_iff_ne.2 hne, h.1, lacksWord_true_of_isWord h.2]
    rfl

/-- Behind blanks a word starts. -/
theorem word_ne_of_lacksWord {keyword blanks s : Text} {inWord : Bool}
    (h : lacksWord keyword inWord (blanks ++ s) = true)
    (hblanks : ∀ c ∈ blanks, isBlank c = true) (hin : blanks = [] → inWord = false) (hs : s ≠ []) :
    word s ≠ keyword := by
  induction blanks generalizing inWord with
  | nil =>
    obtain ⟨c, s, rfl⟩ := List.exists_cons_of_ne_nil hs
    rw [List.nil_append, lacksWord_cons, hin rfl, Bool.false_or, Bool.and_eq_true] at h
    exact bne_iff_ne.1 h.1
  | cons c blanks ih =>
    rw [List.forall_mem_cons] at hblanks
    rw [List.cons_append, lacksWord_cons, Bool.and_eq_true] at h
    exact ih h.2 hblanks.2 fun _ => isWord_of_isBlank hblanks.1

end Text

namespace CompiledText

open Text (lines visibleLines fed isVisible strip lacksWord isLineBreak Unbroken Inserted)

/-! ## What passes through the assembly as it is -/

/-- **A precision statement starts with its keyword,** behind blanks or where a word can start. -/
theorem word_of_afterPrecision? {inWord : Bool} {s rest : Text}
    (h : afterPrecision? inWord s = some rest) :
    ∃ blanks t, s = blanks ++ t ∧ (∀ c ∈ blanks, Directive.isTrailing c = true) ∧
      (blanks = [] → inWord = false) ∧ Text.word t = "precision" := by
  -- The blank behind the keyword ends the word there.
  have hstatement : ∀ t, afterStatement? t = some rest → Text.word t = String.toList "precision" := by
    intro t ht
    simp only [afterStatement?, bind, Option.bind_eq_some_iff, pure, Option.some.injEq] at ht
    obtain ⟨a, ha, b, hb, -⟩ := ht
    rw [Text.after?_eq_some_iff] at ha
    unfold someBlanks? at hb
    split at hb
    · rename_i c t
      split at hb
      · rename_i hblank
        rw [ha, Text.word_append_cons (Text.isWord_of_isBlank hblank)]
        decide
      · cases hb
    · cases hb
  unfold afterPrecision? at h
  split at h
  · rename_i c s
    split at h
    · rename_i hc
      refine ⟨(c :: s).takeWhile Directive.isTrailing, _, List.takeWhile_append_dropWhile.symm,
        Scan.all_takeWhile, fun hnil => ?_, hstatement _ h⟩
      rw [List.takeWhile_cons, if_pos hc] at hnil
      cases hnil
    · split at h
      · cases h
      · rename_i hin
        exact ⟨[], c :: s, rfl, fun _ hmem => absurd hmem List.not_mem_nil,
          fun _ => Bool.eq_false_iff.2 hin, hstatement _ h⟩
  · cases h

theorem isBlank_of_isTrailing {c : Char} (h : Directive.isTrailing c = true) :
    Text.isBlank c = true ∧ isLineBreak c = false := by
  simp only [Directive.isTrailing, Bool.or_eq_true, beq_iff_eq] at h
  rcases h with rfl | rfl <;> decide

/-- No statement starts in a line that lacks the keyword. -/
theorem afterPrecision?_append_break {c : Char} (hc : isLineBreak c = true) {inWord : Bool} {x : Text}
    (h : lacksWord "precision" inWord x = true) (s : Text) :
    afterPrecision? inWord (x ++ c :: s) = none := by
  cases hsome : afterPrecision? inWord (x ++ c :: s) with
  | none => rfl
  | some rest =>
    obtain ⟨blanks, t, hsplit, hblanks, hin, hword⟩ := word_of_afterPrecision? hsome
    have hnone := Text.isWord_of_isBlank (Text.isBlank_of_isLineBreak hc)
    have hkeyword : Text.word t ≠ [] := by
      rw [hword]
      decide
    rcases List.append_eq_append_iff.1 hsplit with ⟨a, rfl, ht⟩ | ⟨a, rfl, rfl⟩
    · -- The blanks would have to hold the break, or the keyword to start with it.
      cases a with
      | nil =>
        rw [List.nil_append] at ht
        rw [← ht] at hkeyword
        exact absurd (Text.word_append_cons hnone [] s) hkeyword
      | cons d a =>
        obtain ⟨rfl, -⟩ := List.cons.inj ht
        have hbreak := (isBlank_of_isTrailing (hblanks c (by simp))).2
        rw [hc] at hbreak
        cases hbreak
    · rw [Text.word_append_cons hnone] at hword hkeyword
      have ha : a ≠ [] := by
        rintro rfl
        exact hkeyword rfl
      exact absurd hword (Text.word_ne_of_lacksWord h
        (fun d hd => (isBlank_of_isTrailing (hblanks d hd)).1) hin ha)

/-- **Lines without the keyword stay,** and what is behind them is dropped as if they were not there. -/
theorem dropPrecision_append_break {c : Char} (hc : isLineBreak c = true) {inWord : Bool} {x : Text}
    (h : lacksWord "precision" inWord x = true) (s : Text) :
    dropPrecision inWord (x ++ c :: s) = x ++ c :: dropPrecision false s := by
  induction x generalizing inWord with
  | nil =>
    have hnone := Text.isWord_of_isBlank (Text.isBlank_of_isLineBreak hc)
    rw [List.nil_append, dropPrecision_of_none (afterPrecision?_append_break hc h s), hnone]
    rfl
  | cons d x ih =>
    have hstart := afterPrecision?_append_break hc h s
    rw [Text.lacksWord_cons, Bool.and_eq_true] at h
    rw [List.cons_append] at hstart ⊢
    rw [dropPrecision_of_none hstart, ih h.2]
    rfl

/-- A mark ends in the one break in it. -/
theorem startsWith_toolMarker_append_break {c : Char} (hc : isLineBreak c = true) {x : Text}
    (h : Text.startsWith Composer.toolMarker (x ++ [c]) = false) (s : Text) :
    Text.startsWith Composer.toolMarker (x ++ c :: s) = false := by
  have hunbroken : Unbroken (String.toList "#define GLSLIFY 1") := by decide
  rw [Bool.eq_false_iff, ne_eq, Composer.startsWith_toolMarker_iff] at h ⊢
  rintro ⟨rest, hrest⟩
  apply h
  rw [Composer.toolMarker_eq, List.append_assoc, List.singleton_append] at hrest
  rcases List.append_eq_append_iff.1 hrest with ⟨a, hmark, ha⟩ | ⟨a, rfl, ha⟩
  · -- The break of the text is the first in it, so it is the one of the mark.
    cases a with
    | nil =>
      rw [List.append_nil] at hmark
      obtain ⟨rfl, -⟩ := List.cons.inj ha
      exact ⟨[], by rw [Composer.toolMarker_eq, hmark, List.append_nil]⟩
    | cons d a =>
      obtain ⟨rfl, -⟩ := List.cons.inj ha
      have hbreak := hunbroken c (by rw [hmark]; simp)
      rw [hc] at hbreak
      cases hbreak
  · cases a with
    | nil =>
      obtain ⟨rfl, -⟩ := List.cons.inj ha
      exact ⟨[], by rw [Composer.toolMarker_eq, List.append_nil, List.append_nil]⟩
    | cons d a =>
      obtain ⟨rfl, rfl⟩ := List.cons.inj ha
      exact ⟨a ++ [c], by rw [Composer.toolMarker_eq]; simp⟩

/-- **Lines without a mark stay.** -/
theorem unmarked_append_break {c : Char} (hc : isLineBreak c = true) {x : Text}
    (h : Text.hasPart Composer.toolMarker (x ++ [c]) = false) (s : Text) :
    Composer.unmarked (x ++ c :: s) = x ++ c :: Composer.unmarked s := by
  induction x with
  | nil =>
    rw [List.nil_append, Text.hasPart, Bool.or_eq_false_iff] at h
    exact Composer.unmarked_cons (@startsWith_toolMarker_append_break c hc [] h.1 s)
  | cons d x ih =>
    rw [List.cons_append, Text.hasPart, Bool.or_eq_false_iff] at h
    have hstart := @startsWith_toolMarker_append_break c hc (d :: x) h.1 s
    rw [List.cons_append] at hstart ⊢
    rw [Composer.unmarked_cons hstart, ih h.2]
    rfl

/-- Such a line holds a mark only at its end. -/
theorem hasPart_toolMarker_line {line : Text} (hfeed : '\n' ∉ line)
    (h : ¬ String.toList "#define GLSLIFY 1" <:+ line) :
    Text.hasPart Composer.toolMarker (line ++ ['\n']) = false := by
  induction line with
  | nil => decide
  | cons c line ih =>
    rw [List.cons_append, Text.hasPart, Bool.or_eq_false_iff]
    constructor
    · rw [Bool.eq_false_iff, ne_eq, ← List.cons_append, Composer.startsWith_toolMarker_iff]
      rintro ⟨rest, hrest⟩
      rw [Composer.toolMarker_eq, List.append_assoc, List.singleton_append] at hrest
      have hmark := (List.append_cons_inj_of_notMem hfeed (by decide)).1 hrest
      exact h ⟨[], hmark.1.symm⟩
    · apply ih
      · exact fun hmem => hfeed (List.mem_cons_of_mem _ hmem)
      · exact fun hsuffix => h (hsuffix.trans (List.suffix_cons _ _))

/-- **What stands on lines of its own** and holds nothing that is taken out. -/
structure SelfContained (s : Text) : Prop where
  ends : ∀ c ∈ s.getLast?, isLineBreak c = true
  unmarked : Text.hasPart Composer.toolMarker s = false
  bare : lacksWord "precision" false s = true

instance (s : Text) : Decidable (SelfContained s) :=
  have : Decidable (∀ c ∈ s.getLast?, isLineBreak c = true) := Option.decidableForallMem s.getLast?
  decidable_of_iff ((∀ c ∈ s.getLast?, isLineBreak c = true) ∧
      Text.hasPart Composer.toolMarker s = false ∧ lacksWord "precision" false s = true)
    ⟨fun h => ⟨h.1, h.2.1, h.2.2⟩, fun h => ⟨h.ends, h.unmarked, h.bare⟩⟩

theorem SelfContained.cases {x : Text} (h : SelfContained x) :
    x = [] ∨ ∃ front c, x = front ++ [c] ∧ isLineBreak c = true := by
  rcases List.eq_nil_or_concat x with rfl | ⟨front, c, rfl⟩
  · exact .inl rfl
  · refine .inr ⟨front, c, List.concat_eq_append, h.ends c ?_⟩
    rw [List.concat_eq_append, List.getLast?_concat]
    rfl

/-- **Such lines pass through the assembly,** whatever stands behind them. -/
theorem SelfContained.assembled_append {x : Text} (h : SelfContained x) (s : Text) :
    assembled (x ++ s) = x ++ assembled s := by
  rcases h.cases with rfl | ⟨front, c, rfl, hc⟩
  · rfl
  · have hnone := Text.isWord_of_isBlank (Text.isBlank_of_isLineBreak hc)
    have hbare := h.bare
    rw [Text.lacksWord_append_cons (by decide) hnone, Bool.and_eq_true] at hbare
    rw [List.append_assoc, List.singleton_append, assembled, unmarked_append_break hc h.unmarked,
      dropPrecision_append_break hc hbare.1, List.append_assoc, List.singleton_append]
    rfl

/-- They are lines of the text. -/
theorem SelfContained.visibleLines_append {x : Text} (h : SelfContained x) (s : Text) :
    visibleLines (x ++ s) = visibleLines x ++ visibleLines s := by
  rcases h.cases with rfl | ⟨front, c, rfl, hc⟩
  · rfl
  · have hfront : visibleLines (front ++ [c]) = visibleLines front ++ [] :=
      Text.visibleLines_append_break hc front []
    rw [List.append_assoc, List.singleton_append, Text.visibleLines_append_break hc, hfront,
      List.append_nil]

/-! ## The header -/

/-- **The lines of the header:** the version directive, if the text or the library has one, and the
precision statement. -/
def heading (precision : Text) (version declared : Option Text) : List Text :=
  ((declared.or (version.map versionLine)).map strip).toList ++ [precisionLine precision]

/-- The version directive among some lines, if it comes first. -/
def declared? (ls : List Text) : Option Text := ls.head?.filter isVersion

/-- The lines below a header: all of them, but for a version directive that comes first. -/
def below (ls : List Text) : List Text := if (declared? ls).isSome then ls.tail else ls

theorem isVersion_of_declared? {ls : List Text} (line : Text) (h : declared? ls = some line) :
    isVersion line = true :=
  (Option.filter_eq_some_iff.1 h).2

theorem below_subset (ls : List Text) : below ls ⊆ ls := by
  unfold below
  split
  · exact List.tail_subset ls
  · exact List.Subset.refl ls

/-- **Lines below their header,** if none of them is blank. -/
theorem withHeader_eq (precision : Text) (version : Option Text) {ls : List Text}
    (h : ∀ line ∈ ls, isVisible line = true) :
    withHeader precision version ls = heading precision version (declared? ls) ++ below ls := by
  cases ls with
  | nil => cases version <;> rfl
  | cons line rest =>
    have hblank : ¬ Text.isBlankText line = true := by
      simpa [isVisible] using h line List.mem_cons_self
    unfold withHeader
    rw [cutVersion?, if_neg hblank, below, declared?, List.head?_cons, Option.filter_some]
    cases isVersion line with
    | true => rfl
    | false => cases version <;> rfl

/-- A text that starts with something visible has it at the start of its first visible line. -/
theorem head?_fed_visibleLines {c : Char} (hc : Text.isBlank c = false) (s : Text) :
    visibleLines (c :: s) ≠ [] ∧ (fed (visibleLines (c :: s))).head? = some c := by
  have hbreak : ¬ isLineBreak c = true := by
    intro hbreak
    rw [Text.isBlank_of_isLineBreak hbreak] at hc
    cases hc
  obtain ⟨piece, pieces, hsplit⟩ := List.exists_cons_of_ne_nil (List.splitOnP_ne_nil isLineBreak s)
  have hvisible : isVisible (c :: piece) = true := by
    rw [Text.isVisible_cons, hc]
    rfl
  rw [Text.visibleLines_eq_splitOnP, List.splitOnP_cons_eq_if_modifyHead, if_neg hbreak, hsplit,
    List.modifyHead_cons, List.filter_cons_of_pos hvisible]
  exact ⟨List.cons_ne_nil _ _, rfl⟩

theorem head?_fed_append {ls : List Text} (h : ls ≠ []) (more : List Text) :
    (fed (ls ++ more)).head? = (fed ls).head? := by
  obtain ⟨line, rest, rfl⟩ := List.exists_cons_of_ne_nil h
  rw [List.cons_append, Text.fed_cons, Text.fed_cons, List.head?_append, List.head?_append]
  rfl

variable {declared : Option Text}

theorem head?_precisionLine (precision : Text) : visibleLines (precisionLine precision) ≠ [] ∧
    (fed (visibleLines (precisionLine precision))).head? = some 'p' := by
  obtain ⟨s, hs⟩ : ∃ s, precisionLine precision = 'p' :: s := ⟨_, rfl⟩
  rw [hs]
  exact head?_fed_visibleLines (by decide) s

theorem head?_strip {line : Text} (h : VersionLike line) : visibleLines (strip line) ≠ [] ∧
    (fed (visibleLines (strip line))).head? = some '#' := by
  obtain ⟨indent, s, rfl, hindent, -⟩ := h
  rw [strip_directive hindent]
  exact head?_fed_visibleLines (by decide) _

/-- The header starts with the version, if there is one. -/
theorem head?_heading (precision : Text) (version : Option Text)
    (hdeclared : ∀ line, declared = some line → isVersion line = true) :
    (declared = none ∧ version = none ∧
        heading precision version declared = [precisionLine precision]) ∨
      ∃ line, VersionLike line ∧ declared.or (version.map versionLine) = some line ∧
        heading precision version declared = [strip line, precisionLine precision] := by
  cases declared with
  | some line => exact .inr ⟨line, versionLike_of_isVersion (hdeclared line rfl), rfl, rfl⟩
  | none =>
    cases version with
    | none => exact .inl ⟨rfl, rfl, rfl⟩
    | some text => exact .inr ⟨versionLine text, versionLike_versionLine text, rfl, rfl⟩

/-- The header of a text: the lines that are put above it. -/
def top (precision : Text) (version declared : Option Text) : List Text :=
  (heading precision version declared).flatMap visibleLines

/-- The marker stands in the header or right below it. -/
theorem markerPlace_le (precision : Text) (version : Option Text)
    (hdeclared : ∀ line, declared = some line → isVersion line = true) :
    top precision version declared ≠ [] ∧
      markerPlace (top precision version declared) ≤ (top precision version declared).length := by
  obtain ⟨hprecision, hfirst⟩ := head?_precisionLine precision
  rcases head?_heading precision version hdeclared with
    ⟨-, -, hheading⟩ | ⟨line, hline, -, hheading⟩
  · have htop : top precision version declared = visibleLines (precisionLine precision) := by
      rw [top, hheading, List.flatMap_singleton]
    rw [htop]
    refine ⟨hprecision, ?_⟩
    have hpositive := List.length_pos_iff.2 hprecision
    rcases markerPlace_cases (visibleLines (precisionLine precision)) with hplace | ⟨-, t, ht⟩
    · omega
    · rw [ht] at hfirst
      cases hfirst
  · obtain ⟨hversion, -⟩ := head?_strip hline
    have htop : top precision version declared
        = visibleLines (strip line) ++ visibleLines (precisionLine precision) := by
      rw [top, hheading, List.flatMap_cons, List.flatMap_singleton]
    rw [htop, List.length_append]
    have hpositive := List.length_pos_iff.2 hprecision
    have hfront := List.length_pos_iff.2 hversion
    refine ⟨List.append_ne_nil_of_left_ne_nil hversion _, ?_⟩
    rcases markerPlace_cases (visibleLines (strip line) ++ visibleLines (precisionLine precision))
      with hplace | ⟨hplace, -⟩ <;> omega

theorem markerPlace_append {ls : List Text} (h : ls ≠ []) (more : List Text) :
    markerPlace (ls ++ more) = markerPlace ls := by
  obtain ⟨line, rest, rfl⟩ := List.exists_cons_of_ne_nil h
  rfl

/-- The header with the marker in it. -/
def markedTop (name precision : Text) (version declared : Option Text) : Text :=
  fed ((top precision version declared).take (markerPlace (top precision version declared)))
    ++ markerLine name
    ++ fed ((top precision version declared).drop (markerPlace (top precision version declared)))

theorem length_markedTop (name precision : Text) (version declared : Option Text) :
    (markedTop name precision version declared).length
      = (fed (top precision version declared)).length + (markerLine name).length := by
  have hfed := congrArg List.length (Text.fed_append
    ((top precision version declared).take (markerPlace (top precision version declared)))
    ((top precision version declared).drop (markerPlace (top precision version declared))))
  rw [List.take_append_drop, List.length_append] at hfed
  rw [markedTop, List.length_append, List.length_append, hfed]
  omega

theorem head?_markedTop (name precision : Text) (version : Option Text)
    (hdeclared : ∀ line, declared = some line → isVersion line = true) :
    (markedTop name precision version declared).head? = (fed (top precision version declared)).head? := by
  obtain ⟨hne, -⟩ := markerPlace_le precision version hdeclared
  rw [markedTop]
  obtain ⟨line, rest, hls⟩ := List.exists_cons_of_ne_nil hne
  have hplace : ∃ n, markerPlace (line :: rest) = n + 1 := by
    rcases markerPlace_cases (line :: rest) with hplace | ⟨hplace, -⟩
    · exact ⟨0, hplace⟩
    · exact ⟨1, hplace⟩
  obtain ⟨n, hn⟩ := hplace
  rw [hls, hn, List.take_succ_cons, Text.fed_cons, Text.fed_cons]
  simp [List.head?_append]

/-- **A compiled text is its header with the marker, and the visible lines below.** -/
theorem withMarker_body_eq (name precision : Text) (version : Option Text) (composed : Text) :
    withMarker name (body precision version composed)
      = markedTop name precision version (declared? (visibleLines (dropPrecision false composed)))
        ++ fed (below (visibleLines (dropPrecision false composed))) := by
  have hbody := body_eq precision version composed
  rw [← flatMap_withHeader,
    show (lines (dropPrecision false composed)).filter isVisible
      = visibleLines (dropPrecision false composed) from rfl] at hbody
  have hvisible : ∀ line ∈ visibleLines (dropPrecision false composed), visibleLines line = [line] :=
    fun line hmem => Text.visibleLines_of_mem hmem
  have hlines : ∀ line ∈ visibleLines (dropPrecision false composed),
      isVisible line = true ∧ Unbroken line := fun line hmem => Text.of_mem_visibleLines hmem
  -- From here on it matters only that the lines are visible and unbroken.
  generalize visibleLines (dropPrecision false composed) = ls at hbody hvisible hlines ⊢
  have hsub := below_subset ls
  obtain ⟨hne, hplace⟩ := markerPlace_le precision version (@isVersion_of_declared? ls)
  have hunbroken : ∀ line ∈ top precision version (declared? ls) ++ below ls, Unbroken line := by
    intro line hmem
    rcases List.mem_append.1 hmem with hmem | hmem
    · obtain ⟨source, -, hline⟩ := List.mem_flatMap.1 hmem
      exact (Text.of_mem_visibleLines hline).2
    · exact (hlines line (hsub hmem)).2
  rw [hbody, withHeader_eq precision version fun line hmem => (hlines line hmem).1,
    List.flatMap_append, Text.flatMap_visibleLines_of_forall fun line hmem => hvisible line (hsub hmem),
    ← top, withMarker_fed name hunbroken, markerPlace_append hne, List.take_append_of_le_length hplace,
    List.drop_append_of_le_length hplace, Text.fed_append, markedTop]
  simp only [List.append_assoc]

/-! ## A block of lines -/

/-- The first of some lines decides. -/
theorem declared?_append {front : List Text} (h : front ≠ []) (ls : List Text) :
    declared? (front ++ ls) = declared? front ∧ below (front ++ ls) = below front ++ ls := by
  obtain ⟨line, rest, rfl⟩ := List.exists_cons_of_ne_nil h
  refine ⟨rfl, ?_⟩
  have hsame : declared? (line :: rest ++ ls) = declared? (line :: rest) := rfl
  rw [below, below, hsame]
  split <;> rfl

theorem below_of_declared?_none {ls : List Text} (h : declared? ls = none) : below ls = ls := by
  rw [below, h]
  rfl

theorem declared?_of_forall {ls : List Text} (h : ∀ line ∈ ls, isVersion line = false) :
    declared? ls = none := by
  cases ls with
  | nil => rfl
  | cons line rest =>
    rw [declared?, List.head?_cons, Option.filter_some, h line List.mem_cons_self]
    rfl

theorem exists_of_declared? {ls : List Text} {found : Text} (h : declared? ls = some found) :
    ∃ rest, ls = found :: rest ∧ below ls = rest := by
  cases ls with
  | nil => cases h
  | cons line rest =>
    have hline := (Option.filter_eq_some_iff.1 h).1
    obtain rfl := Option.some.inj hline
    refine ⟨rest, rfl, ?_⟩
    rw [below, h]
    rfl

/-- What moves to the top is no longer than the line that it is made of. -/
theorem length_fed_strip_le {line : Text} (h : Unbroken line) :
    (fed (visibleLines (strip line))).length ≤ line.length + 1 := by
  have hwithin : strip line <:+: line :=
    (Text.trimEnd_isPrefix Text.isBlank (line.dropWhile Text.isBlank)).isInfix.trans
      (List.dropWhile_suffix _).isInfix
  have hunbroken : Unbroken (strip line) := fun c hc => h c (hwithin.subset hc)
  have hlength := hwithin.length_le
  rw [Text.visibleLines_of_unbroken hunbroken]
  cases hvisible : isVisible (strip line) with
  | true =>
    rw [List.filter_cons_of_pos hvisible, List.filter_nil, Text.fed_cons, List.length_append]
    simpa using hlength
  | false =>
    rw [List.filter_cons_of_neg (Bool.eq_false_iff.1 hvisible)]
    exact Nat.zero_le _

/-- **A version that is not declared any more** is not only missing from the header: the rest of the
text does not make up for it. -/
theorem not_inserted_of_declared (name precision : Text) (version : Option Text) {block : Text}
    {found : Text} {rest : Text} (hfound : isVersion found = true) (hunbroken : Unbroken found)
    (hblock : block.head? = some '#') :
    ¬ Inserted block (markedTop name precision version (some found) ++ rest)
      (markedTop name precision version none ++ (block ++ (found ++ '\n' :: rest))) := by
  intro hinserted
  have hdeclared : ∀ line, some found = some line → isVersion line = true := by
    rintro line ⟨⟩
    exact hfound
  have hnone : ∀ line, (none : Option Text) = some line → isVersion line = true := nofun
  have hlength := hinserted.length_eq
  have hstrip := length_fed_strip_le hunbroken
  cases version with
  | some text =>
    -- The version of the library takes the place, and the one of the text is still there below.
    have hlibrary := (head?_strip (versionLike_versionLine text)).1
    obtain ⟨line, lines, hlines⟩ := List.exists_cons_of_ne_nil hlibrary
    simp only [List.length_append, length_markedTop, top, heading, Option.none_or, Option.map_some,
      Option.some_or, Option.toList_some, List.singleton_append, List.flatMap_cons,
      Text.fed_append, hlines, Text.fed_cons, List.length_cons] at hlength
    omega
  | none =>
    -- The two texts start differently, so the block would have to stand at the start.
    have hformer := head?_markedTop name precision none hdeclared
    have hlatter := head?_markedTop name precision none hnone
    have hversion := head?_strip (versionLike_of_isVersion hfound)
    have hprecision := head?_precisionLine precision
    rw [top, heading, Option.some_or, Option.map_some, Option.toList_some, List.singleton_append,
      List.flatMap_cons, head?_fed_append hversion.1, hversion.2] at hformer
    rw [top, heading, Option.none_or, Option.map_none, Option.map_none, Option.toList_none,
      List.nil_append, List.flatMap_singleton, hprecision.2] at hlatter
    have hne : block ≠ [] := by
      rintro rfl
      cases hblock
    have hfront : ∀ {c : Char} {front : Text} (behind : Text), front.head? = some c →
        (front ++ behind).head? = some c := by
      intro c front behind h
      rw [List.head?_append, h]
      rfl
    have hhead := hinserted.head?_eq hne (by rw [hfront _ hformer, hfront _ hlatter]; decide)
    rw [hfront _ hlatter, hblock] at hhead
    revert hhead
    decide

/-- **Where a block among the visible lines is a block of the compiled text.** The lines in front of it
keep it away from the first line, which decides about the version; without any the first line behind
must be no version directive. -/
theorem inserted_fed_iff (name precision : Text) (version : Option Text) (front : List Text)
    {block back : List Text}
    (hback : ∀ line ∈ back, Unbroken line) (hblock : ∀ line ∈ block, isVersion line = false)
    (hfirst : ∀ c ∈ (fed block).head?, c = '#') :
    Inserted (fed block)
        (markedTop name precision version (declared? (front ++ back)) ++ fed (below (front ++ back)))
        (markedTop name precision version (declared? (front ++ (block ++ back)))
          ++ fed (below (front ++ (block ++ back))))
      ↔ block = [] ∨ front ≠ [] ∨ declared? back = none := by
  by_cases hnil : block = []
  · rw [hnil, List.nil_append]
    exact ⟨fun _ => .inl rfl, fun _ => ⟨_, [], (List.append_nil _).symm, by simp⟩⟩
  by_cases hfront : front = []
  · -- The block comes first, so with it no version is declared.
    obtain ⟨hdeclared, hbelow⟩ := declared?_append hnil back
    rw [hfront, List.nil_append, List.nil_append, hdeclared, hbelow, declared?_of_forall hblock,
      below_of_declared?_none (declared?_of_forall hblock), Text.fed_append]
    constructor
    · intro hinserted
      cases hversion : declared? back with
      | none => exact .inr (.inr rfl)
      | some found =>
        obtain ⟨rest, rfl, hrest⟩ := exists_of_declared? hversion
        rw [hversion, hrest, Text.fed_cons] at hinserted
        have hhead : (fed block).head? = some '#' := by
          obtain ⟨line, lines, rfl⟩ := List.exists_cons_of_ne_nil hnil
          obtain ⟨c, s, hs⟩ : ∃ c s, fed (line :: lines) = c :: s := by
            rw [Text.fed_cons]
            cases line <;> exact ⟨_, _, rfl⟩
          have hc := hfirst c (by rw [hs]; rfl)
          rw [hs, hc]
          rfl
        exact absurd hinserted (not_inserted_of_declared name precision version
          (isVersion_of_declared? found hversion) (hback found List.mem_cons_self) hhead)
    · rintro (hblock | hfront | hnone)
      · exact absurd hblock hnil
      · exact absurd rfl hfront
      · rw [hnone, below_of_declared?_none hnone]
        exact ⟨_, _, rfl, by simp⟩
  · -- The same line comes first with the block and without it.
    obtain ⟨hformer, hformerBelow⟩ := declared?_append hfront back
    obtain ⟨hlatter, hlatterBelow⟩ := declared?_append hfront (block ++ back)
    rw [hformer, hformerBelow, hlatter, hlatterBelow]
    refine ⟨fun _ => .inr (.inl hfront), fun _ => ⟨markedTop name precision version (declared? front)
      ++ fed (below front), fed back, ?_, ?_⟩⟩
    · rw [Text.fed_append, List.append_assoc]
    · rw [Text.fed_append, Text.fed_append]
      simp only [List.append_assoc]

end CompiledText

end GlslCompose
