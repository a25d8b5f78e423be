/-
`Proofs/Symbols.lean` -- the symbols of a text, with white space between them that says
nothing.

A symbol is an identifier, a number, or any other character by itself. Comments and
directives are symbols like the rest here: this is how text reads where lines and white
space only keep symbols apart, and it tells what a change of the white space may do. Text
that is put together from pieces has the symbols of the pieces, unless a symbol goes on
over the seam between two of them: `a` and `b` side by side make `ab`.

`symbols_append` tells by the characters at the seam when none goes on. It is not always
to be seen there: `1` and `a` make no number together, `a` and `1` make an identifier. So
`Unjoined` asks it of the symbols, and `symbols_flatten_iff` says that this is all that
can go wrong.
-/
import Mathlib.Data.List.DropRight
import GlslCompose.Proofs.KeptLines

set_option autoImplicit false

namespace GlslCompose.Scan

open Text (isBlank skipBlanks isWord joinLines strip)

/-! ## One symbol -/

/-- The symbol at the start of a text without white space there, and what follows it. -/
def symbol (s : Text) : Text × Text :=
  ((identifier? s).or (number? s)).getD (s.take 1, s.drop 1)

/-- A symbol and what follows it make up the text, and it is not empty where the text is not. -/
theorem symbol_split (s : Text) : s = (symbol s).1 ++ (symbol s).2 ∧ (s ≠ [] → (symbol s).1 ≠ []) := by
  unfold symbol
  cases hid : identifier? s with
  | some found =>
    obtain ⟨hsplit, hne⟩ := identifier?_split hid
    exact ⟨hsplit, fun _ => hne⟩
  | none =>
    cases hnumber : number? s with
    | some found =>
      obtain ⟨hsplit, hne⟩ := number?_split hnumber
      exact ⟨hsplit, fun _ => hne⟩
    | none =>
      refine ⟨(List.take_append_drop 1 s).symm, fun hs => ?_⟩
      obtain ⟨c, t, rfl⟩ := List.exists_cons_of_ne_nil hs
      exact List.cons_ne_nil c []

theorem length_symbol_lt {s : Text} (h : s ≠ []) : (symbol s).2.length < s.length := by
  obtain ⟨hsplit, hne⟩ := symbol_split s
  have hlength := congrArg List.length hsplit
  have hpos := List.length_pos_iff.2 (hne h)
  rw [List.length_append] at hlength
  omega

/-! ## All symbols -/

/-- **The symbols of a text.** -/
def symbols (s : Text) : List Text :=
  match h : skipBlanks s with
  | [] => []
  | c :: t =>
    have : (symbol (c :: t)).2.length < s.length :=
      Nat.lt_of_lt_of_le (length_symbol_lt (List.cons_ne_nil c t))
        (h ▸ Text.length_dropWhile_le isBlank s)
    (symbol (c :: t)).1 :: symbols (symbol (c :: t)).2
  termination_by s.length

theorem symbols_of_skipBlanks_nil {s : Text} (h : skipBlanks s = []) : symbols s = [] := by
  rw [symbols]
  split
  · rfl
  · rename_i hcons
    rw [h] at hcons
    cases hcons

theorem symbols_of_skipBlanks_cons {s : Text} {c : Char} {t : Text} (h : skipBlanks s = c :: t) :
    symbols s = (symbol (c :: t)).1 :: symbols (symbol (c :: t)).2 := by
  rw [symbols]
  split
  · rename_i hnil
    rw [h] at hnil
    cases hnil
  · rename_i d u hcons
    obtain ⟨rfl, rfl⟩ := List.cons.inj (h.symm.trans hcons)
    rfl

@[simp] theorem symbols_nil : symbols [] = [] := symbols_of_skipBlanks_nil rfl

/-- Only what stands behind the white space at the start counts. -/
theorem symbols_congr {s t : Text} (h : skipBlanks s = skipBlanks t) : symbols s = symbols t := by
  cases ht : skipBlanks t with
  | nil => rw [symbols_of_skipBlanks_nil (h.trans ht), symbols_of_skipBlanks_nil ht]
  | cons c u => rw [symbols_of_skipBlanks_cons (h.trans ht), symbols_of_skipBlanks_cons ht]

theorem symbols_blank_cons {c : Char} (hc : isBlank c = true) (s : Text) :
    symbols (c :: s) = symbols s :=
  symbols_congr (List.dropWhile_cons_of_pos hc)

/-- There is no symbol in white space. -/
theorem symbols_of_blank {s : Text} (h : ∀ c ∈ s, isBlank c = true) : symbols s = [] :=
  symbols_of_skipBlanks_nil (List.dropWhile_eq_nil_iff.2 h)

theorem symbols_blanks_append {blanks : Text} (h : ∀ c ∈ blanks, isBlank c = true) (s : Text) :
    symbols (blanks ++ s) = symbols s :=
  symbols_congr (List.dropWhile_append_of_pos h)

/-- **How the symbols of a text are found:** white space is passed over, then a symbol. -/
theorem symbols_induction {motive : Text → Prop} (blank : ∀ s, skipBlanks s = [] → motive s)
    (step : ∀ s c u, skipBlanks s = c :: u → motive (symbol (c :: u)).2 → motive s) (s : Text) :
    motive s := by
  fun_induction symbols s with
  | case1 s hnil => exact blank s hnil
  | case2 s c u hcons _ ih => exact step s c u hcons ih

/-! ## Where no symbol goes on -/

/-- **A place that every symbol ends at.** No number goes on behind it, and it is not within a word. -/
structure Parts (s t : Text) : Prop where
  number : NumberEnds t
  word : (∀ c ∈ s.getLast?, isWord c = false) ∨ ∀ c ∈ t.head?, isWord c = false

theorem Apart.parts {t : Text} (h : Apart t) (s : Text) : Parts s t :=
  ⟨h.numberEnds, .inr (h.not_mem fun _ => isGlue_of_isWord)⟩

theorem Parts.suffix {s rest t : Text} (h : Parts s t) (hsuffix : rest <:+ s) : Parts rest t := by
  refine ⟨h.number, h.word.imp_left fun hlast c hc => hlast c ?_⟩
  obtain ⟨front, rfl⟩ := hsuffix
  rw [List.getLast?_append, hc]
  rfl

/-- A word ends at such a place, if not before. -/
theorem Parts.takeWhile_append {c : Char} {s t : Text} (h : Parts (c :: s) t) (hc : isWord c = true) :
    (s ++ t).takeWhile isWord = s.takeWhile isWord := by
  rcases h.word with hlast | hhead
  · rcases List.eq_nil_or_concat s with rfl | ⟨front, z, rfl⟩
    · rw [hlast c rfl] at hc
      cases hc
    · rw [List.concat_eq_append] at hlast ⊢
      have hz : isWord z = false := by
        apply hlast
        rw [← List.cons_append, List.getLast?_concat]
        rfl
      rw [List.append_assoc]
      exact (Text.word_append_cons hz front t).trans (Text.word_append_cons hz front []).symm
  · exact takeWhile_append_of_head hhead

theorem Parts.dropWhile_append {c : Char} {s t : Text} (h : Parts (c :: s) t) (hc : isWord c = true) :
    (s ++ t).dropWhile isWord = s.dropWhile isWord ++ t := by
  have hwhole := List.takeWhile_append_dropWhile (p := isWord) (l := s ++ t)
  rw [h.takeWhile_append hc] at hwhole
  apply List.append_cancel_left (hwhole.trans _)
  rw [← List.append_assoc, List.takeWhile_append_dropWhile]

theorem Parts.identifier?_append {s t : Text} (h : Parts s t) (hs : s ≠ []) :
    identifier? (s ++ t) = (identifier? s).map fun (data, rest) => (data, rest ++ t) := by
  obtain ⟨c, s, rfl⟩ := List.exists_cons_of_ne_nil hs
  rw [List.cons_append, identifier?, identifier?]
  split
  · rename_i hstart
    have hword := isWord_of_isIdentifierStart hstart
    rw [h.takeWhile_append hword, h.dropWhile_append hword]
    rfl
  · rfl

theorem Parts.symbol_append {s t : Text} (h : Parts s t) (hs : s ≠ []) :
    symbol (s ++ t) = ((symbol s).1, (symbol s).2 ++ t) := by
  unfold symbol
  rw [h.identifier?_append hs, number?_append hs h.number]
  obtain ⟨c, s, rfl⟩ := List.exists_cons_of_ne_nil hs
  cases identifier? (c :: s) with
  | some _ => rfl
  | none => cases number? (c :: s) <;> rfl

theorem skipBlanks_append {s : Text} {c : Char} {u : Text} (h : skipBlanks s = c :: u) (t : Text) :
    skipBlanks (s ++ t) = c :: (u ++ t) := by
  rw [skipBlanks, List.dropWhile_append, ← skipBlanks, h]
  rfl

/-- **A text that is cut where every symbol ends** has the symbols of its two parts. -/
theorem symbols_append {s t : Text} (h : Parts s t) : symbols (s ++ t) = symbols s ++ symbols t := by
  induction s using symbols_induction with
  | blank s hskip =>
    rw [symbols_of_skipBlanks_nil hskip, List.nil_append,
      symbols_blanks_append (List.dropWhile_eq_nil_iff.1 hskip)]
  | step s c u hskip ih =>
    have hsuffix : c :: u <:+ s := hskip ▸ List.dropWhile_suffix _
    have hbehind : (symbol (c :: u)).2 <:+ c :: u := ⟨_, (symbol_split (c :: u)).1.symm⟩
    have hsymbol := (h.suffix hsuffix).symbol_append (List.cons_ne_nil c u)
    rw [List.cons_append] at hsymbol
    rw [symbols_of_skipBlanks_cons (skipBlanks_append hskip t), symbols_of_skipBlanks_cons hskip, hsymbol]
    exact congrArg _ (ih (h.suffix (hbehind.trans hsuffix)))

theorem isGlue_of_isBlank {c : Char} (h : isBlank c = true) : isGlue c = false :=
  Text.eq_false_of_isBlank (by decide +kernel) h

/-- White space is such a place. -/
theorem symbols_append_blank {c : Char} (hc : isBlank c = true) (s t : Text) :
    symbols (s ++ c :: t) = symbols s ++ symbols t := by
  rw [symbols_append ((apart_cons (isGlue_of_isBlank hc) t).parts s), symbols_blank_cons hc]

theorem symbols_append_blanks {blanks : Text} (h : ∀ c ∈ blanks, isBlank c = true) (s : Text) :
    symbols (s ++ blanks) = symbols s := by
  cases blanks with
  | nil => rw [List.append_nil]
  | cons c blanks =>
    rw [List.forall_mem_cons] at h
    rw [symbols_append_blank h.1, symbols_of_blank h.2, List.append_nil]

theorem symbols_append_gap {gap : Text} (hne : gap ≠ []) (h : ∀ c ∈ gap, isBlank c = true)
    (s t : Text) : symbols (s ++ (gap ++ t)) = symbols s ++ symbols t := by
  obtain ⟨c, gap, rfl⟩ := List.exists_cons_of_ne_nil hne
  rw [List.forall_mem_cons] at h
  rw [List.cons_append, symbols_append_blank h.1, symbols_blanks_append h.2]

/-- A character that stands in no identifier and no number is no part of the symbols behind it. -/
theorem symbols_cons_of_not_isGlue {z : Char} (hz : isGlue z = false) (s : Text) :
    symbols (z :: s) = symbols [z] ++ symbols s := by
  cases hblank : isBlank z with
  | true =>
    rw [symbols_blank_cons hblank, symbols_blank_cons hblank, symbols_nil, List.nil_append]
  | false =>
    have hstart : isIdentifierStart z = false :=
      eq_false_of_imp (fun _ h => isGlue_of_isWord (isWord_of_isIdentifierStart h)) hz
    have hsymbol : ∀ t, symbol (z :: t) = ([z], t) := by
      intro t
      rw [symbol, identifier?, hstart, number?_of_apart (apart_cons hz t)]
      rfl
    have hskip : ∀ t, skipBlanks (z :: t) = z :: t := fun t =>
      List.dropWhile_cons_of_neg (by rw [hblank]; exact Bool.false_ne_true)
    rw [symbols_of_skipBlanks_cons (hskip s), symbols_of_skipBlanks_cons (hskip []), hsymbol, hsymbol,
      symbols_nil]
    rfl

/-! ## Lines -/

/-- Lines without anything in them have no symbols. -/
theorem flatMap_symbols_filter (ls : List Text) :
    (ls.filter Text.isVisible).flatMap symbols = ls.flatMap symbols := by
  induction ls with
  | nil => rfl
  | cons line ls ih =>
    cases hvisible : Text.isVisible line with
    | true => rw [List.filter_cons_of_pos hvisible, List.flatMap_cons, List.flatMap_cons, ih]
    | false =>
      rw [List.filter_cons_of_neg (by simp [hvisible]), List.flatMap_cons, ih,
        symbols_of_blank (Text.isVisible_eq_false_iff.1 hvisible), List.nil_append]

theorem symbols_splitOnP (s : Text) : (s.splitOnP Text.isLineBreak).flatMap symbols = symbols s := by
  induction hn : s.length using Nat.strongRecOn generalizing s with
  | ind n ih =>
    by_cases hbreak : ∃ c ∈ s, Text.isLineBreak c = true
    · obtain ⟨c, hmem, hc⟩ := hbreak
      obtain ⟨front, behind, rfl⟩ := List.append_of_mem hmem
      rw [List.length_append, List.length_cons] at hn
      rw [List.splitOnP_append_cons front behind hc, List.flatMap_append, ih _ (by omega) front rfl,
        ih _ (by omega) behind rfl, symbols_append_blank (Text.isBlank_of_isLineBreak hc)]
    · have hunbroken : ∀ c ∈ s, Text.isLineBreak c = false := fun c hc =>
        Bool.eq_false_iff.2 fun htrue => hbreak ⟨c, hc, htrue⟩
      rw [List.splitOnP_eq_singleton hunbroken, List.flatMap_singleton]

/-- A text has the symbols of its lines. -/
theorem symbols_lines (s : Text) : (Text.lines s).flatMap symbols = symbols s := by
  rw [← flatMap_symbols_filter, ← Text.visibleLines, Text.visibleLines_eq_splitOnP,
    flatMap_symbols_filter, symbols_splitOnP]

theorem symbols_joinLines (ls : List Text) : symbols (joinLines ls) = ls.flatMap symbols := by
  induction ls with
  | nil => exact symbols_nil
  | cons line ls ih =>
    by_cases hls : ls = []
    · rw [hls, Text.joinLines_singleton, List.flatMap_singleton]
    · rw [Text.joinLines_cons line hls, symbols_append_blank (by decide), ih, List.flatMap_cons]

/-- The white space around a text says nothing. -/
theorem symbols_strip (s : Text) : symbols (strip s) = symbols s := by
  have htrim : ∀ u, symbols (Text.trimEnd isBlank u) = symbols u := by
    intro u
    rcases Text.all_or_exists_append isBlank u with hall | ⟨front, c, behind, rfl, hc, hbehind⟩
    · rw [Text.trimEnd_eq_nil_of_all hall, symbols_of_blank hall, symbols_nil]
    · rw [Text.trimEnd_append hc hbehind, ← symbols_append_blanks hbehind, List.append_assoc]
      rfl
  rw [strip, Text.trim, htrim]
  exact symbols_congr (List.dropWhile_idempotent isBlank s)

/-! ## Text from pieces -/

/-- If the symbols of a text start with those of its first part, no symbol goes over the seam. -/
theorem symbols_append_of_isPrefix {s t : Text} (h : symbols s <+: symbols (s ++ t)) :
    symbols (s ++ t) = symbols s ++ symbols t := by
  induction s using symbols_induction with
  | blank s hskip =>
    rw [symbols_of_skipBlanks_nil hskip, List.nil_append,
      symbols_blanks_append (List.dropWhile_eq_nil_iff.1 hskip)]
  | step s c u hskip ih =>
    have hcut := symbols_of_skipBlanks_cons (skipBlanks_append hskip t)
    rw [symbols_of_skipBlanks_cons hskip, hcut, List.cons_prefix_cons] at h
    obtain ⟨hfirst, hbehind⟩ := h
    -- The first symbol is the same, and so what follows it is what followed, and the second text.
    have hrest : (symbol (c :: (u ++ t))).2 = (symbol (c :: u)).2 ++ t := by
      have hpart : c :: (u ++ t) = (symbol (c :: u)).1 ++ ((symbol (c :: u)).2 ++ t) := by
        rw [← List.append_assoc, ← (symbol_split (c :: u)).1, List.cons_append]
      have hwhole := (symbol_split (c :: (u ++ t))).1
      rw [← hfirst] at hwhole
      exact List.append_cancel_left (hwhole.symm.trans hpart)
    rw [hrest] at hbehind
    rw [symbols_of_skipBlanks_cons hskip, hcut, hrest, ← hfirst, ih hbehind]
    rfl

/-- **Pieces that no symbol goes over the seams of.** -/
def Unjoined : List Text → Prop
  | [] => True
  | piece :: pieces =>
    symbols (piece ++ pieces.flatten) = symbols piece ++ symbols pieces.flatten ∧ Unjoined pieces

/-- **Text that is put together from pieces** has just the symbols of the pieces, if and only if none
goes over a seam. -/
theorem symbols_flatten_iff (pieces : List Text) :
    symbols pieces.flatten = pieces.flatMap symbols ↔ Unjoined pieces := by
  induction pieces with
  | nil => simp [Unjoined]
  | cons piece pieces ih =>
    rw [List.flatten_cons, List.flatMap_cons, Unjoined, ← ih]
    constructor
    · intro h
      have hfirst := symbols_append_of_isPrefix (h ▸ List.prefix_append _ _)
      exact ⟨hfirst, List.append_cancel_left (hfirst.symm.trans h)⟩
    · rintro ⟨hfirst, hbehind⟩
      rw [hfirst, hbehind]

/-- What joins cannot be told from the characters at the seam alone. -/
example : symbols "a1" = ["a1"] ∧ symbols "1a" = ["1", "a"] := by decide +kernel

theorem apart_flatten {pieces : List Text} (h : ∀ piece ∈ pieces, Apart piece) :
    Apart pieces.flatten := by
  induction pieces with
  | nil => exact apart_nil
  | cons piece pieces ih =>
    rw [List.forall_mem_cons] at h
    cases piece with
    | nil => exact ih h.2
    | cons c piece => exact apart_cons (h.1 c rfl) _

/-- Pieces that start with what no symbol goes on with, but for the first, are not joined. -/
theorem unjoined_of_apart (first : Text) {pieces : List Text} (h : ∀ piece ∈ pieces, Apart piece) :
    Unjoined (first :: pieces) := by
  induction pieces generalizing first with
  | nil => exact ⟨by simp, trivial⟩
  | cons piece pieces ih =>
    exact ⟨symbols_append ((apart_flatten h).parts first),
      ih piece fun next hmem => h next (List.mem_cons_of_mem _ hmem)⟩

end GlslCompose.Scan
