/-
`Proofs/VisibleLines.lean` -- the visible lines of a text, and the body that is made of them.

The body of a compiled text is put together from lines twice over: the text is cut into
lines to find the version, written with line feeds between them, and cut into lines once
more to drop those that hold nothing but blanks. What counts of a text is therefore
`visibleLines`, its lines that hold something else, and everything about them follows
from one equation: they split at every line break (`visibleLines_append_break`).

Lines as they are cut are less regular, because a carriage return and a line feed are one
break and because a break at the end of the text does not start a line. Both only concern
lines without anything in them, and so `visibleLines_eq_splitOnP` can do away with them.
With that the body is its header and the visible lines of the text, each with a line
feed: `body_eq`.
-/
import Mathlib.Data.List.Basic
import Mathlib.Data.List.TakeWhile
import GlslCompose.CompiledText

set_option autoImplicit false

namespace GlslCompose

namespace Text

/-! ## Visible lines -/

/-- Whether there is something in a line besides white space. -/
def isVisible (line : Text) : Bool := !isBlankText line

/-- The lines of a text that are not blank. -/
def visibleLines (s : Text) : List Text := (lines s).filter isVisible

/-- Lines, each with a line feed behind it. -/
def fed (ls : List Text) : Text := ls.flatMap fun line => line ++ ['\n']

@[simp] theorem fed_nil : fed [] = [] := rfl

@[simp] theorem fed_cons (line : Text) (ls : List Text) :
    fed (line :: ls) = line ++ '\n' :: fed ls := by
  rw [fed, List.flatMap_cons, List.append_assoc]
  rfl

theorem fed_append (ls more : List Text) : fed (ls ++ more) = fed ls ++ fed more :=
  List.flatMap_append

@[simp] theorem isVisible_nil : isVisible [] = false := rfl

/-- A text in which each character is white space has nothing to see in it. -/
theorem isVisible_eq_false_iff {s : Text} : isVisible s = false ↔ ∀ c ∈ s, isBlank c = true := by
  rw [isVisible, Bool.not_eq_false', isBlankText, List.all_eq_true]

theorem isVisible_cons (c : Char) (s : Text) : isVisible (c :: s) = (!isBlank c || isVisible s) := by
  rw [isVisible, isVisible, isBlankText, isBlankText, List.all_cons, Bool.not_and]

/-- A break is white space. -/
theorem isBlank_of_isLineBreak {c : Char} (h : isLineBreak c = true) : isBlank c = true := by
  simp only [isLineBreak, isBlank, Bool.or_eq_true, Bool.and_eq_true, decide_eq_true_eq,
    beq_iff_eq] at h ⊢
  omega

theorem ne_nil_of_isVisible {s : Text} (h : isVisible s = true) : s ≠ [] := by
  rintro rfl
  cases h

theorem isLineBreak_lineFeed : isLineBreak '\n' = true := by decide

/-- No line contains a break. -/
theorem unbroken_of_mem_lines {s line : Text} (h : line ∈ lines s) :
    ∀ c ∈ line, isLineBreak c = false := by
  fun_induction lines s generalizing line with
  | case1 => cases h
  | case2 s ih =>
    rcases List.mem_cons.1 h with rfl | h
    · exact fun c hc => absurd hc List.not_mem_nil
    · exact ih h
  | case3 c s hpair hbreak ih =>
    rcases List.mem_cons.1 h with rfl | h
    · exact fun c hc => absurd hc List.not_mem_nil
    · exact ih h
  | case4 c s hpair hbreak hnil ih =>
    intro d hd
    rw [List.mem_singleton.1 h, List.mem_singleton] at hd
    rw [hd]
    exact Bool.eq_false_iff.2 hbreak
  | case5 c s hpair hbreak l ls hcons ih =>
    rw [hcons] at ih
    rcases List.mem_cons.1 h with rfl | h
    · intro d hd
      rcases List.mem_cons.1 hd with rfl | hd
      · exact Bool.eq_false_iff.2 hbreak
      · exact ih List.mem_cons_self d hd
    · exact ih (List.mem_cons_of_mem _ h)

/-- What is visible among some lines: the first of them, if it is, and what is visible behind it. -/
theorem filter_isVisible_eq (ls : List Text) :
    ls.filter isVisible = [ls.headD []].filter isVisible ++ ls.tail.filter isVisible := by
  cases ls with
  | nil => rfl
  | cons line rest =>
    rw [← List.filter_append]
    rfl

/-- Cut at every break, a text has the lines that it has, but for lines without anything in them.
The first line is there either way, because something may still come in front of it. -/
theorem lines_splitOnP (s : Text) :
    (s.splitOnP isLineBreak).headD [] = (lines s).headD [] ∧
      (s.splitOnP isLineBreak).tail.filter isVisible = (lines s).tail.filter isVisible := by
  have hreturn : isLineBreak '\r' = true := by decide
  fun_induction lines s with
  | case1 =>
    rw [List.splitOnP_nil]
    exact ⟨rfl, rfl⟩
  -- A carriage return with a line feed: there is one empty line more if the two are cut apart.
  | case2 s ih =>
    rw [List.splitOnP_cons_eq_if_modifyHead, if_pos hreturn, List.splitOnP_cons_eq_if_modifyHead,
      if_pos isLineBreak_lineFeed]
    refine ⟨rfl, ?_⟩
    rw [List.tail_cons, List.tail_cons, List.filter_cons_of_neg (by simp), filter_isVisible_eq, ih.1,
      ih.2, ← filter_isVisible_eq]
  | case3 c s hpair hbreak ih =>
    rw [List.splitOnP_cons_eq_if_modifyHead, if_pos hbreak]
    refine ⟨rfl, ?_⟩
    rw [List.tail_cons, List.tail_cons, filter_isVisible_eq, ih.1, ih.2, ← filter_isVisible_eq]
  | case4 c s hpair hbreak hnil ih =>
    obtain ⟨piece, pieces, hsplit⟩ :=
      List.exists_cons_of_ne_nil (List.splitOnP_ne_nil isLineBreak s)
    rw [hnil, hsplit] at ih
    rw [List.splitOnP_cons_eq_if_modifyHead, if_neg hbreak, hsplit]
    exact ⟨congrArg (c :: ·) ih.1, ih.2⟩
  | case5 c s hpair hbreak l ls hcons ih =>
    obtain ⟨piece, pieces, hsplit⟩ :=
      List.exists_cons_of_ne_nil (List.splitOnP_ne_nil isLineBreak s)
    rw [hcons, hsplit] at ih
    rw [List.splitOnP_cons_eq_if_modifyHead, if_neg hbreak, hsplit]
    exact ⟨congrArg (c :: ·) ih.1, ih.2⟩

/-- **The visible lines of a text** are its visible pieces between breaks. -/
theorem visibleLines_eq_splitOnP (s : Text) :
    visibleLines s = (s.splitOnP isLineBreak).filter isVisible := by
  obtain ⟨hhead, htail⟩ := lines_splitOnP s
  rw [visibleLines, filter_isVisible_eq, ← hhead, ← htail, ← filter_isVisible_eq]

/-- **Visible lines split at every line break.** -/
theorem visibleLines_append_break {c : Char} (hc : isLineBreak c = true) (x y : Text) :
    visibleLines (x ++ c :: y) = visibleLines x ++ visibleLines y := by
  rw [visibleLines_eq_splitOnP, visibleLines_eq_splitOnP, visibleLines_eq_splitOnP,
    List.splitOnP_append_cons x y hc, List.filter_append]

theorem visibleLines_append_lineFeed (x y : Text) :
    visibleLines (x ++ '\n' :: y) = visibleLines x ++ visibleLines y :=
  visibleLines_append_break isLineBreak_lineFeed x y

/-- A text without a break is one line. -/
theorem visibleLines_of_unbroken {line : Text} (h : ∀ c ∈ line, isLineBreak c = false) :
    visibleLines line = [line].filter isVisible := by
  rw [visibleLines_eq_splitOnP, List.splitOnP_eq_singleton h]

/-- No piece between breaks contains a break. -/
theorem unbroken_of_mem_splitOnP {s line : Text} (h : line ∈ s.splitOnP isLineBreak) :
    ∀ c ∈ line, isLineBreak c = false := by
  induction s generalizing line with
  | nil =>
    rw [List.splitOnP_nil, List.mem_singleton] at h
    rw [h]
    exact fun c hc => absurd hc List.not_mem_nil
  | cons d s ih =>
    obtain ⟨piece, pieces, hsplit⟩ :=
      List.exists_cons_of_ne_nil (List.splitOnP_ne_nil isLineBreak s)
    rw [List.splitOnP_cons_eq_if_modifyHead, hsplit] at h
    rw [hsplit] at ih
    by_cases hbreak : isLineBreak d = true
    · rw [if_pos hbreak, List.mem_cons] at h
      rcases h with rfl | h
      · exact fun c hc => absurd hc List.not_mem_nil
      · exact ih h
    · rw [if_neg hbreak, List.modifyHead_cons, List.mem_cons] at h
      rcases h with rfl | h
      · intro c hc
        rcases List.mem_cons.1 hc with rfl | hc
        · exact Bool.eq_false_iff.2 hbreak
        · exact ih List.mem_cons_self c hc
      · exact ih (List.mem_cons_of_mem _ h)

/-- A visible line holds no break, and something besides white space. -/
theorem of_mem_visibleLines {s line : Text} (h : line ∈ visibleLines s) :
    isVisible line = true ∧ ∀ c ∈ line, isLineBreak c = false := by
  rw [visibleLines_eq_splitOnP] at h
  obtain ⟨hmem, hvisible⟩ := List.mem_filter.1 h
  exact ⟨hvisible, unbroken_of_mem_splitOnP hmem⟩

theorem visibleLines_of_mem {s line : Text} (h : line ∈ visibleLines s) :
    visibleLines line = [line] := by
  obtain ⟨hvisible, hunbroken⟩ := of_mem_visibleLines h
  rw [visibleLines_of_unbroken hunbroken, List.filter_cons_of_pos hvisible, List.filter_nil]

/-- There is something to see in a text if there is in one of the pieces between its breaks. -/
theorem any_isVisible_splitOnP (s : Text) :
    (s.splitOnP isLineBreak).any isVisible = isVisible s := by
  induction s with
  | nil =>
    rw [List.splitOnP_nil]
    rfl
  | cons c s ih =>
    rw [List.splitOnP_cons_eq_if_modifyHead]
    by_cases hbreak : isLineBreak c = true
    · rw [if_pos hbreak, List.any_cons, ih, isVisible_cons, isBlank_of_isLineBreak hbreak]
      rfl
    · obtain ⟨piece, pieces, hsplit⟩ :=
        List.exists_cons_of_ne_nil (List.splitOnP_ne_nil isLineBreak s)
      rw [hsplit, List.any_cons] at ih
      rw [if_neg hbreak, hsplit, List.modifyHead_cons, List.any_cons, isVisible_cons,
        isVisible_cons, Bool.or_assoc, ih]

/-- **Only white space has no visible line.** -/
theorem visibleLines_eq_nil_iff {s : Text} : visibleLines s = [] ↔ isVisible s = false := by
  rw [visibleLines_eq_splitOnP, List.filter_eq_nil_iff, ← any_isVisible_splitOnP,
    List.any_eq_false]

theorem visibleLines_fed (ls : List Text) : visibleLines (fed ls) = ls.flatMap visibleLines := by
  induction ls with
  | nil => rfl
  | cons line ls ih => rw [fed_cons, visibleLines_append_lineFeed, ih, List.flatMap_cons]

/-- Cutting visible lines into visible lines changes nothing. -/
theorem flatMap_visibleLines_of_forall {ls : List Text}
    (h : ∀ line ∈ ls, visibleLines line = [line]) : ls.flatMap visibleLines = ls := by
  induction ls with
  | nil => rfl
  | cons line ls ih =>
    rw [List.flatMap_cons, h line List.mem_cons_self,
      ih fun line hmem => h line (List.mem_cons_of_mem _ hmem)]
    rfl

/-- The lines of a text are cut into nothing but themselves. -/
theorem flatMap_visibleLines_lines (s : Text) :
    (lines s).flatMap visibleLines = visibleLines s := by
  have hline : ∀ line ∈ lines s, visibleLines line = [line].filter isVisible := by
    intro line hmem
    apply visibleLines_of_unbroken
    exact unbroken_of_mem_lines hmem
  rw [visibleLines]
  generalize lines s = ls at hline ⊢
  induction ls with
  | nil => rfl
  | cons line ls ih =>
    rw [List.flatMap_cons, hline line List.mem_cons_self,
      ih fun line hmem => hline line (List.mem_cons_of_mem _ hmem), ← List.filter_append]
    rfl

@[simp] theorem joinLines_singleton (line : Text) : joinLines [line] = line :=
  List.intercalate_singleton

theorem joinLines_cons (line : Text) {ls : List Text} (h : ls ≠ []) :
    joinLines (line :: ls) = line ++ '\n' :: joinLines ls := by
  obtain ⟨next, rest, rfl⟩ := List.exists_cons_of_ne_nil h
  rw [joinLines, List.intercalate_cons_cons, List.append_assoc]
  rfl

/-- Lines with line feeds between them lack the last one. -/
theorem joinLines_append_lineFeed {ls : List Text} (h : ls ≠ []) :
    joinLines ls ++ ['\n'] = fed ls := by
  induction ls with
  | nil => exact absurd rfl h
  | cons line ls ih =>
    by_cases hls : ls = []
    · rw [hls, joinLines_singleton, fed_cons, fed_nil]
    · rw [joinLines_cons line hls, fed_cons, ← ih hls, List.append_assoc, List.cons_append]

theorem visibleLines_joinLines (ls : List Text) :
    visibleLines (joinLines ls) = ls.flatMap visibleLines := by
  cases ls with
  | nil => rfl
  | cons line ls =>
    have hend := visibleLines_append_lineFeed (joinLines (line :: ls)) []
    rw [joinLines_append_lineFeed (List.cons_ne_nil _ _), visibleLines_fed] at hend
    rw [hend]
    exact (List.append_nil _).symm

end Text

/-! ## The body -/

namespace CompiledText

open Text (lines visibleLines fed isVisible)

variable {precision : Text} {version : Option Text}

/-- There is something to see in a version directive. -/
theorem isVisible_of_isVersion {line : Text} (h : isVersion line = true) : isVisible line = true := by
  cases hvisible : isVisible line with
  | true => rfl
  | false =>
    rw [Text.isVisible_eq_false_iff] at hvisible
    have hskip : Text.skipBlanks line = [] := List.dropWhile_eq_nil_iff.2 hvisible
    simp [isVersion, Directive.isOneOf, Directive.keyword, Directive.afterHash?, hskip] at h

theorem precisionLine_mem_withHeader (ls : List Text) :
    precisionLine precision ∈ withHeader precision version ls := by
  unfold withHeader
  split
  · exact List.mem_cons_of_mem _ List.mem_cons_self
  · split
    · exact List.mem_cons_of_mem _ List.mem_cons_self
    · exact List.mem_cons_self

/-- **The body of a compiled text:** the visible lines of its header and of what is below, each with
a line feed. -/
theorem body_eq (precision : Text) (version : Option Text) (composed : Text) :
    body precision version composed
      = fed ((withHeader precision version
          (lines (dropPrecision false composed))).flatMap visibleLines) := by
  have hjoin : (lines (injectPrecision precision version composed)).filter
        (fun line => !Text.isBlankText line)
      = (withHeader precision version
          (lines (dropPrecision false composed))).flatMap visibleLines :=
    Text.visibleLines_joinLines _
  rw [body, hjoin]
  apply Text.joinLines_append_lineFeed
  -- The precision statement is there in any case, and there is something to see in it.
  intro hnil
  have hprecision := List.flatMap_eq_nil_iff.1 hnil _
    (precisionLine_mem_withHeader (lines (dropPrecision false composed)))
  rw [Text.visibleLines_eq_nil_iff, Text.isVisible_eq_false_iff] at hprecision
  have hletter := hprecision 'p' List.mem_cons_self
  revert hletter
  decide

end CompiledText

end GlslCompose
