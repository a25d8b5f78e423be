/-
`Proofs/ReturnedAssembly.lean` -- from composed text to the body of a compiled text, with
either kind of line end.

The body of a compiled text is made of visible lines, and related texts have the same
ones. So what has to be shown is that the texts are still related when it comes to that:
behind the defines that are put in front (`insert_returned`), without the marks of tools
(`unmarked_returned`) and without their precision statements (`dropPrecision_returned`).

The defines go behind some number of lines, so there the texts have to be paired. And a mark
ends in a line feed with nothing in front of it: with a carriage return there it is none, so
it has to be known that both texts have as many `marks`.
-/
import Mathlib.Data.List.Infix
import GlslCompose.Proofs.DroppedText
import GlslCompose.Proofs.ReturnedDirective

set_option autoImplicit false

namespace GlslCompose

open Text (Returned Paired)

variable {s t : Text}

/-! ## The prologue -/

namespace Prologue

theorem isHeader_returned (h : Returned s t) : isHeader t = isHeader s := by
  rw [isHeader, isHeader, Directive.isOneOf, Directive.isOneOf, h.keyword_eq]

variable {ls ls' : List Text}

theorem headerLength_returned (h : List.Forall₂ Returned ls ls') : headerLength ls' = headerLength ls := by
  induction h with
  | nil => rfl
  | cons hline _ ih =>
    rw [headerLength, headerLength, isHeader_returned hline, hline.isBlankText_eq, ih]

theorem flatten_returned (h : List.Forall₂ Returned ls ls') : Returned ls.flatten ls'.flatten := by
  induction h with
  | nil => exact .nil
  | cons hline _ ih =>
    rw [List.flatten_cons, List.flatten_cons]
    exact hline.append ih

/-- **The defines go to the same place** in texts with the same lines. -/
theorem insert_returned (h : Paired s t) (prologue : Text) :
    Returned (insert prologue s) (insert prologue t) := by
  have hlines := h.lineParts
  unfold insert
  dsimp only
  rw [headerLength_returned hlines]
  have hfront := flatten_returned (List.forall₂_take (headerLength (Text.lineParts s)) hlines)
  have hbehind := flatten_returned (List.forall₂_drop (headerLength (Text.lineParts s)) hlines)
  exact (hfront.append (.refl prologue)).append hbehind

end Prologue

/-! ## The marks of tools -/

namespace Composer

theorem startsWith_toolMarker_iff : Text.startsWith toolMarker s = true ↔ ∃ rest, s = toolMarker ++ rest := by
  rw [Text.startsWith, Option.isSome_iff_exists]
  simp only [Text.after?_eq_some_iff]

/-- The number of marks in a text. -/
def marks (s : Text) : Nat := s.tails.countP (Text.startsWith toolMarker)

theorem marks_cons (c : Char) (s : Text) : marks (c :: s)
    = marks s + if Text.startsWith toolMarker (c :: s) = true then 1 else 0 := by
  rw [marks, List.tails_cons, List.countP_cons]
  rfl

/-- A mark starts with the one `#` in it. -/
theorem marks_append_of_notMem {front : Text} (h : '#' ∉ front) (s : Text) :
    marks (front ++ s) = marks s := by
  induction front with
  | nil => rfl
  | cons c front ih =>
    rw [List.mem_cons, not_or] at h
    have hstarts : Text.startsWith toolMarker (c :: (front ++ s)) = false := by
      rw [Text.startsWith, show toolMarker = '#' :: String.toList "define GLSLIFY 1\n" from rfl,
        Text.after?, if_neg h.1]
      rfl
    rw [List.cons_append, marks_cons, ih h.2, hstarts]
    rfl

theorem marks_feed (s : Text) : marks ('\n' :: s) = marks s := by
  rw [← List.singleton_append, marks_append_of_notMem (by decide)]

theorem marks_return (s : Text) : marks ('\r' :: '\n' :: s) = marks s := by
  rw [← List.singleton_append, marks_append_of_notMem (by decide), marks_feed]

theorem marks_mark (s : Text) : marks (toolMarker ++ s) = marks s + 1 := by
  have hsplit : toolMarker ++ s = '#' :: (String.toList "define GLSLIFY 1\n" ++ s) := rfl
  have hstarts : Text.startsWith toolMarker (toolMarker ++ s) = true := by
    rw [startsWith_toolMarker_iff]
    exact ⟨s, rfl⟩
  rw [hsplit] at hstarts ⊢
  rw [marks_cons, hstarts, marks_append_of_notMem (by decide)]
  rfl

theorem startsWith_toolMarker_returned (h : Returned s t) (hs : Text.startsWith toolMarker s = false) :
    Text.startsWith toolMarker t = false := by
  rw [Bool.eq_false_iff, ne_eq, startsWith_toolMarker_iff]
  rintro ⟨rest', rfl⟩
  obtain ⟨rest, rfl, -⟩ := h.exists_of_append_right (by decide)
  rw [startsWith_toolMarker_iff.2 ⟨rest, rfl⟩] at hs
  cases hs

theorem marks_returned_le (h : Returned s t) : marks t ≤ marks s := by
  induction h with
  | nil => exact Nat.le_refl _
  | @same c s t h ih =>
    rw [marks_cons, marks_cons]
    cases hs : Text.startsWith toolMarker (c :: s) with
    | true =>
      rw [if_pos rfl]
      split <;> omega
    | false =>
      rw [startsWith_toolMarker_returned (.same h) hs]
      exact Nat.add_le_add_right ih _
  | @feed s t h ih =>
    rw [marks_feed, marks_return]
    exact ih

/-- **Related texts lose the same marks,** if the second has as many of them. -/
theorem unmarked_returned (h : Returned s t) (hmarks : marks t = marks s) :
    Returned (unmarked s) (unmarked t) := by
  -- The induction is on the length, for a mark is taken out as a whole.
  induction hn : s.length using Nat.strongRecOn generalizing s t with
  | ind n ih =>
    cases hstarts : Text.startsWith toolMarker s with
    | true =>
      obtain ⟨rest, rfl⟩ := startsWith_toolMarker_iff.1 hstarts
      rw [marks_mark] at hmarks
      rw [toolMarker_eq, List.append_assoc, List.singleton_append] at h
      obtain ⟨u, rfl, hfeed⟩ := h.exists_of_append_of_notMem (by decide)
      rcases hfeed.exists_of_cons with ⟨rest', rfl, hrest⟩ | ⟨-, rest', rfl, hrest⟩
      · have hsplit : String.toList "#define GLSLIFY 1" ++ '\n' :: rest' = toolMarker ++ rest' := by
          rw [toolMarker_eq, List.append_assoc]
          rfl
        rw [hsplit, marks_mark] at hmarks
        rw [hsplit, unmarked_mark, unmarked_mark]
        refine ih _ ?_ hrest (Nat.add_right_cancel hmarks) rfl
        rw [← hn, List.length_append]
        exact Nat.lt_add_of_pos_left (by decide)
      · -- The mark would be lost, and no other one can make up for it.
        have hsplit : String.toList "#define GLSLIFY 1" ++ '\r' :: '\n' :: rest'
            = '#' :: (String.toList "define GLSLIFY 1\r\n" ++ rest') := by
          rfl
        have hlost : Text.startsWith toolMarker ('#' :: (String.toList "define GLSLIFY 1\r\n" ++ rest'))
            = false := by
          rfl
        rw [hsplit, marks_cons, hlost, marks_append_of_notMem (by decide)] at hmarks
        have hle := marks_returned_le hrest
        exact absurd hmarks (by simp; omega)
    | false =>
      have hstarts' := startsWith_toolMarker_returned h hstarts
      cases h with
      | nil => exact .nil
      | @same c s t h =>
        rw [marks_cons, marks_cons, hstarts, hstarts'] at hmarks
        rw [unmarked_cons hstarts, unmarked_cons hstarts']
        refine .same (ih s.length ?_ h (Nat.add_right_cancel hmarks) rfl)
        rw [← hn]
        exact Nat.lt_succ_self _
      | @feed s t h =>
        rw [marks_feed, marks_return] at hmarks
        rw [unmarked_cons hstarts, unmarked_cons hstarts', unmarked_cons rfl]
        refine .feed (ih s.length ?_ h hmarks rfl)
        rw [← hn]
        exact Nat.lt_succ_self _

end Composer

/-! ## Precision statements -/

namespace CompiledText

theorem someBlanks?_returned (h : Returned s t) :
    Option.Rel Returned (someBlanks? s) (someBlanks? t) := by
  cases h with
  | nil => exact .none
  | same h =>
    rw [someBlanks?, someBlanks?]
    split
    · exact .some h.skipBlanks
    · exact .none
  | feed h => exact .some h.skipBlanks

theorem someOf?_returned {p : Char → Bool} (hfeed : p '\n' = false) (hreturn : p '\r' = false)
    (h : Returned s t) : Option.Rel Returned (someOf? p s) (someOf? p t) := by
  cases h with
  | nil => exact .none
  | same h =>
    rw [someOf?, someOf?]
    split
    · exact .some (h.dropWhile (by rw [hfeed, hreturn]))
    · exact .none
  | feed _ =>
    simp only [someOf?, hfeed, hreturn]
    exact .none

/-- Behind a statement a carriage return is dropped, the line feed is not. -/
theorem dropWhile_isStatementTail_returned (h : Returned s t) :
    Returned (s.dropWhile isStatementTail) (t.dropWhile isStatementTail) := by
  induction h with
  | nil => exact .nil
  | same h ih =>
    rw [List.dropWhile_cons, List.dropWhile_cons]
    split
    · exact ih
    · exact .same h
  | feed h _ =>
    rw [List.dropWhile_cons_of_neg (by decide), List.dropWhile_cons_of_pos (by decide),
      List.dropWhile_cons_of_neg (by decide)]
    exact .same h

theorem afterStatement?_returned (h : Returned s t) :
    Option.Rel Returned (afterStatement? s) (afterStatement? t) := by
  simp only [afterStatement?, bind]
  refine rel_bind (h.after? (by decide) (by decide)) fun _ _ h => ?_
  refine rel_bind (someBlanks?_returned h) fun _ _ h => ?_
  refine rel_bind (someOf?_returned (by decide) (by decide) h) fun _ _ h => ?_
  refine rel_bind (someBlanks?_returned h) fun _ _ h => ?_
  refine rel_bind (someOf?_returned (by decide) (by decide) h) fun _ _ h => ?_
  refine rel_bind (h.skipBlanks.after? (by decide) (by decide)) fun _ _ h => ?_
  exact .some (dropWhile_isStatementTail_returned h)

theorem afterPrecision?_returned (h : Returned s t) (inWord : Bool) :
    Option.Rel Returned (afterPrecision? inWord s) (afterPrecision? inWord t) := by
  have hdrop := h.dropWhile (p := Directive.isTrailing) (by decide)
  have hstatement := afterStatement?_returned h
  have hblanks := afterStatement?_returned hdrop
  cases h with
  | nil => exact .none
  | same _ =>
    rw [afterPrecision?, afterPrecision?]
    split
    · exact hblanks
    · split
      · exact .none
      · exact hstatement
  | feed _ =>
    -- Neither a line feed nor a carriage return is a blank that is taken out with the statement.
    rw [afterPrecision?, afterPrecision?, show Directive.isTrailing '\n' = false from rfl,
      show Directive.isTrailing '\r' = false from rfl]
    cases inWord with
    | true => exact .none
    | false => exact hstatement

theorem dropPrecision_of_some {inWord : Bool} {rest : Text} (h : afterPrecision? inWord s = some rest) :
    dropPrecision inWord s = dropPrecision false rest := by
  rw [dropPrecision]
  split
  · rename_i hsome
    rw [h] at hsome
    rw [Option.some.inj hsome]
  · rename_i hnone
    rw [h] at hnone
    cases hnone

theorem dropPrecision_of_none {inWord : Bool} {c : Char} (h : afterPrecision? inWord (c :: s) = none) :
    dropPrecision inWord (c :: s) = c :: dropPrecision (Text.isWord c) s := by
  rw [dropPrecision]
  split
  · rename_i hsome
    rw [h] at hsome
    cases hsome
  · rfl

/-- **Related texts lose the same precision statements.** -/
theorem dropPrecision_returned (h : Returned s t) (inWord : Bool) :
    Returned (dropPrecision inWord s) (dropPrecision inWord t) := by
  induction hn : s.length using Nat.strongRecOn generalizing s t inWord with
  | ind n ih =>
    rcases rel_cases (afterPrecision?_returned h inWord) with ⟨hs, ht⟩ | ⟨rest, rest', hs, ht, hrest⟩
    · cases h with
      | nil => exact .refl _
      | @same c s t h =>
        rw [dropPrecision_of_none hs, dropPrecision_of_none ht]
        exact .same (ih s.length (by rw [← hn]; exact Nat.lt_succ_self _) h _ rfl)
      | @feed s t h =>
        -- No statement starts at a line feed.
        have hfeed : afterPrecision? (Text.isWord '\r') ('\n' :: t) = none := rfl
        rw [dropPrecision_of_none hs, dropPrecision_of_none ht, dropPrecision_of_none hfeed]
        exact .feed (ih s.length (by rw [← hn]; exact Nat.lt_succ_self _) h _ rfl)
    · rw [dropPrecision_of_some hs, dropPrecision_of_some ht]
      exact ih rest.length (hn ▸ length_afterPrecision?_lt hs) hrest false rfl

/-! ## The body -/

open Text (lines visibleLines isVisible)

/-- Lines without anything in them make no difference to the version. -/
theorem cutVersion?_filter (ls : List Text) : cutVersion? (ls.filter isVisible)
    = (cutVersion? ls).map fun (found, rest) => (found, rest.filter isVisible) := by
  induction ls with
  | nil => rfl
  | cons line ls ih =>
    by_cases hversion : isVersion line = true
    · rw [List.filter_cons_of_pos (isVisible_of_isVersion hversion), cutVersion?, cutVersion?,
        if_pos hversion, if_pos hversion]
      rfl
    · cases hvisible : isVisible line with
      | true =>
        have hblank : Text.isBlankText line = false := by simpa [isVisible] using hvisible
        rw [List.filter_cons_of_pos hvisible, cutVersion?, cutVersion?, if_neg hversion,
          if_neg hversion, hblank]
        rfl
      | false =>
        have hblank : Text.isBlankText line = true := by simpa [isVisible] using hvisible
        rw [List.filter_cons_of_neg (by simp [hvisible]), cutVersion?, if_neg hversion, if_pos hblank,
          ih, Option.map_map]
        congr 1
        funext found
        exact Prod.ext rfl (List.filter_cons_of_neg (by simp [hvisible])).symm

/-- They make none to the visible lines either. -/
theorem flatMap_visibleLines_filter (ls : List Text) :
    (ls.filter isVisible).flatMap visibleLines = ls.flatMap visibleLines := by
  induction ls with
  | nil => rfl
  | cons line ls ih =>
    cases hvisible : isVisible line with
    | true => rw [List.filter_cons_of_pos hvisible, List.flatMap_cons, List.flatMap_cons, ih]
    | false =>
      rw [List.filter_cons_of_neg (by simp [hvisible]), List.flatMap_cons, ih,
        Text.visibleLines_eq_nil_iff.2 hvisible]
      rfl

/-- What stands below the header depends on the visible lines alone. -/
theorem flatMap_withHeader (precision : Text) (version : Option Text) (ls : List Text) :
    (withHeader precision version (ls.filter isVisible)).flatMap visibleLines
      = (withHeader precision version ls).flatMap visibleLines := by
  unfold withHeader
  rw [cutVersion?_filter]
  cases cutVersion? ls with
  | none =>
    cases version with
    | none => simp only [Option.map_none, List.flatMap_cons, flatMap_visibleLines_filter]
    | some version => simp only [Option.map_none, List.flatMap_cons, flatMap_visibleLines_filter]
  | some found =>
    obtain ⟨found, rest⟩ := found
    simp only [Option.map_some, List.flatMap_cons, flatMap_visibleLines_filter]

/-- **Related texts have the same body.** -/
theorem body_returned (h : Returned s t) (precision : Text) (version : Option Text) :
    body precision version t = body precision version s := by
  have hvisible := (dropPrecision_returned h false).visibleLines_eq
  unfold visibleLines at hvisible
  rw [body_eq, body_eq, ← flatMap_withHeader, hvisible, flatMap_withHeader]

end CompiledText

end GlslCompose
