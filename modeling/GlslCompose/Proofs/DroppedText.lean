/-
`Proofs/DroppedText.lean` -- what is taken out of a walked text before its lines are put
together: the marks of tools, and the precision statements.

Both are taken out wherever they are found, and what stands behind them closes up. Closing
up is what makes an include: of `##define GLSLIFY 1` and `include <a>` on the next line the
mark leaves `#include <a>`, and `precision mediump float; #include <a>` leaves an include at
the start of its line. So the statements here ask for what a mark and a statement usually
are: a mark is a line of its own (`MarksStartLines`), and behind a statement a line ends.
Then the text has no include that it did not have, and characters that came to stand side
by side have a line feed among them.
-/
import GlslCompose.Composer
import GlslCompose.CompiledText
import GlslCompose.Proofs.IncludePlaces

set_option autoImplicit false

namespace GlslCompose

namespace Scan

/-! ## The keyword, one character at a time -/

theorem asksToInclude_cons_of_isGap {c : Char} (hc : isGap c = true) (s : Text) :
    asksToInclude (c :: s) = asksToInclude s := by
  rw [asksToInclude, List.dropWhile_cons, if_pos hc, ← asksToInclude]

theorem asksToInclude_cons_of_not_isGap {c : Char} (hc : ¬ isGap c = true) {s t : Text}
    (h : Text.isWord c = true → Text.word t = Text.word s) :
    asksToInclude (c :: t) = asksToInclude (c :: s) := by
  rw [asksToInclude, asksToInclude, List.dropWhile_cons, List.dropWhile_cons, if_neg hc, if_neg hc,
    Text.word, Text.word, List.takeWhile_cons, List.takeWhile_cons]
  split
  · rename_i hword
    rw [show t.takeWhile Text.isWord = s.takeWhile Text.isWord from h hword]
  · rfl

theorem asksToInclude_of_endsLine {s : Text} (h : EndsLine s) : asksToInclude s = false := by
  have hnone := asksToInclude_append_of_endsLine (s := []) h
  rw [List.nil_append] at hnone
  rw [hnone]
  decide

theorem word_of_endsLine {s : Text} (h : EndsLine s) : Text.word s = [] := by
  rcases h.cases with rfl | ⟨t, rfl⟩
  · rfl
  · rw [Text.word, List.takeWhile_cons, if_neg (by decide)]

/-- A character in front of a text adds no include, if it asks for none that it did not ask for. -/
theorem HasInclude.cons {place : Place} {c : Char} {s t : Text} (h : HasInclude place (c :: t))
    (hasks : c = '#' → asksToInclude t = true → asksToInclude s = true)
    (hbehind : HasInclude (place.next c) t → HasInclude (place.next c) s) :
    HasInclude place (c :: s) := by
  cases h with
  | here hkeyword => exact .here (hasks rfl hkeyword)
  | later hlater => exact .later (hbehind hlater)

end Scan

open Scan (Place HasInclude EndsLine asksToInclude)

/-! ## The marks of tools -/

namespace Text

/-- The text that is still to be passed over of an occurrence. -/
theorem replaceFrom_skip (old new : Text) (front s : Text) :
    replaceFrom old new front.length (front ++ s) = replaceFrom old new 0 s := by
  induction front with
  | nil => rfl
  | cons c front ih => exact ih

end Text

namespace Composer

/-- A text without the marks of tools. -/
def unmarked (s : Text) : Text := Text.replaceAll toolMarker [] s

/-- **How a text loses its marks,** from left to right. -/
inductive Unmarks : Text → Text → Prop
  | nil : Unmarks [] []
  | mark {s t : Text} : Unmarks s t → Unmarks (toolMarker ++ s) t
  | keep {c : Char} {s t : Text} : Unmarks s t → Unmarks (c :: s) (c :: t)

/-- A mark is a line feed behind other characters. -/
theorem toolMarker_eq : toolMarker = String.toList "#define GLSLIFY 1" ++ ['\n'] := by decide

theorem unmarked_mark (s : Text) : unmarked (toolMarker ++ s) = unmarked s := by
  obtain ⟨c, front, hmark⟩ : ∃ c front, toolMarker = c :: front := ⟨_, _, rfl⟩
  have hstarts : Text.startsWith toolMarker (toolMarker ++ s) = true := by
    rw [Text.startsWith, Text.after?_eq_some_iff.2 rfl]
    rfl
  have hskip : toolMarker.length - 1 = front.length := by
    rw [hmark]
    rfl
  have hunmarked : ∀ s, unmarked s = Text.replaceFrom toolMarker [] 0 s := fun _ => rfl
  rw [hmark, List.cons_append, ← hmark] at hstarts
  rw [hunmarked, hunmarked]
  conv_lhs => rw [show toolMarker ++ s = c :: (front ++ s) by rw [hmark]; rfl]
  rw [Text.replaceFrom, if_pos hstarts, hskip, Text.replaceFrom_skip, List.nil_append]

theorem unmarked_cons {c : Char} {s : Text} (h : Text.startsWith toolMarker (c :: s) = false) :
    unmarked (c :: s) = c :: unmarked s := by
  show Text.replaceFrom toolMarker [] 0 (c :: s) = _
  rw [Text.replaceFrom, h]
  rfl

theorem unmarks_unmarked (s : Text) : Unmarks s (unmarked s) := by
  -- The induction is on the length, for a mark is taken out as a whole.
  induction hn : s.length using Nat.strongRecOn generalizing s with
  | ind n ih =>
    cases s with
    | nil => exact .nil
    | cons c s =>
      cases hstarts : Text.startsWith toolMarker (c :: s) with
      | true =>
        obtain ⟨rest, hrest⟩ := Option.isSome_iff_exists.1 hstarts
        rw [Text.after?_eq_some_iff] at hrest
        have hlength : rest.length < n := by
          rw [← hn, hrest, List.length_append]
          exact Nat.lt_add_of_pos_left (by decide)
        rw [hrest, unmarked_mark]
        exact .mark (ih _ hlength rest rfl)
      | false =>
        rw [unmarked_cons hstarts]
        exact .keep (ih s.length (by rw [← hn, List.length_cons]; omega) s rfl)

theorem Unmarks.sublist {s t : Text} (h : Unmarks s t) : t.Sublist s := by
  induction h with
  | nil => exact List.Sublist.refl _
  | mark _ ih => exact ih.trans (List.sublist_append_right _ _)
  | keep _ ih => exact ih.cons_cons _

/-- **Each mark of a tool starts a line.** `atStart` tells whether the text stands where a line
starts. -/
def MarksStartLines : Bool → Text → Prop
  | _, [] => True
  | atStart, c :: s => (Text.startsWith toolMarker (c :: s) = true → atStart = true) ∧
      MarksStartLines (c == '\n') s

instance decidableMarksStartLines : (atStart : Bool) → (s : Text) →
    Decidable (MarksStartLines atStart s)
  | _, [] => inferInstanceAs (Decidable True)
  | atStart, c :: s =>
    have := decidableMarksStartLines (c == '\n') s
    inferInstanceAs (Decidable ((Text.startsWith toolMarker (c :: s) = true → atStart = true) ∧
      MarksStartLines (c == '\n') s))

theorem MarksStartLines.behind_lineFeed {atStart : Bool} {front s : Text}
    (h : MarksStartLines atStart (front ++ '\n' :: s)) : MarksStartLines true s := by
  induction front generalizing atStart with
  | nil => exact h.2
  | cons c front ih => exact ih h.2

/-- Where a mark starts a line, the text behind it does. -/
theorem MarksStartLines.mark {atStart : Bool} {s : Text}
    (h : MarksStartLines atStart (toolMarker ++ s)) : atStart = true ∧ MarksStartLines true s := by
  have hstarts : Text.startsWith toolMarker (toolMarker ++ s) = true := by
    rw [Text.startsWith, Text.after?_eq_some_iff.2 rfl]
    rfl
  refine ⟨?_, ?_⟩
  · obtain ⟨c, t, hmark⟩ : ∃ c t, toolMarker ++ s = c :: t := ⟨_, _, rfl⟩
    rw [hmark] at h hstarts
    exact h.1 hstarts
  · rw [toolMarker_eq, List.append_assoc, List.singleton_append] at h
    exact h.behind_lineFeed

theorem Unmarks.word_eq {s t : Text} (h : Unmarks s t) (hmarks : MarksStartLines false s) :
    Text.word t = Text.word s := by
  induction h with
  | nil => rfl
  | mark _ _ => cases hmarks.mark.1
  | @keep c s t _ ih =>
    rw [Text.word, Text.word, List.takeWhile_cons, List.takeWhile_cons]
    split
    · rename_i hword
      have hfeed : (c == '\n') = false := by
        rw [beq_eq_false_iff_ne]
        rintro rfl
        revert hword
        decide
      rw [show t.takeWhile Text.isWord = s.takeWhile Text.isWord from ih (hfeed ▸ hmarks.2)]
    · rfl

/-- No keyword comes into being where a mark is taken out of a line of its own. -/
theorem Unmarks.asksToInclude {s t : Text} (h : Unmarks s t) (hmarks : MarksStartLines false s)
    (hasks : asksToInclude t = true) : Scan.asksToInclude s = true := by
  induction h with
  | nil => exact hasks
  | mark _ _ => cases hmarks.mark.1
  | @keep c s t hrest ih =>
    -- Neither in the gap nor in the keyword is there a line feed, behind which a mark could stand.
    by_cases hgap : Scan.isGap c = true
    · have hfeed : (c == '\n') = false := by
        rw [beq_eq_false_iff_ne]
        rintro rfl
        revert hgap
        decide
      rw [Scan.asksToInclude_cons_of_isGap hgap] at hasks ⊢
      exact ih (hfeed ▸ hmarks.2) hasks
    · rw [← Scan.asksToInclude_cons_of_not_isGap hgap (t := t)]
      · exact hasks
      · intro hword
        have hfeed : (c == '\n') = false := by
          rw [beq_eq_false_iff_ne]
          rintro rfl
          revert hword
          decide
        exact hrest.word_eq (hfeed ▸ hmarks.2)

/-- **A text without the marks that start its lines has no include that it did not have.** -/
theorem Unmarks.hasInclude {s t : Text} (h : Unmarks s t) {atStart : Bool}
    (hmarks : MarksStartLines atStart s) {place : Place}
    (hplace : atStart = true → place.Within .start) (hinclude : HasInclude place t) :
    HasInclude place s := by
  induction h generalizing atStart place with
  | nil => exact hinclude
  | @mark s t _ ih =>
    obtain ⟨hstart, hbehind⟩ := hmarks.mark
    have hwithin := hplace hstart
    -- Behind the mark a line starts, whether the mark was in a directive or not.
    have hrun : place.run toolMarker = .start := by
      rcases hwithin with rfl | ⟨⟨escape, rfl⟩, -⟩
      · decide
      · cases escape <;> decide
    apply HasInclude.append
    rw [hrun]
    exact ih hbehind (fun _ => .refl _) (hinclude.mono hwithin)
  | @keep c s t hrest ih =>
    refine hinclude.cons (fun hhash hasks => ?_) (ih hmarks.2 fun hfeed => ?_)
    · subst hhash
      exact hrest.asksToInclude hmarks.2 hasks
    · rw [eq_of_beq hfeed]
      rcases place.next_lineFeed with hnext | ⟨hnext, -⟩
      · rw [hnext]
        exact .refl _
      · rw [hnext]
        exact Place.within_start _

/-- What stands side by side in a text without the marks that start its lines stood side by side in
it: a line feed stands before each mark and at its end. -/
theorem Unmarks.isChain {s t : Text} (h : Unmarks s t) {related : Char → Char → Prop} {atStart : Bool}
    (hmarks : MarksStartLines atStart s) {c : Char} (hc : atStart = true → c = '\n')
    (hchain : List.IsChain related (c :: s)) : List.IsChain related (c :: t) := by
  induction h generalizing atStart c with
  | nil => exact hchain
  | @mark s t _ ih =>
    obtain ⟨hstart, hbehind⟩ := hmarks.mark
    have hsplit : c :: (toolMarker ++ s)
        = (c :: String.toList "#define GLSLIFY 1") ++ '\n' :: s := by
      rw [toolMarker_eq, List.append_assoc, List.singleton_append, List.cons_append]
    rw [hsplit] at hchain
    rw [hc hstart]
    exact ih hbehind (fun _ => rfl) hchain.right_of_append
  | @keep d s t _ ih =>
    rw [List.isChain_cons_cons] at hchain
    exact List.isChain_cons_cons.2 ⟨hchain.1, ih hmarks.2 (fun hd => eq_of_beq hd) hchain.2⟩

end Composer

/-! ## Precision statements -/

namespace CompiledText

/-- What stands behind each precision statement that is dropped. -/
def behindStatements (inWord : Bool) (s : Text) : List Text :=
  match h : afterPrecision? inWord s with
  | some rest =>
    have := length_afterPrecision?_lt h
    rest :: behindStatements false rest
  | none =>
    match s with
    | [] => []
    | c :: s => behindStatements (Text.isWord c) s
  termination_by s.length

/-- **How a text loses its precision statements,** if behind each of them a line ends. -/
inductive Drops : Bool → Text → Text → Prop
  | nil {inWord : Bool} : Drops inWord [] []
  | statement {inWord : Bool} {s rest t : Text} : afterPrecision? inWord s = some rest →
      EndsLine rest → Drops false rest t → Drops inWord s t
  | keep {inWord : Bool} {c : Char} {s t : Text} : Drops (Text.isWord c) s t →
      Drops inWord (c :: s) (c :: t)

theorem drops_dropPrecision {inWord : Bool} {s : Text}
    (h : ∀ rest ∈ behindStatements inWord s, EndsLine rest) :
    Drops inWord s (dropPrecision inWord s) := by
  fun_induction dropPrecision inWord s with
  | case1 inWord s rest hsome _ ih =>
    have hbehind : behindStatements inWord s = rest :: behindStatements false rest := by
      rw [behindStatements]
      split
      · rename_i rest' hsome'
        rw [hsome] at hsome'
        rw [Option.some.inj hsome']
      · rename_i hnone
        rw [hsome] at hnone
        cases hnone
    rw [hbehind, List.forall_mem_cons] at h
    exact .statement hsome h.1 (ih h.2)
  | case2 inWord hnone => exact .nil
  | case3 inWord c s hnone ih =>
    have hbehind : behindStatements inWord (c :: s) = behindStatements (Text.isWord c) s := by
      rw [behindStatements]
      split
      · rename_i hsome
        rw [hnone] at hsome
        cases hsome
      · rfl
    rw [hbehind] at h
    exact .keep (ih h)

/-! ### What a statement is -/

theorem someBlanks?_isSuffix {s rest : Text} (h : someBlanks? s = some rest) : rest <:+ s := by
  unfold someBlanks? at h
  split at h
  · split at h
    · obtain rfl := Option.some.inj h
      exact (List.dropWhile_suffix _).trans (List.suffix_cons _ _)
    · cases h
  · cases h

theorem someOf?_isSuffix {p : Char → Bool} {s rest : Text} (h : someOf? p s = some rest) :
    rest <:+ s := by
  unfold someOf? at h
  split at h
  · split at h
    · obtain rfl := Option.some.inj h
      exact (List.dropWhile_suffix _).trans (List.suffix_cons _ _)
    · cases h
  · cases h

/-- **A precision statement** ends in a semicolon and blanks. -/
theorem exists_of_afterStatement? {s rest : Text} (h : afterStatement? s = some rest) :
    ∃ front tail, s = front ++ ';' :: tail ++ rest ∧ ∀ c ∈ tail, isStatementTail c = true := by
  simp only [afterStatement?, bind, Option.bind_eq_some_iff, pure, Option.some.injEq] at h
  obtain ⟨a, ha, b, hb, c, hc, d, hd, e, he, f, hf, rfl⟩ := h
  rw [Text.after?_eq_some_iff] at ha hf
  have hword : c <:+ s :=
    ((someOf?_isSuffix hc).trans (someBlanks?_isSuffix hb)).trans (ha ▸ List.suffix_append _ _)
  have hend : e <:+ c := (someOf?_isSuffix he).trans (someBlanks?_isSuffix hd)
  have hsemicolon : ';' :: f <:+ s := by
    have hskip : Text.skipBlanks e <:+ e := List.dropWhile_suffix _
    rw [hf] at hskip
    exact (hskip.trans hend).trans hword
  obtain ⟨front, rfl⟩ := hsemicolon
  refine ⟨front, f.takeWhile isStatementTail, ?_, Scan.all_takeWhile⟩
  rw [List.append_assoc, List.cons_append, List.takeWhile_append_dropWhile]

theorem exists_of_afterPrecision? {inWord : Bool} {s rest : Text}
    (h : afterPrecision? inWord s = some rest) :
    ∃ front tail, s = front ++ ';' :: tail ++ rest ∧ ∀ c ∈ tail, isStatementTail c = true := by
  unfold afterPrecision? at h
  split at h
  · rename_i c s
    split at h
    · obtain ⟨front, tail, hsplit, htail⟩ := exists_of_afterStatement? h
      have hblanks := List.takeWhile_append_dropWhile (p := Directive.isTrailing) (l := c :: s)
      refine ⟨(c :: s).takeWhile Directive.isTrailing ++ front, tail, ?_, htail⟩
      rw [List.append_assoc, List.append_assoc, ← List.append_assoc front, ← hsplit, hblanks]
    · split at h
      · cases h
      · exact exists_of_afterStatement? h
  · cases h

/-- **Behind a statement a line feed starts a line,** wherever the statement stands. -/
theorem next_run_of_afterPrecision? {inWord : Bool} {s rest : Text}
    (h : afterPrecision? inWord s = some rest) :
    ∃ statement, s = statement ++ rest ∧ ∀ place : Place, (place.run statement).next '\n' = .start := by
  obtain ⟨front, tail, hsplit, htail⟩ := exists_of_afterPrecision? h
  refine ⟨front ++ ';' :: tail, hsplit, fun place => ?_⟩
  -- Behind its semicolon a statement has blanks only, which lead nowhere else.
  have hstays : ∀ tail : Text, (∀ c ∈ tail, isStatementTail c = true) →
      Place.code.run tail = .code ∧ (Place.directive .no).run tail = .directive .no := by
    intro tail htail
    induction tail with
    | nil => exact ⟨rfl, rfl⟩
    | cons c tail ih =>
      have hc : isStatementTail c = true := htail c List.mem_cons_self
      have hrest := ih fun d hd => htail d (List.mem_cons_of_mem _ hd)
      simp only [isStatementTail, Bool.or_eq_true, beq_iff_eq] at hc
      rcases hc with (rfl | rfl) | rfl <;> exact hrest
  rw [Place.run_append, Place.run_cons]
  cases place.run front with
  | start => exact (congrArg (Place.next · '\n') (hstays tail htail).1)
  | code => exact (congrArg (Place.next · '\n') (hstays tail htail).1)
  | directive escape => exact (congrArg (Place.next · '\n') (hstays tail htail).2)

/-- Where a line ends, no statement starts. -/
theorem Drops.endsLine {inWord : Bool} {s t : Text} (h : Drops inWord s t) (hs : EndsLine s) :
    EndsLine t := by
  cases h with
  | nil => exact hs
  | statement hsome _ _ =>
    rcases hs.cases with rfl | ⟨u, rfl⟩
    · cases hsome
    · cases inWord <;> cases hsome
  | keep hrest =>
    rw [hs _ rfl]
    exact Scan.endsLine_lineFeed _

theorem Drops.sublist {inWord : Bool} {s t : Text} (h : Drops inWord s t) : t.Sublist s := by
  induction h with
  | nil => exact List.Sublist.refl _
  | statement hsome _ _ ih =>
    obtain ⟨statement, rfl, -⟩ := next_run_of_afterPrecision? hsome
    exact ih.trans (List.sublist_append_right _ _)
  | keep _ ih => exact ih.cons_cons _

/-- No statement continues a word. -/
theorem Drops.word_eq {s t : Text} (h : Drops true s t) : Text.word t = Text.word s := by
  suffices hall : ∀ inWord s t, Drops inWord s t → inWord = true → Text.word t = Text.word s from
    hall true s t h rfl
  intro inWord s t h
  induction h with
  | nil => exact fun _ => rfl
  | @statement inWord s rest t hsome hends hrest _ =>
    rintro rfl
    rw [Scan.word_of_endsLine (hrest.endsLine hends)]
    cases s with
    | nil => rfl
    | cons c s =>
      -- In a word a statement needs a blank in front of it.
      have hblank : Directive.isTrailing c = true := by
        by_cases hc : Directive.isTrailing c = true
        · exact hc
        · rw [afterPrecision?, if_neg hc, if_pos rfl] at hsome
          cases hsome
      have hword : Text.isWord c = false := by
        simp only [Directive.isTrailing, Bool.or_eq_true, beq_iff_eq] at hblank
        rcases hblank with rfl | rfl <;> decide
      rw [Text.word, List.takeWhile_cons, hword]
      rfl
  | @keep inWord c s t _ ih =>
    intro _
    rw [Text.word, Text.word, List.takeWhile_cons, List.takeWhile_cons]
    split
    · rename_i hword
      rw [show t.takeWhile Text.isWord = s.takeWhile Text.isWord from ih hword]
    · rfl

/-- No keyword comes into being where a statement is dropped at the end of a line. -/
theorem Drops.asksToInclude {inWord : Bool} {s t : Text} (h : Drops inWord s t)
    (hasks : asksToInclude t = true) : Scan.asksToInclude s = true := by
  induction h with
  | nil => exact hasks
  | statement _ hends hrest _ =>
    rw [Scan.asksToInclude_of_endsLine (hrest.endsLine hends)] at hasks
    cases hasks
  | @keep inWord c s t hrest ih =>
    by_cases hgap : Scan.isGap c = true
    · rw [Scan.asksToInclude_cons_of_isGap hgap] at hasks ⊢
      exact ih hasks
    · rw [← Scan.asksToInclude_cons_of_not_isGap hgap (t := t)]
      · exact hasks
      · intro hword
        rw [hword] at hrest
        exact hrest.word_eq

/-- **A text without precision statements at the ends of lines has no include that it did not
have.** -/
theorem Drops.hasInclude {inWord : Bool} {s t : Text} (h : Drops inWord s t) {place : Place}
    (hinclude : HasInclude place t) : HasInclude place s := by
  induction h generalizing place with
  | nil => exact hinclude
  | @statement inWord s rest t hsome hends _ ih =>
    obtain ⟨statement, rfl, hrun⟩ := next_run_of_afterPrecision? hsome
    have hrest := ih hinclude
    apply HasInclude.append
    rcases hends.cases with rfl | ⟨u, rfl⟩
    · exact absurd hrest (Scan.not_hasInclude_nil place)
    · rw [Scan.hasInclude_cons_iff (.inr (by decide))] at hrest ⊢
      rw [hrun]
      rcases place.next_lineFeed with hnext | ⟨hnext, -⟩
      · rw [hnext] at hrest
        exact hrest
      · rw [hnext] at hrest
        exact hrest.mono (Place.within_start _)
  | keep hrest ih => exact hinclude.cons (fun _ => hrest.asksToInclude) ih

/-- What stands side by side in what is left stood side by side before, or one of the two is a line
feed. -/
theorem Drops.isChain {inWord : Bool} {s t : Text} (h : Drops inWord s t)
    {related : Char → Char → Prop} (hfeed : ∀ c, related c '\n') {c : Char}
    (hchain : List.IsChain related (c :: s)) : List.IsChain related (c :: t) := by
  induction h generalizing c with
  | nil => exact hchain
  | @statement inWord s rest t hsome hends _ ih =>
    obtain ⟨statement, rfl, -⟩ := next_run_of_afterPrecision? hsome
    rw [← List.cons_append] at hchain
    refine ih (hchain.right_of_append.cons fun d hd => ?_)
    rw [hends d hd]
    exact hfeed c
  | @keep inWord d s t _ ih =>
    rw [List.isChain_cons_cons] at hchain
    exact List.isChain_cons_cons.2 ⟨hchain.1, ih hchain.2⟩

end CompiledText

end GlslCompose
