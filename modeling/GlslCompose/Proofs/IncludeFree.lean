/-
`Proofs/IncludeFree.lean` -- a compiled text has no include left in it, if its assembly
moves none to the start of a line.

The walk replaces every include, and a walked text has none, whatever was walked
(`mayFollow_ofSource`). Then the text is put together anew: the marks of tools and the
precision statements are taken out, the text is cut into lines at every break there is,
blank lines are dropped, the version directive moves to the top. Each of these steps can
put a `#` at the start of a line that stood behind something before, and nobody walks the
text again. A form feed suffices (`include_behind_form_feed`): for the scanner it is white
space within a line, for the assembly a line ends there.

`Orderly` says of a walked text what it takes for nothing of this to happen, step by step.
Each step then leaves the text without an include, because places only move further inside
directives: a dropped line may have ended one. The lines of the header and the marker with
the name are no part of the walked text, and the marker is the one comment of a compiled
text; so its tokens are those of the header, the marker, and those of the lines below.
-/
import GlslCompose.Proofs.CacheTransparency
import GlslCompose.Proofs.DroppedText
import GlslCompose.Proofs.LogicalLines
import GlslCompose.Proofs.WalkedText

set_option autoImplicit false

namespace GlslCompose

/-! ## Line feeds -/

namespace Text

/-- **A text whose lines end in line feeds,** with or without a carriage return in front of them. -/
structure FeedsOnly (s : Text) : Prop where
  breaks : ∀ c ∈ s, isLineBreak c = true → c = '\n' ∨ c = '\r'
  returns : List.IsChain (fun c d => c = '\r' → d = '\n') s

instance (s : Text) : Decidable (FeedsOnly s) :=
  have := List.decidableBAll (fun c => isLineBreak c = true → c = '\n' ∨ c = '\r') s
  decidable_of_iff ((∀ c ∈ s, isLineBreak c = true → c = '\n' ∨ c = '\r') ∧
      List.IsChain (fun c d => c = '\r' → d = '\n') s)
    ⟨fun h => ⟨h.1, h.2⟩, fun h => ⟨h.breaks, h.returns⟩⟩

theorem FeedsOnly.right {s t : Text} (h : FeedsOnly (s ++ t)) : FeedsOnly t :=
  ⟨fun c hc => h.breaks c (List.mem_append_right s hc), h.returns.right_of_append⟩

/-- A line without the break behind it. -/
def Unbroken (line : Text) : Prop := ∀ c ∈ line, isLineBreak c = false

instance (line : Text) : Decidable (Unbroken line) :=
  List.decidableBAll (fun c => isLineBreak c = false) line

theorem Unbroken.append {s t : Text} (hs : Unbroken s) (ht : Unbroken t) : Unbroken (s ++ t) :=
  List.forall_mem_append.2 ⟨hs, ht⟩

/-- **The lines of such a text,** with what is left behind the last line feed. -/
inductive Lined : Text → Prop
  | last {line ending : Text} : Unbroken line → ending = [] ∨ ending = ['\r'] → Lined (line ++ ending)
  | line {line ending rest : Text} : Unbroken line → ending = ['\n'] ∨ ending = ['\r', '\n'] →
      Lined rest → Lined (line ++ ending ++ rest)

theorem FeedsOnly.lined {s : Text} (h : FeedsOnly s) : Lined s := by
  -- The induction is on the length, for a step takes a whole line with its break.
  induction hn : s.length using Nat.strongRecOn generalizing s with
  | ind n ih =>
    let unbroken : Char → Bool := fun c => !isLineBreak c
    have hfront : Unbroken (s.takeWhile unbroken) := by
      intro c hc
      simpa [unbroken] using Scan.all_takeWhile c hc
    have hsplit := List.takeWhile_append_dropWhile (p := unbroken) (l := s)
    cases hbehind : s.dropWhile unbroken with
    | nil =>
      rw [hbehind] at hsplit
      rw [← hsplit]
      exact .last hfront (.inl rfl)
    | cons c rest =>
      have hc : isLineBreak c = true := by
        simpa [unbroken] using Scan.head?_dropWhile (p := unbroken) (s := s) c (by rw [hbehind]; rfl)
      rw [hbehind] at hsplit
      have hshorter : ∀ ending behind : Text, c :: rest = ending ++ behind → ending ≠ [] →
          behind.length < n := by
        intro ending behind heq hne
        rw [heq] at hsplit
        have hlength := congrArg List.length hsplit
        have hpositive := List.length_pos_iff.2 hne
        rw [List.length_append, List.length_append] at hlength
        omega
      rw [← hsplit] at h ⊢
      rcases h.breaks c (by simp) hc with rfl | rfl
      · have hrest : FeedsOnly rest := (h.right).right (s := ['\n'])
        have hlined := ih _ (hshorter ['\n'] rest rfl (by simp)) hrest rfl
        have hline := Lined.line hfront (.inl rfl) hlined
        rwa [List.append_assoc] at hline
      · -- A carriage return ends the text, or there is a line feed behind it.
        cases rest with
        | nil => exact .last hfront (.inr rfl)
        | cons d rest =>
          have hd : d = '\n' := (List.isChain_cons_cons.1 h.right.returns).1 rfl
          subst hd
          have hrest : FeedsOnly rest := (h.right).right (s := ['\r', '\n'])
          have hlined := ih _ (hshorter ['\r', '\n'] rest rfl (by simp)) hrest rfl
          have hline := Lined.line hfront (.inr rfl) hlined
          rwa [List.append_assoc] at hline

theorem visibleLines_append_feed {ending : Text} (h : ending = ['\n'] ∨ ending = ['\r', '\n'])
    (line rest : Text) : visibleLines (line ++ ending ++ rest)
      = visibleLines line ++ visibleLines rest := by
  have hreturn : isLineBreak '\r' = true := by decide
  have hnone : visibleLines ('\n' :: rest) = visibleLines rest := visibleLines_append_lineFeed [] rest
  rcases h with rfl | rfl
  · rw [List.append_assoc]
    exact visibleLines_append_lineFeed line rest
  · rw [List.append_assoc, ← hnone]
    exact visibleLines_append_break hreturn line ('\n' :: rest)

theorem Unbroken.notMem {line : Text} (h : Unbroken line) : '\n' ∉ line ∧ '\r' ∉ line := by
  constructor <;> intro hmem <;> exact absurd (h _ hmem) (by decide)

end Text

namespace Scan

open Text (fed visibleLines FeedsOnly Unbroken endsEscaped)

/-! ## The lines of a text -/

namespace Place

theorem Within.run {place other : Place} (h : Within place other) (s : Text) :
    Within (place.run s) (other.run s) := by
  induction s generalizing place other with
  | nil => exact h
  | cons c s ih => exact ih (h.next c)

/-- **A line feed ends a line** that does not end in a backslash. -/
theorem next_run_of_not_endsEscaped {line : Text} (hline : Unbroken line)
    (hends : endsEscaped line = false) {place : Place} (hplace : place = start ∨ place = directive .no) :
    (place.run line).next '\n' = start := by
  rcases List.eq_nil_or_concat line with rfl | ⟨front, c, rfl⟩
  · rcases hplace with rfl | rfl <;> rfl
  · rw [List.concat_eq_append] at hline hends ⊢
    have hc : c ≠ '\\' := by simpa [endsEscaped] using hends
    have hbreaks := hline.notMem
    rw [List.mem_append, List.mem_append, List.mem_singleton, List.mem_singleton, not_or, not_or]
      at hbreaks
    have hfeed : c ≠ '\n' := Ne.symm hbreaks.1.2
    have hreturn : c ≠ '\r' := Ne.symm hbreaks.2.2
    rw [run_append, run_cons, run_nil]
    cases place.run front with
    | start =>
      rw [next]
      split
      · rfl
      · split <;> rfl
    | code =>
      rw [next, if_neg hfeed]
      rfl
    | directive escape =>
      have hnext : (directive escape).next c = directive .no := by simp [next, hfeed, hreturn, hc]
      rw [hnext]
      rfl

/-- A carriage return in front of a line feed changes nothing. -/
theorem run_feed {line ending : Text} (hline : Unbroken line)
    (hending : ending = ['\n'] ∨ ending = ['\r', '\n']) {place : Place}
    (hplace : place = start ∨ place = directive .no) :
    (place.run line).run ending = (place.run line).next '\n' := by
  rcases hending with rfl | rfl
  · rfl
  -- A line has no carriage return in it that could stand right before this one.
  have hreturn : place.run line ≠ directive .backslashReturn := by
    rcases List.eq_nil_or_concat line with rfl | ⟨front, c, rfl⟩
    · rcases hplace with rfl | rfl <;> nofun
    · rw [List.concat_eq_append] at hline ⊢
      have hc : c ≠ '\r' := by
        have hmem := hline.notMem.2
        rw [List.mem_append, List.mem_singleton, not_or] at hmem
        exact Ne.symm hmem.2
      rw [run_append, run_cons, run_nil]
      generalize place.run front = before
      cases before <;> rw [next] <;> (repeat' split) <;> simp_all
  rw [run_cons, run_cons, run_nil]
  cases hrun : place.run line with
  | start => rfl
  | code => rfl
  | directive escape =>
    rw [hrun] at hreturn
    cases escape with
    | no => rfl
    | backslash => rfl
    | backslashReturn => exact absurd rfl hreturn

end Place

theorem asksToInclude_append_of_notWord {s t : Text} (h : asksToInclude s = true)
    (ht : ∀ c ∈ t.head?, Text.isWord c = false) : asksToInclude (s ++ t) = true := by
  obtain ⟨gap, behind, rfl, hgap, hbehind⟩ := exists_of_asksToInclude h
  rw [List.append_assoc, List.append_assoc]
  refine asksToInclude_append hgap ?_
  cases behind with
  | nil => exact ht
  | cons c behind => exact hbehind

/-- An include stays one in front of what continues no word. -/
theorem HasInclude.append_right {place : Place} {s t : Text} (h : HasInclude place s)
    (ht : ∀ c ∈ t.head?, Text.isWord c = false) : HasInclude place (s ++ t) := by
  induction h with
  | here hasks => exact .here (asksToInclude_append_of_notWord hasks ht)
  | later _ ih => exact .later ih

/-- An include is in front of a line feed, or behind it. -/
theorem HasInclude.append_lineFeed_cases {place : Place} {s t : Text}
    (h : HasInclude place (s ++ '\n' :: t)) :
    HasInclude place s ∨ HasInclude ((place.run s).next '\n') t := by
  induction s generalizing place with
  | nil => exact .inr ((hasInclude_cons_iff (.inr (by decide))).1 h)
  | cons c s ih =>
    cases h with
    | here hasks =>
      refine .inl (.here ?_)
      rwa [← asksToInclude_append_of_endsLine (endsLine_lineFeed t)]
    | later hlater =>
      rcases ih hlater with hfront | hbehind
      · exact .inl (.later hfront)
      · exact .inr hbehind

/-- A line that is blank does not end in a backslash. -/
theorem endsEscaped_of_not_isVisible {line : Text} (h : Text.isVisible line = false) :
    endsEscaped line = false := by
  rw [Text.isVisible_eq_false_iff] at h
  rw [endsEscaped, beq_eq_false_iff_ne]
  intro hlast
  exact absurd (h _ (List.mem_of_getLast? hlast)) (by decide)

theorem visibleLines_of_last {line ending : Text} (hline : Unbroken line)
    (hending : ending = [] ∨ ending = ['\r']) :
    visibleLines (line ++ ending) = [line].filter Text.isVisible := by
  rcases hending with rfl | rfl
  · rw [List.append_nil]
    exact Text.visibleLines_of_unbroken hline
  · have hreturn : Text.isLineBreak '\r' = true := by decide
    rw [Text.visibleLines_append_break hreturn, Text.visibleLines_of_unbroken hline]
    exact List.append_nil _

/-- The last line of a text, which no line feed ends. -/
theorem hasInclude_of_last_line {line ending : Text} (hline : Unbroken line)
    (hending : ending = [] ∨ ending = ['\r']) {place other : Place} (hother : other.Within place)
    (h : HasInclude other (fed (visibleLines (line ++ ending)))) : HasInclude place (line ++ ending) := by
  have hhead : ∀ c ∈ ending.head?, Text.isWord c = false := by
    rcases hending with rfl | rfl
    · nofun
    · rintro c ⟨⟩
      decide
  rw [visibleLines_of_last hline hending] at h
  cases hvisible : Text.isVisible line with
  | false =>
    rw [List.filter_cons_of_neg (by rw [hvisible]; exact Bool.false_ne_true)] at h
    exact absurd h (not_hasInclude_nil other)
  | true =>
    rw [List.filter_cons_of_pos hvisible, List.filter_nil, Text.fed_cons] at h
    rcases h.append_lineFeed_cases with hfront | hbehind
    · exact (hfront.mono hother).append_right hhead
    · exact absurd hbehind (not_hasInclude_nil _)

/-- **The visible lines of a text have no include that the text does not have.** Where a blank line
ended a directive and is gone, the text behind comes to stand further inside. -/
theorem hasInclude_of_visibleLines {s : Text} (hfeeds : FeedsOnly s) {place other : Place}
    (hplace : place = .start ∨ place = .directive .no) (hother : other.Within place)
    (h : HasInclude other (fed (visibleLines s))) : HasInclude place s := by
  induction hfeeds.lined generalizing place other with
  | last hline hending => exact hasInclude_of_last_line hline hending hother h
  | @line line ending rest hline hending _ ih =>
    have hrest := hfeeds.right
    have hhead : ∀ c ∈ (ending ++ rest).head?, Text.isWord c = false := by
      rcases hending with rfl | rfl <;> rintro c ⟨⟩ <;> decide
    have hrun := Place.run_feed hline hending hplace
    have hbehind : ∀ {inner : Place}, inner.Within ((place.run line).next '\n') →
        HasInclude inner (fed (visibleLines rest)) → HasInclude place (line ++ ending ++ rest) := by
      intro inner hinner hfound
      apply HasInclude.append
      rw [Place.run_append, hrun]
      refine ih hrest ?_ hinner hfound
      rcases (place.run line).next_lineFeed with hnext | ⟨hnext, -⟩
      · exact .inl hnext
      · exact .inr hnext
    rw [Text.visibleLines_append_feed hending, Text.fed_append] at h
    cases hvisible : Text.isVisible line with
    | false =>
      have hnext := Place.next_run_of_not_endsEscaped hline (endsEscaped_of_not_isVisible hvisible)
        hplace
      rw [Text.visibleLines_eq_nil_iff.2 hvisible] at h
      refine hbehind ?_ h
      -- Behind the blank line the text stands where a line starts.
      rw [hnext]
      rcases hother with rfl | ⟨⟨escape, rfl⟩, -⟩
      · rcases hplace with rfl | rfl
        · exact .refl _
        · exact Place.within_start _
      · exact Place.within_start _
    | true =>
      rw [Text.visibleLines_of_unbroken hline, List.filter_cons_of_pos hvisible, List.filter_nil,
        Text.fed_cons, Text.fed_nil, List.append_assoc, List.cons_append, List.nil_append] at h
      rcases h.append_lineFeed_cases with hfront | hrest
      · rw [List.append_assoc]
        exact (hfront.mono hother).append_right hhead
      · exact hbehind ((hother.run line).next '\n') hrest

/-- The lines of a text without comments open none. -/
theorem noComment_of_mem_visibleLines {s line : Text} (hfeeds : FeedsOnly s) (h : NoComment s)
    (hmem : line ∈ visibleLines s) : NoComment line := by
  have hself : ∀ other : Text, Unbroken other → NoComment other → line ∈ visibleLines other →
      NoComment line := by
    intro other hother hbare hmem
    rw [Text.visibleLines_of_unbroken hother] at hmem
    rw [List.mem_singleton.1 (List.mem_of_mem_filter hmem)]
    exact hbare
  induction hfeeds.lined with
  | @last other ending hother hending =>
    refine hself other hother h.left ?_
    rwa [visibleLines_of_last hother hending, ← Text.visibleLines_of_unbroken hother] at hmem
  | @line other ending rest hother hending _ ih =>
    rw [Text.visibleLines_append_feed hending] at hmem
    rcases List.mem_append.1 hmem with hmem | hmem
    · exact hself other hother h.left.left hmem
    · exact ih hfeeds.right h.right hmem

theorem noComment_fed {ls : List Text} (h : ∀ line ∈ ls, NoComment line) : NoComment (fed ls) := by
  induction ls with
  | nil => exact List.isChain_nil
  | cons line ls ih =>
    rw [List.forall_mem_cons] at h
    rw [Text.fed_cons]
    refine h.1.append ((ih h.2).cons fun d _ hc => absurd hc (by decide)) fun _ => ?_
    exact (endsLine_lineFeed _).noOpening

/-! ## The tokens of a text with a marker -/

theorem not_isComment_of_mem {lineStart : Bool} {s : Text} (h : NoComment s) {lexeme : Lexeme}
    (hmem : lexeme ∈ lexemes lineStart s) : lexeme.1.isComment = false := by
  induction lineStart, s using scan_induction with
  | nil lineStart =>
    rw [lexemes_nil] at hmem
    exact absurd hmem List.not_mem_nil
  | cons lineStart kind data rest hstarts ih =>
    rw [lexemes_append hstarts] at hmem
    rcases List.mem_cons.1 hmem with rfl | hmem
    · cases hstarts with
      | directive _ _ _ => rfl
      | plain _ hreads => exact not_isComment_of_noComment hreads h
    · exact ih h.right hmem

/-- **A text without includes:** no directive in it has the keyword of one. -/
def IncludeFree (s : Text) : Prop :=
  ∀ token ∈ Token.ofText s 1, token.kind = .directive →
    Directive.keyword token.data ≠ String.toList "include"

instance (s : Text) : Decidable (IncludeFree s) :=
  inferInstanceAs (Decidable (∀ token ∈ Token.ofText s 1, token.kind = .directive →
    Directive.keyword token.data ≠ String.toList "include"))

theorem includeFree_of_lexemes {s : Text} (h : ∀ data, (TokenKind.directive, data) ∈ lexemes true s →
    Directive.keyword data ≠ String.toList "include") : IncludeFree s := by
  intro token hmem hkind
  apply h
  rw [← map_lexeme_tokensFrom 1, ← hkind]
  exact List.mem_map_of_mem hmem

theorem includeFree_of_not_hasInclude {s : Text} (hbare : NoComment s) (h : ¬ HasInclude .start s) :
    IncludeFree s :=
  includeFree_of_lexemes fun _ hmem hkeyword => h (hasInclude_of_mem_lexemes hbare hmem hkeyword)

/-- **A line comment between two texts** leaves them without includes, if they have none. -/
theorem includeFree_around_comment {front behind note : Text} (hfront : NoComment (front ++ ['\n']))
    (hquiet : ¬ HasInclude .start (front ++ ['\n'])) (hbehind : NoComment behind)
    (hquiet' : ¬ HasInclude .start behind) (hnote : '\n' ∉ note) :
    IncludeFree (front ++ '\n' :: ('/' :: '/' :: note ++ '\n' :: behind)) := by
  have hclosed : ∀ lexeme ∈ lexemes true (front ++ ['\n']), isOpen lexeme = false := by
    intro lexeme hmem
    have hcomment := not_isComment_of_mem hfront hmem
    rw [isOpen, Bool.and_eq_false_iff]
    refine .inl (decide_eq_false fun hkind => ?_)
    rw [hkind] at hcomment
    cases hcomment
  -- The lexemes are those in front, the comment, its line feed, and those behind.
  have hedge : Edge ('/' :: '/' :: note ++ '\n' :: behind) := rfl
  obtain ⟨lineStart, hsplit⟩ := lexemes_append_lineFeed hclosed hedge
  have hreads : Reads .lineComment ('/' :: '/' :: note) ('\n' :: behind) := by
    refine .lineComment (fun c hc => ?_) (by simp)
    rw [bne_iff_ne]
    rintro rfl
    exact hnote hc
  have hstarts : Starts lineStart .lineComment ('/' :: '/' :: note) ('\n' :: behind) :=
    .plain (fun _ => by simp [NoHash, isIndent]) hreads
  have hcomment := lexemes_append hstarts
  rw [lexemes_bareLineFeed] at hcomment
  apply includeFree_of_lexemes
  intro data hmem hkeyword
  rw [hsplit, hcomment] at hmem
  rcases List.mem_append.1 hmem with hmem | hmem
  · exact hquiet (hasInclude_of_mem_lexemes hfront hmem hkeyword)
  · rcases List.mem_cons.1 hmem with heq | hmem
    · cases heq
    · rcases List.mem_cons.1 hmem with heq | hmem
      · cases heq
      · exact hquiet' (hasInclude_of_mem_lexemes hbehind hmem hkeyword)

end Scan

/-! ## What is put together -/

namespace CompiledText

open Scan (HasInclude NoComment MayFollow Place)
open Text (lines visibleLines fed isVisible strip endsEscaped FeedsOnly Unbroken)

/-- The text whose lines are put together: without the marks of tools and the precision
statements. -/
def assembled (walked : Text) : Text := dropPrecision false (Composer.unmarked walked)

/-- **A walked text whose assembly moves nothing to the start of a line.** Its lines end in line
feeds, each mark of a tool starts one, behind each precision statement one ends, and its version
directive does not go on in the next one. -/
structure Orderly (walked : Text) : Prop where
  feeds : FeedsOnly walked
  marks : Composer.MarksStartLines true walked
  statements : ∀ rest ∈ behindStatements false (Composer.unmarked walked), Scan.EndsLine rest
  version : ∀ found rest, cutVersion? (lines (assembled walked)) = some (found, rest) →
    endsEscaped found = false

/-- **What is taken out of an orderly text** leaves it without includes, comments and other breaks. -/
theorem Orderly.assembled {walked : Text} (h : Orderly walked) (hwalked : MayFollow walked) :
    ¬ HasInclude .start (assembled walked) ∧ NoComment (assembled walked) ∧
      FeedsOnly (assembled walked) := by
  have hunmarks := Composer.unmarks_unmarked walked
  have hdrops := drops_dropPrecision h.statements
  have hkept : ∀ {related : Char → Char → Prop}, (∀ c, related '\n' c) → (∀ c, related c '\n') →
      List.IsChain related walked → List.IsChain related (CompiledText.assembled walked) := by
    intro related hfront hbehind hchain
    have hline : List.IsChain related ('\n' :: walked) := hchain.cons fun c _ => hfront c
    have hunmarked := hunmarks.isChain h.marks (fun _ => rfl) hline
    exact (hdrops.isChain hbehind hunmarked).tail
  refine ⟨fun hinclude => ?_, hkept ?_ ?_ hwalked.bare, fun c hc => ?_, hkept ?_ ?_ h.feeds.returns⟩
  · have hunmarked := hdrops.hasInclude hinclude
    exact hwalked.not_hasInclude .start
      (hunmarks.hasInclude h.marks (fun _ => .refl _) hunmarked)
  · exact fun c hc => absurd hc (by decide)
  · exact fun c _ => ⟨by decide, by decide⟩
  · have hsublist := hdrops.sublist.trans hunmarks.sublist
    exact h.feeds.breaks c (hsublist.subset hc)
  · exact fun c hc => absurd hc (by decide)
  · exact fun c _ => rfl

/-! ### The header -/

/-- **A line that may stand in the header:** it holds no break and opens no comment. -/
structure OneLine (line : Text) : Prop where
  unbroken : Unbroken line
  bare : NoComment line

instance (line : Text) : Decidable (OneLine line) :=
  have := List.decidableBAll (fun c => Text.isLineBreak c = false) line
  decidable_of_iff ((∀ c ∈ line, Text.isLineBreak c = false) ∧ NoComment line)
    ⟨fun h => ⟨h.1, h.2⟩, fun h => ⟨h.unbroken, h.bare⟩⟩

/-- White space around a line is not needed for it. -/
theorem OneLine.strip {line : Text} (h : OneLine line) : OneLine (strip line) := by
  have hprefix : Text.strip line <+: line.dropWhile Text.isBlank := Text.trimEnd_isPrefix _ _
  have hwithin : Text.strip line <:+: line :=
    hprefix.isInfix.trans (List.dropWhile_suffix _).isInfix
  exact ⟨fun c hc => h.unbroken c (hwithin.subset hc), h.bare.infix hwithin⟩

/-- Lines without includes can be put in front of a text. -/
theorem hasInclude_fed_append {ls : List Text} (h : ∀ line ∈ ls, ¬ HasInclude .start line) {t : Text}
    (hinclude : HasInclude .start (fed ls ++ t)) : HasInclude .start t := by
  induction ls with
  | nil => exact hinclude
  | cons line ls ih =>
    rw [List.forall_mem_cons] at h
    rw [Text.fed_cons, List.append_assoc, List.cons_append] at hinclude
    rcases hinclude.append_lineFeed_cases with hline | hrest
    · exact absurd hline h.1
    · apply ih h.2
      rcases (Place.start.run line).next_lineFeed with hnext | ⟨hnext, -⟩
      · rwa [hnext] at hrest
      · rw [hnext] at hrest
        exact hrest.mono (Place.within_start _)

/-- The precision statement is no directive. -/
theorem not_hasInclude_precisionLine {precision : Text} (h : OneLine (precisionLine precision)) :
    ¬ HasInclude .start (precisionLine precision) := by
  obtain ⟨t, ht⟩ : ∃ t, precisionLine precision = 'p' :: t := ⟨_, rfl⟩
  have hfeed := h.unbroken.notMem.1
  rw [ht] at hfeed ⊢
  have hcode := Scan.hasInclude_code_append_iff (fun hmem => hfeed (List.mem_cons_of_mem _ hmem)) []
  rw [List.append_nil] at hcode
  have hnext : Place.start.next 'p' = .code := by decide
  rw [Scan.hasInclude_cons_iff (.inr (by decide)), hnext, hcode]
  exact Scan.not_hasInclude_nil _

/-- A line with a directive whose keyword starts with another letter. -/
structure VersionLike (line : Text) : Prop where
  intro ::
  split : ∃ indent t, line = indent ++ '#' :: t ∧ (∀ c ∈ indent, Text.isBlank c = true) ∧
    (Text.skipBlanks t).head? = some 'v'

theorem versionLike_of_isVersion {line : Text} (h : isVersion line = true) : VersionLike line := by
  have hkeyword : Directive.keyword line = String.toList "version" := by
    rw [isVersion, Directive.isOneOf, List.contains_iff_mem] at h
    exact List.mem_singleton.1 h
  have hsplit := List.takeWhile_append_dropWhile (p := Text.isBlank) (l := line)
  rw [Directive.keyword, Directive.afterHash?] at hkeyword
  split at hkeyword
  · rename_i s hs
    split at hs
    · rename_i t ht
      obtain rfl := Option.some.inj hs
      -- Behind the hash stands the keyword, and that starts with no blank.
      rw [show line.dropWhile Text.isBlank = '#' :: t from ht] at hsplit
      refine ⟨_, t, hsplit.symm, Scan.all_takeWhile, ?_⟩
      cases hskip : Text.skipBlanks t with
      | nil =>
        rw [hskip] at hkeyword
        cases hkeyword
      | cons c u =>
        rw [hskip, Text.word, List.takeWhile_cons] at hkeyword
        split at hkeyword
        · rw [(List.cons.inj hkeyword).1]
          rfl
        · cases hkeyword
    · cases hs
  · cases hkeyword

theorem versionLike_versionLine (version : Text) : VersionLike (versionLine version) := by
  refine ⟨[], String.toList "version " ++ version, rfl, by simp, ?_⟩
  obtain ⟨t, ht⟩ : ∃ t, String.toList "version " ++ version = 'v' :: t := ⟨_, rfl⟩
  rw [ht, Text.skipBlanks, List.dropWhile_cons, if_neg (by decide)]
  rfl

/-- Without the white space around it, a directive starts with its `#`. -/
theorem strip_directive {indent : Text} (hindent : ∀ c ∈ indent, Text.isBlank c = true) (t : Text) :
    strip (indent ++ '#' :: t) = '#' :: Text.trimEnd Text.isBlank t := by
  have hhash : Text.isBlank '#' = false := by decide
  rw [Text.strip, Text.trim,
    (Scan.takeWhile_eq_of_all hindent (Scan.head?_cons_eq_false hhash t)).2]
  exact Text.trimEnd_append_cons hhash [] t

/-- **A version directive without the white space around it** is a visible line, and no include. -/
theorem VersionLike.strip {line : Text} (h : VersionLike line) (hline : OneLine line) :
    visibleLines (strip line) = [strip line] ∧ ¬ HasInclude .start (strip line) := by
  obtain ⟨indent, t, rfl, hindent, hhead⟩ := h
  have hhash : Text.isBlank '#' = false := by decide
  have hone := hline.strip
  rw [strip_directive hindent] at hone ⊢
  constructor
  · have hvisible : isVisible ('#' :: Text.trimEnd Text.isBlank t) = true := by
      rw [Text.isVisible_cons, hhash]
      rfl
    rw [Text.visibleLines_of_unbroken hone.unbroken, List.filter_cons_of_pos hvisible,
      List.filter_nil]
  · intro hinclude
    cases hinclude with
    | here hasks =>
      -- The text behind the `#` would start with the keyword of an include.
      obtain ⟨behind, hskip, -⟩ := Scan.skipBlanks_of_asksToInclude hasks
      obtain ⟨more, hmore⟩ := Text.trimEnd_isPrefix Text.isBlank t
      have hfront := hskip more
      rw [hmore] at hfront
      rw [hfront] at hhead
      cases hhead
    | later hlater =>
      have hfeed : '\n' ∉ Text.trimEnd Text.isBlank t :=
        fun hmem => hone.unbroken.notMem.1 (List.mem_cons_of_mem _ hmem)
      have hinside := Scan.inside_of_notMem hfeed .no
      rw [← List.append_nil (Text.trimEnd _ _)] at hlater
      obtain ⟨escape, hnil⟩ := HasInclude.of_inside hinside hlater
      exact Scan.not_hasInclude_nil _ hnil

/-- **The version directive of some lines** stands behind blank lines. -/
theorem exists_of_cutVersion? {ls rest : List Text} {found : Text}
    (h : cutVersion? ls = some (found, rest)) :
    ∃ blanks others, ls = blanks ++ found :: others ∧ rest = blanks ++ others ∧
      (∀ line ∈ blanks, isVisible line = false) ∧ isVersion found = true := by
  induction ls generalizing found rest with
  | nil => cases h
  | cons line ls ih =>
    rw [cutVersion?] at h
    split at h
    · rename_i hversion
      obtain ⟨rfl, rfl⟩ := Prod.mk.inj (Option.some.inj h)
      exact ⟨[], _, rfl, rfl, fun _ hmem => absurd hmem List.not_mem_nil, hversion⟩
    · split at h
      · rename_i hblank
        simp only [Option.map_eq_some_iff, Prod.exists, Prod.mk.injEq] at h
        obtain ⟨version, behind, hcut, rfl, rfl⟩ := h
        obtain ⟨blanks, others, rfl, rfl, hblanks, hversion⟩ := ih hcut
        refine ⟨line :: blanks, others, rfl, rfl, List.forall_mem_cons.2 ⟨?_, hblanks⟩, hversion⟩
        rw [isVisible, hblank]
        rfl
      · cases h

theorem flatMap_visibleLines_of_blank {ls : List Text} (h : ∀ line ∈ ls, isVisible line = false) :
    ls.flatMap visibleLines = [] :=
  List.flatMap_eq_nil_iff.2 fun line hmem => Text.visibleLines_eq_nil_iff.2 (h line hmem)

/-- **The header and what is below.** The lines of the header hold no include, and the lines below
have none if the text has none. The header is the precision statement, or that and a version. -/
structure Headed (ls : List Text) (source : Text) (header below : List Text) : Prop where
  split : ls.flatMap visibleLines = header ++ below
  plain : ∀ line ∈ header, NoComment line ∧ ¬ HasInclude .start line
  length : header.length = 2 ∨ ∃ precision, header = [precisionLine precision]
  mem : ∀ line ∈ below, line ∈ visibleLines source
  quiet : HasInclude .start (fed below) → HasInclude .start (fed (visibleLines source))

section Headed

variable {precision source : Text}

theorem visibleLines_precisionLine (h : OneLine (precisionLine precision)) :
    visibleLines (precisionLine precision) = [precisionLine precision] := by
  rw [Text.visibleLines_of_unbroken h.unbroken]
  rfl

theorem plain_precisionLine (h : OneLine (precisionLine precision)) :
    NoComment (precisionLine precision) ∧ ¬ HasInclude .start (precisionLine precision) :=
  ⟨h.bare, not_hasInclude_precisionLine h⟩

theorem headed_of_precision (hprecision : OneLine (precisionLine precision)) :
    Headed (precisionLine precision :: lines source) source [precisionLine precision]
      (visibleLines source) where
  split := by
    rw [List.flatMap_cons, visibleLines_precisionLine hprecision, Text.flatMap_visibleLines_lines]
  plain := List.forall_mem_singleton.2 (plain_precisionLine hprecision)
  length := .inr ⟨_, rfl⟩
  mem _ hmem := hmem
  quiet h := h

theorem headed_of_version {version : Text} (hprecision : OneLine (precisionLine precision))
    (hversion : OneLine (versionLine version)) :
    Headed (strip (versionLine version) :: precisionLine precision :: lines source) source
      [strip (versionLine version), precisionLine precision] (visibleLines source) := by
  obtain ⟨hone, hquiet⟩ := (versionLike_versionLine version).strip hversion
  refine ⟨?_, ?_, .inl rfl, fun _ hmem => hmem, fun h => h⟩
  · rw [List.flatMap_cons, List.flatMap_cons, hone, visibleLines_precisionLine hprecision,
      Text.flatMap_visibleLines_lines]
    rfl
  · exact List.forall_mem_cons.2
      ⟨⟨hversion.strip.bare, hquiet⟩, List.forall_mem_singleton.2 (plain_precisionLine hprecision)⟩

/-- The version directive of the text itself moves to the top. -/
theorem exists_headed_of_cut {found : Text} {rest : List Text}
    (hprecision : OneLine (precisionLine precision)) (hbare : NoComment source)
    (hfeeds : FeedsOnly source) (hcut : cutVersion? (lines source) = some (found, rest))
    (hends : endsEscaped found = false) :
    ∃ below, Headed (strip found :: precisionLine precision :: rest) source
      [strip found, precisionLine precision] below := by
  obtain ⟨blanks, others, hlines, rfl, hblanks, hfound⟩ := exists_of_cutVersion? hcut
  have hmem : found ∈ lines source := by
    rw [hlines]
    exact List.mem_append_right _ List.mem_cons_self
  have hunbroken : Unbroken found := Text.unbroken_of_mem_lines hmem
  have hsource : visibleLines source = found :: others.flatMap visibleLines := by
    rw [← Text.flatMap_visibleLines_lines, hlines, List.flatMap_append,
      flatMap_visibleLines_of_blank hblanks, List.flatMap_cons, Text.visibleLines_of_unbroken hunbroken,
      List.filter_cons_of_pos (isVisible_of_isVersion hfound)]
    rfl
  have hline : OneLine found := by
    refine ⟨hunbroken, Scan.noComment_of_mem_visibleLines hfeeds hbare ?_⟩
    rw [hsource]
    exact List.mem_cons_self
  obtain ⟨hone, hquiet⟩ := (versionLike_of_isVersion hfound).strip hline
  refine ⟨others.flatMap visibleLines, ?_, ?_, .inl rfl, ?_, ?_⟩
  · rw [List.flatMap_cons, List.flatMap_cons, hone, visibleLines_precisionLine hprecision,
      List.flatMap_append, flatMap_visibleLines_of_blank hblanks]
    rfl
  · exact List.forall_mem_cons.2
      ⟨⟨hline.strip.bare, hquiet⟩, List.forall_mem_singleton.2 (plain_precisionLine hprecision)⟩
  · intro line hmem
    rw [hsource]
    exact List.mem_cons_of_mem _ hmem
  · -- The version directive ends on its line, so the lines below it stand where a line starts.
    intro hinclude
    have hnext := Place.next_run_of_not_endsEscaped hunbroken hends (.inl (rfl : Place.start = .start))
    rw [hsource, Text.fed_cons]
    apply HasInclude.append
    rw [Scan.hasInclude_cons_iff (.inr (by decide)), hnext]
    exact hinclude

theorem exists_headed {version : Option Text} (hprecision : OneLine (precisionLine precision))
    (hversion : ∀ text, version = some text → OneLine (versionLine text))
    (hbare : NoComment source) (hfeeds : FeedsOnly source)
    (hends : ∀ found rest, cutVersion? (lines source) = some (found, rest) →
      endsEscaped found = false) :
    ∃ header below, Headed (withHeader precision version (lines source)) source header below := by
  unfold withHeader
  cases hcut : cutVersion? (lines source) with
  | none =>
    cases version with
    | none => exact ⟨_, _, headed_of_precision hprecision⟩
    | some text => exact ⟨_, _, headed_of_version hprecision (hversion text rfl)⟩
  | some cut => exact ⟨_, exists_headed_of_cut hprecision hbare hfeeds hcut (hends _ _ hcut)⟩

end Headed

/-! ### The marker -/

theorem lineParts_append_lineFeed {line : Text} (h : Unbroken line) (s : Text) :
    Text.lineParts (line ++ '\n' :: s) = (line ++ ['\n']) :: Text.lineParts s := by
  induction line with
  | nil =>
    have hbreak : Text.isLineBreak '\n' = true := by decide
    rw [List.nil_append, Text.lineParts, if_pos hbreak]
    · rfl
    · rintro _ ⟨⟩
  | cons c line ih =>
    have hc : Text.isLineBreak c = false := h c List.mem_cons_self
    have hrest := ih fun d hd => h d (List.mem_cons_of_mem _ hd)
    rw [List.cons_append, Text.lineParts, if_neg (by rw [hc]; exact Bool.false_ne_true), hrest]
    · rfl
    · -- A carriage return would be a break by itself.
      rintro rest rfl
      exact absurd hc (by decide)

theorem lineParts_fed {ls : List Text} (h : ∀ line ∈ ls, Unbroken line) :
    Text.lineParts (fed ls) = ls.map (· ++ ['\n']) := by
  induction ls with
  | nil => rfl
  | cons line ls ih =>
    rw [List.forall_mem_cons] at h
    rw [Text.fed_cons, lineParts_append_lineFeed h.1, ih h.2, List.map_cons]

/-- How many lines stand above the marker. -/
def markerPlace (ls : List Text) : Nat :=
  if (ls.map (· ++ ['\n'])).head?.any (Text.startsWith "#version") then 2 else 1

/-- **The marker** stands below the first line, or below the second if the first starts with a version
directive. -/
theorem withMarker_fed (name : Text) {ls : List Text} (h : ∀ line ∈ ls, Unbroken line) :
    withMarker name (fed ls)
      = fed (ls.take (markerPlace ls)) ++ markerLine name ++ fed (ls.drop (markerPlace ls)) := by
  have hfed : ∀ ls : List Text, (ls.map (· ++ ['\n'])).flatten = fed ls := fun _ => rfl
  rw [withMarker, lineParts_fed h, ← hfed, ← hfed, List.map_take, List.map_drop]
  rfl

theorem markerPlace_cases (ls : List Text) :
    markerPlace ls = 1 ∨ markerPlace ls = 2 ∧ ∃ t, fed ls = '#' :: t := by
  unfold markerPlace
  split
  · rename_i hversion
    refine .inr ⟨rfl, ?_⟩
    cases ls with
    | nil => cases hversion
    | cons line ls =>
      rw [List.map_cons, List.head?_cons, Option.any_some, Text.startsWith,
        Option.isSome_iff_exists] at hversion
      obtain ⟨rest, hrest⟩ := hversion
      rw [Text.after?_eq_some_iff] at hrest
      refine ⟨String.toList "version" ++ rest ++ fed ls, ?_⟩
      rw [Text.fed_cons, ← List.singleton_append, ← List.append_assoc, hrest]
      rfl
  · exact .inl rfl

/-- The marker stands in the header or right below it: the second place is for a header that starts with
a version directive, and a precision line alone is none. -/
theorem Headed.marker_le {ls : List Text} {source : Text} {header below : List Text} {index : Nat}
    (h : Headed ls source header below)
    (hindex : index = 1 ∨ index = 2 ∧ ∃ t, fed (ls.flatMap visibleLines) = '#' :: t) :
    index ≤ header.length ∧ 0 < index := by
  rcases hindex with rfl | ⟨rfl, t, hfirst⟩
  · rcases h.length with hlength | ⟨precision, rfl⟩
    · exact ⟨by omega, by omega⟩
    · exact ⟨Nat.le_refl _, by omega⟩
  · rcases h.length with hlength | ⟨precision, rfl⟩
    · exact ⟨by omega, by omega⟩
    · rw [h.split] at hfirst
      cases hfirst

/-- **A text below its header, with its marker, is free of includes.** -/
theorem includeFree_withMarker {ls : List Text} {source name : Text} {header below : List Text}
    (h : Headed ls source header below) (hbare : NoComment source) (hfeeds : FeedsOnly source)
    (hquiet : ¬ HasInclude .start source) (hname : '\n' ∉ name) :
    Scan.IncludeFree (withMarker name (fed (ls.flatMap visibleLines))) := by
  have hunbroken : ∀ line ∈ ls.flatMap visibleLines, Unbroken line := by
    intro line hmem
    obtain ⟨source, -, hline⟩ := List.mem_flatMap.1 hmem
    exact (Text.of_mem_visibleLines hline).2
  have hmarked := withMarker_fed name hunbroken
  have hindex := markerPlace_cases (ls.flatMap visibleLines)
  generalize markerPlace (ls.flatMap visibleLines) = index at hmarked hindex
  have hle : index ≤ header.length ∧ 0 < index := h.marker_le hindex
  rw [hmarked, h.split, List.take_append_of_le_length hle.1, List.drop_append_of_le_length hle.1,
    Text.fed_append]
  have hbelow : ∀ line ∈ below, NoComment line :=
    fun line hmem => Scan.noComment_of_mem_visibleLines hfeeds hbare (h.mem line hmem)
  have hdrop : ∀ line ∈ header.drop index, NoComment line ∧ ¬ HasInclude .start line :=
    fun line hmem => h.plain line (List.mem_of_mem_drop hmem)
  have htake : ∀ line ∈ header.take index, NoComment line ∧ ¬ HasInclude .start line :=
    fun line hmem => h.plain line (List.mem_of_mem_take hmem)
  have hne : header.take index ≠ [] := by
    intro hnil
    have hlength := congrArg List.length hnil
    rw [List.length_take, List.length_nil] at hlength
    omega
  have hfront := Text.joinLines_append_lineFeed hne
  have hmarker : ∀ t, markerLine name ++ t = '/' :: '/' :: (' ' :: name) ++ '\n' :: t := by
    intro t
    rw [markerLine, List.append_assoc, List.append_assoc]
    rfl
  -- So the marker is a comment between the first lines of the header and all the other lines.
  rw [← hfront, List.append_assoc, List.append_assoc, hmarker]
  apply Scan.includeFree_around_comment
  · rw [hfront]
    exact Scan.noComment_fed fun line hmem => (htake line hmem).1
  · rw [hfront]
    intro hinclude
    rw [← List.append_nil (fed _)] at hinclude
    exact Scan.not_hasInclude_nil _
      (hasInclude_fed_append (fun line hmem => (htake line hmem).2) hinclude)
  · rw [← Text.fed_append]
    apply Scan.noComment_fed
    intro line hmem
    rcases List.mem_append.1 hmem with hmem | hmem
    · exact (hdrop line hmem).1
    · exact hbelow line hmem
  · -- An include among the lines below would be one of the source.
    intro hinclude
    have hlines := h.quiet (hasInclude_fed_append (fun line hmem => (hdrop line hmem).2) hinclude)
    exact hquiet (Scan.hasInclude_of_visibleLines hfeeds (.inl rfl) (.refl _) hlines)
  · intro hmem
    rcases List.mem_cons.1 hmem with heq | hmem
    · exact absurd heq (by decide)
    · exact hname hmem

end CompiledText

/-! ## Compiled texts -/

namespace Composer

variable {composer : Composer} {name : FileName} {source : Text} {defines : Value}

/-- The text that is handed to the transforms: every include spliced in, and the defines in front. -/
def prepared (composer : Composer) (name : FileName) (source : Text) (defines : Value) :
    Except Fault Text :=
  (Expansion.ofSource composer.store name source).result.bind fun text =>
    (composer.macros.active defines).bind fun active =>
      Prologue.injectDefines text active.toValue

theorem result_compose_untransformed (h : composer.transforms = []) :
    (composer.compose name source defines).result
      = (composer.prepared name source defines).map unmarked := by
  rw [compose, Logged.result_andThen, prepared, h]
  cases (Expansion.ofSource composer.store name source).result with
  | error fault => rfl
  | ok text =>
    simp only [bind, Except.bind]
    cases composer.macros.active defines with
    | error fault => rfl
    | ok active =>
      dsimp only
      cases Prologue.injectDefines text active.toValue <;> rfl

/-- Without defines, that is the walked text without the marks of tools. -/
theorem result_compose_bare (hactive : composer.macros.active defines = .ok [])
    (htransforms : composer.transforms = []) :
    (composer.compose name source defines).result
      = (Expansion.ofSource composer.store name source).result.map unmarked := by
  rw [result_compose_untransformed htransforms, prepared, hactive]
  cases (Expansion.ofSource composer.store name source).result <;> rfl

end Composer

namespace Library

open Scan (IncludeFree)
open CompiledText (OneLine Orderly precisionLine versionLine)

/-- **Where an include can be left in a compiled text.** The walked text has none, whatever was walked.
Nor has the compiled text, if the walked text is orderly: then nothing that is done to it afterwards
moves a `#` to the start of a line. -/
theorem includeFree_compile {library : Library} {name : FileName} {source compiled : Text}
    {defines : Value} (hactive : library.macros.active defines = .ok [])
    (htransforms : library.composer.transforms = []) (hname : '\n' ∉ name.orAnonymous.written)
    (hprecision : OneLine (precisionLine library.precision.display))
    (hversion : ∀ version, library.versionText? = some version → OneLine (versionLine version))
    (hcompiled : (library.plain.compile name source defines).result = .ok (some compiled)) :
    ∃ walked, (Expansion.ofSource library.store name.orAnonymous
        (CompiledText.dropGuard source)).result = .ok walked ∧
      IncludeFree walked ∧ (Orderly walked → IncludeFree compiled) := by
  rw [result_compile_plain] at hcompiled
  split at hcompiled
  · cases hcompiled
  cases hkey : library.cacheKey name.orAnonymous (.text source) defines with
  | error fault =>
    rw [hkey] at hcompiled
    cases hcompiled
  | ok key =>
    rw [hkey, Except.bind, result_compileBody, Composer.result_compose_bare hactive htransforms,
      FileName.orAnonymous_orAnonymous] at hcompiled
    cases hwalk : (Expansion.ofSource library.store name.orAnonymous
        (CompiledText.dropGuard source)).result with
    | error fault =>
      rw [show library.composer.store = library.store from rfl, hwalk] at hcompiled
      cases hcompiled
    | ok walked =>
      rw [show library.composer.store = library.store from rfl, hwalk] at hcompiled
      obtain rfl := Option.some.inj (Except.ok.inj hcompiled)
      have hfollow := Expansion.mayFollow_ofSource hwalk
      refine ⟨walked, rfl, ?_, fun horderly => ?_⟩
      · exact Scan.includeFree_of_not_hasInclude hfollow.bare (hfollow.not_hasInclude .start)
      · obtain ⟨hquiet, hbare, hfeeds⟩ := horderly.assembled hfollow
        obtain ⟨header, below, hheaded⟩ :=
          CompiledText.exists_headed hprecision hversion hbare hfeeds horderly.version
        rw [CompiledText.body_eq]
        exact CompiledText.includeFree_withMarker hheaded hbare hfeeds hquiet hname

/-- **A compiled text with an include.** For the walk the form feed is white space behind code; the
assembly ends the line there, and what is left of the line starts with a `#`. -/
theorem include_behind_form_feed : ¬ ∀ (library : Library) (name : FileName) (source compiled : Text),
    library.macros.active .null = .ok [] → library.composer.transforms = [] →
    (library.compile name source .null).result = .ok (some compiled) → IncludeFree compiled := by
  intro h
  have hcompiled : (emptyLibrary.compile (.text "x") "int a; \x0c#include <b>" .null).result
      = .ok (some "precision mediump float;\n// x\nint a; \n#include <b>\n") := by
    apply ok_of_toOption
    decide +kernel
  have hfree := h emptyLibrary (.text "x") _ _ rfl rfl hcompiled
  revert hfree
  decide +kernel

/-- A library with a fragment that brings its own precision and the mark of a tool. -/
def markedLibrary : Library :=
  emptyLibrary.withStore
    (FragmentStore.empty.insert "noise" "precision highp float;\n#define GLSLIFY 1\nfloat noise;")

/-- A source that includes it below its version. -/
def versionedSource : Text := "#version 300 es\r\n#include <noise> // first\r\nfloat a;\r\n"

/-- The text that is walked for it. -/
def versionedWalked : Text :=
  "\n#version 300 es\r\n\nprecision highp float;\n#define GLSLIFY 1\nfloat noise;\n\nfloat a;\r\n\n"

theorem ofSource_versionedSource :
    (Expansion.ofSource markedLibrary.store (FileName.text "x").orAnonymous
      (CompiledText.dropGuard versionedSource)).result = .ok versionedWalked := by
  apply ok_of_toOption
  decide +kernel

theorem compile_versionedSource :
    (markedLibrary.plain.compile (.text "x") versionedSource .null).result
      = .ok (some "#version 300 es\nprecision mediump float;\n// x\nfloat noise;\nfloat a;\n") := by
  apply ok_of_toOption
  decide +kernel

/-- That text is orderly, though a mark and a statement are taken out of it. -/
theorem orderly_versionedWalked : Orderly versionedWalked := by
  have hcut : CompiledText.cutVersion? (Text.lines (CompiledText.assembled versionedWalked))
      = some ("#version 300 es".toList,
          ["", "", "", "float noise;", "", "float a;", ""].map String.toList) := by
    decide +kernel
  refine ⟨by decide +kernel, by decide +kernel, by decide +kernel, fun found rest h => ?_⟩
  rw [hcut] at h
  obtain ⟨rfl, -⟩ := Prod.mk.inj (Option.some.inj h)
  decide

/-- Its compiled text, as a case of the general statement. -/
theorem includeFree_compile_of_marked_fragment :
    ∃ compiled, (markedLibrary.plain.compile (.text "x") versionedSource .null).result
        = .ok (some compiled) ∧ IncludeFree compiled := by
  obtain ⟨walked, hwalk, -, hfree⟩ := includeFree_compile
    (rfl : markedLibrary.macros.active .null = .ok []) rfl (by decide) (by decide) nofun
    compile_versionedSource
  rw [ofSource_versionedSource] at hwalk
  obtain rfl := Except.ok.inj hwalk
  exact ⟨_, compile_versionedSource, hfree orderly_versionedWalked⟩

end Library

end GlslCompose
