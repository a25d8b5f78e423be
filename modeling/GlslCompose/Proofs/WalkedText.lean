/-
`Proofs/WalkedText.lean` -- the text that a walk leaves: it has no comment and no include.

That the walk replaces every include does not yet say that the text it leaves has none.
The text is read anew, by a driver or by the scanner, and is not the text that was walked:
comments are gone and tokens have joined, directives have lost their comments and the
blanks at their ends, and so a backslash that stood before a blank may now stand before a
line feed and swallow it.

What carries the induction is the text that is still to come. `MayFollow` says that a text
may stand behind a directive: a line ends where it starts, it opens no comment, and nothing
in it is an include, not even if the directive does not end before it. The walk of a file
puts such a text in front of such a text (`mayFollow_ofText`), by induction on its tokens
from the last to the first, and on the paths that are still closed.
-/
import GlslCompose.Proofs.IncludePlaces
import GlslCompose.Proofs.TextualInclude

set_option autoImplicit false

namespace GlslCompose

namespace Text

variable {p : Char → Bool}

/-- Trimming leaves what stands in front of a character that is not of the kind. -/
theorem trimEnd_append_cons {c : Char} (hc : p c = false) (front s : Text) :
    trimEnd p (front ++ c :: s) = front ++ c :: trimEnd p s := by
  induction front with
  | nil =>
    rw [List.nil_append, trimEnd]
    cases trimEnd p s with
    | nil => simp [hc]
    | cons d t => rfl
  | cons d front ih =>
    rw [List.cons_append, trimEnd, ih]
    cases front <;> rfl

theorem trimEnd_isPrefix (p : Char → Bool) (s : Text) : trimEnd p s <+: s := by
  rcases all_or_exists_append p s with hall | ⟨front, c, behind, rfl, hc, hbehind⟩
  · rw [trimEnd_eq_nil_of_all hall]
    exact List.nil_prefix
  · rw [trimEnd_append hc hbehind]
    exact ⟨behind, by rw [List.append_assoc]; rfl⟩

theorem trimEnd_trimEnd (p : Char → Bool) (s : Text) : trimEnd p (trimEnd p s) = trimEnd p s := by
  rcases all_or_exists_append p s with hall | ⟨front, c, behind, rfl, hc, hbehind⟩
  · rw [trimEnd_eq_nil_of_all hall]
    rfl
  · rw [trimEnd_append hc hbehind, trimEnd_concat hc]

end Text

/-! ## The comments of a directive -/

namespace Directive

open Scan (NoComment Extent Continues)

theorem closedComment?_of_head {s : Text} (h : s.head? ≠ some '*') :
    Scan.closedComment? ('/' :: s) = none := by
  unfold Scan.closedComment?
  split
  · rename_i heq
    obtain ⟨-, rfl⟩ := List.cons.inj heq
    exact absurd rfl h
  · rfl

theorem closedComment?_of_ne {c : Char} (hc : c ≠ '/') (s : Text) :
    Scan.closedComment? (c :: s) = none := by
  unfold Scan.closedComment?
  split
  · rename_i heq
    exact absurd (List.cons.inj heq).1 hc
  · rfl

theorem blankComments_cons {c : Char} (hc : c ≠ '/') (s : Text) :
    blankComments (c :: s) = c :: blankComments s :=
  blankComments_of_none (closedComment?_of_ne hc s)

theorem blankComments_slash {s : Text} (h : s.head? ≠ some '*') :
    blankComments ('/' :: s) = '/' :: blankComments s :=
  blankComments_of_none (closedComment?_of_head h)

theorem blankComments_comment {body : Text} (h : Scan.closeComment? body = some (body, [])) (s : Text) :
    blankComments ('/' :: '*' :: body ++ s) = ' ' :: blankComments s := by
  have hclosed : Scan.closedComment? ('/' :: '*' :: body ++ s) = some ('/' :: '*' :: body, s) := by
    have hbody := Scan.closeComment?_append (t := s) h
    rw [List.cons_append, List.cons_append, Scan.closedComment?, hbody]
    rfl
  exact blankComments_of_some hclosed

/-- In a text without comments none is replaced. -/
theorem blankComments_of_noComment {s : Text} (h : NoComment s) : blankComments s = s := by
  induction s with
  | nil => exact blankComments_nil
  | cons c s ih =>
    have hs := ih (NoComment.right (s := [c]) h)
    by_cases hc : c = '/'
    · subst hc
      rw [blankComments_slash h.head?_of_slash.2, hs]
    · rw [blankComments_cons hc, hs]

theorem blankComments_append {front : Text} (h : '/' ∉ front) (s : Text) :
    blankComments (front ++ s) = front ++ blankComments s := by
  induction front with
  | nil => rfl
  | cons c front ih =>
    rw [List.mem_cons, not_or] at h
    rw [List.cons_append, blankComments_cons (Ne.symm h.1), ih h.2, List.cons_append]

/-- A text starts with the same character without its comments, or with the blank for one. -/
theorem head?_blankComments (s : Text) :
    ∀ c ∈ (blankComments s).head?, c = ' ' ∨ s.head? = some c := by
  intro c hc
  unfold blankComments at hc
  split at hc
  · obtain rfl : ' ' = c := Option.some.inj hc
    exact .inl rfl
  · split at hc
    · cases hc
    · exact .inr hc

/-- **The ways in which a directive goes on,** without its comments. -/
theorem blankComments_of_continues {piece body rest : Text} (h : Continues piece (body ++ rest)) :
    blankComments (piece ++ body) = piece ++ blankComments body ∧ '/' ∉ piece ∨
      blankComments (piece ++ body) = ' ' :: blankComments body ∨
      piece = ['/'] ∧ blankComments (piece ++ body) = '/' :: blankComments body ∧
        body.head? ≠ some '/' ∧ body.head? ≠ some '*' := by
  have hfront : '/' ∉ piece →
      blankComments (piece ++ body) = piece ++ blankComments body ∧ '/' ∉ piece :=
    fun hpiece => ⟨blankComments_append hpiece body, hpiece⟩
  cases h with
  | lineBreak => exact .inl (hfront (by decide))
  | returnBreak => exact .inl (hfront (by decide))
  | backslash _ _ => exact .inl (hfront (by decide))
  | comment hclose => exact .inr (.inl (blankComments_comment hclose body))
  | slash hline hblock =>
    have hbody : ∀ c, (body ++ rest).head? ≠ some c → body.head? ≠ some c := by
      intro c hne hhead
      obtain ⟨t, rfl⟩ := List.head?_eq_some_iff.1 hhead
      exact hne rfl
    refine .inr (.inr ⟨rfl, ?_, hbody _ hline, hbody _ hblock⟩)
    exact blankComments_slash (hbody _ hblock)
  | char _ _ hslash => exact .inl (hfront (by simpa [eq_comm] using hslash))

/-- Without its comments a directive opens none. -/
theorem noComment_blankComments {body rest : Text} (h : Extent body rest) :
    NoComment (blankComments body) := by
  induction h with
  | ends _ =>
    rw [blankComments_nil]
    exact List.isChain_nil
  | @goesOn piece body rest hpiece _ ih =>
    rcases blankComments_of_continues hpiece with ⟨heq, hnot⟩ | heq | ⟨-, heq, hline, hblock⟩
    · rw [heq]
      refine (Scan.noComment_of_notMem hnot).append ih fun hlast => ?_
      exact absurd (List.mem_of_getLast? hlast) hnot
    · rw [heq]
      exact List.IsChain.cons ih fun d _ hc => absurd hc (by decide)
    · rw [heq]
      refine List.IsChain.cons ih fun d hd _ => ?_
      rcases head?_blankComments body d hd with rfl | hhead
      · decide
      · exact ⟨fun heq => hline (by rw [hhead, heq]), fun heq => hblock (by rw [hhead, heq])⟩

end Directive

namespace Scan

/-! ## Inside a directive -/

/-- A text that does not leave the directive in which it stands. -/
def Inside : Escape → Text → Prop
  | _, [] => True
  | escape, c :: s => ∃ escape', (Place.directive escape).next c = .directive escape' ∧ Inside escape' s

theorem Inside.left {escape : Escape} {s t : Text} (h : Inside escape (s ++ t)) : Inside escape s := by
  induction s generalizing escape with
  | nil => trivial
  | cons c s ih =>
    obtain ⟨escape', hnext, hs⟩ := h
    exact ⟨escape', hnext, ih hs⟩

theorem inside_of_notMem {s : Text} (h : '\n' ∉ s) (escape : Escape) : Inside escape s := by
  induction s generalizing escape with
  | nil => trivial
  | cons c s ih =>
    rw [List.mem_cons, not_or] at h
    obtain ⟨escape', hnext⟩ := Place.next_directive escape (Ne.symm h.1)
    exact ⟨escape', hnext, ih h.2 escape'⟩

theorem Inside.append {escape : Escape} {s t : Text} (h : Inside escape s)
    (ht : ∀ escape, Inside escape t) : Inside escape (s ++ t) := by
  induction s generalizing escape with
  | nil => exact ht escape
  | cons c s ih =>
    obtain ⟨escape', hnext, hs⟩ := h
    exact ⟨escape', hnext, ih hs⟩

/-- What is found in a text inside a directive is found behind it. -/
theorem HasInclude.of_inside {escape : Escape} {s t : Text} (hs : Inside escape s)
    (h : HasInclude (.directive escape) (s ++ t)) : ∃ escape', HasInclude (.directive escape') t := by
  induction s generalizing escape with
  | nil => exact ⟨escape, h⟩
  | cons c s ih =>
    obtain ⟨escape', hnext, hs⟩ := hs
    have hne : Place.directive escape ≠ .start := nofun
    rw [List.cons_append, hasInclude_cons_iff (.inl hne), hnext] at h
    exact ih hs h

/-- **What belongs to a directive does not leave it,** also without its comments. -/
theorem inside_blankComments {body rest : Text} (h : Extent body rest) (escape : Escape) :
    Inside escape (Directive.blankComments body) := by
  induction h generalizing escape with
  | ends _ =>
    rw [Directive.blankComments_nil]
    trivial
  | @goesOn piece body rest hpiece _ ih =>
    rcases Directive.blankComments_of_continues hpiece with ⟨heq, hnot⟩ | heq | ⟨-, heq, -⟩
    · rw [heq]
      cases hpiece with
      | lineBreak => exact ⟨.backslash, rfl, .no, rfl, ih .no⟩
      | returnBreak => exact ⟨.backslash, rfl, .backslashReturn, rfl, .no, rfl, ih .no⟩
      | backslash _ _ => exact ⟨.backslash, rfl, ih .backslash⟩
      | comment _ => exact absurd List.mem_cons_self hnot
      | slash _ _ => exact absurd List.mem_cons_self hnot
      | char hfeed _ _ =>
        exact (inside_of_notMem (by simpa [eq_comm] using hfeed) escape).append ih
    · rw [heq]
      exact (inside_of_notMem (s := [' ']) (by decide) escape).append ih
    · rw [heq]
      exact (inside_of_notMem (s := ['/']) (by decide) escape).append ih

/-! ## The directives that are left -/

/-- **A directive as the walk leaves it:** it opens no comment, it does not leave itself, and it does
not ask for an include. -/
inductive LeftDirective : Text → Prop
  | intro {indent tail : Text} : (∀ c ∈ indent, isIndent c = true) → Inside .no tail →
      NoComment tail → Text.word (Text.skipBlanks tail) ≠ String.toList "include" →
      LeftDirective (indent ++ '#' :: tail)

theorem slash_notMem_of_indent {indent : Text} (h : ∀ c ∈ indent, isIndent c = true) : '/' ∉ indent :=
  fun hmem => absurd (h _ hmem) (by decide)

/-- Without its comments and without the blanks at its end a directive is left, unless it asks for an
include. -/
theorem leftDirective_withoutComments {indent body rest : Text} (hindent : ∀ c ∈ indent, isIndent c = true)
    (h : Extent body rest) (hkeyword : Directive.keyword
      (Directive.withoutComments (indent ++ '#' :: body)) ≠ String.toList "include") :
    LeftDirective (Directive.withoutComments (indent ++ '#' :: body)) := by
  have hblank : Directive.blankComments (indent ++ '#' :: body)
      = indent ++ '#' :: Directive.blankComments body := by
    rw [Directive.blankComments_append (slash_notMem_of_indent hindent),
      Directive.blankComments_cons (by decide)]
  have hhash : Directive.isTrailing '#' = false := by decide
  rw [Directive.withoutComments, hblank, Text.trimEnd_append_cons hhash] at hkeyword ⊢
  obtain ⟨behind, hbehind⟩ := Text.trimEnd_isPrefix Directive.isTrailing (Directive.blankComments body)
  have hinside := inside_blankComments h .no
  have hbare := Directive.noComment_blankComments h
  rw [← hbehind] at hinside hbare
  rw [keyword_append hindent] at hkeyword
  exact .intro hindent hinside.left hbare.left hkeyword

/-- A directive that is left has nothing to lose. -/
theorem LeftDirective.blankComments_eq {data : Text} (h : LeftDirective data) :
    Directive.blankComments data = data := by
  obtain ⟨hindent, -, hbare, -⟩ := h
  rw [Directive.blankComments_append (slash_notMem_of_indent hindent),
    Directive.blankComments_cons (by decide), Directive.blankComments_of_noComment hbare]

theorem LeftDirective.withoutComments_eq {data : Text}
    (h : LeftDirective (Directive.withoutComments data)) :
    Directive.withoutComments (Directive.withoutComments data) = Directive.withoutComments data := by
  rw [Directive.withoutComments, h.blankComments_eq]
  exact Text.trimEnd_trimEnd _ _

end Scan

namespace Directive

theorem parameters_split (s : Text) : s = (parameters s).1 ++ (parameters s).2 := by
  unfold parameters
  split
  · split
    · rename_i hcut
      rw [Text.eq_of_cutFirst? hcut]
      simp
    · rfl
  · rfl

/-- The parts of a define, from the text up to its keyword and the text behind that. -/
def partsBehind? (front s : Text) : Option DefineParts :=
  let space := s.takeWhile Text.isBlank
  let s := Text.skipBlanks s
  let name := Text.word s
  if space.isEmpty || name.isEmpty then none
  else
    let (params, tail) := parameters (s.dropWhile Text.isWord)
    some ⟨front ++ space, name ++ params, tail⟩

theorem defineParts?_of_hash {data s : Text} (h : Text.skipBlanks data = '#' :: s) :
    defineParts? data = (Text.after? "define" (Text.skipBlanks s)).bind
      (partsBehind? (data.takeWhile Text.isBlank ++ '#' :: s.takeWhile Text.isBlank ++ "define")) := by
  unfold Text.skipBlanks at h
  unfold defineParts? Text.skipBlanks
  rw [h]
  split
  · rename_i behind heq
    obtain ⟨-, rfl⟩ := List.cons.inj heq
    cases Text.after? (String.toList "define") (s.dropWhile Text.isBlank) <;> rfl
  · rename_i hne
    exact absurd rfl (hne s)

theorem exists_of_partsBehind? {front s : Text} {parts : DefineParts}
    (h : partsBehind? front s = some parts) :
    ∃ more, parts.head ++ parts.macroName = front ++ more ∧ s = more ++ parts.tail := by
  have hspace := List.takeWhile_append_dropWhile (p := Text.isBlank) (l := s)
  have hname := List.takeWhile_append_dropWhile (p := Text.isWord) (l := Text.skipBlanks s)
  have hparams := parameters_split ((Text.skipBlanks s).dropWhile Text.isWord)
  unfold partsBehind? at h
  dsimp only at h
  split at h
  · cases h
  · obtain rfl := Option.some.inj h
    refine ⟨s.takeWhile Text.isBlank ++ (Text.word (Text.skipBlanks s)
      ++ (parameters ((Text.skipBlanks s).dropWhile Text.isWord)).1), List.append_assoc _ _ _, ?_⟩
    rw [List.append_assoc, List.append_assoc, ← hparams,
      show Text.word (Text.skipBlanks s) ++ (Text.skipBlanks s).dropWhile Text.isWord = _ from hname]
    exact hspace.symm

/-- **The parts of a define** make up what stands behind its `#`, and the first of them holds its
keyword. -/
theorem defineParts?_split {indent tail : Text} (hindent : ∀ c ∈ indent, Scan.isIndent c = true)
    {parts : DefineParts} (h : defineParts? (indent ++ '#' :: tail) = some parts) :
    ∃ front, parts.head ++ parts.macroName = indent ++ '#' :: front ∧ tail = front ++ parts.tail ∧
      ∀ t, (Text.skipBlanks (front ++ t)).head? = some 'd' := by
  have hblank : ∀ c ∈ indent, Text.isBlank c = true :=
    fun c hc => Scan.isBlank_of_isIndent (hindent c hc)
  have hhash : ∀ c ∈ ('#' :: tail).head?, Text.isBlank c = false :=
    Scan.head?_cons_eq_false (by decide) tail
  obtain ⟨htake, hdrop⟩ := Scan.takeWhile_eq_of_all hblank hhash
  rw [defineParts?_of_hash hdrop, htake] at h
  obtain ⟨behind, hdefine, hparts⟩ := Option.bind_eq_some_iff.1 h
  rw [Text.after?_eq_some_iff] at hdefine
  obtain ⟨more, hhead, rfl⟩ := exists_of_partsBehind? hparts
  have hgap := List.takeWhile_append_dropWhile (p := Text.isBlank) (l := tail)
  rw [show tail.dropWhile Text.isBlank = _ from hdefine] at hgap
  refine ⟨tail.takeWhile Text.isBlank ++ (String.toList "define" ++ more), ?_, ?_, fun t => ?_⟩
  · rw [hhead]
    simp only [List.append_assoc, List.cons_append]
  · rw [List.append_assoc, List.append_assoc]
    exact hgap.symm
  · have hletter : ∀ c ∈ (String.toList "define" ++ more ++ t).head?, Text.isBlank c = false := by
      rintro c ⟨⟩
      decide
    rw [List.append_assoc, Text.skipBlanks, (Scan.takeWhile_eq_of_all Scan.all_takeWhile hletter).2]
    rfl

end Directive

namespace Scan

/-- **A define is left with a value.** -/
theorem LeftDirective.normalDefine {data : Text}
    (h : LeftDirective (Directive.withoutComments data)) :
    LeftDirective (Directive.normalDefine (Directive.withoutComments data)) := by
  have hself := h.withoutComments_eq
  revert hself h
  generalize Directive.withoutComments data = data
  intro h hself
  cases hparts : Directive.defineParts? data with
  | none =>
    simp only [Directive.normalDefine, hself, hparts]
    exact h
  | some parts =>
    simp only [Directive.normalDefine, hself, hparts]
    split
    · -- The value stands behind all there was, and brings neither a comment nor the end of the directive.
      obtain ⟨hindent, hinside, hbare, -⟩ := h
      obtain ⟨front, hfront, rfl, hkeyword⟩ := Directive.defineParts?_split hindent hparts
      have hvalue : ∀ escape, Inside escape (String.toList " 1") :=
        fun escape => inside_of_notMem (by decide) escape
      rw [hfront, List.append_assoc, List.cons_append]
      refine .intro hindent (hinside.left.append hvalue) ?_ fun hword => ?_
      · exact hbare.left.append (noComment_of_notMem (by decide)) fun _ => ⟨by decide, by decide⟩
      · -- The keyword of a define is another word.
        have hhead := hkeyword (String.toList " 1")
        cases hskip : Text.skipBlanks (front ++ String.toList " 1") with
        | nil => rw [hskip] at hhead; cases hhead
        | cons c s =>
          rw [hskip] at hhead hword
          obtain rfl := Option.some.inj hhead
          rw [Text.word, List.takeWhile_cons, if_pos (by decide)] at hword
          exact absurd (List.cons.inj hword).1 (by decide)
    · exact h

/-- What is left of a directive is one that is left. -/
theorem leftDirective_of_left? {lineStart : Bool} {data left rest : Text}
    (hstarts : Starts lineStart .directive data rest) (h : left? (.directive, data) = some left) :
    LeftDirective left := by
  cases hstarts with
  | plain _ hreads => cases hreads
  | @directive indent body _ _ hindent hextent =>
    have hleft := leftDirective_withoutComments hindent hextent
    revert h hleft
    generalize indent ++ '#' :: body = data
    intro h hleft
    rw [left?, if_neg (by decide), if_neg (by simp)] at h
    dsimp only at h
    split at h
    · rename_i hdefine
      obtain rfl := Option.some.inj h
      exact (hleft (by rw [hdefine]; decide)).normalDefine
    · split at h
      · cases h
      · rename_i hinclude
        obtain rfl := Option.some.inj h
        exact hleft hinclude

/-! ## What may stand behind a directive -/

/-- **A text that may stand behind a directive,** even one that does not end before it: a line ends
where it starts, nothing in it is an include, and nothing opens a comment. -/
structure MayFollow (s : Text) : Prop where
  endsLine : EndsLine s
  quiet : ¬ HasInclude .code s
  bare : NoComment s

theorem mayFollow_nil : MayFollow [] := ⟨endsLine_nil, not_hasInclude_nil _, List.isChain_nil⟩

/-- There is no include in it, wherever it stands. -/
theorem MayFollow.not_hasInclude {s : Text} (h : MayFollow s) (place : Place) :
    ¬ HasInclude place s := fun hs => h.quiet (hs.of_endsLine h.endsLine)

/-- **A directive that is left can stand in front of such a text.** -/
theorem LeftDirective.front {data s : Text} (h : LeftDirective data) (hs : MayFollow s) :
    ¬ HasInclude .start (data ++ s) ∧ NoComment (data ++ s) := by
  obtain @⟨indent, tail, hindent, hinside, hbare, hword⟩ := h
  have hblanks : ∀ c ∈ indent, isSpace c = true := fun c hc => isSpace_of_isIndent (hindent c hc)
  have hopens : ∀ t, EndsLine s → NoComment t → NoComment (t ++ s) :=
    fun t hends ht => ht.append hs.bare fun _ => hends.noOpening
  rw [List.append_assoc, List.cons_append]
  constructor
  · rw [hasInclude_blanks_append_iff hblanks]
    intro hinclude
    -- It would have to be the directive itself, or stand in the text behind it.
    cases hinclude with
    | here hasks =>
      rw [asksToInclude_append_of_endsLine hs.endsLine] at hasks
      exact hword (word_of_asksToInclude hasks)
    | later hlater =>
      obtain ⟨escape, hfound⟩ := HasInclude.of_inside hinside hlater
      exact hs.not_hasInclude _ hfound
  · have hindentBare := noComment_of_notMem (slash_notMem_of_indent hindent)
    refine hindentBare.append ?_ fun _ => ⟨by simp, by simp⟩
    exact List.IsChain.cons (hopens tail hs.endsLine hbare) fun d _ hc => absurd hc (by decide)

/-! ## The walk -/

/-- **What may be left of a text,** with what stands behind it. -/
structure Leaves (lineStart : Bool) (s left : Text) : Prop where
  quiet : ¬ HasInclude (.ofLineStart lineStart) left
  bare : NoComment left
  head : lineStart = false → s.head? ≠ some '/' → ∀ c ∈ left.head?, c = '\n' ∨ s.head? = some c
  ends : lineStart = false → Edge s → EndsLine left

/-- Where a line may end, what is left may stand behind a directive. -/
theorem Leaves.mayFollow {s left : Text} (h : Leaves false s left) (hs : Edge s) : MayFollow left :=
  ⟨h.ends rfl hs, h.quiet, h.bare⟩

/-- A dropped comment leaves what is left of the text behind it. -/
theorem leaves_of_comment {lineStart : Bool} {kind : TokenKind} {data rest left : Text}
    (hreads : Reads kind data rest) (hcomment : kind.isComment = true)
    (h : Leaves (startBehind lineStart kind data) rest left) :
    Leaves lineStart (data ++ rest) left := by
  have hslash : (data ++ rest).head? = some '/' := by cases hreads <;> first | rfl | cases hcomment
  have hhead : lineStart = false → (data ++ rest).head? ≠ some '/' →
      ∀ c ∈ left.head?, c = '\n' ∨ (data ++ rest).head? = some c :=
    fun _ hne => absurd hslash hne
  cases hreads with
  | @closedComment body rest hclose =>
    refine ⟨h.quiet, h.bare, hhead, fun _ hedge => ?_⟩
    -- A directive does not end in front of a comment that is closed.
    have hclosed : Continues ('/' :: '*' :: body) rest := .comment hclose
    rw [Edge, directivePiece?_of_continues hclosed] at hedge
    cases hedge
  | openComment _ =>
    refine ⟨h.quiet, h.bare, hhead, fun hstart _ => ?_⟩
    subst hstart
    exact h.ends rfl edge_nil
  | lineComment hbody hfeed =>
    have hedge : Edge rest := by
      cases rest with
      | nil => exact edge_nil
      | cons c rest =>
        have hc : c = '\n' := by simpa using hfeed c rfl
        rw [hc]
        exact edge_lineFeed rest
    have hfollow : MayFollow left := Leaves.mayFollow h hedge
    exact ⟨hfollow.not_hasInclude _, h.bare, hhead, fun _ _ => hfollow.endsLine⟩
  | lineFeed _ => cases hcomment
  | blanks _ _ _ _ => cases hcomment
  | identifier _ _ _ => cases hcomment
  | number _ _ _ => cases hcomment
  | other _ _ _ => cases hcomment

/-- A slash outside comments is a token by itself, and what stands behind it opens none with it. -/
theorem Reads.slash {kind : TokenKind} {data rest : Text} (h : Reads kind data rest)
    (hcomment : kind.isComment = false) :
    '/' ∉ data ∨ data = ['/'] ∧ isCode kind = true ∧ rest.head? ≠ some '/' ∧ rest.head? ≠ some '*' := by
  by_cases hcode : isCode kind = true
  · rcases h.notMem_of_code hcode (c := '/') (by decide) with hdata | hmem
    · refine .inr ⟨hdata, hcode, ?_⟩
      cases h with
      | other _ hopens _ => exact hopens (List.cons.inj hdata).1
      | identifier hc _ _ => exact absurd (List.cons.inj hdata).1 (isMark_of_isIdentifierStart hc).1
      | number _ hne _ => exact absurd (List.cons.inj hdata).1 hne
      | closedComment _ => cases hcomment
      | openComment _ => cases hcomment
      | lineComment _ _ => cases hcomment
      | lineFeed _ => cases hcode
      | blanks _ _ _ _ => cases hcode
    · exact .inl hmem
  · left
    intro hmem
    cases h with
    | lineFeed hblanks =>
      rcases List.mem_append.1 hmem with hmem | hmem
      · exact absurd (hblanks _ hmem) (by decide)
      · exact absurd (List.mem_singleton.1 hmem) (by decide)
    | blanks _ hblanks _ _ => exact absurd (hblanks _ hmem) (by decide)
    | closedComment _ => cases hcomment
    | openComment _ => cases hcomment
    | lineComment _ _ => cases hcomment
    | identifier _ _ _ => exact absurd rfl hcode
    | number _ _ _ => exact absurd rfl hcode
    | other _ _ _ => exact absurd rfl hcode

/-- A token that is no comment stands where a directive may end only if it is a line feed. -/
theorem Reads.endsLine_of_edge {kind : TokenKind} {data rest : Text} (h : Reads kind data rest)
    (hcomment : kind.isComment = false) (hedge : Edge (data ++ rest)) : data.head? = some '\n' := by
  obtain ⟨c, t, hdata⟩ := List.exists_cons_of_ne_nil h.ne_nil
  have hslash := h.slash hcomment
  -- A comment would have been read as one.
  have hopens : ∀ d u, data ++ rest = '/' :: d :: u → rest.head? ≠ some d → data ≠ ['/'] := by
    intro d u hsplit hne hone
    rw [hone] at hsplit
    have hrest : rest = d :: u := (List.cons.inj hsplit).2
    exact hne (by rw [hrest]; rfl)
  have hmem : ∀ u, data ++ rest = '/' :: u → '/' ∈ data := by
    intro u hsplit
    rw [hdata] at hsplit ⊢
    rw [(List.cons.inj hsplit).1]
    exact List.mem_cons_self
  rcases edge_iff.1 hedge with hnil | hfeed | ⟨u, hu⟩ | ⟨u, hu, -⟩
  · exact absurd (List.append_eq_nil_iff.1 hnil).1 h.ne_nil
  · rw [hdata] at hfeed ⊢
    exact hfeed
  · rcases hslash with hnot | ⟨hone, -, hline, -⟩
    · exact absurd (hmem _ hu) hnot
    · exact absurd hone (hopens _ _ hu hline)
  · rcases hslash with hnot | ⟨hone, -, -, hblock⟩
    · exact absurd (hmem _ hu) hnot
    · exact absurd hone (hopens _ _ hu hblock)

/-- A token that stays leaves itself in front of what is left of the text behind it. -/
theorem leaves_of_plain {lineStart : Bool} {kind : TokenKind} {data rest left : Text}
    (hreads : Reads kind data rest) (hhash : lineStart = true → NoHash (data ++ rest))
    (hcomment : kind.isComment = false) (h : Leaves (startBehind lineStart kind data) rest left) :
    Leaves lineStart (data ++ rest) (data ++ left) := by
  have hsame : (data ++ left).head? = (data ++ rest).head? := by
    obtain ⟨c, t, hdata⟩ := List.exists_cons_of_ne_nil hreads.ne_nil
    rw [hdata]
    rfl
  refine ⟨?_, ?_, fun _ _ d hd => .inr ?_, fun _ hedge c hc => ?_⟩
  · rw [hreads.hasInclude_iff hhash hcomment]
    exact h.quiet
  · rcases hreads.slash hcomment with hmem | ⟨hone, hcode, hline, hblock⟩
    · refine (noComment_of_notMem hmem).append h.bare fun hlast => ?_
      exact absurd (List.mem_of_getLast? hlast) hmem
    · -- Behind a slash stands the same character as before, or a line feed.
      have hhead := h.head (startBehind_of_isCode hcode lineStart data) hline
      rw [hone]
      refine List.IsChain.cons h.bare fun d hd _ => ?_
      rcases hhead d hd with rfl | hrest
      · decide
      · exact ⟨fun heq => hline (by rw [hrest, heq]), fun heq => hblock (by rw [hrest, heq])⟩
  · rw [← hsame]
    exact hd
  · have hfeed := hreads.endsLine_of_edge hcomment hedge
    obtain ⟨t, hdata⟩ := List.head?_eq_some_iff.1 hfeed
    rw [hdata] at hc
    exact (Option.some.inj hc).symm

end Scan

namespace Expansion

open Scan (MayFollow Leaves)

/-- **What the walk over the tokens of a text leaves,** in front of a text that may follow. Fragments
are spliced in as texts that may follow if what is behind them may. -/
theorem leaves_ofTokens {splice : IncludeFrame → Text → Logged (List Token)} {file root : FileName}
    {above : List IncludeFrame} {behind : Text} (hbehind : MayFollow behind)
    (hsplice : ∀ frame path inner, (splice frame path).result = .ok inner →
      ∀ left, MayFollow left → MayFollow (Token.toText inner ++ left))
    {lineStart : Bool} {s : Text} {line : Int} {out : List Token}
    (h : (ofTokens splice file root above (Scan.tokensFrom line lineStart s)).result = .ok out) :
    Leaves lineStart s (Token.toText out ++ behind) := by
  induction lineStart, s using Scan.scan_induction generalizing line out with
  | nil lineStart =>
    rw [Scan.tokensFrom_nil] at h
    obtain rfl : [] = out := Except.ok.inj h
    exact ⟨hbehind.not_hasInclude _, hbehind.bare, fun _ _ c hc => .inl (hbehind.endsLine c hc),
      fun _ _ => hbehind.endsLine⟩
  | cons lineStart kind data rest hstarts ih =>
    rw [Scan.tokensFrom_append hstarts] at h
    obtain ⟨out', hrest, hfirst⟩ := exists_toText_of_cons h
    have hleft := ih hrest
    by_cases hkind : kind = .directive
    · -- What is behind a directive may follow it, so it may follow what the directive leaves.
      subst hkind
      obtain ⟨rfl, hedge⟩ := hstarts.of_directive
      have hfollow : MayFollow (Token.toText out' ++ behind) := Leaves.mayFollow hleft hedge
      rcases hfirst with ⟨left, hdata, htext⟩ | ⟨path, inner, -, hinner, htext⟩
      · have hfront := (Scan.leftDirective_of_left? hstarts hdata).front hfollow
        rw [htext, List.append_assoc]
        exact ⟨hfront.1, hfront.2, nofun, nofun⟩
      · have hfront := hsplice _ path inner hinner _ hfollow
        rw [htext, List.append_assoc]
        exact ⟨hfront.not_hasInclude _, hfront.bare, nofun, nofun⟩
    · rcases hfirst with ⟨left, hdata, htext⟩ | ⟨path, inner, hfate, -, -⟩
      · rw [htext, List.append_assoc]
        cases hstarts with
        | directive _ _ _ => exact absurd rfl hkind
        | plain hhash hreads =>
          by_cases hcomment : kind.isComment = true
          · rw [Token.lexeme, Scan.left?, if_pos hcomment] at hdata
            obtain rfl := Option.some.inj hdata
            exact Scan.leaves_of_comment hreads hcomment hleft
          · rw [Token.lexeme, Scan.left?, if_neg hcomment, if_pos hkind] at hdata
            obtain rfl := Option.some.inj hdata
            exact Scan.leaves_of_plain hreads hhash (by simpa using hcomment) hleft
      · exact absurd (kind_of_isInclude (of_fetched hfate).1) hkind

/-- **The text of a walk may stand behind a directive,** in front of any text that may.

The induction is on how many paths are still closed. -/
theorem mayFollow_ofText {store : FragmentStore} {opened : List Text} {above : List IncludeFrame}
    {file : FileName} {text : Text} {out : List Token}
    (h : (ofText store opened above file text).result = .ok out) {behind : Text}
    (hbehind : MayFollow behind) : MayFollow (Token.toText out ++ behind) := by
  induction hn : (closedPaths store opened).length using Nat.strongRecOn
    generalizing opened above file text out behind with
  | ind n ih =>
    rw [ofText_eq, fileTokens_eq] at h
    obtain ⟨out', hrest, hfirst⟩ := exists_toText_of_cons h
    have hsplice : ∀ frame path inner, (splice store opened above file frame path).result = .ok inner →
        ∀ left, MayFollow left → MayFollow (Token.toText inner ++ left) := by
      intro frame path inner hinner left hleft
      obtain ⟨fragment, hs, ho, hwalk⟩ := walked_of_splice_ok hinner
      exact ih _ (hn ▸ length_closedPaths_lt hs ho) hwalk hleft rfl
    have hleaves := leaves_ofTokens hbehind hsplice hrest
    rcases hfirst with ⟨left, hleft, htext⟩ | ⟨path, inner, hfate, -, -⟩
    · -- A file starts with a line feed, so it may follow whatever its first token is.
      obtain rfl : ['\n'] = left := Option.some.inj hleft
      rw [htext, List.append_assoc, List.singleton_append]
      refine ⟨Scan.endsLine_lineFeed _, ?_, ?_⟩
      · rw [Scan.hasInclude_cons_iff (.inr (by decide))]
        exact hleaves.quiet
      · exact List.IsChain.cons hleaves.bare fun d _ hc => absurd hc (by decide)
    · cases hfate

/-- **A walked text** opens no comment, and nothing in it is an include. -/
theorem mayFollow_ofSource {store : FragmentStore} {name : FileName} {source text : Text}
    (h : (ofSource store name source).result = .ok text) : MayFollow text := by
  rw [ofSource, Logged.result_map] at h
  cases hwalk : (ofText store (openedBy store name source) [] name source).result with
  | error fault => rw [hwalk] at h; cases h
  | ok out =>
    rw [hwalk] at h
    obtain rfl := Except.ok.inj h
    have hfollow := mayFollow_ofText hwalk Scan.mayFollow_nil
    rwa [List.append_nil] at hfollow

/-- **No comment is left in a walked text, and none comes about in it.** Whatever is dropped, rewritten
or spliced in, neither opener stands anywhere in what the walk collects. -/
theorem not_infix_opener_ofSource {store : FragmentStore} {name : FileName} {source text : Text}
    (h : (ofSource store name source).result = .ok text) :
    ¬ String.toList "//" <:+: text ∧ ¬ String.toList "/*" <:+: text :=
  Scan.noComment_iff_not_infix.1 (mayFollow_ofSource h).bare

/-- A slash at the end of a line, one in front of a comment that is dropped, one at the end of a
directive that goes on and the ends of two texts all stay apart from the slashes behind them. -/
theorem not_infix_opener_ofSource_of_slashes :
    (ofSource (FragmentStore.empty.insert "a" "#define A x/\\\n/ y/*\n*/ /* never closed //") (.text "b")
      "a/ /* b */ /c // d\n#define B/**/\n#include <a> // e\n/ f").result
        = .ok "\na/  /c \n#define B 1\n\n#define A x/\\\n/ y\n/ f\n" ∧
    ¬ String.toList "//"
        <:+: String.toList "\na/  /c \n#define B 1\n\n#define A x/\\\n/ y\n/ f\n" ∧
    ¬ String.toList "/*"
        <:+: String.toList "\na/  /c \n#define B 1\n\n#define A x/\\\n/ y\n/ f\n" := by
  have hwalk : (ofSource (FragmentStore.empty.insert "a" "#define A x/\\\n/ y/*\n*/ /* never closed //")
      (.text "b") "a/ /* b */ /c // d\n#define B/**/\n#include <a> // e\n/ f").result
        = .ok "\na/  /c \n#define B 1\n\n#define A x/\\\n/ y\n/ f\n" := by
    apply ok_of_toOption
    decide +kernel
  exact ⟨hwalk, not_infix_opener_ofSource hwalk⟩

end Expansion

end GlslCompose
