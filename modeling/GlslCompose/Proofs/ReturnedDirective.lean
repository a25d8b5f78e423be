/-
`Proofs/ReturnedDirective.lean` -- what a directive says does not depend on its line ends.

A directive can run over several lines, behind backslashes and in comments, so it has line
ends inside it that can be spelled in two ways. Each step of reading it takes related texts
to related texts: its comments, its keyword, the parts of a define and the argument of an
include.

A directive also has a line end behind it, and there a carriage return belongs to the
directive while the line feed does not. So the second relation here is between directives
in front of a line feed, `Returned (s ++ ['\n']) (t ++ ['\n'])`, where `t` may have one
carriage return more at its end. The keyword and the argument of an include do not show it
(`keyword_eq_of_lineFeed`, `includeArgument_of_lineFeed`). But blanks at the end of a
directive are trimmed only where no carriage return stands behind them, so apart from
includes the directives are still related only if there was nothing to trim
(`withoutComments_of_lineFeed`).
-/
import GlslCompose.Proofs.Returned

set_option autoImplicit false

namespace GlslCompose

open Text (Returned)

/-! ## Comments -/

namespace Text.Returned

variable {s t : Text}

/-- **A comment is closed in both texts or in none.** -/
theorem closeComment? (h : Returned s t) :
    Option.Rel (fun found found' => Returned found.1 found'.1 ∧ Returned found.2 found'.2)
      (Scan.closeComment? s) (Scan.closeComment? t) := by
  induction h with
  | nil => exact .none
  | @same c s t hrest ih =>
    by_cases hclose : c = '*' ∧ s.head? = some '/'
    · obtain ⟨rfl, hs⟩ := hclose
      obtain ⟨s', rfl⟩ := List.head?_eq_some_iff.1 hs
      obtain ⟨t', rfl, ht⟩ := hrest.exists_of_cons_of_ne (by decide)
      exact .some ⟨.refl _, ht⟩
    · have hs : c = '*' → s.head? ≠ some '/' := fun hc hhead => hclose ⟨hc, hhead⟩
      have ht : c = '*' → t.head? ≠ some '/' := fun hc => hrest.head?_ne (by decide) (hs hc)
      rw [Scan.closeComment?.eq_3 c s (ne_pair hs), Scan.closeComment?.eq_3 c t (ne_pair ht)]
      exact rel_map ih fun _ _ hfound => ⟨.same hfound.1, hfound.2⟩
  | @feed s t _ ih =>
    have hfeed : ∀ u v : Text, '\n' = '*' → u = '/' :: v → False := fun _ _ h _ => absurd h (by decide)
    have hreturn : ∀ u v : Text, '\r' = '*' → u = '/' :: v → False := fun _ _ h _ => absurd h (by decide)
    rw [Scan.closeComment?.eq_3 '\n' s (hfeed s), Scan.closeComment?.eq_3 '\r' _ (hreturn _),
      Scan.closeComment?.eq_3 '\n' t (hfeed t), Option.map_map]
    exact rel_map ih fun _ _ hfound => ⟨.feed hfound.1, hfound.2⟩

theorem closedComment? (h : Returned s t) :
    Option.Rel (fun found found' => Returned found.1 found'.1 ∧ Returned found.2 found'.2)
      (Scan.closedComment? s) (Scan.closedComment? t) := by
  by_cases hopens : ∃ u, s = '/' :: '*' :: u
  · obtain ⟨u, rfl⟩ := hopens
    obtain ⟨t', rfl, hstar⟩ := h.exists_of_cons_of_ne (by decide)
    obtain ⟨v, rfl, hbody⟩ := hstar.exists_of_cons_of_ne (by decide)
    rw [Scan.closedComment?, Scan.closedComment?]
    exact rel_map hbody.closeComment? fun _ _ hfound => ⟨.same (.same hfound.1), hfound.2⟩
  · have hnone : ∀ u, (∀ v, u ≠ '/' :: '*' :: v) → Scan.closedComment? u = none := by
      intro u hne
      unfold Scan.closedComment?
      split
      · exact absurd rfl (hne _)
      · rfl
    rw [hnone s fun u hu => hopens ⟨u, hu⟩, hnone t fun v hv => ?_]
    · exact .none
    · subst hv
      obtain ⟨s', rfl, hstar⟩ := h.exists_of_cons_right (by decide)
      obtain ⟨u, rfl, -⟩ := hstar.exists_of_cons_right (by decide)
      exact hopens ⟨u, rfl⟩

theorem blankComments (h : Returned s t) :
    Returned (Directive.blankComments s) (Directive.blankComments t) := by
  fun_induction Directive.blankComments s generalizing t with
  | case1 s body rest hclosed _ ih =>
    rcases rel_cases h.closedComment? with ⟨hnone, -⟩ | ⟨_, _, hsome, hclosed', -, hrest⟩
    · rw [hclosed] at hnone
      cases hnone
    · rw [hclosed] at hsome
      obtain rfl := Option.some.inj hsome
      rw [Directive.blankComments_of_some hclosed']
      exact .same (ih hrest)
  | case2 _ =>
    rw [h.eq_nil_iff.2 rfl, Directive.blankComments_nil]
    exact .nil
  | case3 c s hclosed ih =>
    rcases h.exists_of_cons with ⟨u, rfl, hu⟩ | ⟨rfl, u, rfl, hu⟩
    · rcases rel_cases h.closedComment? with ⟨-, hnone⟩ | ⟨_, _, hsome, -, -⟩
      · rw [Directive.blankComments_of_none hnone]
        exact .same (ih hu)
      · rw [hclosed] at hsome
        cases hsome
    · rw [Directive.blankComments_cons (by decide), Directive.blankComments_cons (by decide)]
      exact .feed (ih hu)

/-! ## The keyword and the argument of an include -/

theorem afterHash? (h : Returned s t) :
    Option.Rel Returned (Directive.afterHash? s) (Directive.afterHash? t) := by
  have hskip := h.skipBlanks
  by_cases hhash : (Text.skipBlanks s).head? = some '#'
  · obtain ⟨u, hu⟩ := List.head?_eq_some_iff.1 hhash
    rw [hu] at hskip
    obtain ⟨v, hv, hrest⟩ := hskip.exists_of_cons_of_ne (by decide)
    unfold Directive.afterHash?
    rw [hu, hv]
    exact .some hrest.skipBlanks
  · have hnone : ∀ u, (Text.skipBlanks u).head? ≠ some '#' → Directive.afterHash? u = none := by
      intro u hne
      unfold Directive.afterHash?
      split
      · rename_i heq
        rw [heq] at hne
        exact absurd rfl hne
      · rfl
    rw [hnone s hhash, hnone t (hskip.head?_ne (by decide) hhash)]
    exact .none

theorem keyword_eq (h : Returned s t) : Directive.keyword t = Directive.keyword s := by
  unfold Directive.keyword
  rcases rel_cases h.afterHash? with ⟨hs, ht⟩ | ⟨_, _, hs, ht, hbehind⟩
  · rw [hs, ht]
  · rw [hs, ht]
    exact hbehind.word_eq

theorem includeArgument (h : Returned s t) :
    Returned (Directive.includeArgument s) (Directive.includeArgument t) := by
  unfold Directive.includeArgument
  have hrel := rel_bind h.afterHash? fun _ _ hbehind =>
    hbehind.after? (by decide : '\n' ∉ String.toList "include") (by decide)
  rcases rel_cases hrel with ⟨hs, ht⟩ | ⟨_, _, hs, ht, hargument⟩
  · rw [hs, ht]
    exact .nil
  · rw [hs, ht]
    exact hargument.strip

end Text.Returned

namespace Text

theorem trimEnd_concat_of_class {p : Char → Bool} {c : Char} (hc : p c = true) (s : Text) :
    trimEnd p (s ++ [c]) = trimEnd p s := by
  have hone : ∀ d ∈ [c], p d = true := by simpa using hc
  rcases all_or_exists_append p s with hall | ⟨front, d, behind, rfl, hd, hbehind⟩
  · rw [trimEnd_eq_nil_of_all hall, trimEnd_eq_nil_of_all]
    exact List.forall_mem_append.2 ⟨hall, hone⟩
  · rw [trimEnd_append hd hbehind, List.append_assoc, List.cons_append, trimEnd_append hd]
    exact List.forall_mem_append.2 ⟨hbehind, hone⟩

theorem strip_concat {c : Char} (hc : isBlank c = true) (s : Text) : strip (s ++ [c]) = strip s := by
  have hskip := skipBlanks_concat hc s
  unfold strip trim
  unfold skipBlanks at hskip
  rw [hskip]
  split
  · rename_i hnil
    rw [hnil]
  · exact trimEnd_concat_of_class hc _

/-- A character that stands in no beginning does not complete one. -/
theorem after?_concat {lead : Text} {c : Char} (hc : c ∉ lead) (s : Text) :
    after? lead (s ++ [c]) = (after? lead s).map (· ++ [c]) := by
  induction lead generalizing s with
  | nil => rfl
  | cons d lead ih =>
    rw [List.mem_cons, not_or] at hc
    cases s with
    | nil =>
      rw [List.nil_append, after?.eq_3, if_neg (Ne.symm hc.1)]
      rfl
    | cons e s =>
      rw [List.cons_append, after?, after?]
      split
      · exact ih hc.2 s
      · rfl

end Text

namespace Directive

theorem afterHash?_concat {c : Char} (hc : Text.isBlank c = true) (s : Text) :
    afterHash? (s ++ [c]) = (afterHash? s).map fun behind =>
      if behind = [] then [] else behind ++ [c] := by
  unfold afterHash?
  rw [Text.skipBlanks_concat hc]
  cases Text.skipBlanks s with
  | nil => rfl
  | cons d s =>
    by_cases hd : d = '#'
    · subst hd
      exact congrArg some (Text.skipBlanks_concat hc s)
    · simp [hd]

/-- The argument of an include does not depend on a blank at the end. -/
theorem includeArgument_concat {c : Char} (hc : Text.isBlank c = true)
    (hletter : c ∉ String.toList "include") (s : Text) :
    includeArgument (s ++ [c]) = includeArgument s := by
  unfold includeArgument
  rw [afterHash?_concat hc]
  cases afterHash? s with
  | none => rfl
  | some behind =>
    rw [Option.map_some, Option.bind_some, Option.bind_some]
    by_cases hnil : behind = []
    · rw [if_pos hnil, hnil]
    · rw [if_neg hnil, Text.after?_concat hletter]
      cases Text.after? (String.toList "include") behind with
      | none => rfl
      | some argument => exact Text.strip_concat hc argument

/-! ## Behind the directive -/

/-- What a blank at the end does not change, the trimming of blanks does not change. -/
theorem eq_withoutComments {α : Type} {f : Text → α} (hspace : ∀ s, f (s ++ [' ']) = f s)
    (htab : ∀ s, f (s ++ ['\t']) = f s) (data : Text) :
    f (withoutComments data) = f (blankComments data) := by
  unfold withoutComments
  generalize blankComments data = s
  induction s using List.reverseRecOn with
  | nil => rfl
  | append_singleton s c ih =>
    by_cases hc : isTrailing c = true
    · rw [Text.trimEnd_concat_of_class hc, ih]
      rcases (by simpa [isTrailing] using hc : c = ' ' ∨ c = '\t') with rfl | rfl
      · exact (hspace s).symm
      · exact (htab s).symm
    · rw [Text.trimEnd_concat (by simpa using hc)]

variable {s t : Text}

theorem keyword_withoutComments (data : Text) :
    keyword (withoutComments data) = keyword (blankComments data) :=
  eq_withoutComments (keyword_concat (by decide) (by decide)) (keyword_concat (by decide) (by decide)) data

theorem includeArgument_withoutComments (data : Text) :
    includeArgument (withoutComments data) = includeArgument (blankComments data) :=
  eq_withoutComments (includeArgument_concat (by decide) (by decide))
    (includeArgument_concat (by decide) (by decide)) data

/-- In front of a line feed, comments are related as they are elsewhere. -/
theorem blankComments_of_lineFeed (h : Returned (s ++ ['\n']) (t ++ ['\n'])) :
    Returned (blankComments s ++ ['\n']) (blankComments t ++ ['\n']) := by
  have hblank := h.blankComments
  rwa [blankComments_concat s (by decide), blankComments_concat t (by decide)] at hblank

theorem keyword_eq_of_lineFeed (h : Returned (s ++ ['\n']) (t ++ ['\n'])) :
    keyword (withoutComments t) = keyword (withoutComments s) := by
  have hkeyword := (blankComments_of_lineFeed h).keyword_eq
  rw [keyword_concat (by decide) (by decide), keyword_concat (by decide) (by decide)] at hkeyword
  rw [keyword_withoutComments, keyword_withoutComments, hkeyword]

theorem includeArgument_of_lineFeed (h : Returned (s ++ ['\n']) (t ++ ['\n'])) :
    Returned (includeArgument (withoutComments s)) (includeArgument (withoutComments t)) := by
  have hargument := (blankComments_of_lineFeed h).includeArgument
  rw [includeArgument_concat (by decide) (by decide),
    includeArgument_concat (by decide) (by decide)] at hargument
  rwa [includeArgument_withoutComments, includeArgument_withoutComments]

/-- Two texts that are related in front of a line feed are related, or one carriage return stands in
front of that line feed. -/
theorem returned_or_of_lineFeed (h : Returned (s ++ ['\n']) (t ++ ['\n'])) :
    Returned s t ∨ ∃ u, t = u ++ ['\r'] ∧ Returned s u := by
  obtain ⟨s', feed, heq, hs, hfeed⟩ := h.exists_of_append
  rcases hfeed.exists_of_cons with ⟨end', rfl, hend⟩ | ⟨-, end', rfl, hend⟩
  · obtain rfl := hend.eq_nil_iff.2 rfl
    obtain ⟨rfl, -⟩ := List.append_inj' heq rfl
    exact .inl hs
  · obtain rfl := hend.eq_nil_iff.2 rfl
    have hsplit : t ++ ['\n'] = (s' ++ ['\r']) ++ ['\n'] := by rw [heq, List.append_assoc]; rfl
    obtain ⟨rfl, -⟩ := List.append_inj' hsplit rfl
    exact .inr ⟨s', rfl, hs⟩

/-- Blanks are trimmed off both texts, or a carriage return keeps them in the second. -/
theorem trimEnd_of_lineFeed (h : Returned (s ++ ['\n']) (t ++ ['\n'])) :
    Returned (Text.trimEnd isTrailing s ++ ['\n']) (Text.trimEnd isTrailing t ++ ['\n']) ∨
      Returned (s ++ ['\n']) (Text.trimEnd isTrailing t ++ ['\n']) := by
  rcases returned_or_of_lineFeed h with hrel | ⟨u, rfl, -⟩
  · exact .inl ((hrel.trimEnd (by decide)).append (.refl _))
  · rw [Text.trimEnd_concat (by decide)]
    exact .inr h

/-- **A directive that has nothing to trim** has nothing to trim with a carriage return behind it. -/
theorem withoutComments_of_lineFeed (h : Returned (s ++ ['\n']) (t ++ ['\n']))
    (htrim : withoutComments s = blankComments s) :
    Returned (withoutComments s ++ ['\n']) (withoutComments t ++ ['\n']) := by
  rcases trimEnd_of_lineFeed (blankComments_of_lineFeed h) with hrel | hrel
  · exact hrel
  · rw [htrim]
    exact hrel

/-! ## Defines -/

/-- The parts of two defines, the same but for carriage returns. -/
structure PartsReturned (parts parts' : DefineParts) : Prop where
  head : Returned parts.head parts'.head
  macroName : Returned parts.macroName parts'.macroName
  tail : Returned parts.tail parts'.tail

/-- A directive in which a define has a value. -/
def valued (data : Text) : Text :=
  match defineParts? data with
  | some parts =>
    if Text.isBlankText parts.tail then parts.head ++ parts.macroName ++ " 1" else data
  | none => data

/-- Whether a directive is a define without a value. -/
def lacksValue (data : Text) : Bool := (defineParts? data).any fun parts => Text.isBlankText parts.tail

theorem normalDefine_eq (data : Text) : normalDefine data = valued (withoutComments data) := rfl

theorem defineParts?_of_not_hash {data : Text} (h : (Text.skipBlanks data).head? ≠ some '#') :
    defineParts? data = none := by
  unfold defineParts?
  dsimp only
  split
  · rename_i heq
    exact absurd (congrArg List.head? heq) h
  · rfl

theorem parameters_of_ne {s : Text} (h : s.head? ≠ some '(') : parameters s = ([], s) := by
  unfold parameters
  split
  · exact absurd rfl h
  · rfl

end Directive

namespace Text

variable {s t : Text}

theorem Returned.cutFirst? {sep : Char} (hfeed : sep ≠ '\n') (hreturn : sep ≠ '\r') (h : Returned s t) :
    Option.Rel (fun found found' => Returned found.1 found'.1 ∧ Returned found.2 found'.2)
      (Text.cutFirst? sep s) (Text.cutFirst? sep t) := by
  induction h with
  | nil => exact .none
  | @same c s t h ih =>
    rw [Text.cutFirst?, Text.cutFirst?]
    split
    · exact .some ⟨.nil, h⟩
    · exact rel_map ih fun _ _ hfound => ⟨.same hfound.1, hfound.2⟩
  | feed _ ih =>
    rw [Text.cutFirst?, Text.cutFirst?, Text.cutFirst?, if_neg (Ne.symm hfeed),
      if_neg (Ne.symm hreturn), if_neg (Ne.symm hfeed), Option.map_map]
    exact rel_map ih fun _ _ hfound => ⟨.feed hfound.1, hfound.2⟩

theorem Returned.parameters (h : Returned s t) :
    Returned (Directive.parameters s).1 (Directive.parameters t).1 ∧
      Returned (Directive.parameters s).2 (Directive.parameters t).2 := by
  by_cases hopens : s.head? = some '('
  · obtain ⟨u, rfl⟩ := List.head?_eq_some_iff.1 hopens
    obtain ⟨v, rfl, hinner⟩ := h.exists_of_cons_of_ne (by decide)
    rw [Directive.parameters, Directive.parameters]
    rcases rel_cases (hinner.cutFirst? (show ')' ≠ '\n' by decide) (by decide)) with
      ⟨hu, hv⟩ | ⟨⟨_, _⟩, ⟨_, _⟩, hu, hv, hfound⟩
    · rw [hu, hv]
      exact ⟨.nil, h⟩
    · rw [hu, hv]
      exact ⟨(Returned.same hfound.1).append (.refl _), hfound.2⟩
  · rw [Directive.parameters_of_ne hopens, Directive.parameters_of_ne (h.head?_ne (by decide) hopens)]
    exact ⟨.nil, h⟩

theorem Returned.partsBehind? {front front' : Text} (hfront : Returned front front') (h : Returned s t) :
    Option.Rel Directive.PartsReturned (Directive.partsBehind? front s)
      (Directive.partsBehind? front' t) := by
  have hspace := h.takeWhile (p := isBlank) (by decide)
  have hempty : (t.takeWhile isBlank).isEmpty = (s.takeWhile isBlank).isEmpty := by
    rw [Bool.eq_iff_iff, List.isEmpty_iff, List.isEmpty_iff, hspace.eq_nil_iff]
  have hparams := (h.skipBlanks.dropWhile (p := isWord) (by decide)).parameters
  unfold Directive.partsBehind?
  dsimp only
  rw [hempty, h.skipBlanks.word_eq]
  split
  · exact .none
  · exact .some ⟨hfront.append hspace, (Returned.refl _).append hparams.1, hparams.2⟩

/-- **Both texts have the parts of a define, or neither has.** -/
theorem Returned.defineParts? (h : Returned s t) :
    Option.Rel Directive.PartsReturned (Directive.defineParts? s) (Directive.defineParts? t) := by
  have hskip := h.skipBlanks
  by_cases hhash : (Text.skipBlanks s).head? = some '#'
  · obtain ⟨u, hu⟩ := List.head?_eq_some_iff.1 hhash
    rw [hu] at hskip
    obtain ⟨v, hv, hrest⟩ := hskip.exists_of_cons_of_ne (by decide)
    rw [Directive.defineParts?_of_hash hu, Directive.defineParts?_of_hash hv]
    refine rel_bind (hrest.skipBlanks.after? (by decide) (by decide)) fun _ _ hbehind => ?_
    apply Returned.partsBehind? _ hbehind
    have hgap : Returned ('#' :: u.takeWhile isBlank) ('#' :: v.takeWhile isBlank) :=
      .same (hrest.takeWhile (by decide))
    exact ((h.takeWhile (by decide)).append hgap).append (.refl _)
  · rw [Directive.defineParts?_of_not_hash hhash,
      Directive.defineParts?_of_not_hash (hskip.head?_ne (by decide) hhash)]
    exact .none

theorem Returned.valued (h : Returned s t) : Returned (Directive.valued s) (Directive.valued t) := by
  unfold Directive.valued
  rcases rel_cases h.defineParts? with ⟨hs, ht⟩ | ⟨parts, parts', hs, ht, hparts⟩
  · rw [hs, ht]
    exact h
  · rw [hs, ht]
    dsimp only
    rw [hparts.tail.isBlankText_eq]
    split
    · exact (hparts.head.append hparts.macroName).append (.refl _)
    · exact h

/-- A run that ends before the text does is the same with something behind the text. -/
theorem takeWhile_append_of_ne_nil {p : Char → Bool} (h : s.dropWhile p ≠ []) (t : Text) :
    (s ++ t).takeWhile p = s.takeWhile p := by
  induction s with
  | nil => exact absurd rfl h
  | cons c s ih =>
    rw [List.dropWhile_cons] at h
    rw [List.cons_append, List.takeWhile_cons, List.takeWhile_cons]
    split
    · rename_i hc
      rw [if_pos hc] at h
      rw [ih h]
    · rfl

theorem cutFirst?_concat {sep c : Char} (hc : c ≠ sep) (s : Text) : cutFirst? sep (s ++ [c])
    = (cutFirst? sep s).map fun (before, behind) => (before, behind ++ [c]) := by
  induction s with
  | nil => simp [cutFirst?, hc]
  | cons d s ih =>
    rw [List.cons_append, cutFirst?, cutFirst?]
    split
    · rfl
    · rw [ih, Option.map_map, Option.map_map]
      rfl

end Text

namespace Directive

theorem parameters_concat {c : Char} (hopen : c ≠ '(') (hclose : c ≠ ')') (s : Text) :
    parameters (s ++ [c]) = ((parameters s).1, (parameters s).2 ++ [c]) := by
  by_cases hopens : s.head? = some '('
  · obtain ⟨u, rfl⟩ := List.head?_eq_some_iff.1 hopens
    rw [List.cons_append, parameters, parameters, Text.cutFirst?_concat hclose]
    cases Text.cutFirst? ')' u <;> rfl
  · have hends : (s ++ [c]).head? ≠ some '(' := by
      cases s with
      | nil => simpa using hopen
      | cons d s => exact hopens
    rw [parameters_of_ne hends, parameters_of_ne hopens]

/-- The parts of a define with a character at the end of what follows the macro. -/
def DefineParts.concat (parts : DefineParts) (c : Char) : DefineParts :=
  { parts with tail := parts.tail ++ [c] }

theorem isBlankText_concat {c : Char} (hblank : Text.isBlank c = true) (s : Text) :
    Text.isBlankText (s ++ [c]) = Text.isBlankText s := by
  rw [Text.isBlankText, List.all_append, List.all_cons, hblank]
  exact Bool.and_true _

section Blank

variable {c : Char} (hblank : Text.isBlank c = true) (hword : Text.isWord c = false)

include hblank hword

theorem partsBehind?_concat (front s : Text) :
    partsBehind? front (s ++ [c]) = (partsBehind? front s).map (DefineParts.concat · c) := by
  have hopen : c ≠ '(' := by
    rintro rfl
    exact absurd hblank (by decide)
  have hclose : c ≠ ')' := by
    rintro rfl
    exact absurd hblank (by decide)
  unfold partsBehind?
  rw [Text.skipBlanks_concat hblank]
  by_cases hname : Text.skipBlanks s = []
  · -- There is no name behind the keyword.
    rw [if_pos hname, hname]
    simp [Text.word]
  · have hends : ∀ d ∈ [c].head?, Text.isWord d = false := by
      rintro d ⟨⟩
      exact hword
    rw [if_neg hname, Text.takeWhile_append_of_ne_nil hname]
    dsimp only
    rw [Text.word_concat hword, Scan.dropWhile_append_of_head hends,
      parameters_concat hopen hclose]
    split <;> rfl

/-- **A blank at the end of a define** belongs to what follows the macro. -/
theorem defineParts?_concat (s : Text) :
    defineParts? (s ++ [c]) = (defineParts? s).map (DefineParts.concat · c) := by
  have hletter : c ∉ String.toList "define" := by
    intro hmem
    have hall : ∀ d ∈ String.toList "define", Text.isWord d = true := List.all_eq_true.1 (by decide)
    rw [hall c hmem] at hword
    cases hword
  -- The parts are read from the left, and no step before the last one comes to the blank.
  have hskip := Text.skipBlanks_concat hblank s
  by_cases hhash : (Text.skipBlanks s).head? = some '#'
  · obtain ⟨u, hu⟩ := List.head?_eq_some_iff.1 hhash
    rw [hu, if_neg (List.cons_ne_nil _ _), List.cons_append] at hskip
    have hs : s.dropWhile Text.isBlank ≠ [] := by
      intro hnil
      rw [show Text.skipBlanks s = [] from hnil] at hu
      cases hu
    rw [defineParts?_of_hash hu, defineParts?_of_hash hskip, Text.takeWhile_append_of_ne_nil hs,
      Text.skipBlanks_concat hblank]
    by_cases hgap : Text.skipBlanks u = []
    · rw [if_pos hgap, hgap]
      rfl
    · rw [if_neg hgap, Text.takeWhile_append_of_ne_nil hgap, Text.after?_concat hletter]
      cases Text.after? (String.toList "define") (Text.skipBlanks u) with
      | none => rfl
      | some behind => exact partsBehind?_concat hblank hword _ behind
  · have hhash' : (Text.skipBlanks (s ++ [c])).head? ≠ some '#' := by
      rw [hskip]
      split
      · exact nofun
      · rename_i hne
        rwa [List.head?_append_of_ne_nil _ hne]
    rw [defineParts?_of_not_hash hhash, defineParts?_of_not_hash hhash']
    rfl

/-- Blanks at its end do not give a define a value. -/
theorem lacksValue_concat (s : Text) : lacksValue (s ++ [c]) = lacksValue s := by
  unfold lacksValue
  rw [defineParts?_concat hblank hword]
  cases defineParts? s with
  | none => rfl
  | some parts => exact isBlankText_concat hblank parts.tail

/-- A define that gets a value gets it in place of the blanks at its end. -/
theorem valued_concat {s : Text} (h : lacksValue s = true) : valued (s ++ [c]) = valued s := by
  unfold valued lacksValue at *
  rw [defineParts?_concat hblank hword]
  cases hparts : defineParts? s with
  | none =>
    rw [hparts] at h
    cases h
  | some parts =>
    rw [hparts, Option.any_some] at h
    dsimp only [Option.map_some]
    rw [show (parts.concat c).tail = parts.tail ++ [c] from rfl, isBlankText_concat hblank, h]
    rfl

end Blank

/-- Trimming blanks makes no difference to a define that gets a value. -/
theorem valued_trimEnd {s : Text} (h : lacksValue (Text.trimEnd isTrailing s) = true) :
    lacksValue s = true ∧ valued s = valued (Text.trimEnd isTrailing s) := by
  induction s using List.reverseRecOn with
  | nil => exact ⟨h, rfl⟩
  | append_singleton s c ih =>
    by_cases hc : isTrailing c = true
    · rw [Text.trimEnd_concat_of_class hc] at h ⊢
      obtain ⟨hlacks, hvalued⟩ := ih h
      have hblank : Text.isBlank c = true ∧ Text.isWord c = false := by
        rcases (by simpa [isTrailing] using hc : c = ' ' ∨ c = '\t') with rfl | rfl <;> decide
      rw [lacksValue_concat hblank.1 hblank.2, valued_concat hblank.1 hblank.2 hlacks]
      exact ⟨hlacks, hvalued⟩
    · rw [Text.trimEnd_concat (by simpa using hc)] at h ⊢
      exact ⟨h, rfl⟩

/-- In front of a line feed, too, a define gets its value in both texts or in none. -/
theorem valued_of_lineFeed {s t : Text} (h : Returned (s ++ ['\n']) (t ++ ['\n'])) :
    Returned (valued s ++ ['\n']) (valued t ++ ['\n']) := by
  -- The line feed is a blank, so in both texts it belongs to what follows the macro.
  have hrel := h.defineParts?
  rw [defineParts?_concat (by decide) (by decide), defineParts?_concat (by decide) (by decide)] at hrel
  unfold valued
  rcases rel_cases hrel with ⟨hs, ht⟩ | ⟨_, _, hs, ht, hparts⟩
  · rw [Option.map_eq_none_iff] at hs ht
    rw [hs, ht]
    exact h
  · obtain ⟨parts, hparts_s, rfl⟩ := Option.map_eq_some_iff.1 hs
    obtain ⟨parts', hparts_t, rfl⟩ := Option.map_eq_some_iff.1 ht
    have htail := hparts.tail.isBlankText_eq
    simp only [DefineParts.concat, isBlankText_concat (show Text.isBlank '\n' = true by decide)] at htail
    rw [hparts_s, hparts_t]
    dsimp only
    rw [htail]
    split
    · exact ((hparts.head.append hparts.macroName).append (.refl _)).append (.refl _)
    · exact h

/-! ## Directives in front of a line feed -/

/-- **A directive that keeps its end:** there is nothing to trim, or it is a define that gets a value
there. -/
def KeepsEnd (data : Text) : Prop :=
  withoutComments data = blankComments data ∨
    keyword (withoutComments data) = "define" ∧ lacksValue (withoutComments data) = true

instance (data : Text) : Decidable (KeepsEnd data) :=
  inferInstanceAs (Decidable (_ ∨ _ ∧ _))

/-- What is trimmed off a text is nothing but blanks, which are no comments. -/
theorem blankComments_of_trimEnd {s : Text}
    (h : blankComments (Text.trimEnd isTrailing s) = Text.trimEnd isTrailing s) : blankComments s = s := by
  induction s using List.reverseRecOn with
  | nil => exact h
  | append_singleton s c ih =>
    by_cases hc : isTrailing c = true
    · rw [Text.trimEnd_concat_of_class hc] at h
      have hslash : c ≠ '/' := by
        rintro rfl
        exact absurd hc (by decide)
      rw [blankComments_concat s hslash, ih h]
    · rwa [Text.trimEnd_concat (by simpa using hc)] at h

/-- **A define that keeps its end** gets its value in both texts. -/
theorem normalDefine_of_lineFeed {s t : Text} (h : Returned (s ++ ['\n']) (t ++ ['\n']))
    (hself : blankComments (withoutComments s) = withoutComments s) (hends : KeepsEnd s) :
    Returned (normalDefine (withoutComments s) ++ ['\n'])
      (normalDefine (withoutComments t) ++ ['\n']) := by
  have htrimmed : Text.trimEnd isTrailing (withoutComments s) = withoutComments s :=
    Text.trimEnd_trimEnd _ _
  have hvalued : valued (blankComments s) = valued (withoutComments s) := by
    rcases hends with htrim | ⟨-, hlacks⟩
    · rw [htrim]
    · exact (valued_trimEnd hlacks).2
  -- Comments are taken out a second time, and the end is trimmed a second time.
  have hagain : ∀ u, Returned (u ++ ['\n']) (withoutComments t ++ ['\n']) → blankComments u = u →
      Text.trimEnd isTrailing u = withoutComments s → valued u = valued (withoutComments s) →
      Returned (valued (withoutComments s) ++ ['\n'])
        (valued (withoutComments (withoutComments t)) ++ ['\n']) := by
    intro u hu hblank htrim hvalue
    have hcomments := blankComments_of_lineFeed hu
    rw [hblank] at hcomments
    rcases trimEnd_of_lineFeed hcomments with hrel | hrel
    · rw [htrim] at hrel
      exact valued_of_lineFeed hrel
    · rw [← hvalue]
      exact valued_of_lineFeed hrel
  rw [normalDefine_eq, normalDefine_eq,
    show withoutComments (withoutComments s) = withoutComments s by rw [withoutComments, hself, htrimmed]]
  rcases trimEnd_of_lineFeed (blankComments_of_lineFeed h) with hrel | hrel
  · exact hagain _ hrel hself htrimmed rfl
  · exact hagain _ hrel (blankComments_of_trimEnd hself) rfl hvalued

/-! ## Directives without carriage returns -/

/-- The parts of a define make up the directive. -/
theorem defineParts?_flatten {s : Text} {parts : DefineParts} (h : defineParts? s = some parts) :
    parts.head ++ parts.macroName ++ parts.tail = s := by
  by_cases hhash : (Text.skipBlanks s).head? = some '#'
  · obtain ⟨u, hu⟩ := List.head?_eq_some_iff.1 hhash
    rw [defineParts?_of_hash hu] at h
    obtain ⟨behind, hbehind, hparts⟩ := Option.bind_eq_some_iff.1 h
    rw [Text.after?_eq_some_iff] at hbehind
    have hindent := List.takeWhile_append_dropWhile (p := Text.isBlank) (l := s)
    have hgap := List.takeWhile_append_dropWhile (p := Text.isBlank) (l := u)
    obtain ⟨more, hhead, hmore⟩ := exists_of_partsBehind? hparts
    rw [hhead, List.append_assoc, ← hmore, List.append_assoc, List.append_assoc, ← hbehind,
      List.cons_append, show u.takeWhile Text.isBlank ++ Text.skipBlanks u = u from hgap, ← hu]
    exact hindent
  · rw [defineParts?_of_not_hash hhash] at h
    cases h

section Bare

variable {s : Text} (h : '\r' ∉ s)

include h

theorem blankComments_bare : '\r' ∉ blankComments s := by
  fun_induction blankComments s with
  | case1 s body rest hclosed _ ih =>
    have hsplit := (Scan.closedComment?_split hclosed).1
    rw [List.mem_cons, not_or]
    exact ⟨by decide, ih fun hmem => h (hsplit ▸ List.mem_append_right _ hmem)⟩
  | case2 => exact h
  | case3 c s _ ih =>
    rw [List.mem_cons, not_or] at h ⊢
    exact ⟨h.1, ih h.2⟩

theorem withoutComments_bare : '\r' ∉ withoutComments s :=
  fun hmem => blankComments_bare h ((Text.trimEnd_isPrefix _ _).subset hmem)

theorem valued_bare : '\r' ∉ valued s := by
  unfold valued
  cases hparts : defineParts? s with
  | none => exact h
  | some parts =>
    dsimp only
    split
    · rw [← defineParts?_flatten hparts, List.mem_append, not_or] at h
      rw [List.mem_append, not_or]
      exact ⟨h.1, by decide⟩
    · exact h

end Bare

end Directive

end GlslCompose
