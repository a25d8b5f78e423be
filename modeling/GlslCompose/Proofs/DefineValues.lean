/-
`Proofs/DefineValues.lean` -- which defines of a source are left with the value `1`.

A define that says nothing behind its macro is given a value, and every other define stays what
it is without its comments. What counts as nothing is written down here apart from how a define
is read: `DefineLayout` says where the macro stands, with its parameter list, and `Slack` says
that a text is white space and continued lines.

The two agree up to the continued lines. White space behind the macro is no value, and a define
of that kind is left with `1`; a backslash at the end of a line is no value to a compiler and
one to the walk, so such a define is left as it is (`define_values`), and takes in whatever
line comes to stand behind it.

A define is read twice on its way through the walk, and each reading takes its comments out.
The second changes nothing, since what is left when the comments of a text are replaced holds
no comment (`blankComments_blankComments`).
-/
import GlslCompose.Proofs.KeptLines
import GlslCompose.Proofs.ReturnedDirective
import GlslCompose.Proofs.Stretches

set_option autoImplicit false

namespace GlslCompose

namespace Text

/-! ## The first separator -/

theorem cutFirst?_eq_some_iff {sep : Char} {s before behind : Text} :
    cutFirst? sep s = some (before, behind) ↔ s = before ++ sep :: behind ∧ sep ∉ before := by
  induction s generalizing before with
  | nil => simp [cutFirst?]
  | cons c s ih =>
    rw [cutFirst?]
    by_cases hc : c = sep
    · subst hc
      cases before with
      | nil => simp [eq_comm]
      | cons d before =>
        simp only [if_pos, List.cons_append, List.cons.injEq, List.mem_cons, not_or]
        constructor
        · intro h
          cases h
        · rintro ⟨⟨rfl, -⟩, hne, -⟩
          exact absurd rfl hne
    · rw [if_neg hc, Option.map_eq_some_iff]
      constructor
      · rintro ⟨⟨front, rest⟩, hcut, heq⟩
        obtain ⟨rfl, rfl⟩ := Prod.mk.inj heq
        obtain ⟨rfl, hfront⟩ := ih.1 hcut
        exact ⟨rfl, by simpa using ⟨Ne.symm hc, hfront⟩⟩
      · rintro ⟨hsplit, hbefore⟩
        cases before with
        | nil => exact absurd (List.cons.inj hsplit).1 hc
        | cons d before =>
          obtain ⟨rfl, rfl⟩ := List.cons.inj hsplit
          exact ⟨(before, behind), ih.2 ⟨rfl, fun hmem => hbefore (List.mem_cons_of_mem _ hmem)⟩, rfl⟩

theorem cutFirst?_eq_none_iff {sep : Char} {s : Text} : cutFirst? sep s = none ↔ sep ∉ s := by
  induction s with
  | nil => simp [cutFirst?]
  | cons c s ih =>
    rw [cutFirst?]
    by_cases hc : c = sep
    · simp [hc]
    · rw [if_neg hc, Option.map_eq_none_iff, ih]
      simp [Ne.symm hc]

/-! ## White space and continued lines -/

/-- **A text that says nothing:** white space, and backslashes that continue their line. -/
inductive Slack : Text → Prop
  | nil : Slack []
  | blank {c : Char} {s : Text} : isBlank c = true → Slack s → Slack (c :: s)
  | lineBreak {s : Text} : Slack s → Slack ('\\' :: '\n' :: s)
  | returnBreak {s : Text} : Slack s → Slack ('\\' :: '\r' :: '\n' :: s)

theorem isBlankText_append (s t : Text) :
    isBlankText (s ++ t) = (isBlankText s && isBlankText t) := List.all_append

theorem slack_of_isBlankText {s : Text} (h : isBlankText s = true) : Slack s := by
  induction s with
  | nil => exact .nil
  | cons c s ih =>
    obtain ⟨hc, hs⟩ := List.all_eq_true.1 h |> List.forall_mem_cons.1
    exact .blank hc (ih (List.all_eq_true.2 hs))

/-- What says nothing is blank, or blank up to a backslash. -/
theorem Slack.isBlankText_or {s : Text} (h : Slack s) : isBlankText s = true ∨
    isBlankText s = false ∧ ∃ blanks rest, s = blanks ++ '\\' :: rest ∧
      ∀ c ∈ blanks, isBlank c = true := by
  induction h with
  | nil => exact .inl rfl
  | @blank c s hc _ ih =>
    have hcons : isBlankText (c :: s) = isBlankText s := by
      rw [isBlankText, List.all_cons, hc]
      rfl
    rcases ih with hall | ⟨hsome, blanks, rest, rfl, hblanks⟩
    · exact .inl (hcons.trans hall)
    · exact .inr ⟨hcons.trans hsome, c :: blanks, rest, rfl, List.forall_mem_cons.2 ⟨hc, hblanks⟩⟩
  | lineBreak _ _ => exact .inr ⟨rfl, [], _, rfl, List.forall_mem_nil _⟩
  | returnBreak _ _ => exact .inr ⟨rfl, [], _, rfl, List.forall_mem_nil _⟩

/-- No word goes on where a text starts that says nothing. -/
theorem Slack.head?_append {s : Text} (h : Slack s) (hne : s ≠ []) (t : Text) :
    ∀ c ∈ (s ++ t).head?, isWord c = false := by
  cases h with
  | nil => exact absurd rfl hne
  | blank hc _ => exact Scan.head?_cons_eq_false (isWord_of_isBlank hc) _
  | lineBreak _ => exact Scan.head?_cons_eq_false (by decide) _
  | returnBreak _ => exact Scan.head?_cons_eq_false (by decide) _

end Text

namespace Directive

/-! ## Comments are taken out once -/

/-- A text in which no comment can close has none. -/
theorem blankComments_of_unclosed {s : Text} (h : ¬ ['*', '/'] <:+: s) : blankComments s = s := by
  induction s with
  | nil => exact blankComments_nil
  | cons c s ih =>
    have hs : blankComments s = s := ih fun hin => h (hin.trans (List.suffix_cons c s).isInfix)
    have hnone : Scan.closedComment? (c :: s) = none := by
      unfold Scan.closedComment?
      split
      · rename_i body heq
        have hsuffix : body <:+ c :: s := ⟨['/', '*'], heq.symm⟩
        rw [Scan.closeComment?_eq_none_iff.2 fun hin => h (hin.trans hsuffix.isInfix)]
        rfl
      · rfl
    rw [blankComments_of_none hnone, hs]

/-- **Without its comments a text has no comment.** -/
theorem blankComments_blankComments (s : Text) :
    blankComments (blankComments s) = blankComments s := by
  fun_induction blankComments s with
  | case1 s body rest _ _ ih => rw [blankComments_cons (by decide), ih]
  | case2 _ => exact blankComments_nil
  | case3 c s hclosed ih =>
    have hnone : Scan.closedComment? (c :: blankComments s) = none := by
      by_cases hslash : c = '/'
      · subst hslash
        by_cases hstar : (blankComments s).head? = some '*'
        · -- What opens a comment here opened one before, and that one is never closed.
          have hhead := (head?_blankComments s '*' hstar).resolve_left (by decide)
          obtain ⟨body, rfl⟩ := List.head?_eq_some_iff.1 hhead
          have hopen : Scan.closeComment? body = none := by
            simpa [Scan.closedComment?] using hclosed
          rw [blankComments_cons (by decide),
            blankComments_of_unclosed (Scan.closeComment?_eq_none_iff.1 hopen)]
          exact hclosed
        · exact closedComment?_of_head hstar
      · exact closedComment?_of_ne hslash _
    rw [blankComments_of_none hnone, ih]

/-- The beginning of a text without comments has none. -/
theorem blankComments_left {s t : Text} (h : blankComments (s ++ t) = s ++ t) : blankComments s = s := by
  induction s with
  | nil => exact blankComments_nil
  | cons c s ih =>
    rw [List.cons_append] at h
    have hnone : Scan.closedComment? (c :: (s ++ t)) = none := by
      cases hclosed : Scan.closedComment? (c :: (s ++ t)) with
      | none => rfl
      | some found =>
        -- A comment would be a blank by now, and no comment starts with a blank.
        rw [blankComments_of_some hclosed] at h
        obtain ⟨rfl, -⟩ := List.cons.inj h
        rw [closedComment?_of_ne (by decide)] at hclosed
        cases hclosed
    have hfront : Scan.closedComment? (c :: s) = none := by
      unfold Scan.closedComment? at hnone ⊢
      split
      · rename_i body heq
        obtain ⟨rfl, rfl⟩ := List.cons.inj heq
        cases hclose : Scan.closeComment? body with
        | none => rfl
        | some found => simp [Scan.closeComment?_append hclose] at hnone
      · rfl
    rw [blankComments_of_none hnone] at h
    rw [blankComments_of_none hfront, ih (List.cons.inj h).2]

theorem blankComments_withoutComments (data : Text) :
    blankComments (withoutComments data) = withoutComments data := by
  obtain ⟨behind, hbehind⟩ := Text.trimEnd_isPrefix isTrailing (blankComments data)
  apply blankComments_left (t := behind)
  rw [withoutComments, hbehind, blankComments_blankComments]

/-- **Taking the comments out of a directive** a second time changes nothing. -/
theorem withoutComments_withoutComments (data : Text) :
    withoutComments (withoutComments data) = withoutComments data := by
  have htrimmed : Text.trimEnd isTrailing (withoutComments data) = withoutComments data :=
    Text.trimEnd_trimEnd _ _
  rw [withoutComments, blankComments_withoutComments, htrimmed]

/-! ## Where the macro stands -/

/-- **The macro of a define,** with its parameter list if it has one, in front of a text. The list runs
from a parenthesis right behind the name to the first one that closes. -/
inductive Macro : Text → Text → Prop
  | plain {name tail : Text} : name ≠ [] → (∀ c ∈ name, Text.isWord c = true) →
      (∀ c ∈ tail.head?, Text.isWord c = false) → (∀ rest, tail = '(' :: rest → ')' ∉ rest) →
      Macro name tail
  | listed {name inner tail : Text} : name ≠ [] → (∀ c ∈ name, Text.isWord c = true) →
      ')' ∉ inner → Macro (name ++ '(' :: (inner ++ [')'])) tail

/-- **The layout of a define:** what stands up to the keyword, the space behind it, in which lines may be
continued, the macro, and what follows. -/
structure DefineLayout (data front space macroName tail : Text) : Prop where
  behindKeyword : BehindKeyword "define" front data (space ++ (macroName ++ tail))
  slack : Text.Slack space
  ne_nil : space ≠ []
  isMacro : Macro macroName tail

/-- **A define without a value:** nothing stands behind the macro but white space and continued lines. -/
def Valueless (data : Text) : Prop :=
  ∃ front space macroName tail, DefineLayout data front space macroName tail ∧ Text.Slack tail

section Layout

variable {data front space macroName tail behind : Text} {parts : DefineParts}

/-- Behind a macro that is followed by a blank anything can stand. -/
theorem Macro.of_blank {c : Char} (h : Macro macroName tail) (hc : Text.isBlank c = true) (s : Text) :
    Macro macroName (c :: s) := by
  cases h with
  | plain hne hname _ _ =>
    refine .plain hne hname (Scan.head?_cons_eq_false (Text.isWord_of_isBlank hc) s) ?_
    rintro rest heq
    obtain ⟨rfl, -⟩ := List.cons.inj heq
    exact absurd hc (by decide)
  | listed hne hname hinner => exact .listed hne hname hinner

/-- A macro starts with its name, and what is read behind that is its parameter list. -/
theorem Macro.exists_name (h : Macro macroName tail) : ∃ name params, macroName = name ++ params ∧
    name ≠ [] ∧ (∀ c ∈ name, Text.isWord c = true) ∧ (∀ c ∈ (params ++ tail).head?, Text.isWord c = false) ∧
    parameters (params ++ tail) = (params, tail) := by
  cases h with
  | plain hne hname hhead hopen =>
    refine ⟨_, [], (List.append_nil _).symm, hne, hname, hhead, ?_⟩
    rw [List.nil_append]
    unfold parameters
    split
    · rename_i rest
      rw [Text.cutFirst?_eq_none_iff.2 (hopen rest rfl)]
    · rfl
  | @listed name inner _ hne hname hinner =>
    refine ⟨name, '(' :: (inner ++ [')']), rfl, hne, hname,
      Scan.head?_cons_eq_false (by decide) _, ?_⟩
    have hcut : Text.cutFirst? ')' (inner ++ [')'] ++ tail) = some (inner, tail) :=
      Text.cutFirst?_eq_some_iff.2 ⟨by rw [List.append_assoc]; rfl, hinner⟩
    rw [List.cons_append, parameters, hcut]
    rfl

theorem macro_of_parameters {name s : Text} (hne : name ≠ [])
    (hname : ∀ c ∈ name, Text.isWord c = true) (hhead : ∀ c ∈ s.head?, Text.isWord c = false) :
    Macro (name ++ (parameters s).1) (parameters s).2 := by
  unfold parameters
  split
  · split
    · rename_i hcut
      exact .listed hne hname (Text.cutFirst?_eq_some_iff.1 hcut).2
    · rename_i hcut
      rw [List.append_nil]
      refine .plain hne hname hhead fun rest heq => ?_
      obtain ⟨-, rfl⟩ := List.cons.inj heq
      exact Text.cutFirst?_eq_none_iff.1 hcut
  · rename_i hopen
    rw [List.append_nil]
    exact .plain hne hname hhead fun rest heq => absurd heq (hopen rest)

/-! ## How a define is read -/

/-- The parts of a define are read from what stands behind its keyword. -/
theorem BehindKeyword.defineParts?_eq (h : BehindKeyword "define" front data behind) :
    defineParts? data = partsBehind? front behind := by
  obtain ⟨rfl, ⟨indent, gap, rfl, hindent, hgap⟩, -⟩ := h
  have hletter : ∀ c ∈ (String.toList "define" ++ behind).head?, Text.isBlank c = false := by
    rintro c ⟨⟩
    decide
  obtain ⟨htake, hskip⟩ := Scan.takeWhile_eq_of_all (t := '#' :: (gap ++ (String.toList "define" ++ behind)))
    hindent (Scan.head?_cons_eq_false (by decide) _)
  obtain ⟨hgap, hword⟩ := Scan.takeWhile_eq_of_all hgap hletter
  rw [List.append_assoc, List.cons_append, List.append_assoc, defineParts?_of_hash hskip, htake,
    Text.skipBlanks, hword, hgap, Text.after?_eq_some_iff.2 rfl, Option.bind_some, List.append_assoc]
  rfl

/-- **Space in front of the macro** is only white space to the walk. -/
theorem DefineLayout.defineParts?_eq (h : DefineLayout data front space macroName tail) :
    defineParts? data
      = if Text.isBlankText space = true then some ⟨front ++ space, macroName, tail⟩ else none := by
  rw [h.behindKeyword.defineParts?_eq, partsBehind?]
  rcases h.slack.isBlankText_or with hall | ⟨hsome, blanks, rest, rfl, hblanks⟩
  · obtain ⟨name, params, rfl, hne, hname, hhead, hparams⟩ := h.isMacro.exists_name
    obtain ⟨c, name, rfl⟩ := List.exists_cons_of_ne_nil hne
    have hstart : ∀ d ∈ (c :: name ++ params ++ tail).head?, Text.isBlank d = false :=
      Scan.head?_cons_eq_false (Text.isBlank_of_isWord (hname c List.mem_cons_self)) _
    obtain ⟨htake, hskip⟩ := Scan.takeWhile_eq_of_all (List.all_eq_true.1 hall) hstart
    obtain ⟨hword, hbehind⟩ := Scan.takeWhile_eq_of_all hname hhead
    rw [if_pos hall, htake, Text.skipBlanks, hskip, List.append_assoc, Text.word, hword, hbehind, hparams]
    simp [h.ne_nil]
  · have hback : ∀ d ∈ ('\\' :: (rest ++ (macroName ++ tail))).head?, Text.isBlank d = false :=
      Scan.head?_cons_eq_false (by decide) _
    obtain ⟨-, hskip⟩ := Scan.takeWhile_eq_of_all hblanks hback
    rw [hsome, List.append_assoc, List.cons_append, Text.skipBlanks, hskip, Text.word,
      List.takeWhile_cons, if_neg (show ¬ Text.isWord '\\' = true by decide)]
    simp

/-- What is read as a define has its keyword, and the parts are read from what stands behind that. -/
theorem exists_behindKeyword_of_defineParts? (h : defineParts? data = some parts) :
    ∃ front behind, BehindKeyword "define" front data behind ∧ partsBehind? front behind = some parts := by
  by_cases hhash : (Text.skipBlanks data).head? = some '#'
  · obtain ⟨s, hs⟩ := List.head?_eq_some_iff.1 hhash
    rw [defineParts?_of_hash hs] at h
    obtain ⟨behind, hbehind, hparts⟩ := Option.bind_eq_some_iff.1 h
    rw [Text.after?_eq_some_iff] at hbehind
    have hindent := List.takeWhile_append_dropWhile (p := Text.isBlank) (l := data)
    have hgap := List.takeWhile_append_dropWhile (p := Text.isBlank) (l := s)
    have hspace := List.takeWhile_append_dropWhile (p := Text.isBlank) (l := behind)
    refine ⟨_, behind, ⟨?_, ⟨_, _, List.append_assoc _ _ _, Scan.all_takeWhile, Scan.all_takeWhile⟩,
      ?_⟩, hparts⟩
    · rw [List.append_assoc, List.append_assoc, ← hbehind, List.cons_append, Text.skipBlanks, hgap, ← hs]
      exact hindent.symm
    · -- There is a blank behind the keyword, so the keyword is a whole word.
      have hspaced : behind.takeWhile Text.isBlank ≠ [] := by
        intro hnone
        simp [partsBehind?, hnone] at hparts
      rw [← hspace]
      exact (Text.slack_of_isBlankText (List.all_eq_true.2 Scan.all_takeWhile)).head?_append hspaced _
  · rw [defineParts?_of_not_hash hhash] at h
    cases h

/-- **What is read as a define** has the layout of one, and no line is continued in front of its macro. -/
theorem exists_layout (h : defineParts? data = some parts) : ∃ front space,
    Text.isBlankText space = true ∧ DefineLayout data front space parts.macroName parts.tail := by
  obtain ⟨front, behind, hkeyword, hparts⟩ := exists_behindKeyword_of_defineParts? h
  have hspace := List.takeWhile_append_dropWhile (p := Text.isBlank) (l := behind)
  have hword := List.takeWhile_append_dropWhile (p := Text.isWord) (l := Text.skipBlanks behind)
  have hparams := parameters_split ((Text.skipBlanks behind).dropWhile Text.isWord)
  have hblank : Text.isBlankText (behind.takeWhile Text.isBlank) = true :=
    List.all_eq_true.2 Scan.all_takeWhile
  unfold partsBehind? at hparts
  dsimp only at hparts
  split at hparts
  · cases hparts
  · rename_i hne
    obtain rfl := Option.some.inj hparts
    obtain ⟨hspaced, hnamed⟩ : behind.takeWhile Text.isBlank ≠ [] ∧
        Text.word (Text.skipBlanks behind) ≠ [] := by
      simpa using hne
    refine ⟨front, behind.takeWhile Text.isBlank, hblank, ?_, Text.slack_of_isBlankText hblank, hspaced,
      macro_of_parameters hnamed Scan.all_takeWhile Scan.head?_dropWhile⟩
    rw [List.append_assoc, ← hparams, Text.word, hword, Text.skipBlanks, hspace]
    exact hkeyword

/-! ## Which defines are given a value -/

/-- A define lacks a value exactly if there is only white space around its macro. -/
theorem DefineLayout.lacksValue_eq (h : DefineLayout data front space macroName tail) :
    lacksValue data = Text.isBlankText (space ++ tail) := by
  rw [lacksValue, h.defineParts?_eq, Text.isBlankText_append]
  cases Text.isBlankText space with
  | true => rfl
  | false => rfl

theorem exists_layout_of_lacksValue (h : lacksValue data = true) : ∃ front space macroName tail,
    DefineLayout data front space macroName tail ∧ Text.isBlankText (space ++ tail) = true := by
  unfold lacksValue at h
  cases hparts : defineParts? data with
  | none =>
    rw [hparts] at h
    cases h
  | some parts =>
    rw [hparts, Option.any_some] at h
    obtain ⟨front, space, hspace, hlayout⟩ := exists_layout hparts
    exact ⟨front, space, _, _, hlayout, by rw [Text.isBlankText_append, hspace, h]; rfl⟩

theorem valued_of_not_lacksValue (h : lacksValue data = false) : valued data = data := by
  unfold valued lacksValue at *
  cases hparts : defineParts? data with
  | none => rfl
  | some parts =>
    rw [hparts, Option.any_some] at h
    dsimp only
    rw [h]
    rfl

/-- **A define is given the value `1`** in place of the white space behind its macro, and no other text
is changed. -/
theorem DefineLayout.valued_eq (h : DefineLayout data front space macroName tail) :
    valued data = if Text.isBlankText (space ++ tail) = true
      then front ++ (space ++ (macroName ++ " 1")) else data := by
  by_cases hblank : Text.isBlankText (space ++ tail) = true
  · have hspace : Text.isBlankText space = true ∧ Text.isBlankText tail = true := by
      simpa [Text.isBlankText] using hblank
    rw [if_pos hblank, valued, h.defineParts?_eq, if_pos hspace.1]
    dsimp only
    rw [if_pos hspace.2, List.append_assoc, List.append_assoc]
  · rw [if_neg hblank]
    exact valued_of_not_lacksValue (by rw [h.lacksValue_eq]; simpa using hblank)

/-- A define that was given a value has the layout that it had. -/
theorem DefineLayout.withOne (h : DefineLayout data front space macroName tail) : DefineLayout
    (front ++ (space ++ (macroName ++ " 1"))) front space macroName (String.toList " 1") :=
  ⟨⟨rfl, h.behindKeyword.upTo, h.slack.head?_append h.ne_nil _⟩, h.slack, h.ne_nil,
    h.isMacro.of_blank (by decide) _⟩

/-- Its keyword is the one that it had, and it has no comments. -/
theorem DefineLayout.withoutComments_withOne (h : DefineLayout data front space macroName tail)
    (hbare : blankComments data = data) :
    withoutComments (front ++ (space ++ (macroName ++ " 1")))
      = front ++ (space ++ (macroName ++ " 1")) := by
  have hsplit : ∀ s, front ++ (space ++ (macroName ++ s)) = front ++ (space ++ macroName) ++ s := by
    simp only [List.append_assoc, implies_true]
  rw [h.behindKeyword.split, hsplit] at hbare
  have hvalue : String.toList " 1" = [' '] ++ ['1'] := rfl
  rw [hsplit, hvalue, ← List.append_assoc, withoutComments, blankComments_concat _ (by decide),
    blankComments_concat _ (by decide), blankComments_left hbare]
  exact Text.trimEnd_concat (by decide)

/-! ## What the walk makes of a define -/

/-- What the walk makes of a define is decided by the define without its comments. -/
theorem normalDefine_withoutComments (data : Text) : normalDefine (withoutComments data)
    = if lacksValue (blankComments data) = true then valued (blankComments data)
      else withoutComments data := by
  have hlacks : lacksValue (withoutComments data) = lacksValue (blankComments data) :=
    eq_withoutComments (lacksValue_concat (by decide) (by decide))
      (lacksValue_concat (by decide) (by decide)) data
  rw [normalDefine_eq, withoutComments_withoutComments data]
  split
  · rename_i h
    exact (valued_trimEnd (hlacks.trans h)).2.symm
  · rename_i h
    exact valued_of_not_lacksValue (by rw [hlacks]; simpa using h)

theorem DefineLayout.normalDefine_eq (h : DefineLayout (blankComments data) front space macroName tail) :
    normalDefine (withoutComments data) = if Text.isBlankText (space ++ tail) = true
      then front ++ (space ++ (macroName ++ " 1")) else withoutComments data := by
  rw [normalDefine_withoutComments, h.lacksValue_eq, h.valued_eq]
  split <;> rfl

/-- **A define with a value** only loses its comments. -/
theorem normalDefine_of_not_valueless (h : ¬ Valueless (blankComments data)) :
    normalDefine (withoutComments data) = withoutComments data := by
  rw [normalDefine_withoutComments]
  refine if_neg fun hlacks => h ?_
  obtain ⟨front, space, macroName, tail, hlayout, hblank⟩ := exists_layout_of_lacksValue hlacks
  rw [Text.isBlankText_append, Bool.and_eq_true] at hblank
  exact ⟨front, space, macroName, tail, hlayout, Text.slack_of_isBlankText hblank.2⟩

/-- **A define that was given a value** does not change any more, and it is a define. -/
theorem normalDefine_fixed (data : Text) : withoutComments (normalDefine data) = normalDefine data ∧
    valued (normalDefine data) = normalDefine data ∧
    (keyword (withoutComments data) = "define" → keyword (normalDefine data) = "define") := by
  rw [Directive.normalDefine_eq]
  -- Of the comments it matters only that there are none any more.
  have hbare := blankComments_withoutComments data
  have hself := withoutComments_withoutComments data
  generalize withoutComments data = data at *
  cases hlacks : lacksValue data with
  | false =>
    rw [valued_of_not_lacksValue hlacks]
    exact ⟨hself, valued_of_not_lacksValue hlacks, id⟩
  | true =>
    obtain ⟨front, space, macroName, tail, hlayout, hblank⟩ := exists_layout_of_lacksValue hlacks
    rw [hlayout.valued_eq, if_pos hblank]
    refine ⟨hlayout.withoutComments_withOne hbare, ?_, fun _ => ?_⟩
    · rw [hlayout.withOne.valued_eq]
      exact if_neg (by rw [Text.isBlankText_append, Bool.and_eq_true]; exact fun h => absurd h.2 (by decide))
    · exact hlayout.withOne.behindKeyword.keyword_eq (List.all_eq_true.1 (by decide))
        (Scan.head?_cons_eq_false (by decide) _) (by decide)

/-- **Giving defines their values is idempotent.** -/
theorem normalDefine_normalDefine (data : Text) : normalDefine (normalDefine data) = normalDefine data := by
  obtain ⟨hself, hvalued, -⟩ := normalDefine_fixed data
  rw [Directive.normalDefine_eq, hself, hvalued]

end Layout

end Directive

namespace Expansion

open Directive (DefineLayout Valueless blankComments normalDefine withoutComments)

/-! ## The defines of a source -/

/-- Whether a token is a define directive. -/
def isDefine (token : Token) : Bool :=
  token.kind = .directive &&
    Directive.keyword (withoutComments token.data) = String.toList "define"

/-- A define as the walk leaves it. -/
def emitted (token : Token) : Token := { token with data := normalDefine (withoutComments token.data) }

/-- **The defines that a walk meets,** in their order, those of a fragment in the place of the include
that asks for it. -/
inductive Meets (store : FragmentStore) : FileName → List Token → List Token → Prop
  | nil {root : FileName} : Meets store root [] []
  | define {root : FileName} {token : Token} {rest met : List Token} : isDefine token = true →
      Meets store root rest met → Meets store root (token :: rest) (token :: met)
  | include {root : FileName} {token : Token} {rest inner met : List Token} {path fragment : Text} :
      fate root token = .fetched path → store.source? path = some fragment →
      Meets store (FileName.text path).root (fileTokens fragment) inner →
      Meets store root rest met → Meets store root (token :: rest) (inner ++ met)
  | other {root : FileName} {token : Token} {rest met : List Token} : isDefine token = false →
      (∀ path, fate root token ≠ .fetched path) →
      Meets store root rest met → Meets store root (token :: rest) met

theorem fate_of_isDefine {token : Token} (root : FileName) (h : isDefine token = true) :
    fate root token = .kept (emitted token) := by
  simp only [isDefine, Bool.and_eq_true, decide_eq_true_eq] at h
  obtain ⟨hkind, hkeyword⟩ := h
  have hcomment : ¬ TokenKind.directive.isComment = true := by decide
  unfold fate
  rw [hkind, if_neg hcomment, if_neg (Decidable.not_not.2 rfl)]
  dsimp only
  rw [if_pos hkeyword, emitted, hkind]

theorem isDefine_emitted {token : Token} (h : isDefine token = true) :
    isDefine (emitted token) = true := by
  simp only [isDefine, Bool.and_eq_true, decide_eq_true_eq] at h ⊢
  obtain ⟨hself, -, hkeyword⟩ := Directive.normalDefine_fixed (withoutComments token.data)
  rw [Directive.withoutComments_withoutComments token.data] at hkeyword
  refine ⟨h.1, ?_⟩
  rw [emitted, hself]
  exact hkeyword h.2

/-- What the walk keeps is a define only if it was one. -/
theorem isDefine_of_kept {root : FileName} {token kept : Token} (h : isDefine token = false)
    (hkept : fate root token = .kept kept) : isDefine kept = false := by
  unfold fate at hkept
  split at hkept
  · cases hkept
  · split at hkept
    · obtain rfl := Fate.kept.inj hkept
      exact h
    · rename_i hkind
      have hkeyword : ¬ Directive.keyword (withoutComments token.data) = String.toList "define" := by
        simpa [isDefine, Decidable.not_not.1 hkind] using h
      dsimp only at hkept
      rw [if_neg hkeyword] at hkept
      split at hkept
      · -- An include is never kept.
        split at hkept
        · cases hkept
        · split at hkept <;> cases hkept
      · obtain rfl := Fate.kept.inj hkept
        simp only [isDefine, Directive.withoutComments_withoutComments token.data]
        rw [decide_eq_false hkeyword, Bool.and_false]

section Walk

variable {store : FragmentStore} {opened : List Text} {above : List IncludeFrame}
  {file root : FileName} {text : Text} {tokens out : List Token}

/-- **One file.** The defines in what the walk of a file leaves are those that it meets, if that is so of
each fragment that it asks for. -/
theorem exists_meets_of_tokens {splice : IncludeFrame → Text → Logged (List Token)}
    (hsplice : ∀ frame path inner, (splice frame path).result = .ok inner → ∃ fragment met,
      store.source? path = some fragment ∧
        Meets store (FileName.text path).root (fileTokens fragment) met ∧
        inner.filter isDefine = met.map emitted)
    (h : (ofTokens splice file root above tokens).result = .ok out) :
    ∃ met, Meets store root tokens met ∧ out.filter isDefine = met.map emitted := by
  induction tokens generalizing out with
  | nil =>
    cases h
    exact ⟨[], .nil, rfl⟩
  | cons token rest ih =>
    obtain ⟨behind, hrest, hfirst⟩ := ofTokens_cons_ok_iff.1 h
    obtain ⟨met, hmet, hbehind⟩ := ih hrest
    -- A define is kept in its normal form, and what else is kept is no define.
    cases hdefine : isDefine token with
    | true =>
      rw [fate_of_isDefine root hdefine] at hfirst
      obtain ⟨hdropped, -⟩ | ⟨kept, hkept, rfl⟩ | ⟨_, _, hfetched, -⟩ := hfirst
      · cases hdropped
      · obtain rfl := Fate.kept.inj hkept
        refine ⟨token :: met, .define hdefine hmet, ?_⟩
        rw [List.filter_cons, if_pos (isDefine_emitted hdefine), hbehind, List.map_cons]
      · cases hfetched
    | false =>
      obtain ⟨hdropped, rfl⟩ | ⟨kept, hkept, rfl⟩ | ⟨path, inner, hfetched, hinner, rfl⟩ := hfirst
      · exact ⟨met, .other hdefine (by simp [hdropped]) hmet, hbehind⟩
      · refine ⟨met, .other hdefine (by simp [hkept]) hmet, ?_⟩
        rw [List.filter_cons, isDefine_of_kept hdefine hkept, hbehind]
        rfl
      · obtain ⟨fragment, innerMet, hs, hinnerMet, hdefines⟩ := hsplice _ _ _ hinner
        refine ⟨innerMet ++ met, .include hfetched hs hinnerMet hmet, ?_⟩
        rw [List.filter_append, hdefines, hbehind, List.map_append]

/-- **All files.** The induction is on how many paths are still closed. -/
theorem exists_meets (h : (ofText store opened above file text).result = .ok out) :
    ∃ met, Meets store file.root (fileTokens text) met ∧ out.filter isDefine = met.map emitted := by
  induction hn : (closedPaths store opened).length using Nat.strongRecOn
    generalizing opened above file text out with
  | ind n ih =>
    rw [ofText_eq] at h
    refine exists_meets_of_tokens (fun frame path inner hinner => ?_) h
    obtain ⟨fragment, hs, ho, hwalk⟩ := walked_of_splice_ok hinner
    obtain ⟨met, hmet, hdefines⟩ := ih _ (hn ▸ length_closedPaths_lt hs ho) hwalk rfl
    exact ⟨fragment, met, hs, hmet, hdefines⟩

/-- **What a walk makes of the defines that it meets.** The defines in what it leaves are those, one for
one. A define is left with the value `1` if there is nothing but white space in front of its macro and
behind it, and if not, it is left as it is without its comments and the blanks at its end: with its
value, or without one where a line is continued. A define that says something behind its macro only
loses its comments, and so does one that has no macro. Giving the values a second time changes
nothing. -/
theorem define_values (h : (ofText store opened above file text).result = .ok out) :
    (∃ met, Meets store file.root (fileTokens text) met ∧ out.filter isDefine = met.map emitted) ∧
    (∀ token front space macroName tail,
      DefineLayout (blankComments token.data) front space macroName tail →
      (emitted token).data = if Text.isBlankText (space ++ tail) = true
        then front ++ (space ++ (macroName ++ " 1")) else withoutComments token.data) ∧
    (∀ token, ¬ Valueless (blankComments token.data) →
      (emitted token).data = withoutComments token.data) ∧
    ∀ data, normalDefine (normalDefine data) = normalDefine data :=
  ⟨exists_meets h, fun _ _ _ _ _ hlayout => hlayout.normalDefine_eq,
    fun _ => Directive.normalDefine_of_not_valueless, Directive.normalDefine_normalDefine⟩

end Walk

/-- A fragment with a macro that takes parameters. -/
def macroStore : FragmentStore :=
  FragmentStore.empty.insert "mix" "#define MIX(a, b) /* none */\n"

/-- The define of that fragment. -/
def mixDefine : Token := ⟨.directive, "#define MIX(a, b) /* none */", 1⟩

/-- The two defines of a source, one of them in a fragment and without a value. -/
theorem define_values_of_include :
    (∃ met, Meets macroStore (.text "/") (fileTokens "#include <mix>\n#define A 2 \n") met ∧
      met.map emitted
        = [⟨.directive, "#define MIX(a, b) 1", 1⟩, ⟨.directive, "#define A 2", 2⟩]) ∧
    (emitted mixDefine).data = String.toList "#define MIX(a, b) 1" := by
  have hwalk : (ofText macroStore [] [] (.text "main") "#include <mix>\n#define A 2 \n").result
      = .ok [⟨.space, "\n", 0⟩, ⟨.space, "\n", 0⟩, ⟨.directive, "#define MIX(a, b) 1", 1⟩,
          ⟨.space, "\n", 1⟩, ⟨.space, "\n", 2⟩, ⟨.space, "\n", 1⟩, ⟨.directive, "#define A 2", 2⟩,
          ⟨.space, "\n", 2⟩, ⟨.space, "\n", 3⟩] := by
    apply ok_of_toOption
    decide +kernel
  have hmacro : Directive.Macro "MIX(a, b)" "  " :=
    @Directive.Macro.listed "MIX" "a, b" "  " (by decide) (List.all_eq_true.1 (by decide)) (by decide)
  have hlayout : DefineLayout (blankComments mixDefine.data) "#define" " " "MIX(a, b)" "  " :=
    ⟨⟨by decide +kernel, ⟨[], [], rfl, nofun, nofun⟩, Scan.head?_cons_eq_false (by decide) _⟩,
      .blank (by decide) .nil, by decide, hmacro⟩
  obtain ⟨⟨met, hmet, hdefines⟩, hvalue, -⟩ := define_values hwalk
  refine ⟨⟨met, hmet, hdefines.symm.trans (by decide +kernel)⟩, ?_⟩
  exact hvalue _ _ _ _ _ hlayout

/-- A define that is continued on an empty line. -/
def continuedDefine : Token := ⟨.directive, "#define A \\\n", 1⟩

/-- **A define that is continued on an empty line is left without a value.** There is nothing behind its
macro but a blank and the end of a line, and the walk leaves it as it is. -/
theorem continued_define_without_value : ¬ ∀ (store : FragmentStore) (file : FileName) (text : Text)
    (out met : List Token), (ofText store [] [] file text).result = .ok out →
    Meets store file.root (fileTokens text) met →
    ∀ token ∈ met, Valueless (blankComments token.data) →
    ∃ front space macroName, DefineLayout (emitted token).data front space macroName
      (String.toList " 1") := by
  intro h
  have hwalk : (ofText .empty [] [] (.text "x") "#define A \\\n").result
      = .ok [⟨.space, "\n", 0⟩, continuedDefine, ⟨.space, "\n", 2⟩] := by
    apply ok_of_toOption
    decide +kernel
  have htokens : fileTokens "#define A \\\n"
      = [⟨.space, "\n", 0⟩, continuedDefine, ⟨.space, "\n", 2⟩] := by
    decide +kernel
  have hspace : ∀ line, isDefine ⟨.space, "\n", line⟩ = false ∧
      ∀ path, fate (.text "/") ⟨.space, "\n", line⟩ ≠ .fetched path := fun _ => ⟨rfl, nofun⟩
  have hmet : Meets .empty (FileName.text "x").root (fileTokens "#define A \\\n") [continuedDefine] := by
    rw [htokens]
    exact .other (hspace 0).1 (hspace 0).2 (.define (by decide +kernel)
      (.other (hspace 2).1 (hspace 2).2 .nil))
  have hvalueless : Valueless (blankComments continuedDefine.data) := by
    refine ⟨"#define", " ", "A", " \\\n", ⟨⟨by decide +kernel, ⟨[], [], rfl, nofun, nofun⟩,
      Scan.head?_cons_eq_false (by decide) _⟩, .blank (by decide) .nil, by decide, ?_⟩,
      .blank (by decide) (.lineBreak .nil)⟩
    exact .plain (by decide) (List.all_eq_true.1 (by decide)) (Scan.head?_cons_eq_false (by decide) _) nofun
  obtain ⟨front, space, macroName, hlayout⟩ :=
    h _ _ _ _ _ hwalk hmet continuedDefine (by simp) hvalueless
  -- A define with the value ends in it, and this one ends in a line feed.
  have hsplit := congrArg List.getLast? hlayout.behindKeyword.split
  rw [show (emitted continuedDefine).data = String.toList "#define A \\" ++ ['\n'] by decide +kernel,
    List.getLast?_concat, show String.toList " 1" = [' '] ++ ['1'] from rfl, ← List.append_assoc,
    ← List.append_assoc, ← List.append_assoc, List.getLast?_concat] at hsplit
  exact absurd (Option.some.inj hsplit) (by decide)

end Expansion

end GlslCompose
