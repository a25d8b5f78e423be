/-
`Proofs/PrecisionHeader.lean` -- what the precision statement at the top of a text
replaces.

A text loses its precision statements and gets the one of the library, below its version
directive. Nothing else should change: the other symbols of the text stay as they are. But
a statement goes with the blanks and tabs on both sides of it, and what stood before and
behind it then stands side by side: `#define HEAD precision highp float; float` becomes
`#define HEADfloat` (`joins_macro_name`). And as the text is searched only once, a
statement that comes about when another one is taken out of it stays.

In the text with its header every statement is one above the header, the header, or one
below (`statements_injectPrecision`): no statement goes over the end of the line above the
header, as what it would go on with there is not the keyword (`stopsAt_afterStatement?`).
So the header is the only one in a text whose other symbols are not the keyword
(`statements_injectPrecision_of_notMem`).
-/
import GlslCompose.Proofs.CompiledShape
import GlslCompose.Proofs.PrecisionStatements

set_option autoImplicit false

namespace GlslCompose.CompiledText

open Scan (symbols Unjoined EndsLine)
open Text (isBlank skipBlanks isWord joinLines visibleLines)

/-! ## The header and the other lines -/

/-- Some lines without their version directive. -/
def otherLines (ls : List Text) : List Text := (cutVersion? ls).elim ls Prod.snd

theorem map_fst_cutVersion? (ls : List Text) :
    (cutVersion? ls).map Prod.fst = declared? (ls.filter Text.isVisible) := by
  induction ls with
  | nil => rfl
  | cons line ls ih =>
    rw [cutVersion?]
    split
    · rename_i hversion
      rw [List.filter_cons_of_pos (isVisible_of_isVersion hversion), declared?, List.head?_cons,
        Option.filter_some, if_pos hversion]
      rfl
    · rename_i hversion
      split
      · rename_i hblank
        rw [List.filter_cons_of_neg (by rw [Text.isVisible, hblank]; exact Bool.false_ne_true), ← ih,
          Option.map_map]
        rfl
      · rename_i hblank
        rw [List.filter_cons_of_pos (by rw [Text.isVisible, Bool.eq_false_iff.2 hblank]; rfl), declared?,
          List.head?_cons, Option.filter_some, if_neg hversion]
        rfl

/-- **A text below its header:** the version directive, if there is one, the precision statement, and
the other lines. -/
theorem injectPrecision_eq (precision : Text) (version : Option Text) (s : Text) :
    injectPrecision precision version s
      = joinLines ((topVersion? version (dropPrecision false s)).toList
          ++ precisionLine precision :: otherLines (Text.lines (dropPrecision false s))) := by
  unfold injectPrecision withHeader
  rw [topVersion?, visibleLines, ← map_fst_cutVersion?, otherLines]
  cases cutVersion? (Text.lines (dropPrecision false s)) with
  | none => cases version <;> rfl
  | some found => rfl

/-- The symbols of the header are those of the version directive, which moves to the top or is added
there, and those of the precision statement. -/
theorem symbols_injectPrecision (precision : Text) (version : Option Text) (s : Text) :
    symbols (injectPrecision precision version s)
      = ((declared? (visibleLines (dropPrecision false s))).or
          (version.map versionLine)).toList.flatMap symbols
        ++ symbols (precisionLine precision)
        ++ (otherLines (Text.lines (dropPrecision false s))).flatMap symbols := by
  rw [injectPrecision_eq, Scan.symbols_joinLines, List.flatMap_append, List.flatMap_cons,
    List.append_assoc, topVersion?]
  cases (declared? (visibleLines (dropPrecision false s))).or (version.map versionLine) with
  | none => rfl
  | some line =>
    rw [Option.map_some, Option.toList_some, Option.toList_some, List.flatMap_singleton,
      List.flatMap_singleton, Scan.symbols_strip]

/-- A text has the symbols of its version directive and those of its other lines. -/
theorem symbols_otherLines (s : Text) : (declared? (visibleLines s)).toList.flatMap symbols
    ++ (otherLines (Text.lines s)).flatMap symbols = symbols s := by
  rw [visibleLines, ← map_fst_cutVersion?, otherLines, ← Scan.symbols_lines s]
  cases hcut : cutVersion? (Text.lines s) with
  | none => rfl
  | some found =>
    obtain ⟨found, rest⟩ := found
    obtain ⟨blanks, others, hlines, rfl, hblanks, -⟩ := exists_of_cutVersion? hcut
    have hnone : blanks.flatMap symbols = [] := List.flatMap_eq_nil_iff.2 fun line hmem =>
      Scan.symbols_of_blank (Text.isVisible_eq_false_iff.1 (hblanks line hmem))
    rw [hlines, List.flatMap_append, List.flatMap_cons, hnone]
    simp [hnone]

/-! ## The header among the statements -/

/-- **A reader that stops where a line ends.** It reads the same if the text goes on with `back`. -/
def StopsAt (back : Text) (read : Text → Option Text) : Prop :=
  ∀ s, read (s ++ back) = (read s).map (· ++ back)

section StopsAt

variable {t : Text} {read next : Text → Option Text}

theorem stopsAt_after? {lead : Text} (hlead : '\n' ∉ lead) :
    StopsAt ('\n' :: t) (Text.after? lead) := by
  intro s
  induction lead generalizing s with
  | nil => rfl
  | cons c lead ih =>
    rw [List.mem_cons, not_or] at hlead
    cases s with
    | nil => exact if_neg (Ne.symm hlead.1)
    | cons d s =>
      rw [List.cons_append, Text.after?, Text.after?]
      split
      · exact ih hlead.2 s
      · rfl

theorem stopsAt_someOf? {p : Char → Bool} (hp : p '\n' = false) :
    StopsAt ('\n' :: t) (someOf? p) := by
  intro s
  cases s with
  | nil => exact if_neg (Bool.eq_false_iff.1 hp)
  | cons c s =>
    rw [List.cons_append, someOf?, someOf?]
    split
    · exact congrArg some (Scan.dropWhile_append_of_head (Scan.head?_cons_eq_false hp t))
    · rfl

theorem StopsAt.bind {back : Text} (hread : StopsAt back read) (hnext : StopsAt back next) :
    StopsAt back fun s => (read s).bind next := by
  intro s
  show (read (s ++ back)).bind next = ((read s).bind next).map (· ++ back)
  rw [hread]
  cases read s with
  | none => rfl
  | some rest => exact hnext rest

/-- White space may go on over the end of the line, so the reader that comes next must not find what
it looks for in the text behind. -/
theorem StopsAt.skipBlanks (hnext : StopsAt ('\n' :: t) next) (hnil : next [] = none)
    (hbehind : next (Text.skipBlanks t) = none) :
    StopsAt ('\n' :: t) fun s => next (Text.skipBlanks s) := by
  intro s
  show next (Text.skipBlanks (s ++ '\n' :: t)) = (next (Text.skipBlanks s)).map (· ++ '\n' :: t)
  cases hskip : Text.skipBlanks s with
  | nil =>
    have hall : Text.skipBlanks (s ++ '\n' :: t) = Text.skipBlanks t :=
      List.dropWhile_append_of_pos (List.dropWhile_eq_nil_iff.1 hskip)
    rw [hall, hbehind, hnil]
    rfl
  | cons c u =>
    rw [Scan.skipBlanks_append hskip, ← hnext, List.cons_append]

theorem StopsAt.someBlanks? (hnext : StopsAt ('\n' :: t) next) (hnil : next [] = none)
    (hbehind : next (Text.skipBlanks t) = none) :
    StopsAt ('\n' :: t) fun s => (CompiledText.someBlanks? s).bind next := by
  intro s
  have hskip := hnext.skipBlanks hnil hbehind
  cases s with
  | nil => exact hbehind
  | cons c s =>
    show (CompiledText.someBlanks? (c :: (s ++ '\n' :: t))).bind next
      = ((CompiledText.someBlanks? (c :: s)).bind next).map (· ++ '\n' :: t)
    rw [CompiledText.someBlanks?, CompiledText.someBlanks?]
    split
    · exact hskip s
    · rfl

end StopsAt

/-- What follows a statement depends on the text behind a line only where some part of a statement
is found there. -/
theorem stopsAt_afterStatement?_of_none {t : Text} (hsemicolon : semicolon? (skipBlanks t) = none)
    (htype : type? (skipBlanks t) = none) (hqualifier : qualifier? (skipBlanks t) = none) :
    StopsAt ('\n' :: t) afterStatement? := by
  have hend : StopsAt ('\n' :: t) fun s =>
      (Text.after? ";" s).bind fun s => some (s.dropWhile isStatementTail) :=
    (stopsAt_after? (by decide)).bind fun s =>
      congrArg some (Scan.dropWhile_append_of_head (Scan.head?_cons_eq_false (by decide) t))
  have hidempotent : skipBlanks (skipBlanks t) = skipBlanks t := List.dropWhile_idempotent isBlank t
  rw [semicolon?, hidempotent] at hsemicolon
  have hsemicolonStops : StopsAt ('\n' :: t) semicolon? := hend.skipBlanks rfl hsemicolon
  have htypeStops : StopsAt ('\n' :: t) type? := (stopsAt_someOf? (by decide)).bind hsemicolonStops
  have hqualifierStops : StopsAt ('\n' :: t) qualifier? :=
    (stopsAt_someOf? (by decide)).bind (htypeStops.someBlanks? rfl htype)
  exact (stopsAt_after? (by decide)).bind (hqualifierStops.someBlanks? rfl hqualifier)

/-- In words with white space between them no end of a statement is found. -/
theorem semicolon?_gap {gap word : Text} (hblank : ∀ c ∈ gap, isBlank c = true) (hne : word ≠ [])
    (hword : ∀ c ∈ word, isWord c = true) (t : Text) : semicolon? (gap ++ (word ++ t)) = none := by
  have hskip : skipBlanks (gap ++ (word ++ t)) = word ++ t :=
    (List.dropWhile_append_of_pos hblank).trans (skipBlanks_word hne hword t)
  obtain ⟨c, word, rfl⟩ := List.exists_cons_of_ne_nil hne
  have hc : ';' ≠ c := by
    rintro rfl
    exact absurd (hword ';' List.mem_cons_self) (by decide)
  have hnone : Text.after? ";" (c :: (word ++ t)) = none := if_neg hc
  rw [semicolon?, hskip, List.cons_append, hnone]
  rfl

theorem type?_words {word gap more : Text} (hne : word ≠ []) (hword : ∀ c ∈ word, isWord c = true)
    (hgap : gap ≠ []) (hblank : ∀ c ∈ gap, isBlank c = true) (hmore : more ≠ [])
    (hwords : ∀ c ∈ more, isWord c = true) (t : Text) :
    type? (word ++ (gap ++ (more ++ t))) = none := by
  have hends := head?_gap (p := isWord) (t := more ++ t) (fun _ => id) hblank
    fun hnil => absurd hnil hgap
  rw [type?, someOf?_run hne hword hends]
  exact semicolon?_gap hblank hmore hwords t

/-- **No statement goes over the end of a line into the statement behind it.** Wherever it is broken
off, what is still to be read of it is not found there. -/
theorem stopsAt_afterStatement? (statement : Statement) (t : Text) :
    StopsAt ('\n' :: (statement.text ++ t)) afterStatement? := by
  have hne : keyword ≠ [] := by decide
  have hletters : ∀ c ∈ keyword, isSmallLetter c = true := List.all_eq_true.1 (by decide)
  have hkeyword : ∀ c ∈ keyword, isWord c = true := fun c hc => isWord_of_isSmallLetter (hletters c hc)
  obtain ⟨setting, first, second, third, tail, hfirst, hsecond, hfirstBlank, hsecondBlank, -, -⟩ :=
    statement
  have hends : ∀ more, ∀ c ∈ (first ++ more).head?, isSmallLetter c = false := fun more =>
    head?_gap (fun _ => isWord_of_isSmallLetter) hfirstBlank fun hnil => absurd hnil hfirst
  rw [Statement.text_append, Statement.followedBy]
  apply stopsAt_afterStatement?_of_none
  -- Read as the type, the keyword has a word behind it in place of the semicolon; read as the
  -- qualifier, it makes the qualifier the type.
  · have hnone : ∀ c ∈ ([] : Text), isBlank c = true := fun c hc => absurd hc List.not_mem_nil
    rw [skipBlanks_word hne hkeyword]
    exact semicolon?_gap hnone hne hkeyword _
  · rw [skipBlanks_word hne hkeyword]
    exact type?_words hne hkeyword hfirst hfirstBlank setting.qualifier_ne_nil setting.qualifier_word _
  · rw [skipBlanks_word hne hkeyword, qualifier?, someOf?_run hne hletters (hends _), Option.bind_some,
      someBlanks?_gap hfirst hfirstBlank setting.qualifier_ne_nil setting.qualifier_word,
      Option.bind_some]
    exact type?_words setting.qualifier_ne_nil setting.qualifier_word hsecond hsecondBlank
      setting.type_ne_nil setting.type_word _

theorem stopsAt_afterPrecision? {t : Text} (h : StopsAt ('\n' :: t) afterStatement?) (inWord : Bool) :
    StopsAt ('\n' :: t) (afterPrecision? inWord) := by
  intro s
  cases s with
  | nil => cases inWord <;> rfl
  | cons c s =>
    have hdrop : (c :: (s ++ '\n' :: t)).dropWhile Directive.isTrailing
        = (c :: s).dropWhile Directive.isTrailing ++ '\n' :: t :=
      Scan.dropWhile_append_of_head (s := c :: s) (Scan.head?_cons_eq_false (by decide) t)
    rw [List.cons_append, afterPrecision?, afterPrecision?]
    split
    · rw [hdrop]
      exact h _
    · split
      · rfl
      · exact h (c :: s)

/-- No statement starts at a line feed. -/
theorem statements_lineFeed (inWord : Bool) (t : Text) :
    (cut inWord ('\n' :: t)).statements = (cut false t).statements := by
  have hnone : afterPrecision? inWord ('\n' :: t) = none := by cases inWord <;> rfl
  rw [cut_of_none hnone, Scan.not_isWord_lineFeed]
  rfl

/-- **Statements on both sides of a line feed** that none goes over. -/
theorem statements_append {t : Text} (h : StopsAt ('\n' :: t) afterStatement?) (inWord : Bool)
    (s : Text) : (cut inWord (s ++ '\n' :: t)).statements
      = (cut inWord s).statements ++ (cut false t).statements := by
  induction inWord, s using cut_induction with
  | nil inWord =>
    rw [cut_nil]
    exact statements_lineFeed inWord t
  | statement inWord statement rest hsome ih =>
    have hlonger := stopsAt_afterPrecision? h inWord (statement ++ rest)
    rw [hsome, Option.map_some, List.append_assoc] at hlonger
    rw [cut_of_some hsome, List.append_assoc, cut_of_some hlonger]
    exact congrArg (statement :: ·) ih
  | keep inWord c s hnone ih =>
    have hlonger := stopsAt_afterPrecision? h inWord (c :: s)
    rw [hnone, Option.map_none, List.cons_append] at hlonger
    rw [cut_of_none hnone, List.cons_append, cut_of_none hlonger]
    exact ih

/-- The header as a statement. -/
def header (setting : PrecisionSetting) : Statement where
  setting := setting
  first := [' ']
  second := [' ']
  third := []
  tail := []
  first_ne_nil := List.cons_ne_nil _ _
  second_ne_nil := List.cons_ne_nil _ _
  first_blank := List.all_eq_true.1 (by decide)
  second_blank := List.all_eq_true.1 (by decide)
  third_blank := List.all_eq_true.1 (by decide)
  tail_blank := List.all_eq_true.1 (by decide)

theorem header_text (setting : PrecisionSetting) :
    (header setting).text = precisionLine setting.text := by
  have hlead : String.toList "precision " = keyword ++ [' '] := by decide
  have hend : String.toList ";" = [';'] := by decide
  calc (header setting).text
      = keyword ++ [' '] ++ setting.text ++ [';'] := by
        simp only [Statement.text, Statement.followedBy, header, PrecisionSetting.text,
          List.append_assoc, List.cons_append, List.nil_append]
    _ = precisionLine setting.text :=
        congrArg₂ (fun lead last => lead ++ setting.text ++ last) hlead.symm hend.symm

/-- **The statements of a text with its header:** those of the version directive, the header, and those
of the other lines. -/
theorem statements_injectPrecision (setting : PrecisionSetting) (version : Option Text) (s : Text) :
    (cut false (injectPrecision setting.text version s)).statements
      = (topVersion? version (dropPrecision false s)).toList.flatMap
          (fun line => (cut false line).statements)
        ++ precisionLine setting.text
          :: (cut false (joinLines (otherLines (Text.lines (dropPrecision false s))))).statements := by
  -- The header, with the line feed behind it if there are other lines.
  have hbelow : ∀ others, ∃ t, joinLines (precisionLine setting.text :: others)
        = precisionLine setting.text ++ t ∧ EndsLine t ∧
      (cut false t).statements = (cut false (joinLines others)).statements := by
    intro others
    by_cases hnil : others = []
    · subst hnil
      exact ⟨[], by rw [Text.joinLines_singleton, List.append_nil], Scan.endsLine_nil, rfl⟩
    · exact ⟨'\n' :: joinLines others, Text.joinLines_cons _ hnil, Scan.endsLine_lineFeed _,
        statements_lineFeed false _⟩
  obtain ⟨t, hjoin, hend, hstatements⟩ := hbelow (otherLines (Text.lines (dropPrecision false s)))
  -- The blanks behind the semicolon would go with the statement, a line feed does not.
  have htail : t.dropWhile isStatementTail = t := by
    rcases hend.cases with rfl | ⟨u, rfl⟩
    · rfl
    · exact List.dropWhile_cons_of_neg (by decide)
  have hfound : afterPrecision? false (precisionLine setting.text ++ t) = some t := by
    rw [← header_text, afterPrecision?_text, htail]
  have hheader : (cut false (precisionLine setting.text ++ t)).statements
      = precisionLine setting.text :: (cut false t).statements := by
    rw [cut_of_some hfound]
    rfl
  have hstops : StopsAt ('\n' :: (precisionLine setting.text ++ t)) afterStatement? := by
    rw [← header_text]
    exact stopsAt_afterStatement? (header setting) t
  rw [injectPrecision_eq, ← hstatements]
  cases topVersion? version (dropPrecision false s) with
  | none =>
    rw [Option.toList_none, List.nil_append, hjoin, hheader]
    rfl
  | some line =>
    rw [Option.toList_some, List.singleton_append, Text.joinLines_cons line (List.cons_ne_nil _ _),
      hjoin, statements_append hstops, hheader, List.flatMap_singleton]

/-! ## What the header replaces -/

theorem append_cons_eq_singleton_iff {before behind : List Text} {line : Text} :
    before ++ line :: behind = [line] ↔ before = [] ∧ behind = [] := by
  cases before <;> simp

/-- The header is the only statement of the text exactly if none starts in the version directive, and
none in the other lines. -/
theorem statements_injectPrecision_iff (setting : PrecisionSetting) (version : Option Text) (s : Text) :
    (cut false (injectPrecision setting.text version s)).statements = [precisionLine setting.text]
      ↔ (∀ line, topVersion? version (dropPrecision false s) = some line → ¬ HasStatement false line) ∧
        ¬ HasStatement false (joinLines (otherLines (Text.lines (dropPrecision false s)))) := by
  rw [statements_injectPrecision, append_cons_eq_singleton_iff, List.flatMap_eq_nil_iff]
  simp only [Option.mem_toList, statements_eq_nil_iff]

/-- **The header is the only statement,** if nothing is joined and the keyword stands nowhere but in the
statements that are taken out. -/
theorem statements_injectPrecision_of_notMem (setting : PrecisionSetting) {version : Option Text}
    {s : Text} (hseams : Unjoined (cut false s).kept)
    (hkept : ∀ piece ∈ (cut false s).kept, keyword ∉ symbols piece)
    (hversion : ∀ text, version = some text → keyword ∉ symbols (versionLine text)) :
    (cut false (injectPrecision setting.text version s)).statements = [precisionLine setting.text] := by
  have hleft : keyword ∉ symbols (dropPrecision false s) := by
    rw [← flatten_kept, (Scan.symbols_flatten_iff _).2 hseams, List.mem_flatMap]
    rintro ⟨piece, hmem, hkeyword⟩
    exact hkept piece hmem hkeyword
  rw [← symbols_otherLines, List.mem_append, not_or] at hleft
  refine (statements_injectPrecision_iff setting version s).2 ⟨fun line hline hstatement => ?_,
    fun hstatement => ?_⟩
  · have hkeyword := hstatement.keyword_mem
    obtain ⟨source, hsource, rfl⟩ := Option.map_eq_some_iff.1 hline
    rw [Scan.symbols_strip] at hkeyword
    rcases Option.or_eq_some_iff.1 hsource with hdeclared | ⟨-, hlibrary⟩
    · rw [hdeclared, Option.toList_some, List.flatMap_singleton] at hleft
      exact hleft.1 hkeyword
    · obtain ⟨text, htext, rfl⟩ := Option.map_eq_some_iff.1 hlibrary
      exact hversion text htext hkeyword
  · have hkeyword := hstatement.keyword_mem
    rw [Scan.symbols_joinLines] at hkeyword
    exact hleft.2 hkeyword

/-- **The precision statement of the library in place of those of the text.** A text is made of its
statements and of what is left between them, where no statement starts. The version directive, the
header and the rest of what is left are all the symbols of the text that comes about, exactly if no
symbol of what is left goes over a place where a statement was; and the header is its only statement,
exactly if none starts in the version directive and none in the other lines. -/
theorem injectPrecision_replaces_iff (setting : PrecisionSetting) (version : Option Text) (s : Text) :
    (symbols s = symbols (cut false s).front
        ++ (cut false s).behind.flatMap fun part => symbols part.1 ++ symbols part.2) ∧
    (∀ found ∈ (cut false s).statements, ∃ other : PrecisionSetting,
      symbols found = symbols (precisionLine other.text)) ∧
    (∀ piece ∈ (cut false s).kept, ¬ HasStatement false piece) ∧
    ((∃ others, (cut false s).kept.flatMap symbols
          = (declared? (visibleLines (dropPrecision false s))).toList.flatMap symbols ++ others ∧
        symbols (injectPrecision setting.text version s)
          = ((declared? (visibleLines (dropPrecision false s))).or
              (version.map versionLine)).toList.flatMap symbols
            ++ symbols (precisionLine setting.text) ++ others)
      ↔ Unjoined (cut false s).kept) ∧
    ((cut false (injectPrecision setting.text version s)).statements = [precisionLine setting.text]
      ↔ (∀ line, topVersion? version (dropPrecision false s) = some line → ¬ HasStatement false line) ∧
        ¬ HasStatement false (joinLines (otherLines (Text.lines (dropPrecision false s))))) := by
  refine ⟨symbols_cut s, fun found hfound => ?_, fun piece hpiece => not_hasStatement_of_mem_kept hpiece,
    ?_, statements_injectPrecision_iff setting version s⟩
  · obtain ⟨blanks, statement, rfl, hblanks⟩ := exists_of_mem_statements hfound
    refine ⟨statement.setting, ?_⟩
    rw [Scan.symbols_blanks_append hblanks, ← header_text, Statement.symbols_text, Statement.symbols_text]
    rfl
  · -- The two texts agree but for the header, so all depends on the text without its statements.
    have hlines := symbols_otherLines (dropPrecision false s)
    rw [← Scan.symbols_flatten_iff, flatten_kept, symbols_injectPrecision]
    constructor
    · rintro ⟨others, hkept, hresult⟩
      rw [hkept, ← List.append_cancel_left hresult, hlines]
    · intro hkept
      exact ⟨_, hkept.symm.trans hlines.symm, rfl⟩

/-- The setting of a library that is given none. -/
def mediumFloat : PrecisionSetting where
  qualifier := "mediump"
  type := "float"
  qualifier_ne_nil := by decide
  type_ne_nil := by decide
  qualifier_letters := List.all_eq_true.1 (by decide)
  type_word := List.all_eq_true.1 (by decide)

/-- What stands around a statement may be one itself when the statement is gone, and the text is not
searched again. -/
example : (cut false (injectPrecision mediumFloat.text none
    "precision\nprecision lowp int;\nlowp int;")).statements
      = ["precision mediump float;", "precision\n\nlowp int;"] := by
  decide +kernel

/-- A macro for a statement and the type behind it, and its use. -/
def headMacro : Text := "#define HEAD precision highp float; float\nHEAD a;"

/-- **A statement may join what it stood between.** Here it stands in a macro, between the name and
the rest: the blanks on both sides of it go with it, and the macro has another name and no text. -/
theorem joins_macro_name : ¬ ∀ (setting : PrecisionSetting) (version : Option Text) (s : Text),
    ∃ others, (cut false s).kept.flatMap symbols
        = (declared? (visibleLines (dropPrecision false s))).toList.flatMap symbols ++ others ∧
      symbols (injectPrecision setting.text version s)
        = ((declared? (visibleLines (dropPrecision false s))).or
            (version.map versionLine)).toList.flatMap symbols
          ++ symbols (precisionLine setting.text) ++ others := by
  intro h
  obtain ⟨others, hkept, hresult⟩ := h mediumFloat none headMacro
  have hleft : (cut false headMacro).kept.flatMap symbols
      = ["#", "define", "HEAD", "float", "HEAD", "a", ";"] := by
    decide +kernel
  have hdeclared : declared? (visibleLines (dropPrecision false headMacro)) = none := by
    decide +kernel
  have hsymbols : symbols (injectPrecision mediumFloat.text none headMacro)
      = ["precision", "mediump", "float", ";", "#", "define", "HEADfloat", "HEAD", "a", ";"] := by
    decide +kernel
  have hheader : symbols (precisionLine mediumFloat.text) = ["precision", "mediump", "float", ";"] := by
    decide +kernel
  rw [hdeclared, Option.toList_none, List.flatMap_nil, List.nil_append] at hkept
  rw [hsymbols, hdeclared, hheader, ← hkept, hleft] at hresult
  exact absurd hresult (by decide)

end GlslCompose.CompiledText
