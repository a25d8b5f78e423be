/-
`Proofs/PrecisionStatements.lean` -- what a precision statement is, and what a text is
made of besides.

`Statement` is a statement as it is written, with its white space. It is found where it
stands (`afterStatement?_text`), and nothing else is (`exists_of_afterStatement?_eq_some`).
The search for statements goes through a text once and takes out what it finds, with the
blanks and tabs on both sides. `cut` is that search with nothing thrown away: what stood
between the statements, and the statements. It finds none only where there is none
(`statements_eq_nil_iff`), though others may come about when what it has found is gone.

The symbols of a text are those of the pieces and those of the statements, in turn
(`symbols_cut`). So it is known which symbols should be left, and `Unjoined` says when they
are; a line end behind each statement suffices (`unjoined_kept`).
-/
import GlslCompose.Proofs.Symbols

set_option autoImplicit false

namespace GlslCompose.CompiledText

open Scan (symbols Parts Unjoined Apart head?_cons_eq_false)
open Text (isBlank skipBlanks isWord)

/-! ## Settings and statements -/

/-- The word that a precision statement starts with. -/
def keyword : Text := String.toList "precision"

theorem isWord_of_isSmallLetter {c : Char} (h : isSmallLetter c = true) : isWord c = true := by
  refine Scan.isWord_of_isAlphanum (Scan.isAlphanum_iff.2 (.inl (.inr ?_)))
  simp only [isSmallLetter, Bool.and_eq_true, decide_eq_true_eq] at h
  exact h

/-- **A precision setting:** a qualifier in small letters, and a word for the type. -/
structure PrecisionSetting where
  qualifier : Text
  type : Text
  qualifier_ne_nil : qualifier ≠ []
  type_ne_nil : type ≠ []
  qualifier_letters : ∀ c ∈ qualifier, isSmallLetter c = true
  type_word : ∀ c ∈ type, isWord c = true

namespace PrecisionSetting

/-- The setting as a library has it. -/
def text (setting : PrecisionSetting) : Text := setting.qualifier ++ ' ' :: setting.type

theorem qualifier_word (setting : PrecisionSetting) : ∀ c ∈ setting.qualifier, isWord c = true :=
  fun c hc => isWord_of_isSmallLetter (setting.qualifier_letters c hc)

end PrecisionSetting

/-- **A precision statement as it is written,** with white space between its parts, and blanks behind
the semicolon. -/
structure Statement where
  setting : PrecisionSetting
  first : Text
  second : Text
  third : Text
  tail : Text
  first_ne_nil : first ≠ []
  second_ne_nil : second ≠ []
  first_blank : ∀ c ∈ first, isBlank c = true
  second_blank : ∀ c ∈ second, isBlank c = true
  third_blank : ∀ c ∈ third, isBlank c = true
  tail_blank : ∀ c ∈ tail, isStatementTail c = true

theorem isBlank_of_isStatementTail {c : Char} (h : isStatementTail c = true) : isBlank c = true := by
  simp only [isStatementTail, Bool.or_eq_true, beq_iff_eq] at h
  rcases h with (rfl | rfl) | rfl <;> decide

namespace Statement

/-- The statement as a text, with another one behind it. -/
def followedBy (statement : Statement) (t : Text) : Text :=
  keyword ++ (statement.first ++ (statement.setting.qualifier
    ++ (statement.second ++ (statement.setting.type ++ (statement.third
      ++ ';' :: (statement.tail ++ t))))))

/-- The statement as a text. -/
def text (statement : Statement) : Text := statement.followedBy []

theorem text_append (statement : Statement) (t : Text) :
    statement.text ++ t = statement.followedBy t := by
  simp only [text, followedBy, List.append_assoc, List.cons_append, List.append_nil]

theorem exists_followedBy (statement : Statement) (t : Text) :
    ∃ s, statement.followedBy t = 'p' :: s := by
  obtain ⟨letters, hkeyword⟩ : ∃ letters, keyword = 'p' :: letters := ⟨"recision", by decide⟩
  exact ⟨_, by rw [followedBy, hkeyword, List.cons_append]⟩

/-- **A statement reads as its setting says,** whatever its white space is, and no symbol goes on
behind it. -/
theorem symbols_append (statement : Statement) (t : Text) : symbols (statement.text ++ t)
    = symbols keyword ++ (symbols statement.setting.qualifier
      ++ (symbols statement.setting.type ++ (symbols ";" ++ symbols t))) := by
  have hsemicolon : Scan.isGlue ';' = false := by decide
  have htail : ∀ c ∈ statement.tail, isBlank c = true :=
    fun c hc => isBlank_of_isStatementTail (statement.tail_blank c hc)
  have hend : symbols (';' :: (statement.tail ++ t)) = symbols ";" ++ symbols t := by
    rw [Scan.symbols_cons_of_not_isGlue hsemicolon, Scan.symbols_blanks_append htail]
    rfl
  rw [text_append, followedBy, Scan.symbols_append_gap statement.first_ne_nil statement.first_blank,
    Scan.symbols_append_gap statement.second_ne_nil statement.second_blank,
    ← List.append_assoc statement.setting.type,
    Scan.symbols_append ((Scan.apart_cons hsemicolon _).parts _),
    Scan.symbols_append_blanks statement.third_blank, hend]

theorem symbols_text (statement : Statement) : symbols statement.text
    = symbols keyword ++ (symbols statement.setting.qualifier
      ++ (symbols statement.setting.type ++ symbols ";")) := by
  have happend := statement.symbols_append []
  rwa [List.append_nil, Scan.symbols_nil, List.append_nil] at happend

theorem symbols_text_append (statement : Statement) (t : Text) :
    symbols (statement.text ++ t) = symbols statement.text ++ symbols t := by
  rw [symbols_append, symbols_text]
  simp only [List.append_assoc]

end Statement

/-! ## How a statement is read -/

/-- The end of a statement: a semicolon behind white space. -/
def semicolon? (s : Text) : Option Text :=
  (Text.after? ";" (skipBlanks s)).bind fun s => some (s.dropWhile isStatementTail)

/-- A type and the end. -/
def type? (s : Text) : Option Text := (someOf? isWord s).bind semicolon?

/-- A qualifier, a type and the end. -/
def qualifier? (s : Text) : Option Text :=
  (someOf? isSmallLetter s).bind fun s => (someBlanks? s).bind type?

theorem afterStatement?_eq (s : Text) : afterStatement? s
    = (Text.after? keyword s).bind fun s => (someBlanks? s).bind qualifier? := rfl

theorem skipBlanks_word {word : Text} (hne : word ≠ []) (hword : ∀ c ∈ word, isWord c = true)
    (t : Text) : skipBlanks (word ++ t) = word ++ t := by
  obtain ⟨c, word, rfl⟩ := List.exists_cons_of_ne_nil hne
  have hblank := Text.isBlank_of_isWord (hword c List.mem_cons_self)
  exact List.dropWhile_cons_of_neg (by rw [hblank]; exact Bool.false_ne_true)

/-- White space ends where a word starts. -/
theorem someBlanks?_gap {gap word : Text} (hgap : gap ≠ []) (hblank : ∀ c ∈ gap, isBlank c = true)
    (hne : word ≠ []) (hword : ∀ c ∈ word, isWord c = true) (t : Text) :
    someBlanks? (gap ++ (word ++ t)) = some (word ++ t) := by
  obtain ⟨c, gap, rfl⟩ := List.exists_cons_of_ne_nil hgap
  rw [List.forall_mem_cons] at hblank
  have hskip : skipBlanks (gap ++ (word ++ t)) = word ++ t :=
    (List.dropWhile_append_of_pos hblank.2).trans (skipBlanks_word hne hword t)
  rw [List.cons_append, someBlanks?, if_pos hblank.1, hskip]

theorem someOf?_run {p : Char → Bool} {run t : Text} (hne : run ≠ []) (hp : ∀ c ∈ run, p c = true)
    (ht : ∀ c ∈ t.head?, p c = false) : someOf? p (run ++ t) = some t := by
  have hdrop := (Scan.takeWhile_eq_of_all hp ht).2
  obtain ⟨c, run, rfl⟩ := List.exists_cons_of_ne_nil hne
  have hc : p c = true := hp c List.mem_cons_self
  rw [List.cons_append, List.dropWhile_cons_of_pos hc] at hdrop
  rw [List.cons_append, someOf?, if_pos hc, hdrop]

/-- A class of word characters does not go on in white space. -/
theorem head?_gap {p : Char → Bool} (hp : ∀ c, p c = true → isWord c = true) {gap t : Text}
    (hblank : ∀ c ∈ gap, isBlank c = true) (ht : gap = [] → ∀ c ∈ t.head?, p c = false) :
    ∀ c ∈ (gap ++ t).head?, p c = false := by
  cases gap with
  | nil => exact ht rfl
  | cons d gap =>
    have hd := Text.isWord_of_isBlank (hblank d List.mem_cons_self)
    exact head?_cons_eq_false (Scan.eq_false_of_imp hp hd) _

/-- **A statement is found where it stands,** and the blanks behind it with it. -/
theorem afterStatement?_text (statement : Statement) (t : Text) :
    afterStatement? (statement.text ++ t) = some (t.dropWhile isStatementTail) := by
  have hsemicolon : semicolon? (statement.third ++ ';' :: (statement.tail ++ t))
      = some (t.dropWhile isStatementTail) := by
    have hskip : skipBlanks (statement.third ++ ';' :: (statement.tail ++ t))
        = ';' :: (statement.tail ++ t) :=
      (Scan.takeWhile_eq_of_all statement.third_blank (head?_cons_eq_false (by decide) _)).2
    rw [semicolon?, hskip]
    exact congrArg some (List.dropWhile_append_of_pos statement.tail_blank)
  have htype : type? (statement.setting.type ++ (statement.third ++ ';' :: (statement.tail ++ t)))
      = some (t.dropWhile isStatementTail) := by
    have hends := head?_gap (p := isWord) (fun _ => id) statement.third_blank (t := ';' :: (statement.tail ++ t))
      fun _ => head?_cons_eq_false (by decide) _
    rw [type?, someOf?_run statement.setting.type_ne_nil statement.setting.type_word hends]
    exact hsemicolon
  have hends : ∀ more, ∀ c ∈ (statement.second ++ more).head?, isSmallLetter c = false := fun more =>
    head?_gap (fun _ => isWord_of_isSmallLetter) statement.second_blank
      fun hnil => absurd hnil statement.second_ne_nil
  rw [Statement.text_append, Statement.followedBy, afterStatement?_eq, Text.after?_eq_some_iff.2 rfl,
    Option.bind_some,
    someBlanks?_gap statement.first_ne_nil statement.first_blank statement.setting.qualifier_ne_nil
      statement.setting.qualifier_word,
    Option.bind_some, qualifier?,
    someOf?_run statement.setting.qualifier_ne_nil statement.setting.qualifier_letters (hends _),
    Option.bind_some,
    someBlanks?_gap statement.second_ne_nil statement.second_blank statement.setting.type_ne_nil
      statement.setting.type_word,
    Option.bind_some, htype]

theorem exists_of_someBlanks? {s rest : Text} (h : someBlanks? s = some rest) :
    ∃ gap, s = gap ++ rest ∧ gap ≠ [] ∧ ∀ c ∈ gap, isBlank c = true := by
  unfold someBlanks? at h
  split at h
  · rename_i c t
    split at h
    · rename_i hc
      obtain rfl := Option.some.inj h
      exact ⟨c :: t.takeWhile isBlank, congrArg _ List.takeWhile_append_dropWhile.symm,
        List.cons_ne_nil _ _, List.forall_mem_cons.2 ⟨hc, Scan.all_takeWhile⟩⟩
    · cases h
  · cases h

theorem exists_of_someOf? {p : Char → Bool} {s rest : Text} (h : someOf? p s = some rest) :
    ∃ run, s = run ++ rest ∧ run ≠ [] ∧ ∀ c ∈ run, p c = true := by
  unfold someOf? at h
  split at h
  · rename_i c t
    split at h
    · rename_i hc
      obtain rfl := Option.some.inj h
      exact ⟨c :: t.takeWhile p, congrArg _ List.takeWhile_append_dropWhile.symm,
        List.cons_ne_nil _ _, List.forall_mem_cons.2 ⟨hc, Scan.all_takeWhile⟩⟩
    · cases h
  · cases h

/-- **Nothing but a statement is found.** -/
theorem exists_of_afterStatement?_eq_some {s rest : Text} (h : afterStatement? s = some rest) :
    ∃ statement : Statement, s = statement.text ++ rest := by
  simp only [afterStatement?, bind, Option.bind_eq_some_iff, pure, Option.some.injEq] at h
  obtain ⟨a, ha, b, hb, q, hq, d, hd, e, he, f, hf, rfl⟩ := h
  rw [Text.after?_eq_some_iff] at ha hf
  obtain ⟨first, rfl, hfirst, hfirstBlank⟩ := exists_of_someBlanks? hb
  obtain ⟨qualifier, rfl, hqualifier, hletters⟩ := exists_of_someOf? hq
  obtain ⟨second, rfl, hsecond, hsecondBlank⟩ := exists_of_someBlanks? hd
  obtain ⟨type, rfl, htype, hword⟩ := exists_of_someOf? he
  have hthird : e = e.takeWhile isBlank ++ ';' :: f :=
    List.takeWhile_append_dropWhile.symm.trans (congrArg _ hf)
  have htail := List.takeWhile_append_dropWhile (p := isStatementTail) (l := f)
  refine ⟨⟨⟨qualifier, type, hqualifier, htype, hletters, hword⟩, first, second, e.takeWhile isBlank,
    f.takeWhile isStatementTail, hfirst, hsecond, hfirstBlank, hsecondBlank, Scan.all_takeWhile,
    Scan.all_takeWhile⟩, ?_⟩
  rw [Statement.text_append, Statement.followedBy, htail, ← hthird]
  exact ha

/-! ## Where a statement starts -/

/-- **A statement starts somewhere in a text:** at its first character, or further on. The keyword may
not continue a word; `inWord` tells whether a word character stands before the text. -/
inductive HasStatement : Bool → Text → Prop where
  | here (statement : Statement) (t : Text) : HasStatement false (statement.text ++ t)
  | there {inWord : Bool} {c : Char} {s : Text} (h : HasStatement (isWord c) s) :
      HasStatement inWord (c :: s)

theorem not_hasStatement_nil (inWord : Bool) : ¬ HasStatement inWord [] := by
  intro h
  generalize hs : ([] : Text) = s at h
  cases h with
  | here statement t =>
    obtain ⟨u, hu⟩ := statement.exists_followedBy t
    rw [Statement.text_append, hu] at hs
    cases hs
  | there h => cases hs

theorem hasStatement_cons_iff {inWord : Bool} {c : Char} {s : Text} : HasStatement inWord (c :: s) ↔
    (inWord = false ∧ ∃ (statement : Statement) (t : Text), c :: s = statement.text ++ t) ∨
      HasStatement (isWord c) s := by
  constructor
  · intro h
    generalize hs : c :: s = u at h
    cases h with
    | here statement t => exact .inl ⟨rfl, statement, t, rfl⟩
    | there h =>
      cases hs
      exact .inr h
  · rintro (⟨rfl, statement, t, hs⟩ | h)
    · rw [hs]
      exact .here statement t
    · exact .there h

/-- A statement behind blanks stands behind no word. -/
theorem HasStatement.of_blanks {blanks : Text} (hblanks : ∀ c ∈ blanks, isBlank c = true)
    {inWord : Bool} (hin : blanks = [] → inWord = false) (statement : Statement) (t : Text) :
    HasStatement inWord (blanks ++ (statement.text ++ t)) := by
  induction blanks generalizing inWord with
  | nil =>
    rw [hin rfl]
    exact .here statement t
  | cons c blanks ih =>
    rw [List.forall_mem_cons] at hblanks
    exact .there (ih hblanks.2 fun _ => Text.isWord_of_isBlank hblanks.1)

theorem afterPrecision?_text (statement : Statement) (t : Text) :
    afterPrecision? false (statement.text ++ t) = some (t.dropWhile isStatementTail) := by
  obtain ⟨s, hs⟩ := statement.exists_followedBy t
  have hfound := afterStatement?_text statement t
  rw [Statement.text_append, hs] at hfound ⊢
  exact hfound

/-- **What is taken out is a statement, with the blanks in front of it.** -/
theorem exists_of_afterPrecision?_eq_some {inWord : Bool} {s rest : Text}
    (h : afterPrecision? inWord s = some rest) : ∃ (blanks : Text) (statement : Statement),
      s = blanks ++ statement.text ++ rest ∧ (∀ c ∈ blanks, isBlank c = true) ∧
        (blanks = [] → inWord = false) := by
  unfold afterPrecision? at h
  split at h
  · rename_i c s
    split at h
    · rename_i hc
      obtain ⟨statement, hstatement⟩ := exists_of_afterStatement?_eq_some h
      refine ⟨(c :: s).takeWhile Directive.isTrailing, statement, ?_,
        fun d hd => (isBlank_of_isTrailing (Scan.all_takeWhile d hd)).1, fun hnil => ?_⟩
      · rw [List.append_assoc, ← hstatement, List.takeWhile_append_dropWhile]
      · rw [List.takeWhile_cons_of_pos hc] at hnil
        cases hnil
    · split at h
      · cases h
      · rename_i hinWord
        obtain ⟨statement, hstatement⟩ := exists_of_afterStatement?_eq_some h
        exact ⟨[], statement, hstatement, fun c hc => absurd hc List.not_mem_nil,
          fun _ => Bool.eq_false_iff.2 hinWord⟩
  · cases h

/-! ## A text cut at its statements -/

/-- **A text cut at its precision statements:** what stands in front of the first one, and each of
them with what stands between it and the next. -/
structure Cut where
  front : Text
  behind : List (Text × Text)
  deriving DecidableEq, Repr

namespace Cut

/-- What is left without the statements. -/
def kept (cut : Cut) : List Text := cut.front :: cut.behind.map Prod.snd

/-- The statements. -/
def statements (cut : Cut) : List Text := cut.behind.map Prod.fst

end Cut

/-- Cuts a text at its precision statements. `inWord` tells whether a word character stands before
the text. -/
def cut (inWord : Bool) (s : Text) : Cut :=
  match h : afterPrecision? inWord s with
  | some rest =>
    have := length_afterPrecision?_lt h
    ⟨[], (s.take (s.length - rest.length), (cut false rest).front) :: (cut false rest).behind⟩
  | none =>
    match s with
    | [] => ⟨[], []⟩
    | c :: s => ⟨c :: (cut (isWord c) s).front, (cut (isWord c) s).behind⟩
  termination_by s.length

theorem cut_of_some {inWord : Bool} {statement rest : Text}
    (h : afterPrecision? inWord (statement ++ rest) = some rest) :
    cut inWord (statement ++ rest)
      = ⟨[], (statement, (cut false rest).front) :: (cut false rest).behind⟩ := by
  have htake : (statement ++ rest).take ((statement ++ rest).length - rest.length) = statement := by
    rw [List.length_append, Nat.add_sub_cancel, List.take_left]
  rw [cut]
  split
  · rename_i rest' hsome
    obtain rfl := Option.some.inj (h.symm.trans hsome)
    rw [htake]
  · rename_i hnone
    rw [h] at hnone
    cases hnone

theorem cut_of_none {inWord : Bool} {c : Char} {s : Text}
    (h : afterPrecision? inWord (c :: s) = none) :
    cut inWord (c :: s) = ⟨c :: (cut (isWord c) s).front, (cut (isWord c) s).behind⟩ := by
  rw [cut]
  split
  · rename_i hsome
    rw [h] at hsome
    cases hsome
  · rfl

theorem cut_nil (inWord : Bool) : cut inWord [] = ⟨[], []⟩ := by
  rw [cut]
  split
  · rename_i hsome
    cases hsome
  · rfl

/-- **How a text is searched for statements:** at each place, a statement that starts there is cut
out, and otherwise one character is passed over. -/
theorem cut_induction {motive : Bool → Text → Prop} (nil : ∀ inWord, motive inWord [])
    (statement : ∀ inWord statement rest, afterPrecision? inWord (statement ++ rest) = some rest →
      motive false rest → motive inWord (statement ++ rest))
    (keep : ∀ inWord c s, afterPrecision? inWord (c :: s) = none → motive (isWord c) s →
      motive inWord (c :: s)) (inWord : Bool) (s : Text) : motive inWord s := by
  fun_induction cut inWord s with
  | case1 inWord s rest hsome _ ih =>
    obtain ⟨blanks, found, rfl, -⟩ := exists_of_afterPrecision?_eq_some hsome
    exact statement inWord _ rest hsome ih
  | case2 inWord _ => exact nil inWord
  | case3 inWord c s hnone ih => exact keep inWord c s hnone ih

/-- What is left of a text is the text without its statements. -/
theorem flatten_kept (inWord : Bool) (s : Text) :
    (cut inWord s).kept.flatten = dropPrecision inWord s := by
  induction inWord, s using cut_induction with
  | nil inWord =>
    rw [cut_nil, dropPrecision]
    split
    · rename_i hsome
      cases hsome
    · rfl
  | statement inWord statement rest hsome ih =>
    rw [cut_of_some hsome, dropPrecision_of_some hsome, ← ih]
    rfl
  | keep inWord c s hnone ih =>
    rw [cut_of_none hnone, dropPrecision_of_none hnone, ← ih]
    rfl

/-- Everything that is cut out is a statement, with blanks in front of it. -/
theorem exists_of_mem_statements {inWord : Bool} {s found : Text}
    (h : found ∈ (cut inWord s).statements) : ∃ (blanks : Text) (statement : Statement),
      found = blanks ++ statement.text ∧ ∀ c ∈ blanks, isBlank c = true := by
  induction inWord, s using cut_induction with
  | nil inWord =>
    rw [cut_nil] at h
    cases h
  | statement inWord first rest hsome ih =>
    rw [cut_of_some hsome] at h
    rcases List.mem_cons.1 h with rfl | h
    · obtain ⟨blanks, statement, hsplit, hblanks, -⟩ := exists_of_afterPrecision?_eq_some hsome
      exact ⟨blanks, statement, List.append_cancel_right hsplit, hblanks⟩
    · exact ih h
  | keep inWord c s hnone ih =>
    rw [cut_of_none hnone] at h
    exact ih h

theorem statements_ne_nil_of_some {inWord : Bool} {s rest : Text}
    (h : afterPrecision? inWord s = some rest) : (cut inWord s).statements ≠ [] := by
  obtain ⟨blanks, statement, rfl, -⟩ := exists_of_afterPrecision?_eq_some h
  rw [cut_of_some h]
  exact List.cons_ne_nil _ _

/-- **The search finds a statement exactly if one starts somewhere.** -/
theorem statements_ne_nil_iff {inWord : Bool} {s : Text} :
    (cut inWord s).statements ≠ [] ↔ HasStatement inWord s := by
  constructor
  · intro h
    induction inWord, s using cut_induction with
    | nil inWord => exact absurd (congrArg Cut.statements (cut_nil inWord)) h
    | statement inWord found rest hsome ih =>
      obtain ⟨blanks, statement, hsplit, hblanks, hin⟩ := exists_of_afterPrecision?_eq_some hsome
      rw [hsplit, List.append_assoc]
      exact .of_blanks hblanks hin statement rest
    | keep inWord c s hnone ih =>
      rw [cut_of_none hnone] at h
      exact .there (ih h)
  · intro h
    induction h with
    | here statement t => exact statements_ne_nil_of_some (afterPrecision?_text statement t)
    | @there inWord c s _ ih =>
      -- Where the search finds another statement first, it finds one all the same.
      cases hfound : afterPrecision? inWord (c :: s) with
      | some rest => exact statements_ne_nil_of_some hfound
      | none =>
        rw [cut_of_none hfound]
        exact ih

theorem statements_eq_nil_iff {inWord : Bool} {s : Text} :
    (cut inWord s).statements = [] ↔ ¬ HasStatement inWord s := by
  rw [← statements_ne_nil_iff, not_ne_iff]

theorem exists_front_append (inWord : Bool) (s : Text) : ∃ more, s = (cut inWord s).front ++ more := by
  induction inWord, s using cut_induction with
  | nil inWord => exact ⟨[], by rw [cut_nil]; rfl⟩
  | statement inWord statement rest hsome ih => exact ⟨statement ++ rest, by rw [cut_of_some hsome]; rfl⟩
  | keep inWord c s hnone ih =>
    obtain ⟨more, hmore⟩ := ih
    exact ⟨more, by rw [cut_of_none hnone]; exact congrArg (c :: ·) hmore⟩

theorem not_hasStatement_front (inWord : Bool) (s : Text) :
    ¬ HasStatement inWord (cut inWord s).front := by
  induction inWord, s using cut_induction with
  | nil inWord =>
    rw [cut_nil]
    exact not_hasStatement_nil inWord
  | statement inWord statement rest hsome ih =>
    rw [cut_of_some hsome]
    exact not_hasStatement_nil inWord
  | keep inWord c s hnone ih =>
    obtain ⟨more, hmore⟩ := exists_front_append (isWord c) s
    rw [cut_of_none hnone, hasStatement_cons_iff, not_or]
    refine ⟨?_, ih⟩
    -- A statement that starts here would have been found here, whatever stands behind it.
    rintro ⟨rfl, statement, t, hfront⟩
    have hfound := afterPrecision?_text statement (t ++ more)
    rw [← List.append_assoc, ← hfront, List.cons_append, ← hmore, hnone] at hfound
    cases hfound

/-- **No statement is passed over:** there is none in what is left between them. -/
theorem not_hasStatement_of_mem_kept {s piece : Text} (h : piece ∈ (cut false s).kept) :
    ¬ HasStatement false piece := by
  -- The search goes on inside words, so what it passes over is told for both flags.
  have hbehind : ∀ inWord s, ∀ part ∈ (cut inWord s).behind, ¬ HasStatement false part.2 := by
    intro inWord s
    induction inWord, s using cut_induction with
    | nil inWord =>
      rw [cut_nil]
      exact fun part hpart => absurd hpart List.not_mem_nil
    | statement inWord statement rest hsome ih =>
      rw [cut_of_some hsome]
      exact List.forall_mem_cons.2 ⟨not_hasStatement_front false rest, ih⟩
    | keep inWord c s hnone ih =>
      rw [cut_of_none hnone]
      exact ih
  rcases List.mem_cons.1 h with rfl | hmem
  · exact not_hasStatement_front false s
  · obtain ⟨part, hpart, rfl⟩ := List.mem_map.1 hmem
    exact hbehind false s part hpart

/-! ## The symbols of a text and of its statements -/

theorem symbols_append_of_afterPrecision? {inWord : Bool} {found rest : Text}
    (h : afterPrecision? inWord (found ++ rest) = some rest) :
    symbols (found ++ rest) = symbols found ++ symbols rest := by
  obtain ⟨blanks, statement, hsplit, hblanks, -⟩ := exists_of_afterPrecision?_eq_some h
  obtain rfl := List.append_cancel_right hsplit
  rw [List.append_assoc, Scan.symbols_blanks_append hblanks, Scan.symbols_blanks_append hblanks]
  exact statement.symbols_text_append rest

/-- A blank parts a statement from what stands before it, and so does the keyword behind no word. -/
theorem parts_of_afterPrecision? {inWord : Bool} {lead s rest : Text}
    (h : afterPrecision? inWord s = some rest) (hlead : lead.getLast?.any isWord = inWord) :
    Parts lead s := by
  obtain ⟨blanks, statement, rfl, hblanks, hin⟩ := exists_of_afterPrecision?_eq_some h
  cases blanks with
  | nil =>
    obtain ⟨t, ht⟩ := statement.exists_followedBy rest
    rw [List.nil_append, Statement.text_append, ht]
    refine ⟨fun d hd => ?_, .inl fun d hd => ?_⟩
    · obtain rfl : 'p' = d := Option.some.inj hd
      decide
    · rw [Option.mem_def.1 hd, Option.any_some] at hlead
      exact hlead.trans (hin rfl)
  | cons c blanks =>
    exact (Scan.apart_cons (Scan.isGlue_of_isBlank (hblanks c List.mem_cons_self)) _).parts lead

/-- **The symbols of a text are those of the pieces between its statements and those of the
statements, in turn.** What has been passed over since the last statement stands in `lead`. -/
theorem symbols_append_cut (lead : Text) {s : Text} {inWord : Bool}
    (hlead : lead.getLast?.any isWord = inWord) :
    symbols (lead ++ s) = symbols (lead ++ (cut inWord s).front)
      ++ (cut inWord s).behind.flatMap fun part => symbols part.1 ++ symbols part.2 := by
  induction inWord, s using cut_induction generalizing lead with
  | nil inWord => rw [cut_nil, List.flatMap_nil, List.append_nil, List.append_nil]
  | statement inWord statement rest hsome ih =>
    have hrest := ih [] rfl
    rw [List.nil_append, List.nil_append] at hrest
    rw [cut_of_some hsome, Scan.symbols_append (parts_of_afterPrecision? hsome hlead),
      symbols_append_of_afterPrecision? hsome, hrest, List.append_nil, List.flatMap_cons]
    simp only [List.append_assoc]
  | keep inWord c s hnone ih =>
    -- The character may be part of a symbol that started in `lead`, so it goes there.
    have hrest := ih (lead ++ [c]) (by rw [List.getLast?_concat]; rfl)
    rw [List.append_assoc, List.append_assoc] at hrest
    rw [cut_of_none hnone]
    exact hrest

/-- **A text is made of what is left and the statements,** and both keep their symbols. -/
theorem symbols_cut (s : Text) : symbols s = symbols (cut false s).front
    ++ (cut false s).behind.flatMap fun part => symbols part.1 ++ symbols part.2 :=
  symbols_append_cut [] rfl

/-- A text with a statement has its keyword among the symbols. -/
theorem HasStatement.keyword_mem {s : Text} (h : HasStatement false s) : keyword ∈ symbols s := by
  obtain ⟨found, hfound⟩ := List.exists_mem_of_ne_nil _ (statements_ne_nil_iff.2 h)
  obtain ⟨blanks, statement, hsplit, hblanks⟩ := exists_of_mem_statements hfound
  obtain ⟨part, hpart, rfl⟩ := List.mem_map.1 hfound
  have hkeyword : keyword ∈ symbols keyword := by decide +kernel
  rw [symbols_cut]
  refine List.mem_append_right _ (List.mem_flatMap.2 ⟨part, hpart, List.mem_append_left _ ?_⟩)
  rw [hsplit, Scan.symbols_blanks_append hblanks, Statement.symbols_text]
  exact List.mem_append_left _ hkeyword

/-- Nothing is joined where a line ends behind each statement, or something else stands there that is
part of no identifier and no number. -/
theorem unjoined_kept {inWord : Bool} {s : Text}
    (h : ∀ part ∈ (cut inWord s).behind, Apart part.2) : Unjoined (cut inWord s).kept :=
  Scan.unjoined_of_apart _ (List.forall_mem_map.2 h)

end GlslCompose.CompiledText
