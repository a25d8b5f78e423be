/-
`Proofs/ProloguePlace.lean` -- where the lines of the defines stand in a composed text, and
that they are read as the directives that they are.

The place is found among lines: below the last line that starts with `#version` or
`#extension`, if nothing but blank lines stands among these. What a line is to that search
is not what a directive is to the scanner. A header directive may go on behind a backslash,
and then the place is in the middle of it (`splits_continued_header`); its line may end at a
form feed, or at the end of the text, where the comment that the walk took out had no line
feed behind it; and the mark of a tool in the last line of the header takes its line feed
along.

`HeaderApart` says that none of this is so: the header ends in a line feed that no backslash
stands in front of, and no mark is in it. Then the text is cut there between two tokens
(`lexemes_append_of_ended`). The line feed ends whatever the header left unfinished, so
what stands in front is read as it was, and what stands behind is read as at the start of a
text; and in between each define is read as one directive (`lexemes_defineBlock`).
-/
import GlslCompose.Proofs.DefineBlock
import GlslCompose.Proofs.RegisteredPaths

set_option autoImplicit false

namespace GlslCompose

open Text (FeedsOnly Unbroken isLineBreak lineParts)

namespace Scan

/-! ## A text that ends a line -/

/-- **A line feed that no backslash stands in front of ends every token,** in a text without
comments. What follows it is read as at the start of a text. -/
theorem lexemes_append_of_ended {lineStart : Bool} {s : Text} (hbare : NoComment s)
    (hends : ¬ EndsOpen s) (t : Text) :
    lexemes lineStart (s ++ '\n' :: t) = lexemes lineStart (s ++ ['\n']) ++ lexemes true t := by
  induction lineStart, s using scan_induction with
  | nil lineStart =>
    rw [List.nil_append, List.nil_append, lexemes_bareLineFeed, lexemes_bareLineFeed, lexemes_nil]
    rfl
  | cons lineStart kind data rest hstarts ih =>
    rcases hstarts.lineFeed_cases with hsame | ⟨rfl, rfl, hfeed⟩ | ⟨rfl, -, hopen, -⟩ |
      ⟨rfl, rfl, hopen, -⟩
    · have hrest : ¬ OpenComment rest := by
        rintro ⟨body, rfl, -⟩
        exact hbare.right.head?_of_slash.2 rfl
      have hnext := ih hbare.right fun hrest => hends (hrest.append data)
      rw [List.append_assoc, List.append_assoc, lexemes_append (hsame t (.inr hrest)),
        lexemes_append (hsame [] (.inl rfl)), hnext, List.cons_append]
    · -- White space takes the line feed in, and the line is at its start behind it.
      have hlexemes : ∀ t, lexemes lineStart (data ++ [] ++ '\n' :: t)
          = (.space, data ++ ['\n']) :: lexemes true t := by
        intro t
        have happend := lexemes_append (hfeed t)
        rw [startBehind_lineFeed, List.append_assoc, List.singleton_append] at happend
        rw [List.append_nil, happend]
      rw [hlexemes, hlexemes, lexemes_nil]
      rfl
    -- A directive that goes on would end in a backslash, and a comment that stays open is none.
    · rw [List.append_nil] at hends
      exact absurd hopen hends
    · obtain ⟨body, rfl, -⟩ := hopen
      rw [List.append_nil] at hbare
      exact absurd rfl hbare.head?_of_slash.2

/-- **A text behind which a line starts:** it is empty, or ends in a line feed that does not stand
behind a backslash. -/
def AtLineStart (before : Text) : Prop :=
  before = [] ∨ before.getLast? = some '\n' ∧ ¬ EndsOpen before.dropLast

instance (before : Text) : Decidable (AtLineStart before) :=
  inferInstanceAs (Decidable (before = [] ∨ before.getLast? = some '\n' ∧ ¬ EndsOpen before.dropLast))

theorem AtLineStart.cases {before : Text} (h : AtLineStart before) :
    before = [] ∨ ∃ front, before = front ++ ['\n'] ∧ ¬ EndsOpen front := by
  rcases h with rfl | ⟨hlast, hends⟩
  · exact .inl rfl
  · exact .inr ⟨before.dropLast, (List.dropLast_append_getLast? _ hlast).symm, hends⟩

/-- Behind such a text the tokens are those of the rest alone. -/
theorem AtLineStart.lexemes_append {before : Text} (h : AtLineStart before) (hbare : NoComment before)
    (t : Text) : lexemes true (before ++ t) = lexemes true before ++ lexemes true t := by
  rcases h.cases with rfl | ⟨front, rfl, hends⟩
  · rw [lexemes_nil]
    rfl
  · rw [List.append_assoc, List.singleton_append]
    exact lexemes_append_of_ended hbare.left hends t

/-! ## The directives of a text -/

/-- The directives of a text, in order. -/
def directives (s : Text) : List Text :=
  ((Token.ofText s 1).filter fun token => token.kind = .directive).map Token.data

theorem directives_eq (s : Text) :
    directives s = ((lexemes true s).filter fun lexeme => lexeme.1 = .directive).map Prod.snd := by
  rw [directives, Token.ofText, ← map_lexeme_tokensFrom 1, List.filter_map, List.map_map]
  rfl

/-- Whether a token may stand among the header directives of a text. -/
def isHeading (lexeme : Lexeme) : Bool :=
  lexeme.1 = .space || lexeme.1 = .directive && Prologue.isHeader lexeme.2

/-- **The leading `#version` and `#extension` directives of a text,** with nothing but white space among
them. -/
def leadingDirectives (s : Text) : List Text :=
  (((lexemes true s).takeWhile isHeading).filter fun lexeme => lexeme.1 = .directive).map Prod.snd

theorem AtLineStart.directives_append {before : Text} (h : AtLineStart before)
    (hbare : NoComment before) (t : Text) :
    directives (before ++ t) = directives before ++ directives t := by
  rw [directives_eq, h.lexemes_append hbare, List.filter_append, List.map_append, ← directives_eq,
    ← directives_eq]

/-- Where no header directive leads the rest, those of the text are all in front. -/
theorem AtLineStart.leadingDirectives_append {before : Text} (h : AtLineStart before)
    (hbare : NoComment before) {t : Text} (ht : leadingDirectives t = []) :
    leadingDirectives (before ++ t) = leadingDirectives before := by
  rw [leadingDirectives, List.map_eq_nil_iff] at ht
  rw [leadingDirectives, leadingDirectives, h.lexemes_append hbare, List.takeWhile_append]
  split
  · rename_i hall
    have hwhole := (List.takeWhile_prefix isHeading).eq_of_length hall
    rw [List.filter_append, ht, List.append_nil, hwhole]
  · rfl

end Scan

namespace Prologue

open Scan (leadingDirectives)

/-! ## Header lines and header directives -/

/-- A blank line is no header line, and belongs to the header if there is one below. -/
theorem headerLength_blank_cons_eq_zero_iff {line : Text} (h : Text.isBlankText line = true)
    (ls : List Text) : headerLength (line :: ls) = 0 ↔ headerLength ls = 0 := by
  have hheader : ¬ isHeader line = true := by
    intro hheader
    have hvisible := isVisible_of_isHeader hheader
    rw [Text.isVisible, h] at hvisible
    cases hvisible
  rw [headerLength, if_neg hheader, if_pos h]
  cases headerLength ls <;> simp

theorem headerLength_blank_cons {c : Char} (hc : Text.isBlank c = true) {s : Text}
    (h : headerLength (lineParts s) ≠ 0) : headerLength (lineParts (c :: s)) ≠ 0 := by
  have hfeed : Text.isBlankText ['\n'] = true := by decide
  have hreturn : Text.isBlankText ['\r', '\n'] = true := by decide
  have hline : Text.isBlankText [c] = true := by
    rw [Text.isBlankText, List.all_cons, hc]
    rfl
  by_cases hpair : c = '\r' ∧ s.head? = some '\n'
  · obtain ⟨rfl, hhead⟩ := hpair
    obtain ⟨rest, rfl⟩ := List.head?_eq_some_iff.1 hhead
    have hone : lineParts ('\n' :: rest) = ['\n'] :: lineParts rest := by
      rw [lineParts, if_pos Text.isLineBreak_lineFeed]
      rintro _ ⟨⟩
    rw [hone, ne_eq, headerLength_blank_cons_eq_zero_iff hfeed] at h
    rwa [lineParts, ne_eq, headerLength_blank_cons_eq_zero_iff hreturn]
  · rw [lineParts]
    · split
      · rwa [ne_eq, headerLength_blank_cons_eq_zero_iff hline]
      · cases hparts : lineParts s with
        | nil =>
          rw [hparts] at h
          exact absurd rfl h
        | cons line ls =>
          -- The line only becomes longer by a blank.
          have hheader : isHeader (c :: line) = isHeader line := by
            rw [isHeader, isHeader, Directive.isOneOf, Directive.isOneOf, Directive.keyword,
              Directive.keyword, Directive.afterHash?, Directive.afterHash?, Text.skipBlanks,
              Text.skipBlanks, List.dropWhile_cons, if_pos hc]
          have hblank : Text.isBlankText (c :: line) = Text.isBlankText line := by
            rw [Text.isBlankText, List.all_cons, hc, Bool.true_and]
            rfl
          rw [hparts] at h
          rwa [headerLength, hheader, hblank, ← headerLength]
    · rintro rest rfl rfl
      exact hpair ⟨rfl, rfl⟩

/-- White space in front of a text takes no header away. -/
theorem headerLength_blanks_append {blanks s : Text} (hblanks : ∀ c ∈ blanks, Text.isBlank c = true)
    (h : headerLength (lineParts s) ≠ 0) : headerLength (lineParts (blanks ++ s)) ≠ 0 := by
  induction blanks with
  | nil => exact h
  | cons c blanks ih =>
    rw [List.forall_mem_cons] at hblanks
    exact headerLength_blank_cons hblanks.1 (ih hblanks.2)

/-- A character that is no break goes to the first line of what is behind it. -/
theorem lineParts_cons {c : Char} (hc : isLineBreak c = false) (s : Text) :
    lineParts (c :: s) = (c :: (lineParts s).headD []) :: (lineParts s).tail := by
  rw [lineParts]
  · rw [if_neg (Bool.eq_false_iff.1 hc)]
    cases lineParts s <;> rfl
  · -- A carriage return would be a break by itself.
    rintro rest rfl
    exact absurd hc (by decide)

/-- **A line starts as its text does,** up to the first break. -/
theorem exists_lineParts_append {front : Text} (h : Unbroken front) (hne : front ≠ []) (s : Text) :
    ∃ part ls, lineParts (front ++ s) = (front ++ part) :: ls ∧ part <+: s := by
  induction front with
  | nil => exact absurd rfl hne
  | cons c front ih =>
    rw [List.cons_append, lineParts_cons (h c List.mem_cons_self)]
    cases front with
    | nil =>
      have hflat := Text.flatten_lineParts s
      rw [List.nil_append]
      cases hls : lineParts s with
      | nil => exact ⟨[], [], rfl, List.nil_prefix⟩
      | cons part ls =>
        rw [hls, List.flatten_cons] at hflat
        exact ⟨part, ls, rfl, ls.flatten, hflat⟩
    | cons d front =>
      obtain ⟨part, ls, hls, hpart⟩ := ih (fun e he => h e (List.mem_cons_of_mem _ he)) nofun
      rw [hls]
      exact ⟨part, ls, rfl, hpart⟩

/-- **A directive with the keyword on the line of its `#`** makes that line one of the header. -/
theorem headerLength_directive {gap keyword s : Text} (hgap : ∀ c ∈ gap, Text.isBlank c = true)
    (hunbroken : Unbroken gap) (hkeyword : keyword ∈ ["version".toList, "extension".toList])
    (hs : ∀ c ∈ s.head?, Text.isWord c = false) :
    headerLength (lineParts ('#' :: (gap ++ (keyword ++ s)))) ≠ 0 := by
  have hletters : ∀ word ∈ ["version".toList, "extension".toList], word ≠ [] ∧
      word.all Text.isWord = true := by
    decide
  obtain ⟨hne, hall⟩ := hletters keyword hkeyword
  have hword : ∀ c ∈ keyword, Text.isWord c = true := List.all_eq_true.1 hall
  have hfront : Unbroken ('#' :: (gap ++ keyword)) :=
    List.forall_mem_cons.2 ⟨by decide, hunbroken.append (Text.unbroken_of_isWord hword)⟩
  obtain ⟨part, ls, hls, more, rfl⟩ := exists_lineParts_append hfront (List.cons_ne_nil _ _) s
  -- The keyword ends within its line, as it does in the text.
  have hpart : ∀ c ∈ part.head?, Text.isWord c = false := by
    cases part with
    | nil => nofun
    | cons d part => exact hs
  have hheader : isHeader ('#' :: (gap ++ keyword) ++ part) = true := by
    have hblanks : ∀ c ∈ (keyword ++ part).head?, Text.isBlank c = false := by
      obtain ⟨d, rest, rfl⟩ := List.exists_cons_of_ne_nil hne
      exact Scan.head?_cons_eq_false (Text.isBlank_of_isWord (hword d List.mem_cons_self)) _
    have hindent : ∀ c ∈ ([] : Text), Scan.isIndent c = true := by simp
    have hfound : Directive.keyword ([] ++ '#' :: (gap ++ (keyword ++ part)))
        = Text.word (Text.skipBlanks (gap ++ (keyword ++ part))) := Scan.keyword_append hindent
    rw [Text.skipBlanks, (Scan.takeWhile_eq_of_all hgap hblanks).2, Text.word,
      (Scan.takeWhile_eq_of_all hword hpart).1, List.nil_append] at hfound
    rw [isHeader, Directive.isOneOf, List.cons_append, List.append_assoc, hfound]
    exact List.contains_iff_mem.2 hkeyword
  rw [List.cons_append, List.append_assoc] at hls
  rw [hls, headerLength, if_pos hheader]
  exact Nat.succ_ne_zero _

/-- A line feed in the blanks behind the `#` would end the directive, and without it there is no other
break. -/
theorem unbroken_gap {gap s body rest : Text} (hextent : Scan.Extent body rest) (hbody : body = gap ++ s)
    (hgap : ∀ c ∈ gap, Text.isBlank c = true) (hs : s ≠ []) (hfeeds : FeedsOnly (body ++ rest))
    (hfirst : s.head? ≠ some '\n') : Unbroken gap := by
  have hfeed : '\n' ∉ gap := fun hmem =>
    absurd (Scan.isGap_of_extent hextent hbody hgap _ hmem) (by decide)
  intro c hc
  by_contra hbreak
  rw [Bool.not_eq_false] at hbreak
  subst hbody
  rcases hfeeds.breaks c (by simp [hc]) hbreak with rfl | rfl
  · exact hfeed hc
  · -- A carriage return has a line feed behind it, either in the gap or where the gap ends.
    obtain ⟨front, behind, rfl⟩ := List.append_of_mem hc
    obtain ⟨d, t, rfl⟩ := List.exists_cons_of_ne_nil hs
    rw [List.append_assoc, List.append_assoc] at hfeeds
    have hnext := hfeeds.right.returns
    cases behind with
    | nil =>
      rw [List.cons_append, List.nil_append, List.cons_append] at hnext
      exact hfirst (congrArg some ((List.isChain_cons_cons.1 hnext).1 rfl))
    | cons e behind =>
      rw [List.cons_append, List.cons_append] at hnext
      obtain rfl := (List.isChain_cons_cons.1 hnext).1 rfl
      exact hfeed (by simp)

/-- A header directive where a text starts is on a header line. -/
theorem headerLength_of_header_directive {lineStart : Bool} {data rest : Text}
    (hfeeds : FeedsOnly (data ++ rest)) (h : Scan.Starts lineStart .directive data rest)
    (hheader : isHeader data = true) : headerLength (lineParts (data ++ rest)) ≠ 0 := by
  cases h with
  | plain _ hreads => cases hreads
  | @directive indent body _ _ hindent hextent =>
    have hkeyword : Text.word (Text.skipBlanks body) ∈ ["version".toList, "extension".toList] := by
      rw [← Scan.keyword_append hindent]
      exact List.contains_iff_mem.1 hheader
    have hbody := List.takeWhile_append_dropWhile (p := Text.isBlank) (l := body)
    have hword := List.takeWhile_append_dropWhile (p := Text.isWord) (l := Text.skipBlanks body)
    have hgap : ∀ c ∈ body.takeWhile Text.isBlank, Text.isBlank c = true := Scan.all_takeWhile
    have hfirst : (Text.skipBlanks body).head? ≠ some '\n' := fun hhead =>
      absurd (Scan.head?_dropWhile _ hhead) (by decide)
    have hne : Text.skipBlanks body ≠ [] := by
      intro hnil
      rw [hnil] at hkeyword
      revert hkeyword
      decide
    have hunbroken := unbroken_gap hextent hbody.symm hgap hne
      (by rw [List.append_assoc, List.cons_append] at hfeeds; exact (hfeeds.right).right (s := ['#']))
      hfirst
    -- Where the directive ends, the keyword does not go on.
    have hends : ∀ c ∈ ((Text.skipBlanks body).dropWhile Text.isWord ++ rest).head?,
        Text.isWord c = false := by
      cases hbehind : (Text.skipBlanks body).dropWhile Text.isWord with
      | cons d behind =>
        have hd := Scan.head?_dropWhile (p := Text.isWord) (s := Text.skipBlanks body)
        rw [hbehind] at hd
        exact hd
      | nil =>
        rcases Scan.edge_iff.1 hextent.edge with rfl | hhead | ⟨t, rfl⟩ | ⟨t, rfl, -⟩
        · nofun
        · obtain ⟨t, rfl⟩ := List.head?_eq_some_iff.1 hhead
          exact Scan.head?_cons_eq_false (by decide) t
        · exact Scan.head?_cons_eq_false (by decide) _
        · exact Scan.head?_cons_eq_false (by decide) _
    have hline := headerLength_directive hgap hunbroken hkeyword hends
    rw [← List.append_assoc (Text.word _), show Text.word (Text.skipBlanks body)
      = (Text.skipBlanks body).takeWhile Text.isWord from rfl, hword, Text.skipBlanks,
      ← List.append_assoc, hbody] at hline
    rw [List.append_assoc, List.cons_append]
    exact headerLength_blanks_append (fun c hc => Scan.isBlank_of_isIndent (hindent c hc)) hline

theorem isBlank_of_isSpace {c : Char} (h : Scan.isSpace c = true) : Text.isBlank c = true := by
  simp only [Scan.isSpace, Bool.or_eq_true, beq_iff_eq] at h
  rcases h with (((rfl | rfl) | rfl) | rfl) | rfl <;> decide

/-- White space tokens hold white space. -/
theorem isBlank_of_space {lineStart : Bool} {data rest : Text}
    (h : Scan.Starts lineStart .space data rest) : ∀ c ∈ data, Text.isBlank c = true := by
  cases h with
  | plain _ hreads =>
    cases hreads with
    | lineFeed hblanks =>
      intro c hc
      rcases List.mem_append.1 hc with hc | hc
      · exact isBlank_of_isSpace (hblanks c hc)
      · rw [List.mem_singleton.1 hc]
        decide
    | blanks _ hblanks _ _ => exact fun c hc => isBlank_of_isSpace (hblanks c hc)

/-- **Where no header line comes first, no header directive does,** if only line feeds end lines. -/
theorem leadingDirectives_eq_nil {s : Text} (hfeeds : FeedsOnly s)
    (h : headerLength (lineParts s) = 0) : leadingDirectives s = [] := by
  -- Up to the first lexeme that is no heading there is nothing but white space.
  suffices hspace : ∀ lineStart, ∀ lexeme ∈ (Scan.lexemes lineStart s).takeWhile Scan.isHeading,
      lexeme.1 = .space by
    rw [leadingDirectives, List.map_eq_nil_iff, List.filter_eq_nil_iff]
    intro lexeme hmem
    rw [hspace true lexeme hmem]
    decide
  intro lineStart
  induction lineStart, s using Scan.scan_induction with
  | nil lineStart =>
    rw [Scan.lexemes_nil]
    exact fun _ hmem => absurd hmem List.not_mem_nil
  | cons lineStart kind data rest hstarts ih =>
    rw [Scan.lexemes_append hstarts, List.takeWhile_cons]
    split
    · rename_i hheading
      have hkinds : kind = .space ∨ kind = .directive ∧ isHeader data = true := by
        simpa [Scan.isHeading] using hheading
      rcases hkinds with rfl | ⟨rfl, hheader⟩
      · have hrest : headerLength (lineParts rest) = 0 := by
          by_contra hrest
          exact headerLength_blanks_append (isBlank_of_space hstarts) hrest h
        exact List.forall_mem_cons.2 ⟨rfl, ih hfeeds.right hrest⟩
      · exact absurd h (headerLength_of_header_directive hfeeds hstarts hheader)
    · exact fun _ hmem => absurd hmem List.not_mem_nil

/-! ## What is above and what is below -/

/-- A text has a header exactly if it has a header line. -/
theorem headerLength_eq_zero_iff {s : Text} : headerLength (lineParts s) = 0 ↔ header s = [] := by
  constructor
  · intro h
    rw [header, h]
    rfl
  · intro h
    by_contra hlength
    obtain ⟨line, hmem, hline⟩ := exists_isHeader hlength
    have hnil := List.flatten_eq_nil_iff.1 h line hmem
    rw [hnil] at hline
    cases hline

theorem headerLength_drop (ls : List Text) : headerLength (ls.drop (headerLength ls)) = 0 := by
  induction ls with
  | nil => rfl
  | cons line rest ih =>
    have hdrop : ∀ n, headerLength (line :: rest) = n → n = 0 ∨ n = headerLength rest + 1 := by
      intro n hn
      rw [headerLength] at hn
      split at hn
      · exact .inr hn.symm
      · split at hn
        · split at hn
          · exact .inl hn.symm
          · rename_i m hm
            exact .inr (by rw [hm]; exact hn.symm)
        · exact .inl hn.symm
    rcases hdrop _ rfl with hzero | hsucc
    · rw [hzero, List.drop_zero, hzero]
    · rwa [hsucc, List.drop_succ_cons]

/-- The lines behind the first one are the lines of what they make up. -/
theorem lineParts_tail (s : Text) : lineParts (lineParts s).tail.flatten = (lineParts s).tail := by
  fun_induction lineParts s with
  | case1 => rfl
  | case2 s ih => rw [List.tail_cons, Text.flatten_lineParts]
  | case3 c s _ _ ih => rw [List.tail_cons, Text.flatten_lineParts]
  | case4 c s _ _ hnil ih => rfl
  | case5 c s _ _ l ls hcons ih =>
    rw [hcons] at ih
    exact ih

theorem lineParts_drop (s : Text) (n : Nat) :
    lineParts ((lineParts s).drop n).flatten = (lineParts s).drop n := by
  induction n generalizing s with
  | zero => rw [List.drop_zero, Text.flatten_lineParts]
  | succ n ih =>
    have htail := ih (lineParts s).tail.flatten
    rwa [lineParts_tail, List.drop_tail] at htail

/-- **No header is left below the header.** -/
theorem header_below (s : Text) : header (below s) = [] := by
  rw [← headerLength_eq_zero_iff, below, lineParts_drop, headerLength_drop]

end Prologue

/-! ## The lines of the defines -/

/-- **A define that is written as one directive:** a word for a name, other than the one in the mark of
a tool, and for a value a text on one line, without comments and backslashes and without a mark at its
end. -/
structure PlainDefine (name value : Text) : Prop where
  word : ∀ c ∈ name, Text.isWord c = true
  unmarked : name ≠ "GLSLIFY"
  unbroken : Unbroken value
  bare : Scan.NoComment value
  unescaped : '\\' ∉ value
  unmarkedValue : ¬ String.toList "#define GLSLIFY 1" <:+ value

namespace PlainDefine

open Scan (NoComment EndsOpen lexemes directives)
open TidyDefine (line line_eq defineLine_eq)

variable {name value : Text}

instance : Decidable (PlainDefine name value) :=
  have := List.decidableBAll (fun c => Text.isWord c = true) name
  decidable_of_iff ((∀ c ∈ name, Text.isWord c = true) ∧ name ≠ "GLSLIFY" ∧ Unbroken value ∧
      NoComment value ∧ '\\' ∉ value ∧ ¬ String.toList "#define GLSLIFY 1" <:+ value)
    ⟨fun ⟨word, unmarked, unbroken, bare, unescaped, unmarkedValue⟩ =>
      ⟨word, unmarked, unbroken, bare, unescaped, unmarkedValue⟩,
      fun h => ⟨h.word, h.unmarked, h.unbroken, h.bare, h.unescaped, h.unmarkedValue⟩⟩

/-- A character that is part of no word stands in the line only if it stands in the value, or in front
of the name. -/
theorem mem_line (h : PlainDefine name value) {c : Char} (hc : Text.isWord c = false)
    (hmem : c ∈ line name value) : c ∈ String.toList "#define " ∨ c = ' ' ∨ c ∈ value := by
  rw [line_eq] at hmem
  rcases List.mem_append.1 hmem with hmem | hmem
  · exact .inl hmem
  rcases List.mem_append.1 hmem with hmem | hmem
  · rw [h.word c hmem] at hc
    cases hc
  rcases List.mem_cons.1 hmem with hmem | hmem
  · exact .inr (.inl hmem)
  · exact .inr (.inr hmem)

theorem noComment_line (h : PlainDefine name value) : NoComment (line name value) := by
  have hsplit : line name value = String.toList "#define " ++ name ++ [' '] ++ value := rfl
  rw [hsplit]
  refine NoComment.append (Scan.noComment_of_notMem fun hmem => ?_) h.bare fun hlast => ?_
  · rcases List.mem_append.1 hmem with hmem | hmem
    · rcases List.mem_append.1 hmem with hmem | hmem
      · revert hmem
        decide
      · exact absurd (h.word _ hmem) (by decide)
    · revert hmem
      decide
  · rw [List.getLast?_concat] at hlast
    cases hlast

theorem not_endsOpen_line (h : PlainDefine name value) : ¬ EndsOpen (line name value) := by
  have hnone : '\\' ∉ line name value := by
    intro hmem
    rcases h.mem_line (by decide) hmem with hmem | hmem | hmem
    · revert hmem
      decide
    · cases hmem
    · exact h.unescaped hmem
  rintro ⟨front, heq | heq⟩ <;> exact hnone (by rw [heq]; simp)

/-- **The line of a define is read as one directive,** and what follows it as at the start of a text. -/
theorem lexemes_defineLine (h : PlainDefine name value) (t : Text) :
    lexemes true (MacroTable.defineLine name value ++ t)
      = (.directive, line name value) :: (.space, ['\n']) :: lexemes true t := by
  obtain ⟨body, hbody⟩ : ∃ body, line name value = '#' :: body := ⟨_, line_eq name value⟩
  have hfeed := (TidyDefine.unbroken_of_word h.word h.unbroken).notMem.1
  have hbare := h.noComment_line
  have hopen := h.not_endsOpen_line
  rw [hbody] at hfeed hbare hopen
  have hextent : Scan.Extent body ('\n' :: t) := by
    refine Scan.extent_of_noComment (fun hmem => hfeed (List.mem_cons_of_mem _ hmem))
      (hbare.right (s := ['#'])) (fun hbody => hopen (hbody.append ['#'])) t
  have hindent : ∀ c ∈ ([] : Text), Scan.isIndent c = true := by simp
  have hstarts : Scan.Starts true .directive ([] ++ '#' :: body) ('\n' :: t) :=
    .directive rfl hindent hextent
  have hlexemes := Scan.lexemes_append hstarts
  rw [Scan.lexemes_bareLineFeed] at hlexemes
  rw [defineLine_eq, List.append_assoc, hbody]
  exact hlexemes

/-- It holds no mark, so it stays. -/
theorem unmarked_defineLine (h : PlainDefine name value) (s : Text) :
    Composer.unmarked (MacroTable.defineLine name value ++ s)
      = MacroTable.defineLine name value ++ Composer.unmarked s := by
  have hfeed := (TidyDefine.unbroken_of_word h.word h.unbroken).notMem.1
  have hmark := CompiledText.hasPart_toolMarker_line hfeed
    (TidyDefine.not_isSuffix_of_word h.word h.unmarked h.unmarkedValue)
  rw [defineLine_eq, List.append_assoc, List.append_assoc, List.singleton_append,
    CompiledText.unmarked_append_break Text.isLineBreak_lineFeed hmark]
  rfl

end PlainDefine

section

variable {defines : List (Text × Text)} (hplain : ∀ define ∈ defines, PlainDefine define.1 define.2)
include hplain

theorem unmarked_defineBlock (s : Text) :
    Composer.unmarked (defineBlock defines ++ s) = defineBlock defines ++ Composer.unmarked s := by
  induction defines with
  | nil => rfl
  | cons define rest ih =>
    rw [List.forall_mem_cons] at hplain
    rw [defineBlock, List.flatMap_cons, List.append_assoc, hplain.1.unmarked_defineLine, ← defineBlock,
      ih hplain.2, List.append_assoc]

/-- **The directives of the block:** one for each define, in order. -/
theorem directives_defineBlock (t : Text) : Scan.directives (defineBlock defines ++ t)
    = defines.map (fun define => TidyDefine.line define.1 define.2) ++ Scan.directives t := by
  induction defines with
  | nil => rfl
  | cons define rest ih =>
    rw [List.forall_mem_cons] at hplain
    have hrest := ih hplain.2
    rw [Scan.directives_eq] at hrest
    rw [defineBlock, List.flatMap_cons, List.append_assoc, Scan.directives_eq,
      hplain.1.lexemes_defineLine, ← defineBlock]
    exact congrArg (TidyDefine.line define.1 define.2 :: ·) hrest

end

/-! ## The place of the block -/

namespace Prologue

open Scan (AtLineStart NoComment directives leadingDirectives)

/-- **A header that stands apart** from what is below it: it ends a line, and none of it is the mark of a
tool. -/
structure HeaderApart (walked : Text) : Prop where
  ends : AtLineStart (header walked)
  unmarked : Text.hasPart Composer.toolMarker (header walked) = false

instance (walked : Text) : Decidable (HeaderApart walked) :=
  decidable_of_iff (AtLineStart (header walked) ∧
      Text.hasPart Composer.toolMarker (header walked) = false)
    ⟨fun h => ⟨h.1, h.2⟩, fun h => ⟨h.ends, h.unmarked⟩⟩

theorem HeaderApart.unmarked_append {walked : Text} (h : HeaderApart walked) (s : Text) :
    Composer.unmarked (header walked ++ s) = header walked ++ Composer.unmarked s := by
  have hmark := h.unmarked
  rcases h.ends.cases with hnil | ⟨front, hfront, -⟩
  · rw [hnil]
    rfl
  · rw [hfront] at hmark ⊢
    rw [List.append_assoc, List.append_assoc, List.singleton_append,
      CompiledText.unmarked_append_break Text.isLineBreak_lineFeed hmark]
    rfl

theorem HeaderApart.unmarked_eq {walked : Text} (h : HeaderApart walked) :
    Composer.unmarked walked = header walked ++ Composer.unmarked (below walked) := by
  conv_lhs => rw [← header_append_below walked]
  exact h.unmarked_append _

theorem noComment_header {walked : Text} (h : NoComment walked) : NoComment (header walked) := by
  rw [← header_append_below walked] at h
  exact h.left

/-- **The block of the defines takes effect.** With it, the text has the directives of the text without
it and one for each define, between those in front of it and those behind it. -/
structure TakesEffect (defines : List (Text × Text)) (former latter before behind : Text) : Prop where
  former_eq : former = before ++ behind
  latter_eq : latter = before ++ (defineBlock defines ++ behind)
  atLineStart : AtLineStart before
  directives_former : directives former = directives before ++ directives behind
  directives_latter : directives latter = directives before
    ++ (defines.map (fun define => TidyDefine.line define.1 define.2) ++ directives behind)

theorem HeaderApart.takesEffect {walked : Text} (h : HeaderApart walked) (hbare : NoComment walked)
    {defines : List (Text × Text)} (hplain : ∀ define ∈ defines, PlainDefine define.1 define.2) :
    TakesEffect defines (Composer.unmarked walked) (Composer.unmarked (insert (defineBlock defines) walked))
      (header walked) (Composer.unmarked (below walked)) := by
  have hlatter : Composer.unmarked (insert (defineBlock defines) walked)
      = header walked ++ (defineBlock defines ++ Composer.unmarked (below walked)) := by
    rw [insert_eq, h.unmarked_append, unmarked_defineBlock hplain]
  refine ⟨h.unmarked_eq, hlatter, h.ends, ?_, ?_⟩
  · rw [h.unmarked_eq, h.ends.directives_append (noComment_header hbare)]
  · rw [hlatter, h.ends.directives_append (noComment_header hbare), directives_defineBlock hplain]

/-- It stands below the header directives, if only line feeds end lines and no header line comes to the
start of what is below when the marks of tools are taken out. -/
theorem HeaderApart.leadingDirectives_eq {walked : Text} (h : HeaderApart walked)
    (hbare : NoComment walked) (hfeeds : FeedsOnly (Composer.unmarked walked))
    (hbelow : header (Composer.unmarked (below walked)) = []) :
    leadingDirectives (Composer.unmarked walked) = leadingDirectives (header walked) := by
  rw [h.unmarked_eq] at hfeeds ⊢
  exact h.ends.leadingDirectives_append (noComment_header hbare)
    (leadingDirectives_eq_nil hfeeds.right (headerLength_eq_zero_iff.2 hbelow))

end Prologue

/-! ## Composed texts -/

namespace Composer

open Prologue (HeaderApart TakesEffect header below)
open Scan (AtLineStart leadingDirectives)

/-- The composer without its defines. -/
def bare (composer : Composer) : Composer := { composer with macros := .empty }

/-- What is composed without transforms, for defines whose names are texts. -/
theorem result_process_of_active {composer : Composer} (htransforms : composer.transforms = [])
    {defines : Value} {active : OrderedMap Text Text}
    (hactive : composer.macros.active defines = .ok (.named active.pairs)) (name : FileName)
    (source : Text) : (composer.process name source defines).result
      = (Expansion.ofSource composer.store name.orAnonymous source).result.map fun walked =>
          unmarked (Prologue.insert (defineBlock active.pairs) walked) := by
  rw [result_process, result_compose_untransformed htransforms,
    Library.prepared_of_active active.nodup hactive]
  cases (Expansion.ofSource composer.store name.orAnonymous source).result <;> rfl

/-- Without defines that is the walked text without the marks of tools. -/
theorem result_process_bare {composer : Composer} (htransforms : composer.transforms = [])
    (name : FileName) (source : Text) : (composer.bare.process name source .null).result
      = (Expansion.ofSource composer.store name.orAnonymous source).result.map unmarked := by
  have hcompose : (composer.bare.compose name.orAnonymous source .null).result
      = (Expansion.ofSource composer.bare.store name.orAnonymous source).result.map unmarked :=
    result_compose_bare rfl htransforms
  rw [result_process, hcompose]
  rfl

/-- **Where the defines stand in a composed text.** With and without them composing fails alike. If the
header of the walked text stands apart, the one text is the other with the block of the defines in it, at
a place where a line starts; the block takes effect there, and nothing else is read in another way. And
the place is below the header directives, if only line feeds end lines and the marks of tools hide no
header line. -/
theorem inserts_prologue {composer : Composer} (htransforms : composer.transforms = [])
    {defines : Value} {active : OrderedMap Text Text}
    (hactive : composer.macros.active defines = .ok (.named active.pairs))
    (hplain : ∀ define ∈ active.pairs, PlainDefine define.1 define.2) (name : FileName)
    (source : Text) :
    (∃ fault, (composer.bare.process name source .null).result = .error fault ∧
      (composer.process name source defines).result = .error fault) ∨
    ∃ walked former latter,
      (Expansion.ofSource composer.store name.orAnonymous source).result = .ok walked ∧
      (composer.bare.process name source .null).result = .ok former ∧
      (composer.process name source defines).result = .ok latter ∧
      (HeaderApart walked → ∃ before behind,
        TakesEffect active.pairs former latter before behind ∧
        (Text.FeedsOnly former → header (unmarked (below walked)) = [] →
          leadingDirectives former = leadingDirectives before)) := by
  rw [result_process_of_active htransforms hactive, result_process_bare htransforms]
  cases hwalk : (Expansion.ofSource composer.store name.orAnonymous source).result with
  | error fault => exact .inl ⟨fault, rfl, rfl⟩
  | ok walked =>
    have hbare := (Expansion.mayFollow_ofSource hwalk).bare
    refine .inr ⟨walked, _, _, rfl, rfl, rfl, fun happart => ⟨_, _, happart.takesEffect hbare hplain, ?_⟩⟩
    exact happart.leadingDirectives_eq hbare

/-- The source with a fragment that brings its own precision and a mark, as a case of the general
statement: the defines stand below the version. -/
theorem inserts_prologue_of_marked_fragment :
    ∃ former latter before behind,
      (Library.markedLibrary.composer.bare.process (.text "x") Library.versionedSource .null).result
        = .ok former ∧
      (Library.markedLibrary.composer.process (.text "x") Library.versionedSource
        (ActiveDefines.toValue (.named Library.twoDefines.pairs))).result = .ok latter ∧
      TakesEffect Library.twoDefines.pairs former latter before behind ∧
      leadingDirectives former = leadingDirectives before := by
  have hactive : Library.markedLibrary.composer.macros.active
      (ActiveDefines.toValue (.named Library.twoDefines.pairs))
        = .ok (.named Library.twoDefines.pairs) :=
    MacroTable.active_empty_named Library.twoDefines.nodup
  have hwalked : (Expansion.ofSource Library.markedLibrary.composer.store
      (FileName.text "x").orAnonymous Library.versionedSource).result
        = .ok Library.versionedWalked := by
    apply ok_of_toOption
    decide +kernel
  have hplain : ∀ define ∈ Library.twoDefines.pairs, PlainDefine define.1 define.2 := by
    decide +kernel
  rcases inserts_prologue rfl hactive hplain (.text "x") Library.versionedSource with
    ⟨fault, hformer, -⟩ | ⟨walked, former, latter, hwalk, hformer, hlatter, hplace⟩
  · rw [result_process_bare rfl, hwalked] at hformer
    cases hformer
  · rw [hwalked] at hwalk
    obtain rfl := Except.ok.inj hwalk
    obtain ⟨before, behind, heffect, hleading⟩ := hplace (by decide +kernel)
    have hunmarked := hformer
    rw [result_process_bare rfl, hwalked] at hunmarked
    obtain rfl := Except.ok.inj hunmarked
    exact ⟨_, latter, before, behind, hformer, hlatter, heffect,
      hleading (by decide +kernel) (by decide +kernel)⟩

/-- **A define within a header directive.** The line of the directive ends in a backslash, and its
keyword is all that is looked at; so the define becomes a part of the directive. -/
theorem splits_continued_header : ¬ ∀ (composer : Composer) (name : FileName) (source : Text)
    (defines : Value) (active : OrderedMap Text Text) (former latter : Text),
    composer.transforms = [] → composer.macros.active defines = .ok (.named active.pairs) →
    (∀ define ∈ active.pairs, PlainDefine define.1 define.2) → active.pairs ≠ [] →
    (composer.bare.process name source .null).result = .ok former →
    (composer.process name source defines).result = .ok latter →
    ∃ before behind, former = before ++ behind ∧
      latter = before ++ (defineBlock active.pairs ++ behind) ∧ AtLineStart before := by
  intro h
  let source : Text := "#version 300 es\n#extension GL_foo : \\\n enable\nint a;"
  let defines : OrderedMap Text Text := ⟨[("A", "1")], by decide⟩
  let former : Text := "\n#version 300 es\n#extension GL_foo : \\\n enable\nint a;\n"
  let latter : Text := "\n#version 300 es\n#extension GL_foo : \\\n#define A 1\n enable\nint a;\n"
  have hformer : (Library.emptyLibrary.composer.bare.process (.text "x") source .null).result
      = .ok former := by
    apply ok_of_toOption
    decide +kernel
  have hlatter : (Library.emptyLibrary.composer.process (.text "x") source
      (ActiveDefines.toValue (.named defines.pairs))).result = .ok latter := by
    apply ok_of_toOption
    decide +kernel
  obtain ⟨before, behind, hsplit, hinserted, hstart⟩ := h Library.emptyLibrary.composer (.text "x") source
    _ defines former latter rfl (MacroTable.active_empty_named defines.nodup) (by decide +kernel) nofun
    hformer hlatter
  have hnone : ∀ place ∈ List.range (former.length + 1), ¬ (latter = former.take place
      ++ (defineBlock defines.pairs ++ former.drop place) ∧ AtLineStart (former.take place)) := by
    decide +kernel
  have hplace : before.length ∈ List.range (former.length + 1) := by
    rw [List.mem_range, hsplit, List.length_append]
    omega
  apply hnone _ hplace
  rw [hsplit, List.take_left, List.drop_left]
  exact ⟨hinserted, hstart⟩

end Composer

end GlslCompose
