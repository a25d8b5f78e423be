/-
`Proofs/Lexemes.lean` -- the row of tokens of a text, without the lines on which they
stand, and what a line feed does to it.

`Starts` puts directives and the other tokens together: what the scanner finds at the
start of a text, given whether the line is still at its start. A row of lexemes is then
built one token at a time (`lexemes_append`), and every statement about rows is an
induction over the tokens (`scan_induction`).

A line feed behind a text ends whatever the text left unfinished, with three exceptions,
which `Starts.lineFeed_cases` tells apart: white space takes it in, so does a directive
that ends in a backslash, and a comment that is open stays open. Two facts follow. With
a line feed behind it a text has the same tokens, the last one perhaps longer, or one
more (`padded_tokensFrom`). And the tokens of two texts, one behind the other, are those
of the first and then those of the second, if a line feed stands between them, no comment
is open, and the second starts where a directive may end (`lexemes_append_lineFeed`).
-/
import GlslCompose.Proofs.DirectiveExtent

set_option autoImplicit false

namespace GlslCompose

/-- A kind and a text: a token without the line on which it stands. -/
abbrev Lexeme := TokenKind × Text

/-- A token without the line on which it stands. -/
def Token.lexeme (token : Token) : Lexeme := (token.kind, token.data)

@[simp] theorem Token.fst_lexeme (token : Token) : token.lexeme.1 = token.kind := rfl

@[simp] theorem Token.snd_lexeme (token : Token) : token.lexeme.2 = token.data := rfl

namespace Scan

/-! ## The first token -/

/-- A text that no directive starts, wherever it stands. -/
def NoHash (s : Text) : Prop := (s.dropWhile isIndent).head? ≠ some '#'

/-- **What the scanner finds at the start of a text.** Directives are found only while the line is at
its start, and come first there. -/
inductive Starts (lineStart : Bool) : TokenKind → Text → Text → Prop
  | directive {indent body rest : Text} : lineStart = true → (∀ c ∈ indent, isIndent c = true) →
      Extent body rest → Starts lineStart .directive (indent ++ '#' :: body) rest
  | plain {kind : TokenKind} {data rest : Text} : (lineStart = true → NoHash (data ++ rest)) →
      Reads kind data rest → Starts lineStart kind data rest

theorem first?_eq_some_iff {lineStart : Bool} {s : Text} {p : Piece} : first? lineStart s = some p ↔
    s = p.data ++ p.rest ∧ Starts lineStart p.kind p.data p.rest := by
  obtain ⟨kind, data, rest⟩ := p
  constructor
  · intro h
    have hsplit := (first?_split h).1
    refine ⟨hsplit, ?_⟩
    simp only [first?, Option.orElse_eq_orElse, Option.orElse_eq_or, Option.or_eq_some_iff] at h
    rcases h with h | ⟨hnone, h⟩
    · split at h
      · rename_i hstart
        simp only [Piece.of?, Option.map_eq_some_iff, Prod.exists, Piece.mk.injEq] at h
        obtain ⟨data', rest', h, rfl, rfl, rfl⟩ := h
        obtain ⟨-, indent, body, hindent, rfl, hextent⟩ := directive?_eq_some_iff.1 h
        exact .directive hstart hindent hextent
      · cases h
    · refine .plain (fun hstart => ?_) (plain?_eq_some_iff.1 h).2
      rw [if_pos hstart, Piece.of?, Option.map_eq_none_iff] at hnone
      dsimp only at hsplit
      rw [hsplit] at hnone
      exact directive?_eq_none_iff.1 hnone
  · rintro ⟨rfl, h⟩
    dsimp only at h ⊢
    cases h with
    | directive hstart hindent hextent =>
      have hdirective := directive?_eq_some_iff.2 ⟨rfl, _, _, hindent, rfl, hextent⟩
      simp only [first?, hstart, if_true, hdirective]
      rfl
    | plain hhash hreads =>
      have hplain := plain?_eq_some_iff (p := ⟨kind, data, rest⟩).2 ⟨rfl, hreads⟩
      dsimp only at hplain
      cases lineStart with
      | false => simp [first?, hplain]
      | true => simp [first?, directive?_eq_none_iff.2 (hhash rfl), hplain, Piece.of?]

theorem Starts.ne_nil {lineStart : Bool} {kind : TokenKind} {data rest : Text}
    (h : Starts lineStart kind data rest) : data ≠ [] := by
  cases h with
  | directive _ _ _ => simp
  | plain _ hreads => exact hreads.ne_nil

/-- A text starts with one token. -/
theorem Starts.unique {lineStart : Bool} {kind kind' : TokenKind} {data data' rest rest' : Text}
    (h : Starts lineStart kind data rest) (h' : Starts lineStart kind' data' rest')
    (heq : data ++ rest = data' ++ rest') : kind = kind' ∧ data = data' ∧ rest = rest' := by
  have hp := first?_eq_some_iff (p := ⟨kind, data, rest⟩).2 ⟨rfl, h⟩
  have hp' := first?_eq_some_iff (p := ⟨kind', data', rest'⟩).2 ⟨rfl, h'⟩
  dsimp only at hp hp'
  rw [heq, hp'] at hp
  simpa [eq_comm] using hp

/-- Every text that is not empty starts with a token. -/
theorem exists_starts (lineStart : Bool) {s : Text} (hs : s ≠ []) :
    ∃ kind data rest, s = data ++ rest ∧ Starts lineStart kind data rest := by
  obtain ⟨kind, data, rest, rfl, hreads⟩ := exists_reads hs
  by_cases hhash : lineStart = true → NoHash (data ++ rest)
  · exact ⟨kind, data, rest, rfl, .plain hhash hreads⟩
  · obtain ⟨hstart, hhash⟩ : lineStart = true ∧ ¬ NoHash (data ++ rest) := by simpa using hhash
    cases hd : directive? (data ++ rest) with
    | none => exact absurd (directive?_eq_none_iff.1 hd) hhash
    | some found =>
      obtain ⟨data, rest⟩ := found
      obtain ⟨hsplit, indent, body, hindent, rfl, hextent⟩ := directive?_eq_some_iff.1 hd
      exact ⟨_, _, _, hsplit, .directive hstart hindent hextent⟩

/-! ## Rows of lexemes -/

/-- Whether the line is at its start behind a token. -/
def startBehind (lineStart : Bool) (kind : TokenKind) (data : Text) : Bool :=
  lineStartAfter lineStart ⟨kind, data, []⟩

/-- The lexemes of a text that starts where a line does, or not. -/
def lexemes (lineStart : Bool) (s : Text) : List Lexeme := (tokensFrom 0 lineStart s).map Token.lexeme

theorem tokensFrom_nil (line : Int) (lineStart : Bool) : tokensFrom line lineStart [] = [] := by
  rw [tokensFrom]
  split
  · rfl
  · rename_i p hp
    exact absurd ((first?_split hp).1.symm) (by simp [(first?_split hp).2])

/-- The first token comes first, and the others are those of the text behind it. -/
theorem tokensFrom_append {lineStart : Bool} {kind : TokenKind} {data rest : Text}
    (h : Starts lineStart kind data rest) (line : Int) :
    tokensFrom line lineStart (data ++ rest) = ⟨kind, data, line⟩ ::
      tokensFrom (line + lineFeeds data) (startBehind lineStart kind data) rest := by
  have hfirst := first?_eq_some_iff (p := ⟨kind, data, rest⟩).2 ⟨rfl, h⟩
  dsimp only at hfirst
  rw [tokensFrom]
  split
  · rename_i hnone
    rw [hfirst] at hnone
    cases hnone
  · rename_i p hp
    rw [hfirst] at hp
    obtain rfl := Option.some.inj hp
    rfl

/-- **Induction over the tokens of a text.** -/
theorem scan_induction {motive : Bool → Text → Prop} (nil : ∀ lineStart, motive lineStart [])
    (cons : ∀ lineStart kind data rest, Starts lineStart kind data rest →
      motive (startBehind lineStart kind data) rest → motive lineStart (data ++ rest))
    (lineStart : Bool) (s : Text) : motive lineStart s := by
  induction hn : s.length using Nat.strongRecOn generalizing lineStart s with
  | ind n ih =>
    by_cases hs : s = []
    · rw [hs]
      exact nil lineStart
    · obtain ⟨kind, data, rest, rfl, hstarts⟩ := exists_starts lineStart hs
      have hlt : rest.length < n := by
        have := List.length_pos_iff.2 hstarts.ne_nil
        rw [← hn, List.length_append]
        omega
      exact cons _ _ _ _ hstarts (ih _ hlt _ _ rfl)

/-- The line on which a text starts changes nothing but the lines of its tokens. -/
theorem map_lexeme_tokensFrom (line : Int) (lineStart : Bool) (s : Text) :
    (tokensFrom line lineStart s).map Token.lexeme = lexemes lineStart s := by
  suffices h : ∀ line line', (tokensFrom line lineStart s).map Token.lexeme
      = (tokensFrom line' lineStart s).map Token.lexeme from h line 0
  induction lineStart, s using scan_induction with
  | nil lineStart => intro line line'; rw [tokensFrom_nil, tokensFrom_nil]
  | cons lineStart kind data rest hstarts ih =>
    intro line line'
    rw [tokensFrom_append hstarts, tokensFrom_append hstarts, List.map_cons, List.map_cons,
      ih _ (line' + lineFeeds data)]
    rfl

theorem lexemes_nil (lineStart : Bool) : lexemes lineStart [] = [] := by
  rw [lexemes, tokensFrom_nil, List.map_nil]

/-- The first lexeme comes first, and the others are those of the text behind it. -/
theorem lexemes_append {lineStart : Bool} {kind : TokenKind} {data rest : Text}
    (h : Starts lineStart kind data rest) : lexemes lineStart (data ++ rest)
      = (kind, data) :: lexemes (startBehind lineStart kind data) rest := by
  rw [lexemes, tokensFrom_append h, List.map_cons, map_lexeme_tokensFrom]
  rfl

/-! ## A line feed behind a text -/

theorem NoHash.append_lineFeed {s : Text} (h : NoHash s) (t : Text) : NoHash (s ++ '\n' :: t) := by
  have hfeed : ∀ c ∈ ('\n' :: t).head?, isIndent c = false := by simp [isIndent]
  unfold NoHash at h ⊢
  rw [dropWhile_append_of_head hfeed]
  cases hs : s.dropWhile isIndent with
  | nil => simp
  | cons c s => rwa [hs] at h

theorem noHash_lineFeed (t : Text) : NoHash ('\n' :: t) := by simp [NoHash, isIndent]

theorem isSpace_of_isIndent {c : Char} (h : isIndent c = true) : isSpace c = true := by
  simp only [isIndent, Bool.or_eq_true, beq_iff_eq] at h
  rcases h with rfl | rfl <;> decide

theorem isIndent_of_not_isSpace {c : Char} (h : isSpace c = false) : isIndent c = false := by
  cases hc : isIndent c with
  | false => rfl
  | true => exact absurd (isSpace_of_isIndent hc) (by rw [h]; decide)

/-- White space in front of a text starts no directive that the text does not start. -/
theorem NoHash.append_blanks {blanks t : Text} (h : NoHash t)
    (hblanks : ∀ c ∈ blanks, isSpace c = true) : NoHash (blanks ++ t) := by
  induction blanks with
  | nil => exact h
  | cons c blanks ih =>
    have hnext := ih fun d hd => hblanks d (List.mem_cons_of_mem _ hd)
    unfold NoHash at hnext ⊢
    rw [List.cons_append, List.dropWhile_cons]
    split
    · exact hnext
    · intro hhead
      have hc := hblanks c List.mem_cons_self
      rw [Option.some.inj hhead] at hc
      revert hc
      decide

/-- A code token starts with a character that is not blank. -/
theorem Reads.exists_cons {kind : TokenKind} {data rest : Text} (h : Reads kind data rest)
    (hcode : isCode kind = true) : ∃ c t, data = c :: t ∧ isSpace c = false ∧ c ≠ '\n' := by
  cases h with
  | identifier hc _ _ =>
    obtain ⟨-, hspace, hfeed⟩ := isMark_of_isIdentifierStart hc
    exact ⟨_, _, rfl, hspace, hfeed⟩
  | number hc _ _ => exact ⟨_, _, rfl, (isMark_iff.1 hc).1, (isMark_iff.1 hc).2.1⟩
  | other hc _ _ => exact ⟨_, _, rfl, (isMark_iff.1 hc).1, (isMark_iff.1 hc).2.1⟩
  | closedComment _ => cases hcode
  | openComment _ => cases hcode
  | lineComment _ _ => cases hcode
  | lineFeed _ => cases hcode
  | blanks _ _ _ _ => cases hcode

/-- A code token that starts no directive starts none in front of any text. -/
theorem noHash_of_code {kind : TokenKind} {data rest : Text} (hreads : Reads kind data rest)
    (hcode : isCode kind = true) (hhash : NoHash (data ++ rest)) (t : Text) : NoHash (data ++ t) := by
  obtain ⟨c, word, rfl, hspace, -⟩ := hreads.exists_cons hcode
  have hindent := isIndent_of_not_isSpace hspace
  have hne : c ≠ '#' := by simpa [NoHash, hindent] using hhash
  simp [NoHash, hindent, hne]

/-- Behind code the line is past its start. -/
theorem startBehind_of_isCode {kind : TokenKind} (h : isCode kind = true) (lineStart : Bool)
    (data : Text) : startBehind lineStart kind data = false := by
  cases kind <;> first | rfl | cases h

/-- White space with its line feed is read in front of anything, wherever it stands. -/
theorem starts_lineFeed (lineStart : Bool) {blanks : Text} (hblanks : ∀ c ∈ blanks, isSpace c = true)
    (t : Text) : Starts lineStart .space (blanks ++ ['\n']) t := by
  refine .plain (fun _ => ?_) (.lineFeed hblanks)
  rw [List.append_assoc, List.singleton_append]
  exact (noHash_lineFeed t).append_blanks hblanks

/-- Behind white space within a line, the line is at its start if it was before. -/
theorem startBehind_blanks (lineStart : Bool) {blanks : Text}
    (hblanks : ∀ c ∈ blanks, isSpace c = true) : startBehind lineStart .space blanks = lineStart := by
  have hlast : blanks.getLast? ≠ some '\n' := by
    intro hlast
    have hfeed := hblanks _ (List.mem_of_getLast? hlast)
    revert hfeed
    decide
  simp [startBehind, lineStartAfter, hlast]

/-- Behind a line feed the line is at its start. -/
theorem startBehind_lineFeed (lineStart : Bool) (blanks : Text) :
    startBehind lineStart .space (blanks ++ ['\n']) = true := by
  simp [startBehind, lineStartAfter]

theorem lexemes_lineFeed (lineStart : Bool) {blanks : Text} (hblanks : ∀ c ∈ blanks, isSpace c = true)
    (t : Text) : lexemes lineStart (blanks ++ '\n' :: t)
      = (.space, blanks ++ ['\n']) :: lexemes true t := by
  have happend := lexemes_append (starts_lineFeed lineStart hblanks t)
  rwa [startBehind_lineFeed, List.append_assoc, List.singleton_append] at happend

/-- A line feed by itself. -/
theorem lexemes_bareLineFeed (lineStart : Bool) (t : Text) :
    lexemes lineStart ('\n' :: t) = (.space, ['\n']) :: lexemes true t := by
  have hnone : ∀ c ∈ ([] : Text), isSpace c = true := by simp
  exact lexemes_lineFeed lineStart hnone t

/-- A block comment that is never closed. -/
def OpenComment (s : Text) : Prop := ∃ body, s = '/' :: '*' :: body ∧ closeComment? body = none

theorem closeComment?_lineFeed {s : Text} (h : closeComment? s = none) :
    closeComment? (s ++ ['\n']) = none := by
  rw [closeComment?_concat (by decide), h]
  rfl

theorem OpenComment.append_lineFeed {s : Text} (h : OpenComment s) : OpenComment (s ++ ['\n']) := by
  obtain ⟨body, rfl, hopen⟩ := h
  exact ⟨body ++ ['\n'], rfl, closeComment?_lineFeed hopen⟩

/-- An open comment is all that its text has. -/
theorem lexemes_of_openComment {s : Text} (h : OpenComment s) (lineStart : Bool) :
    lexemes lineStart s = [(.blockComment, s)] := by
  obtain ⟨body, rfl, hopen⟩ := h
  have hhash : NoHash ('/' :: '*' :: body ++ []) := by simp [NoHash, isIndent]
  have hstarts : Starts lineStart .blockComment ('/' :: '*' :: body) [] :=
    .plain (fun _ => hhash) (.openComment hopen)
  have hlexemes := lexemes_append hstarts
  rwa [List.append_nil, lexemes_nil] at hlexemes

theorem Edge.append_lineFeed {s : Text} (h : Edge s) {t : Text} (ht : t = [] ∨ ¬ OpenComment s) :
    Edge (s ++ '\n' :: t) := by
  rcases edge_iff.1 h with rfl | hfeed | ⟨u, rfl⟩ | ⟨u, rfl, hopen⟩
  · exact edge_lineFeed t
  · obtain ⟨u, rfl⟩ := List.head?_eq_some_iff.1 hfeed
    exact edge_lineFeed _
  · rfl
  · rcases ht with rfl | hclosed
    · exact edge_iff.2 (.inr (.inr (.inr ⟨u ++ ['\n'], rfl, closeComment?_lineFeed hopen⟩)))
    · exact absurd ⟨u, rfl, hopen⟩ hclosed

/-- **What a line feed behind the text does to its first token.** It leaves the token as it is; or
the token reached the end of the text, and is white space or a directive that ends in a backslash,
and takes the line feed in; or it is a comment that stays open. -/
theorem Starts.lineFeed_cases {lineStart : Bool} {kind : TokenKind} {data rest : Text}
    (h : Starts lineStart kind data rest) :
    (∀ t, t = [] ∨ ¬ OpenComment rest → Starts lineStart kind data (rest ++ '\n' :: t)) ∨
    (rest = [] ∧ kind = .space ∧ ∀ t, Starts lineStart kind (data ++ ['\n']) t) ∨
    (rest = [] ∧ kind = .directive ∧ EndsOpen data ∧
      ∀ t, Edge t → Starts lineStart kind (data ++ ['\n']) t) ∨
    (rest = [] ∧ kind = .blockComment ∧ OpenComment data ∧
      Starts lineStart kind (data ++ ['\n']) []) := by
  cases h with
  | @directive indent body _ hstart hindent hextent =>
    by_cases hrest : rest = []
    · subst hrest
      rcases hextent.lineFeed_cases with hends | ⟨hopen, hgoes⟩
      · exact .inl fun t _ => .directive hstart hindent (hends t)
      · refine .inr (.inr (.inl ⟨rfl, rfl, ?_, fun t ht => ?_⟩))
        · have := hopen.append (indent ++ ['#'])
          rwa [List.append_assoc, List.singleton_append] at this
        · rw [List.append_assoc, List.cons_append]
          exact .directive hstart hindent (hgoes t ht)
    · -- What the directive ends in front of is its first character, and that is there already.
      refine .inl fun t ht => .directive hstart hindent ?_
      refine hextent.of_head (hextent.edge.append_lineFeed ht) ?_
      obtain ⟨c, rest, rfl⟩ := List.exists_cons_of_ne_nil hrest
      rfl
  | plain hhash hreads =>
    have hhash' : ∀ t, lineStart = true → NoHash (data ++ (rest ++ '\n' :: t)) := by
      intro t hstart
      rw [← List.append_assoc]
      exact (hhash hstart).append_lineFeed t
    by_cases hcode : isCode kind = true
    · exact .inl fun t _ => .plain (hhash' t) (hreads.append_lineFeed hcode t)
    cases hreads with
    | closedComment hclose => exact .inl fun t _ => .plain (hhash' t) (.closedComment hclose)
    | @openComment body hopen =>
      refine .inr (.inr (.inr ⟨rfl, rfl, ⟨body, rfl, hopen⟩, .plain ?_ ?_⟩))
      · intro hstart
        rw [List.append_nil]
        exact hhash' [] hstart
      · exact .openComment (closeComment?_lineFeed hopen)
    | lineComment hbody hfeed =>
      refine .inl fun t _ => .plain (hhash' t) (.lineComment hbody ?_)
      cases rest with
      | nil => simp
      | cons c rest => exact hfeed
    | lineFeed hblanks => exact .inl fun t _ => .plain (hhash' t) (.lineFeed hblanks)
    | blanks hne hblanks hspace hfeed =>
      by_cases hrest : rest = []
      · exact .inr (.inl ⟨hrest, rfl, starts_lineFeed lineStart hblanks⟩)
      · obtain ⟨c, rest, rfl⟩ := List.exists_cons_of_ne_nil hrest
        exact .inl fun t _ => .plain (hhash' t) (.blanks hne hblanks hspace hfeed)
    | identifier _ _ _ => exact absurd rfl hcode
    | number _ _ _ => exact absurd rfl hcode
    | other _ _ _ => exact absurd rfl hcode

/-! ## A text with a line feed behind it -/

/-- Whether a lexeme is a block comment that is never closed. -/
def isOpen (lexeme : Lexeme) : Bool :=
  lexeme.1 = .blockComment && closedComment? lexeme.2 = none

theorem isOpen_of_openComment {data : Text} (h : OpenComment data) :
    isOpen (.blockComment, data) = true := by
  obtain ⟨body, rfl, hopen⟩ := h
  simp [isOpen, closedComment?, hopen]

/-- **What a line feed behind a text does to its tokens.** The last one takes it in, or it is a token
by itself. Only white space, a directive that ends in a backslash and a comment that is open take it
in. -/
inductive Padded : List Token → List Token → Prop
  | nil {line : Int} : Padded [] [⟨.space, ['\n'], line⟩]
  | last {token : Token} : token.kind = .space ∨
      (token.kind = .directive ∧ EndsOpen token.data) ∨ isOpen token.lexeme = true →
      Padded [token] [{ token with data := token.data ++ ['\n'] }]
  | cons {token : Token} {tokens padded : List Token} : Padded tokens padded →
      Padded (token :: tokens) (token :: padded)

theorem padded_tokensFrom (line : Int) (lineStart : Bool) (s : Text) :
    Padded (tokensFrom line lineStart s) (tokensFrom line lineStart (s ++ ['\n'])) := by
  induction lineStart, s using scan_induction generalizing line with
  | nil lineStart =>
    have hnone : ∀ c ∈ ([] : Text), isSpace c = true := by simp
    have hfeed := tokensFrom_append (starts_lineFeed lineStart hnone []) line
    rw [List.nil_append, List.append_nil, tokensFrom_nil] at hfeed
    rw [tokensFrom_nil, List.nil_append, hfeed]
    exact .nil
  | cons lineStart kind data rest hstarts ih =>
    -- Where the last token takes the line feed in, it is the only one that is left.
    have hlong : ∀ line', Starts lineStart kind (data ++ ['\n']) [] →
        tokensFrom line' lineStart (data ++ [] ++ ['\n']) = [⟨kind, data ++ ['\n'], line'⟩] := by
      intro line' hfeed
      have htokens := tokensFrom_append hfeed line'
      rw [tokensFrom_nil, List.append_nil] at htokens
      rwa [List.append_nil]
    rw [tokensFrom_append hstarts]
    rcases hstarts.lineFeed_cases with hsame | ⟨rfl, hkind, hfeed⟩ | ⟨rfl, hkind, hopen, hfeed⟩ |
      ⟨rfl, hkind, hopen, hfeed⟩
    · rw [List.append_assoc, tokensFrom_append (hsame [] (.inl rfl))]
      exact .cons (ih _)
    · rw [hlong line (hfeed []), tokensFrom_nil]
      exact .last (.inl hkind)
    · rw [hlong line (hfeed [] edge_nil), tokensFrom_nil]
      exact .last (.inr (.inl ⟨hkind, hopen⟩))
    · rw [hlong line hfeed, tokensFrom_nil]
      refine .last (.inr (.inr ?_))
      rw [Token.lexeme, hkind]
      exact isOpen_of_openComment hopen

/-! ## One text behind the other -/

/-- **A line feed sets two texts apart.** If no comment of the first text is open and the second text
starts where a directive may end, the lexemes of the two with a line feed between them are those of
the first, with the line feed, and then those of the second. -/
theorem lexemes_append_lineFeed {lineStart : Bool} {s t : Text}
    (hclosed : ∀ lexeme ∈ lexemes lineStart (s ++ ['\n']), isOpen lexeme = false) (ht : Edge t) :
    ∃ behind, lexemes lineStart (s ++ '\n' :: t)
      = lexemes lineStart (s ++ ['\n']) ++ lexemes behind t := by
  induction lineStart, s using scan_induction with
  | nil lineStart =>
    refine ⟨true, ?_⟩
    rw [List.nil_append, List.nil_append, lexemes_bareLineFeed, lexemes_bareLineFeed, lexemes_nil]
    rfl
  | cons lineStart kind data rest hstarts ih =>
    have hlong : (∀ t, Edge t → Starts lineStart kind (data ++ ['\n']) t) →
        ∃ behind, lexemes lineStart (data ++ [] ++ '\n' :: t)
          = lexemes lineStart (data ++ [] ++ ['\n']) ++ lexemes behind t := by
      intro hfeed
      have hbehind := lexemes_append (hfeed t ht)
      have halone := lexemes_append (hfeed [] edge_nil)
      rw [List.append_assoc, List.singleton_append] at hbehind
      rw [List.append_nil, lexemes_nil] at halone
      refine ⟨startBehind lineStart kind (data ++ ['\n']), ?_⟩
      rw [List.append_nil, hbehind, halone]
      rfl
    rcases hstarts.lineFeed_cases with hsame | ⟨rfl, -, hfeed⟩ | ⟨rfl, -, -, hfeed⟩ |
      ⟨rfl, rfl, hopen, hfeed⟩
    · have halone := lexemes_append (hsame [] (.inl rfl))
      rw [List.append_assoc, halone] at hclosed
      have hclosed' := fun lexeme hmem => hclosed lexeme (List.mem_cons_of_mem _ hmem)
      -- A comment that is open right behind the token would still be open with the line feed.
      have hrest : ¬ OpenComment rest := by
        intro hopen
        have hlexemes := lexemes_of_openComment hopen.append_lineFeed (startBehind lineStart kind data)
        have hmem := hclosed' (.blockComment, rest ++ ['\n']) (hlexemes ▸ List.mem_singleton_self _)
        rw [isOpen_of_openComment hopen.append_lineFeed] at hmem
        cases hmem
      obtain ⟨behind, hbehind⟩ := ih hclosed'
      refine ⟨behind, ?_⟩
      rw [List.append_assoc, lexemes_append (hsame t (.inr hrest)), hbehind, List.append_assoc,
        halone]
      rfl
    · exact hlong fun t _ => hfeed t
    · exact hlong hfeed
    · rw [List.append_nil, lexemes_of_openComment hopen.append_lineFeed] at hclosed
      have hmem := hclosed _ List.mem_cons_self
      rw [isOpen_of_openComment hopen.append_lineFeed] at hmem
      cases hmem

end Scan

end GlslCompose
