/-
`Proofs/CommentRemoval.lean` -- what dropping the comments of a text does to its other
tokens.

The walk over directives drops a comment without putting anything in its place, whereas
a comment inside a directive becomes a blank. So two tokens with nothing but comments
between them come to stand side by side, and the text that is collected may read
differently: `int a/**/b;` is collected as `int ab;`. That no comment and no directive
comes into being this way, and that white space only runs together with white space, is
what has to be shown to see that this is the whole damage:

* the code tokens of the collected text are those of the source exactly when each of them
  is still read as itself in front of what is left of the text behind it
  (`code_collected_iff`), and
* that is so whenever each comment has a character beside it that can stand neither in an
  identifier nor in a number (`standAlone_of_apart`).
-/
import GlslCompose.Proofs.IncludeGraph
import GlslCompose.Proofs.Lexemes

set_option autoImplicit false

namespace GlslCompose

namespace Scan

/-! ## Rows without comments -/

/-- What is left of a row of lexemes when its comments are dropped. -/
def uncommented (row : List Lexeme) : Text :=
  (row.filter fun lexeme => !lexeme.1.isComment).flatMap Prod.snd

/-- The lexemes of a row that are not white space. -/
def visible (row : List Lexeme) : List Lexeme := row.filter fun lexeme => lexeme.1 != .space

/-- The lexemes of a row that are neither white space nor comments. -/
def code (row : List Lexeme) : List Lexeme :=
  row.filter fun lexeme => lexeme.1 != .space && !lexeme.1.isComment

/-- **Each code token stands alone:** it is read as itself in front of what is left of the row behind
it without comments. -/
def StandAlone : List Lexeme → Prop
  | [] => True
  | lexeme :: behind =>
    (isCode lexeme.1 = true → plain? (lexeme.2 ++ uncommented behind)
      = some ⟨lexeme.1, lexeme.2, uncommented behind⟩) ∧ StandAlone behind

instance decidableStandAlone : (row : List Lexeme) → Decidable (StandAlone row)
  | [] => inferInstanceAs (Decidable True)
  | lexeme :: behind =>
    have := decidableStandAlone behind
    inferInstanceAs (Decidable ((isCode lexeme.1 = true → plain? (lexeme.2 ++ uncommented behind)
      = some ⟨lexeme.1, lexeme.2, uncommented behind⟩) ∧ StandAlone behind))

/-- Whether a row has no directives. -/
def Undirected (row : List Lexeme) : Prop := ∀ lexeme ∈ row, lexeme.1 ≠ .directive

instance (row : List Lexeme) : Decidable (Undirected row) :=
  inferInstanceAs (Decidable (∀ lexeme ∈ row, lexeme.1 ≠ .directive))

theorem uncommented_cons (lexeme : Lexeme) (row : List Lexeme) : uncommented (lexeme :: row)
    = if lexeme.1.isComment then uncommented row else lexeme.2 ++ uncommented row := by
  cases hcomment : lexeme.1.isComment <;> simp [uncommented, hcomment]

theorem not_isComment_of_isCode {kind : TokenKind} (h : isCode kind = true) :
    kind.isComment = false ∧ kind ≠ .space := by
  cases kind <;> simp_all [isCode, TokenKind.isComment]

/-- White space starts with a blank or a line feed. -/
theorem Starts.exists_cons_of_space {lineStart : Bool} {kind : TokenKind} {data rest : Text}
    (h : Starts lineStart kind data rest) (hkind : kind = .space) :
    ∃ c t, data = c :: t ∧ (isSpace c = true ∨ c = '\n') := by
  subst hkind
  cases h with
  | plain _ hreads =>
    cases hreads with
    | @lineFeed blanks _ hblanks =>
      cases blanks with
      | nil => exact ⟨_, _, rfl, .inr rfl⟩
      | cons c blanks => exact ⟨_, _, rfl, .inl (hblanks c List.mem_cons_self)⟩
    | blanks hne hblanks _ _ =>
      obtain ⟨c, t, rfl⟩ := List.exists_cons_of_ne_nil hne
      exact ⟨c, t, rfl, .inl (hblanks c List.mem_cons_self)⟩

/-- A comment starts with a slash. -/
theorem Starts.exists_cons_of_isComment {lineStart : Bool} {kind : TokenKind} {data rest : Text}
    (h : Starts lineStart kind data rest) (hkind : kind.isComment = true) :
    ∃ t, data = '/' :: t := by
  cases h with
  | directive _ _ _ => cases hkind
  | plain _ hreads =>
    cases hreads with
    | closedComment _ => exact ⟨_, rfl⟩
    | openComment _ => exact ⟨_, rfl⟩
    | lineComment _ _ => exact ⟨_, rfl⟩
    | lineFeed _ => cases hkind
    | blanks _ _ _ _ => cases hkind
    | identifier _ _ _ => cases hkind
    | number _ _ _ => cases hkind
    | other _ _ _ => cases hkind

/-- What follows a line comment is the end of the text or a line feed. -/
theorem Starts.rest_of_lineComment {lineStart : Bool} {kind : TokenKind} {data rest : Text}
    (h : Starts lineStart kind data rest) (hkind : kind = .lineComment) :
    rest = [] ∨ ∃ t, rest = '\n' :: t := by
  subst hkind
  cases h with
  | plain _ hreads =>
    cases hreads with
    | lineComment _ hfeed =>
      cases rest with
      | nil => exact .inl rfl
      | cons c t =>
        have hc : c = '\n' := by simpa using hfeed c rfl
        exact .inr ⟨t, by rw [hc]⟩

/-! ## White space -/

/-- A text whose first character behind all its white space is no `#`. -/
def NoHashBehindSpace (s : Text) : Prop := (s.dropWhile isSpace).head? ≠ some '#'

/-- Blanks in front of what is not blank are no visible token. -/
theorem visible_blanks {lineStart : Bool} {blanks t : Text} (hblanks : ∀ c ∈ blanks, isSpace c = true)
    (hspace : ∀ c ∈ t.head?, isSpace c = false) (hhash : lineStart = true → t.head? ≠ some '#') :
    visible (lexemes lineStart (blanks ++ t)) = visible (lexemes lineStart t) := by
  by_cases hnil : blanks = []
  · rw [hnil, List.nil_append]
  by_cases hfeed : t.head? = some '\n'
  · obtain ⟨t, rfl⟩ := List.head?_eq_some_iff.1 hfeed
    rw [lexemes_lineFeed lineStart hblanks, lexemes_bareLineFeed]
    rfl
  · have hstarts : Starts lineStart .space blanks t := by
      refine .plain (fun hstart => NoHash.append_blanks ?_ hblanks)
        (.blanks hnil hblanks hspace hfeed)
      cases t with
      | nil => simp [NoHash]
      | cons c t =>
        have hindent := isIndent_of_not_isSpace (hspace c rfl)
        have hhead := hhash hstart
        simpa [NoHash, hindent] using hhead
    rw [lexemes_append hstarts, startBehind_blanks lineStart hblanks]
    rfl

/-- White space in front of a text is no visible token. -/
theorem visible_append_blanks {lineStart : Bool} {blanks t : Text}
    (hblanks : ∀ c ∈ blanks, isSpace c = true) (hhash : lineStart = true → NoHashBehindSpace t) :
    visible (lexemes lineStart (blanks ++ t)) = visible (lexemes lineStart t) := by
  have hsplit : t = t.takeWhile isSpace ++ t.dropWhile isSpace :=
    List.takeWhile_append_dropWhile.symm
  have hall : ∀ c ∈ blanks ++ t.takeWhile isSpace, isSpace c = true := by
    intro c hc
    rcases List.mem_append.1 hc with hc | hc
    · exact hblanks c hc
    · exact all_takeWhile c hc
  calc visible (lexemes lineStart (blanks ++ t))
      = visible (lexemes lineStart (blanks ++ t.takeWhile isSpace ++ t.dropWhile isSpace)) := by
        rw [List.append_assoc, ← hsplit]
    _ = visible (lexemes lineStart (t.dropWhile isSpace)) :=
        visible_blanks hall head?_dropWhile hhash
    _ = visible (lexemes lineStart (t.takeWhile isSpace ++ t.dropWhile isSpace)) :=
        (visible_blanks all_takeWhile head?_dropWhile hhash).symm
    _ = visible (lexemes lineStart t) := by rw [← hsplit]

/-! ## Nothing but code joins -/

theorem noHashBehindSpace_lineFeed (t : Text) : NoHashBehindSpace ('\n' :: t) := by
  simp [NoHashBehindSpace, isSpace]

theorem NoHashBehindSpace.append_blanks {blanks t : Text} (h : NoHashBehindSpace t)
    (hblanks : ∀ c ∈ blanks, isSpace c = true) : NoHashBehindSpace (blanks ++ t) := by
  unfold NoHashBehindSpace
  rwa [List.dropWhile_append_of_pos hblanks]

theorem uncommented_bareLineFeed (lineStart : Bool) (t : Text) :
    uncommented (lexemes lineStart ('\n' :: t)) = '\n' :: uncommented (lexemes true t) := by
  rw [lexemes_bareLineFeed, uncommented_cons]
  rfl

/-- A code token that starts no directive does not start with a `#` where a line starts. -/
theorem noHashBehindSpace_of_code {kind : TokenKind} {data rest : Text} (hreads : Reads kind data rest)
    (hcode : isCode kind = true) (hhash : NoHash (data ++ rest)) (t : Text) :
    NoHashBehindSpace (data ++ t) := by
  obtain ⟨c, word, rfl, hspace, -⟩ := hreads.exists_cons hcode
  have hindent := isIndent_of_not_isSpace hspace
  have hne : c ≠ '#' := by simpa [NoHash, hindent] using hhash
  simp [NoHashBehindSpace, hspace, hne]

/-- **No directive comes into being.** Where a text starts at the start of a line and has no
directive, nor has what is left of it. -/
theorem noHashBehindSpace_uncommented {s : Text} (h : Undirected (lexemes true s)) :
    NoHashBehindSpace (uncommented (lexemes true s)) := by
  -- The scan goes on with a flag of its own, so the flag is a variable in the induction.
  suffices hall : ∀ lineStart s, lineStart = true → Undirected (lexemes lineStart s) →
      NoHashBehindSpace (uncommented (lexemes lineStart s)) from hall true s rfl h
  intro lineStart s
  induction lineStart, s using scan_induction with
  | nil lineStart => intro _ _; rw [lexemes_nil]; simp [NoHashBehindSpace, uncommented]
  | cons lineStart kind data rest hstarts ih =>
    rintro rfl hrow
    have hbehind := hstarts.rest_of_lineComment
    rw [lexemes_append hstarts] at hrow ⊢
    rw [uncommented_cons]
    have hrest : Undirected (lexemes (startBehind true kind data) rest) := fun lexeme hmem =>
      hrow lexeme (List.mem_cons_of_mem _ hmem)
    cases hstarts with
    | directive _ _ _ => exact absurd rfl (hrow _ List.mem_cons_self)
    | plain hhash hreads =>
      have hcode := fun h => noHashBehindSpace_of_code hreads h (hhash rfl)
        (uncommented (lexemes (startBehind true kind data) rest))
      cases hreads with
      | closedComment _ => exact ih rfl hrest
      | openComment _ => exact ih rfl hrest
      | lineComment _ _ =>
        rcases hbehind rfl with rfl | ⟨t, rfl⟩
        · rw [lexemes_nil]; simp [NoHashBehindSpace, uncommented, TokenKind.isComment]
        · rw [uncommented_bareLineFeed]
          exact noHashBehindSpace_lineFeed _
      | lineFeed hblanks =>
        simp only [TokenKind.isComment, List.append_assoc]
        exact (noHashBehindSpace_lineFeed _).append_blanks hblanks
      | blanks _ hblanks _ _ =>
        refine (ih ?_ hrest).append_blanks hblanks
        exact startBehind_blanks true hblanks
      | identifier _ _ _ => exact hcode rfl
      | number _ _ _ => exact hcode rfl
      | other _ _ _ => exact hcode rfl

/-- A code token in front of another text is the first visible token there exactly when it is read as
itself. -/
theorem visible_code_iff {lineStart : Bool} {kind : TokenKind} {data rest : Text}
    (h : Starts lineStart kind data rest) (hcode : isCode kind = true) (t : Text)
    (row : List Lexeme) : visible (lexemes lineStart (data ++ t)) = (kind, data) :: row ↔
      plain? (data ++ t) = some ⟨kind, data, t⟩ ∧ visible (lexemes false t) = row := by
  have hspace := (not_isComment_of_isCode hcode).2
  have hbehind := startBehind_of_isCode hcode lineStart data
  cases h with
  | directive _ _ _ => cases hcode
  | plain hhash hreads =>
    have hfirst : ∀ t', Starts lineStart kind data t' → visible (lexemes lineStart (data ++ t'))
        = (kind, data) :: visible (lexemes false t') := by
      intro t' hstarts
      rw [lexemes_append hstarts, hbehind]
      simp [visible, hspace]
    constructor
    · intro heq
      obtain ⟨c, word, hdata, hblank, hfeed⟩ := hreads.exists_cons hcode
      obtain ⟨kind', data', rest', hsplit, hstarts⟩ :=
        exists_starts lineStart (s := data ++ t) (by simp [hdata])
      -- The first token there is visible, because the text does not start with a blank.
      have hshown : kind' ≠ .space := by
        intro hkind
        obtain ⟨d, word', hdata', hd⟩ := hstarts.exists_cons_of_space hkind
        rw [hdata, hdata'] at hsplit
        obtain rfl := (List.cons.inj hsplit).1
        rcases hd with hd | rfl
        · rw [hblank] at hd; cases hd
        · exact hfeed rfl
      have hrow : visible (lexemes lineStart (data ++ t))
          = (kind', data') :: visible (lexemes (startBehind lineStart kind' data') rest') := by
        rw [hsplit, lexemes_append hstarts]
        simp [visible, hshown]
      rw [hrow] at heq
      obtain ⟨hfirst', htail⟩ := List.cons.inj heq
      obtain ⟨rfl, rfl⟩ := Prod.mk.inj hfirst'
      obtain rfl := List.append_cancel_left hsplit
      rw [hbehind] at htail
      refine ⟨?_, htail⟩
      cases hstarts with
      | directive _ _ _ => cases hcode
      | plain _ hreads' => exact plain?_eq_some_iff.2 ⟨rfl, hreads'⟩
    · rintro ⟨hplain, rfl⟩
      refine hfirst t (.plain (fun hstart => ?_) (reads_of_plain? hplain))
      exact noHash_of_code hreads hcode (hhash hstart) t

/-- What is no code shows nothing, neither in a text nor in what is left of it. -/
theorem visible_uncommented_of_not_isCode {lineStart : Bool} {kind : TokenKind} {data rest : Text}
    (h : Starts lineStart kind data rest) (hcode : ¬ isCode kind = true)
    (hrow : Undirected (lexemes lineStart (data ++ rest))) :
    visible (lexemes lineStart (uncommented (lexemes lineStart (data ++ rest))))
      = visible (lexemes (startBehind lineStart kind data)
          (uncommented (lexemes (startBehind lineStart kind data) rest))) := by
  have hbehind := h.rest_of_lineComment
  rw [lexemes_append h] at hrow ⊢
  have hrest : Undirected (lexemes (startBehind lineStart kind data) rest) := fun lexeme hmem =>
    hrow lexeme (List.mem_cons_of_mem _ hmem)
  rw [uncommented_cons]
  cases h with
  | directive _ _ _ => exact absurd rfl (hrow _ List.mem_cons_self)
  | plain _ hreads =>
    cases hreads with
    | closedComment _ => rfl
    | openComment _ => rfl
    | lineComment _ _ =>
      -- Behind a line comment there is a line feed, or nothing.
      have hcomment : TokenKind.lineComment.isComment = true := rfl
      rcases hbehind rfl with rfl | ⟨t, rfl⟩
      · simp [lexemes_nil, uncommented, TokenKind.isComment]
      · rw [if_pos hcomment, uncommented_bareLineFeed, lexemes_bareLineFeed, lexemes_bareLineFeed]
    | lineFeed hblanks =>
      rw [startBehind_lineFeed, if_neg (by simp [TokenKind.isComment]), List.append_assoc,
        List.singleton_append, lexemes_lineFeed lineStart hblanks]
      rfl
    | blanks _ hblanks _ _ =>
      -- Blanks are passed over unless a hash came to stand behind them at the start of a line.
      rw [startBehind_blanks lineStart hblanks] at hrest ⊢
      refine visible_append_blanks hblanks fun hstart => ?_
      subst hstart
      exact noHashBehindSpace_uncommented hrest
    | identifier _ _ _ => exact absurd rfl hcode
    | number _ _ _ => exact absurd rfl hcode
    | other _ _ _ => exact absurd rfl hcode

/-- **The code of what is left of a text**, token by token. It is the code of the text exactly when
each code token stands alone. -/
theorem visible_uncommented_iff (lineStart : Bool) (s : Text)
    (hrow : Undirected (lexemes lineStart s)) :
    visible (lexemes lineStart (uncommented (lexemes lineStart s))) = code (lexemes lineStart s) ↔
      StandAlone (lexemes lineStart s) := by
  induction lineStart, s using scan_induction with
  | nil lineStart => rw [lexemes_nil]; simp [StandAlone, uncommented, lexemes_nil, visible, code]
  | cons lineStart kind data rest hstarts ih =>
    have hrest : Undirected (lexemes (startBehind lineStart kind data) rest) := fun lexeme hmem =>
      hrow lexeme (lexemes_append hstarts ▸ List.mem_cons_of_mem _ hmem)
    have htail := ih hrest
    -- A code token is visible in what is left just when it stands alone, and nothing else is code.
    by_cases hcode : isCode kind = true
    · obtain ⟨hcomment, hspace⟩ := not_isComment_of_isCode hcode
      have hkept : code ((kind, data) :: lexemes false rest)
          = (kind, data) :: code (lexemes false rest) := by simp [code, hspace, hcomment]
      rw [startBehind_of_isCode hcode] at htail
      rw [lexemes_append hstarts, startBehind_of_isCode hcode, hkept, uncommented_cons,
        if_neg (by simp [hcomment]), visible_code_iff hstarts hcode, htail]
      simp [StandAlone, hcode]
    · have hdropped : code ((kind, data) :: lexemes (startBehind lineStart kind data) rest)
          = code (lexemes (startBehind lineStart kind data) rest) := by
        have hdirective := hrow (kind, data) (lexemes_append hstarts ▸ List.mem_cons_self)
        cases kind <;> simp_all [code, isCode, TokenKind.isComment]
      rw [visible_uncommented_of_not_isCode hstarts hcode hrow, lexemes_append hstarts, hdropped,
        htail]
      simp [StandAlone, hcode]

/-! ## The line feed behind the text -/

theorem plain?_append_iff {kind : TokenKind} {data rest : Text} :
    plain? (data ++ rest) = some ⟨kind, data, rest⟩ ↔ Reads kind data rest := by
  rw [plain?_eq_some_iff]
  exact and_iff_right rfl

/-- A code token is read as itself in front of a text if and only if it is in front of the text with a
line feed behind it. -/
theorem reads_append_lineFeed_iff {kind : TokenKind} {data t : Text} (hcode : isCode kind = true) :
    Reads kind data (t ++ ['\n']) ↔ Reads kind data t := by
  constructor
  · intro h
    have hbare := h.of_apart hcode (apart_lineFeed []) apart_nil fun _ _ => by simp
    rwa [List.append_nil] at hbare
  · exact fun h => h.append_lineFeed hcode []

section Pad

variable {tokens padded : List Token}

theorem Padded.undirected (h : Padded tokens padded)
    (hrow : Undirected (tokens.map Token.lexeme)) : Undirected (padded.map Token.lexeme) := by
  induction h with
  | nil => simp [Undirected, Token.lexeme]
  | last _ => simpa [Undirected, Token.lexeme] using hrow
  | cons _ ih =>
    simp only [Undirected, List.map_cons, List.forall_mem_cons] at hrow ⊢
    exact ⟨hrow.1, ih hrow.2⟩

/-- What takes in the line feed behind a text without directives is white space or a comment. -/
theorem space_or_comment_of_last {token : Token} (hrow : token.kind ≠ .directive)
    (h : token.kind = .space ∨ (token.kind = .directive ∧ EndsOpen token.data) ∨
      isOpen token.lexeme = true) : token.kind = .space ∨ token.kind = .blockComment := by
  rcases h with hspace | ⟨hdirective, -⟩ | hopen
  · exact .inl hspace
  · exact absurd hdirective hrow
  · rw [isOpen, Bool.and_eq_true] at hopen
    exact .inr (of_decide_eq_true hopen.1)

/-- No code token takes in the line feed behind the text. -/
theorem Padded.code_eq (h : Padded tokens padded) (hrow : Undirected (tokens.map Token.lexeme)) :
    code (padded.map Token.lexeme) = code (tokens.map Token.lexeme) := by
  induction h with
  | nil => rfl
  | @last token hlast =>
    have hdirective := hrow token.lexeme (by simp)
    rcases space_or_comment_of_last hdirective hlast with hkind | hkind <;>
      simp [code, Token.lexeme, hkind, TokenKind.isComment]
  | cons _ ih =>
    simp only [Undirected, List.map_cons, List.forall_mem_cons] at hrow
    have htail := ih hrow.2
    simp only [code, List.map_cons, List.filter_cons] at htail ⊢
    rw [htail]

/-- Without its comments, a text with a line feed behind it is what it was, or has the line feed
behind it. -/
theorem Padded.uncommented_cases (h : Padded tokens padded) :
    uncommented (padded.map Token.lexeme) = uncommented (tokens.map Token.lexeme) ∨
      uncommented (padded.map Token.lexeme) = uncommented (tokens.map Token.lexeme) ++ ['\n'] := by
  induction h with
  | nil => exact .inr rfl
  | @last token _ =>
    simp only [List.map_cons, List.map_nil, uncommented_cons, Token.lexeme]
    split
    · exact .inl rfl
    · exact .inr (by simp [uncommented])
  | @cons token _ _ _ ih =>
    simp only [List.map_cons, uncommented_cons]
    split
    · exact ih
    · rcases ih with ih | ih
      · exact .inl (by rw [ih])
      · exact .inr (by rw [ih, List.append_assoc])

theorem Padded.standAlone_iff (h : Padded tokens padded)
    (hrow : Undirected (tokens.map Token.lexeme)) :
    StandAlone (padded.map Token.lexeme) ↔ StandAlone (tokens.map Token.lexeme) := by
  induction h with
  | nil => simp [StandAlone, Token.lexeme, isCode]
  | @last token hlast =>
    have hdirective := hrow token.lexeme (by simp)
    rcases space_or_comment_of_last hdirective hlast with hkind | hkind <;>
      simp [StandAlone, Token.lexeme, hkind, isCode]
  | @cons token tokens padded hpadded ih =>
    simp only [Undirected, List.map_cons, List.forall_mem_cons] at hrow
    simp only [List.map_cons, StandAlone, ih hrow.2, plain?_append_iff]
    refine and_congr_left fun _ => imp_congr_right fun hcode => ?_
    rcases hpadded.uncommented_cases with heq | heq
    · rw [heq]
    · rw [heq, reads_append_lineFeed_iff hcode]

end Pad

/-! ## Comments that stand apart -/

/-- **Comments that cannot join anything:** beside each of them is the end of the text, or a character
that can stand neither in a number nor in an identifier. -/
def CommentsApart (row : List Lexeme) : Prop :=
  ∀ front lexeme behind, row = front ++ lexeme :: behind → lexeme.1.isComment = true →
    (∀ c ∈ (uncommented front).getLast?, isGlue c = false) ∨ Apart (uncommented behind)

/-- A number does not start with a character that can stand in none. -/
theorem number?_of_apart {t : Text} (ht : Apart t) : number? t = none := by
  have hdecimal : decimalNumber? t = none := by
    have happend := decimalNumber?_append (s := []) ht.numberEnds
    rwa [List.nil_append] at happend
  have hhex : hexNumber? t = none := by
    unfold hexNumber?
    split
    · exact absurd (ht '0' rfl) (by decide)
    · rfl
  rw [number?, hhex, hdecimal]

/-- A number and an identifier end in a character that can go on. -/
theorem Reads.isGlue_getLast {kind : TokenKind} {data rest : Text} (h : Reads kind data rest)
    (hkind : kind = .identifier ∨ kind = .number) : ∀ c ∈ data.getLast?, isGlue c = true := by
  intro z hz
  cases h with
  | @identifier c word _ hc hword _ =>
    have hmem := List.mem_of_getLast? hz
    rcases List.mem_cons.1 hmem with rfl | hmem
    · exact isGlue_of_isWord (isWord_of_isIdentifierStart hc)
    · exact isGlue_of_isWord (hword z hmem)
  | @number c digits _ _ _ h =>
    -- Otherwise the number would have ended before that character.
    cases hglue : isGlue z with
    | true => rfl
    | false =>
      obtain ⟨front, hfront⟩ := List.getLast?_eq_some_iff.1 hz
      have hapart : Apart (z :: rest) := by
        intro d hd
        obtain rfl : z = d := by simpa using hd
        exact hglue
      rw [hfront, List.append_assoc, List.singleton_append] at h
      by_cases hnil : front = []
      · rw [hnil, List.nil_append, number?_of_apart hapart] at h
        cases h
      · rw [number?_append hnil hapart.numberEnds] at h
        simp only [Option.map_eq_some_iff, Prod.exists, Prod.mk.injEq] at h
        obtain ⟨data, behind, hfound, rfl, -⟩ := h
        have hlength := congrArg List.length (number?_split hfound).1
        simp at hlength
  | closedComment _ => simp at hkind
  | openComment _ => simp at hkind
  | lineComment _ _ => simp at hkind
  | lineFeed _ => simp at hkind
  | blanks _ _ _ _ => simp at hkind
  | other _ _ _ => simp at hkind

/-- **How far a text and what is left of it agree:** up to a character that can stand in no number,
if no comment inside the run before that character has more of the run behind it. -/
theorem exists_common (lineStart : Bool) (rest : Text)
    (hguard : ∀ front lexeme behind, lexemes lineStart rest = front ++ lexeme :: behind →
      lexeme.1.isComment = true → (∀ c ∈ uncommented front, isGlue c = true) →
      Apart (uncommented behind)) :
    ∃ common t t', rest = common ++ t ∧ uncommented (lexemes lineStart rest) = common ++ t' ∧
      Apart t ∧ Apart t' := by
  induction lineStart, rest using scan_induction with
  | nil lineStart => exact ⟨[], [], [], rfl, by rw [lexemes_nil]; rfl, apart_nil, apart_nil⟩
  | cons lineStart kind data rest hstarts ih =>
    rw [lexemes_append hstarts] at hguard ⊢
    rw [uncommented_cons]
    by_cases hcomment : kind.isComment = true
    · -- A slash ends the run here, and what comes of the text behind the comment is guarded.
      have hslash : Apart (data ++ rest) := by
        obtain ⟨t, rfl⟩ := hstarts.exists_cons_of_isComment hcomment
        exact apart_cons (by decide) _
      rw [if_pos hcomment]
      exact ⟨[], _, _, rfl, rfl, hslash, hguard [] _ _ rfl hcomment (by simp [uncommented])⟩
    · rw [if_neg hcomment]
      by_cases hglue : ∀ c ∈ data, isGlue c = true
      · obtain ⟨common, t, t', hrest, hleft, ht, ht'⟩ := ih fun front lexeme behind hrow hc hfront =>
          hguard ((kind, data) :: front) lexeme behind (by rw [hrow]; rfl) hc (by
            rw [uncommented_cons, if_neg hcomment]
            simpa [or_imp, forall_and] using ⟨hglue, hfront⟩)
        refine ⟨data ++ common, t, t', ?_, ?_, ht, ht'⟩
        · rw [List.append_assoc, ← hrest]
        · rw [List.append_assoc, ← hleft]
      · -- The run ends within the token, which is left as it is.
        have hsplit := List.takeWhile_append_dropWhile (p := isGlue) (l := data)
        cases hdrop : data.dropWhile isGlue with
        | nil =>
          rw [hdrop, List.append_nil] at hsplit
          rw [← hsplit] at hglue
          exact absurd all_takeWhile hglue
        | cons z behind =>
          have hz : isGlue z = false := head?_dropWhile z (by rw [hdrop]; rfl)
          rw [hdrop] at hsplit
          have hcut : ∀ x, data ++ x = data.takeWhile isGlue ++ z :: (behind ++ x) := by
            intro x
            rw [← List.cons_append, ← List.append_assoc, hsplit]
          exact ⟨_, _, _, hcut _, hcut _, apart_cons hz _, apart_cons hz _⟩

/-- The character behind a slash that opens no comment is left where it is. -/
theorem head?_uncommented {lineStart : Bool} {rest : Text} (hne : rest.head? ≠ some '/') :
    (uncommented (lexemes lineStart rest)).head? = rest.head? := by
  by_cases hnil : rest = []
  · rw [hnil, lexemes_nil]
    rfl
  · obtain ⟨kind, data, behind, rfl, hstarts⟩ := exists_starts lineStart hnil
    obtain ⟨c, word, hdata⟩ := List.exists_cons_of_ne_nil hstarts.ne_nil
    rw [lexemes_append hstarts, uncommented_cons, if_neg, hdata]
    · rfl
    · intro hcomment
      obtain ⟨t, ht⟩ := hstarts.exists_cons_of_isComment hcomment
      exact hne (by rw [ht]; rfl)

/-- The last character of a run that can go on can go on. -/
theorem exists_getLast?_append {data front : Text} (hne : data ≠ [])
    (hlast : ∀ c ∈ data.getLast?, isGlue c = true) (hfront : ∀ c ∈ front, isGlue c = true) :
    ∃ z, (data ++ front).getLast? = some z ∧ isGlue z = true := by
  rw [List.getLast?_append]
  cases hz : front.getLast? with
  | some z => exact ⟨z, rfl, hfront z (List.mem_of_getLast? hz)⟩
  | none =>
    have hdata := List.getLast?_eq_some_getLast hne
    exact ⟨_, hdata, hlast _ hdata⟩

/-- A code token that may go on is read as itself without comments that stand apart: up to where it
must stop, nothing was dropped. -/
theorem Reads.uncommented_of_glue {lineStart : Bool} {kind : TokenKind} {data rest : Text}
    (hreads : Reads kind data rest) (hcode : isCode kind = true)
    (hlast : ∀ c ∈ data.getLast?, isGlue c = true)
    (h : CommentsApart ((kind, data) :: lexemes lineStart rest)) :
    Reads kind data (uncommented (lexemes lineStart rest)) := by
  obtain ⟨hkept, -⟩ := not_isComment_of_isCode hcode
  have hguard : ∀ front lexeme behind, lexemes lineStart rest = front ++ lexeme :: behind →
      lexeme.1.isComment = true → (∀ c ∈ uncommented front, isGlue c = true) →
      Apart (uncommented behind) := by
    intro front lexeme behind hrow hcomment hfront
    rcases h ((kind, data) :: front) lexeme behind (by rw [hrow]; rfl) hcomment with hglue | hapart
    · -- The token runs up to the comment, so what stands in front of the comment goes on.
      obtain ⟨z, hz, hgoes⟩ := exists_getLast?_append hreads.ne_nil hlast hfront
      have hstops := hglue z (by rw [uncommented_cons, if_neg (by simp [hkept]), hz]; rfl)
      rw [hgoes] at hstops
      cases hstops
    · exact hapart
  obtain ⟨common, t, t', hrest, hleft, ht, ht'⟩ := exists_common lineStart rest hguard
  rw [hleft]
  refine Reads.of_apart (hrest ▸ hreads) hcode ht ht' fun _ hslash => ?_
  rw [hslash] at hlast
  exact absurd (hlast '/' rfl) (by decide)

/-- A token that cannot go on is a character by itself, and is read as itself anyway. -/
theorem Reads.uncommented_of_not_glue {lineStart : Bool} {kind : TokenKind} {data rest : Text}
    (hreads : Reads kind data rest) (hcode : isCode kind = true)
    (hlast : ¬ ∀ c ∈ data.getLast?, isGlue c = true) :
    Reads kind data (uncommented (lexemes lineStart rest)) := by
  have hends := hreads.isGlue_getLast
  cases hreads with
  | identifier _ _ _ => exact absurd (hends (.inl rfl)) hlast
  | number _ _ _ => exact absurd (hends (.inr rfl)) hlast
  | @other c _ hc hopens _ =>
    have hglue : isGlue c = false := by simpa using hlast
    refine .other hc (fun hslash => ?_) (number?_of_apart (apart_cons hglue _))
    rw [head?_uncommented (hopens hslash).1]
    exact hopens hslash
  | closedComment _ => cases hcode
  | openComment _ => cases hcode
  | lineComment _ _ => cases hcode
  | lineFeed _ => cases hcode
  | blanks _ _ _ _ => cases hcode

/-- **Comments that stand apart join nothing.** -/
theorem standAlone_of_apart (lineStart : Bool) (s : Text)
    (h : CommentsApart (lexemes lineStart s)) : StandAlone (lexemes lineStart s) := by
  induction lineStart, s using scan_induction with
  | nil lineStart => rw [lexemes_nil]; trivial
  | cons lineStart kind data rest hstarts ih =>
    rw [lexemes_append hstarts] at h ⊢
    refine ⟨fun hcode => plain?_append_iff.2 ?_, ih fun front lexeme behind hrow hcomment => ?_⟩
    · cases hstarts with
      | directive _ _ _ => cases hcode
      | plain _ hreads =>
        by_cases hlast : ∀ c ∈ data.getLast?, isGlue c = true
        · exact hreads.uncommented_of_glue hcode hlast h
        · exact hreads.uncommented_of_not_glue hcode hlast
    -- What stands apart in the whole row does so in the row behind the token.
    · rcases h ((kind, data) :: front) lexeme behind (by rw [hrow]; rfl) hcomment with hlast | hapart
      · refine .inl fun c hc => hlast c ?_
        rw [uncommented_cons]
        split
        · exact hc
        · rw [List.getLast?_append, hc]
          rfl
      · exact .inr hapart

end Scan

namespace Expansion

/-- A file is scanned as its line feed in front and then the text with a line feed behind it. -/
theorem fileTokens_eq (text : Text) : fileTokens text
    = ⟨.space, ['\n'], 0⟩ :: Scan.tokensFrom 1 true (text ++ ['\n']) := by
  have hnone : ∀ c ∈ ([] : Text), Scan.isSpace c = true := by simp
  exact Scan.tokensFrom_append (Scan.starts_lineFeed true hnone (text ++ ['\n'])) 0

/-- The walk over a file without directives drops the comments and keeps everything else. -/
theorem ofTokens_undirected {splice : IncludeFrame → Text → Logged (List Token)}
    {file root : FileName} {above : List IncludeFrame} {tokens : List Token}
    (h : Scan.Undirected (tokens.map Token.lexeme)) :
    ∃ out, (ofTokens splice file root above tokens).result = .ok out ∧
      Token.toText out = Scan.uncommented (tokens.map Token.lexeme) := by
  induction tokens with
  | nil => exact ⟨[], rfl, rfl⟩
  | cons token tokens ih =>
    simp only [Scan.Undirected, List.map_cons, List.forall_mem_cons] at h
    obtain ⟨out, hout, htext⟩ := ih h.2
    have hkind : token.kind ≠ .directive := h.1
    rw [List.map_cons, Scan.uncommented_cons, ← htext, Token.fst_lexeme, ofTokens]
    by_cases hcomment : token.kind.isComment = true
    · rw [if_pos hcomment, if_pos hcomment]
      exact ⟨out, hout, rfl⟩
    · rw [if_neg hcomment, if_neg hcomment, if_pos hkind, Logged.result_map, hout]
      exact ⟨token :: out, rfl, by simp [Token.toText]⟩

/-- **What dropping the comments does to the code of a text.** In a source without directives the
visible tokens of the text that the walk collects are the code tokens of the source exactly when each
code token is still read as itself in front of what is left behind it. -/
theorem code_collected_iff (store : FragmentStore) (name : FileName) (source : Text)
    (hsource : Scan.Undirected ((Token.ofText source 1).map Token.lexeme)) :
    ∃ text, (ofSource store name source).result = .ok text ∧
      (Scan.visible ((Token.ofText text 1).map Token.lexeme)
          = Scan.code ((Token.ofText source 1).map Token.lexeme) ↔
        Scan.StandAlone ((Token.ofText source 1).map Token.lexeme)) := by
  -- The walk scans the source with a line feed behind it, which changes nothing about its code.
  have hpadded := Scan.padded_tokensFrom 1 true source
  have hrow := hpadded.undirected hsource
  have hcode := hpadded.code_eq hsource
  have hstand := hpadded.standAlone_iff hsource
  rw [Scan.map_lexeme_tokensFrom] at hrow hcode hstand
  have hfile : (fileTokens source).map Token.lexeme
      = (.space, ['\n']) :: Scan.lexemes true (source ++ ['\n']) := by
    rw [fileTokens_eq, List.map_cons, Scan.map_lexeme_tokensFrom]
    rfl
  have hwhole : Scan.Undirected ((fileTokens source).map Token.lexeme) := by
    rw [hfile]
    exact List.forall_mem_cons.2 ⟨by simp, hrow⟩
  obtain ⟨out, hout, htext⟩ := ofTokens_undirected hwhole
  refine ⟨Token.toText out, ?_, ?_⟩
  · rw [ofSource, Logged.result_map, ofText_eq, hout]
    rfl
  · have hvisible : Scan.visible ((Token.ofText (Token.toText out) 1).map Token.lexeme)
        = Scan.visible (Scan.lexemes true
            (Scan.uncommented (Scan.lexemes true (source ++ ['\n'])))) := by
      rw [htext, hfile, Scan.uncommented_cons, Token.ofText, Scan.map_lexeme_tokensFrom,
        if_neg (by simp [TokenKind.isComment]), List.singleton_append, Scan.lexemes_bareLineFeed]
      rfl
    rw [hvisible, Token.ofText, ← hcode, Scan.visible_uncommented_iff true _ hrow, hstand]

/-- Comments beside blanks and operators leave the code as it is. -/
theorem code_collected_beside_blanks :
    Scan.Undirected ((Token.ofText "int /* one */ a, /* two */b;\n// end" 1).map Token.lexeme) ∧
    ∃ text, (ofSource .empty (.text "x") "int /* one */ a, /* two */b;\n// end").result = .ok text ∧
      Scan.visible ((Token.ofText text 1).map Token.lexeme)
        = Scan.code ((Token.ofText "int /* one */ a, /* two */b;\n// end" 1).map Token.lexeme) := by
  have hrow : Scan.Undirected
      ((Token.ofText (String.toList "int /* one */ a, /* two */b;\n// end") 1).map Token.lexeme) := by
    decide +kernel
  obtain ⟨text, htext, hcode⟩ := code_collected_iff .empty (.text "x") _ hrow
  exact ⟨hrow, text, htext, hcode.2 (by decide +kernel)⟩

/-- **A comment can join two tokens.** Nothing but a comment stands between the two identifiers of
this source, and the text that the walk collects has one identifier in their place. -/
theorem joined_by_comment : ¬ ∀ (store : FragmentStore) (name : FileName) (source : Text),
    Scan.Undirected ((Token.ofText source 1).map Token.lexeme) →
    ∃ text, (ofSource store name source).result = .ok text ∧
      Scan.visible ((Token.ofText text 1).map Token.lexeme)
        = Scan.code ((Token.ofText source 1).map Token.lexeme) := by
  intro h
  have hrow : Scan.Undirected
      ((Token.ofText (String.toList "int a/**/b;") 1).map Token.lexeme) := by decide +kernel
  obtain ⟨text, htext, hcode⟩ := h .empty (.text "x") "int a/**/b;" hrow
  have hcollected : (ofSource .empty (.text "x") "int a/**/b;").result.toOption
      = some "\nint ab;\n".toList := by decide +kernel
  rw [htext] at hcollected
  obtain rfl := Option.some.inj hcollected
  revert hcode
  decide +kernel

end Expansion

end GlslCompose
