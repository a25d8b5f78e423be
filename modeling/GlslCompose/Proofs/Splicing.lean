/-
`Proofs/Splicing.lean` -- scanning a text again after texts were spliced into it.

Where a directive is replaced by a whole text, everything around it is scanned anew:
the tokens before it in front of another text, the tokens behind it with the line at
another start. Three facts keep that harmless. What stands in front of a directive on
its line is white space and comments, so a token that ends elsewhere on a line has the
same rest of its line behind it as before (`SameLine`), and that is all a token depends
on. The text that is put in is scanned between two line feeds and has no comment that is
open, so it neither joins what is before it nor runs into what is behind it. And what
is behind it starts where a directive may end, which reads the same at the start of a
line and within one.

White space right before the directive is the one token that changes: it takes in the
line feed at the start of the text that is put in. What is left is the same.
-/
import GlslCompose.Directive
import GlslCompose.Proofs.Lexemes

set_option autoImplicit false

namespace GlslCompose.Scan

/-! ## What is left of a token -/

/-- What is left of a lexeme in a text without includes. Nothing is left of a comment, and an include
has no text of its own. -/
def left? : Lexeme → Option Text
  | (kind, data) =>
    if kind.isComment then some []
    else if kind ≠ .directive then some data
    else
      let data := Directive.withoutComments data
      if Directive.keyword data = "define" then some (Directive.normalDefine data)
      else if Directive.keyword data = "include" then none
      else some data

/-- What is left of a row of lexemes without includes. -/
def leftover : List Lexeme → Option Text
  | [] => some []
  | lexeme :: row => (left? lexeme).bind fun text => (leftover row).map (text ++ ·)

theorem leftover_append {front behind : List Lexeme} {s t : Text} (hfront : leftover front = some s)
    (hbehind : leftover behind = some t) : leftover (front ++ behind) = some (s ++ t) := by
  induction front generalizing s with
  | nil =>
    obtain rfl : [] = s := by simpa [leftover] using hfront
    exact hbehind
  | cons lexeme front ih =>
    simp only [leftover, Option.bind_eq_some_iff, Option.map_eq_some_iff] at hfront
    obtain ⟨text, htext, rest, hrest, rfl⟩ := hfront
    rw [List.cons_append, leftover, htext, Option.bind_some, ih hrest, Option.map_some,
      List.append_assoc]

/-- A row without comments that are open. -/
def Closed (row : List Lexeme) : Prop := ∀ lexeme ∈ row, isOpen lexeme = false

/-- A row of lexemes that starts with one is that of a text that starts with it. -/
theorem lexemes_eq_cons {lineStart : Bool} {s data : Text} {kind : TokenKind} {row : List Lexeme}
    (h : (kind, data) :: row = lexemes lineStart s) : ∃ rest, s = data ++ rest ∧
      Starts lineStart kind data rest ∧ row = lexemes (startBehind lineStart kind data) rest := by
  by_cases hs : s = []
  · rw [hs, lexemes_nil] at h
    cases h
  · obtain ⟨kind', data', rest, rfl, hstarts⟩ := exists_starts lineStart hs
    rw [lexemes_append hstarts] at h
    obtain ⟨hfirst, hrow⟩ := List.cons.inj h
    obtain ⟨rfl, rfl⟩ := Prod.mk.inj hfirst
    exact ⟨rest, rfl, hstarts, hrow⟩

theorem eq_nil_of_lexemes {lineStart : Bool} {s : Text} (h : [] = lexemes lineStart s) : s = [] := by
  by_cases hs : s = []
  · exact hs
  · obtain ⟨kind, data, rest, rfl, hstarts⟩ := exists_starts lineStart hs
    rw [lexemes_append hstarts] at h
    cases h

/-- A directive stands where the line is at its start, and ends where a directive may end. -/
theorem Starts.of_directive {lineStart : Bool} {data rest : Text}
    (h : Starts lineStart .directive data rest) : lineStart = true ∧ Edge rest := by
  cases h with
  | directive hstart _ hextent => exact ⟨hstart, hextent.edge⟩
  | plain _ hreads => cases hreads

/-! ## Splicing -/

/-- **A row of lexemes with its includes replaced.** `Spliced row flat text` says that `flat` is the
row written out with the text of a fragment, between two line feeds, in place of each include, and
that `text` is what is left of all of them. No fragment has a comment that is open. -/
inductive Spliced : List Lexeme → Text → Text → Prop
  | nil : Spliced [] [] []
  | kept {kind : TokenKind} {data left flat text : Text} {row : List Lexeme} :
      left? (kind, data) = some left → Spliced row flat text →
      Spliced ((kind, data) :: row) (data ++ flat) (left ++ text)
  | fetched {data fragment inner innerText flat text : Text} {row : List Lexeme} :
      Closed (lexemes true ('\n' :: fragment ++ ['\n'])) →
      Spliced (lexemes true ('\n' :: fragment ++ ['\n'])) inner innerText → Spliced row flat text →
      Spliced ((.directive, data) :: row) (inner ++ flat) (innerText ++ text)

/-- Two texts that are the same, or have the same first line. -/
def SameLine (s t : Text) : Prop := s = t ∨ ∃ line s' t', s = line ++ '\n' :: s' ∧ t = line ++ '\n' :: t'

theorem SameLine.append {s t : Text} (h : SameLine s t) (data : Text) :
    SameLine (data ++ s) (data ++ t) := by
  rcases h with rfl | ⟨line, s', t', rfl, rfl⟩
  · exact .inl rfl
  · exact .inr ⟨data ++ line, s', t', by rw [List.append_assoc], by rw [List.append_assoc]⟩

theorem SameLine.head? {s t : Text} (h : SameLine s t) : t.head? = s.head? := by
  rcases h with rfl | ⟨line, s', t', rfl, rfl⟩
  · rfl
  · cases line <;> rfl

/-- Only a line feed starts another line. -/
theorem startBehind_of_not_mem {kind : TokenKind} {data : Text} (h : '\n' ∉ data) :
    startBehind false kind data = false := by
  have hlast : data.getLast? ≠ some '\n' := fun hlast => h (List.mem_of_getLast? hlast)
  cases kind <;> simp [startBehind, lineStartAfter, hlast]

/-- Where a line is past its start, nothing on it is replaced. -/
theorem Spliced.sameLine {row : List Lexeme} {s flat text : Text} (h : Spliced row flat text)
    (hrow : row = lexemes false s) : SameLine s flat := by
  induction h generalizing s with
  | nil => exact .inl (eq_nil_of_lexemes hrow)
  | @kept kind data left flat text row _ _ ih =>
    obtain ⟨rest, rfl, hstarts, hrest⟩ := lexemes_eq_cons hrow
    by_cases hfeed : '\n' ∈ data
    · obtain ⟨line, behind, rfl⟩ := List.append_of_mem hfeed
      exact .inr ⟨line, behind ++ rest, behind ++ flat, by simp, by simp⟩
    · rw [startBehind_of_not_mem hfeed] at hrest
      exact (ih hrest).append data
  | fetched _ _ _ _ _ =>
    -- A directive stands only where the line is at its start.
    obtain ⟨rest, rfl, hstarts, -⟩ := lexemes_eq_cons hrow
    cases hstarts.of_directive.1

/-- A comment that is open is not followed by anything. -/
theorem Spliced.eq_of_openComment {row : List Lexeme} {lineStart : Bool} {s flat text : Text}
    (h : Spliced row flat text) (hrow : row = lexemes lineStart s) (hopen : OpenComment s) :
    flat = s := by
  rw [lexemes_of_openComment hopen] at hrow
  cases h with
  | nil => cases hrow
  | kept _ hrest =>
    obtain ⟨hfirst, rfl⟩ := List.cons.inj hrow
    cases hrest
    rw [(Prod.mk.inj hfirst).2, List.append_nil]
  | fetched _ _ _ => cases hrow

/-- Where a directive may end, it may still end when includes behind that place were replaced. -/
theorem Spliced.edge {row : List Lexeme} {s flat text : Text} (h : Spliced row flat text)
    (hrow : row = lexemes false s) (hedge : Edge s) : Edge flat := by
  have hline := h.sameLine hrow
  rcases edge_iff.1 hedge with rfl | hfeed | ⟨t, rfl⟩ | ⟨t, rfl, hopen⟩
  · rw [lexemes_nil] at hrow
    subst hrow
    cases h
    exact edge_nil
  · rw [← hline.head?] at hfeed
    exact edge_iff.2 (.inr (.inl hfeed))
  · rcases hline with rfl | ⟨line, s', t', hs, rfl⟩
    · exact hedge
    · match line with
      | [] => cases hs
      | [c] => simp at hs
      | c :: d :: line =>
        obtain ⟨rfl, rfl, -⟩ : '/' = c ∧ '/' = d ∧ t = line ++ '\n' :: s' := by simpa using hs
        exact edge_iff.2 (.inr (.inr (.inl ⟨_, rfl⟩)))
  · rw [h.eq_of_openComment hrow ⟨t, rfl, hopen⟩]
    exact hedge

/-- Nothing is put into an empty text. -/
theorem Spliced.eq_nil {row : List Lexeme} {lineStart : Bool} {flat text : Text}
    (h : Spliced row flat text) (hrow : row = lexemes lineStart []) : flat = [] := by
  rw [lexemes_nil] at hrow
  subst hrow
  cases h
  rfl

theorem getLast?_append_of_parts {front front' rest rest' : Text} {c : Char}
    (h : (front ++ rest).getLast? = some c)
    (hfront : front.getLast? = some c → front'.getLast? = some c)
    (hnil : rest = [] → rest' = []) (hrest : rest.getLast? = some c → rest'.getLast? = some c) :
    (front' ++ rest').getLast? = some c := by
  rw [List.getLast?_append] at h ⊢
  by_cases hempty : rest = []
  · subst hempty
    rw [hnil rfl]
    exact hfront h
  · rw [List.getLast?_eq_some_getLast hempty] at h hrest
    rw [hrest h]
    rfl

/-- A text that ends in a line feed still does. -/
theorem Spliced.getLast? {row : List Lexeme} {lineStart : Bool} {s flat text : Text}
    (h : Spliced row flat text) (hrow : row = lexemes lineStart s) (hs : s.getLast? = some '\n') :
    flat.getLast? = some '\n' := by
  induction h generalizing lineStart s with
  | nil =>
    rw [eq_nil_of_lexemes hrow] at hs
    cases hs
  | kept _ hflat ih =>
    obtain ⟨rest, rfl, -, hrest⟩ := lexemes_eq_cons hrow
    refine getLast?_append_of_parts hs id (fun hnil => ?_) (ih hrest)
    exact hflat.eq_nil (hnil ▸ hrest)
  | @fetched data fragment inner _ flat _ row _ _ hflat ihinner ih =>
    obtain ⟨rest, rfl, -, hrest⟩ := lexemes_eq_cons hrow
    have hinner : inner.getLast? = some '\n' := ihinner rfl List.getLast?_concat
    refine getLast?_append_of_parts hs (fun _ => hinner) (fun hnil => ?_) (ih hrest)
    exact hflat.eq_nil (hnil ▸ hrest)

/-- **How a text starts.** It starts with the same character, or with the line feed of a text that was
put in. -/
theorem Spliced.head?_cases {row : List Lexeme} {lineStart : Bool} {s flat text : Text}
    (h : Spliced row flat text) (hrow : row = lexemes lineStart s) :
    flat.head? = s.head? ∨ flat.head? = some '\n' := by
  induction h generalizing lineStart s with
  | nil =>
    rw [eq_nil_of_lexemes hrow]
    exact .inl rfl
  | kept _ _ _ =>
    obtain ⟨rest, rfl, hstarts, -⟩ := lexemes_eq_cons hrow
    obtain ⟨c, word, rfl⟩ := List.exists_cons_of_ne_nil hstarts.ne_nil
    exact .inl rfl
  | @fetched data fragment inner _ flat _ row _ _ _ ihinner _ =>
    have hinner : inner.head? = some '\n' := by
      rcases ihinner rfl with hhead | hhead
      · exact hhead
      · exact hhead
    obtain ⟨t, rfl⟩ := List.head?_eq_some_iff.1 hinner
    exact .inr rfl

/-- Which directive a text starts depends on its blanks and the character behind them. -/
theorem NoHash.of_head? {blanks s t : Text} (h : NoHash (blanks ++ s))
    (hindent : ∀ c ∈ s.head?, isIndent c = false) (hhead : t.head? = s.head?) :
    NoHash (blanks ++ t) := by
  unfold NoHash at h ⊢
  rw [dropWhile_append_of_head hindent, List.head?_append] at h
  rwa [dropWhile_append_of_head (by rwa [hhead]), List.head?_append, hhead]

/-- **A token that stays is read again** in front of what the text behind it became, unless it is
white space right before a text that was put in. -/
theorem Spliced.starts {kind : TokenKind} {data rest flat text : Text} {lineStart : Bool}
    {row : List Lexeme} (hstarts : Starts lineStart kind data rest) (h : Spliced row flat text)
    (hrow : row = lexemes (startBehind lineStart kind data) rest) :
    Starts lineStart kind data flat ∨
      kind = .space ∧ (∀ c ∈ data, isSpace c = true) ∧ flat.head? = some '\n' := by
  cases hstarts with
  | directive hstart hindent hextent =>
    refine .inl (.directive hstart hindent ?_)
    exact hextent.of_head (h.edge hrow hextent.edge) (h.sameLine hrow).head?
  | plain hhash hreads =>
    by_cases hcode : isCode kind = true
    · -- Behind a code token the texts agree up to a line feed, which no token of code goes beyond.
      rw [startBehind_of_isCode hcode] at hrow
      refine .inl (.plain (fun hstart => noHash_of_code hreads hcode (hhash hstart) flat) ?_)
      rcases h.sameLine hrow with rfl | ⟨line, s', t', rfl, rfl⟩
      · exact hreads
      · exact hreads.of_apart hcode (apart_lineFeed s') (apart_lineFeed t') fun _ _ => by simp
    · cases hreads with
      | closedComment hclose =>
        exact .inl (.plain (fun _ => by simp [NoHash, isIndent]) (.closedComment hclose))
      | openComment hopen =>
        -- Nothing is behind a comment that stays open, and nothing came of it.
        rw [lexemes_nil] at hrow
        subst hrow
        cases h
        exact .inl (.plain hhash (.openComment hopen))
      | lineComment hbody hfeed =>
        refine .inl (.plain (fun _ => by simp [NoHash, isIndent]) (.lineComment hbody ?_))
        rwa [(h.sameLine hrow).head?]
      | lineFeed hblanks => exact .inl (starts_lineFeed lineStart hblanks flat)
      | blanks hne hblanks hspace hfeed =>
        rcases h.head?_cases hrow with hhead | hhead
        · refine .inl (.plain (fun hstart => ?_) (.blanks hne hblanks ?_ ?_))
          · refine (hhash hstart).of_head? (fun c hc => ?_) hhead
            exact isIndent_of_not_isSpace (hspace c hc)
          · rwa [hhead]
          · rwa [hhead]
        · exact .inr ⟨rfl, hblanks, hhead⟩
      | identifier _ _ _ => exact absurd rfl hcode
      | number _ _ _ => exact absurd rfl hcode
      | other _ _ _ => exact absurd rfl hcode

/-- Where a directive may end, a text reads the same at the start of a line and within one. -/
theorem lexemes_of_edge {s : Text} (h : Edge s) (lineStart : Bool) :
    lexemes lineStart s = lexemes false s := by
  rcases edge_iff.1 h with rfl | hfeed | ⟨t, rfl⟩ | hopen
  · rw [lexemes_nil, lexemes_nil]
  · obtain ⟨t, rfl⟩ := List.head?_eq_some_iff.1 hfeed
    rw [lexemes_bareLineFeed, lexemes_bareLineFeed]
  · have hstarts : ∀ lineStart, Starts lineStart .lineComment
        ('/' :: '/' :: t.takeWhile (· != '\n')) (t.dropWhile (· != '\n')) := fun lineStart =>
      .plain (fun _ => by simp [NoHash, isIndent]) (.lineComment all_takeWhile head?_dropWhile)
    have hsplit : '/' :: '/' :: t
        = ('/' :: '/' :: t.takeWhile (· != '\n')) ++ t.dropWhile (· != '\n') := by
      rw [List.cons_append, List.cons_append, List.takeWhile_append_dropWhile]
    rw [hsplit, lexemes_append (hstarts lineStart), lexemes_append (hstarts false)]
    rfl
  · rw [lexemes_of_openComment hopen, lexemes_of_openComment hopen]

theorem leftover_space (data : Text) (row : List Lexeme) :
    leftover ((.space, data) :: row) = (leftover row).map (data ++ ·) := rfl

/-- **Scanning again.** When a row of lexemes is written out with its includes replaced, what is left
of the tokens of the new text is what was left of the row and of the texts that were put in; and if
the row has no comment that is open, the new text has none. -/
theorem Spliced.leftover_lexemes {row : List Lexeme} {lineStart : Bool} {s flat text : Text}
    (h : Spliced row flat text) (hrow : row = lexemes lineStart s) :
    leftover (lexemes lineStart flat) = some text ∧
      (Closed row → Closed (lexemes lineStart flat)) := by
  induction h generalizing lineStart s with
  | nil => rw [lexemes_nil]; exact ⟨rfl, fun h => h⟩
  | @kept kind data left flat text row hleft hflat ih =>
    obtain ⟨rest, rfl, hstarts, hrest⟩ := lexemes_eq_cons hrow
    obtain ⟨htext, hclosed⟩ := ih hrest
    have hclosed' : Closed ((kind, data) :: row) → isOpen (kind, data) = false ∧
        Closed (lexemes (startBehind lineStart kind data) flat) := fun hrow =>
      ⟨hrow _ List.mem_cons_self, hclosed fun lexeme hmem => hrow lexeme (List.mem_cons_of_mem _ hmem)⟩
    rcases Spliced.starts hstarts hflat hrest with hagain | ⟨rfl, hblanks, hhead⟩
    · rw [lexemes_append hagain]
      refine ⟨?_, fun hrow => List.forall_mem_cons.2 (hclosed' hrow)⟩
      rw [leftover, hleft, htext]
      rfl
    · -- The white space takes in the line feed of the text that was put in.
      obtain ⟨t, rfl⟩ := List.head?_eq_some_iff.1 hhead
      rw [startBehind_blanks lineStart hblanks, lexemes_bareLineFeed] at htext hclosed'
      rw [lexemes_lineFeed lineStart hblanks]
      obtain rfl : data = left := Option.some.inj hleft
      rw [leftover_space, Option.map_eq_some_iff] at htext
      obtain ⟨rest, hrest, rfl⟩ := htext
      refine ⟨?_, fun hrow => List.forall_mem_cons.2 ⟨rfl, fun lexeme hmem => ?_⟩⟩
      · rw [leftover_space, hrest, Option.map_some, List.append_assoc]
      · exact (hclosed' hrow).2 lexeme (List.mem_cons_of_mem _ hmem)
  | @fetched data fragment inner innerText flat text row hfragment hinner hflat ihinner ih =>
    obtain ⟨rest, rfl, hstarts, hrest⟩ := lexemes_eq_cons hrow
    obtain ⟨rfl, hedge⟩ := hstarts.of_directive
    obtain ⟨htext, hclosed⟩ := ih hrest
    obtain ⟨hinnerText, hinnerClosed⟩ := ihinner rfl
    -- The text that was put in ends in a line feed, and what is behind it starts where the directive
    -- ended.
    obtain ⟨front, rfl⟩ := List.getLast?_eq_some_iff.1 (hinner.getLast? rfl List.getLast?_concat)
    have hflatEdge : Edge flat := hflat.edge hrest hedge
    obtain ⟨behind, hsplit⟩ := lexemes_append_lineFeed (hinnerClosed hfragment) hflatEdge
    rw [List.append_assoc, List.singleton_append, hsplit, lexemes_of_edge hflatEdge]
    refine ⟨leftover_append hinnerText htext, fun hrow lexeme hmem => ?_⟩
    rcases List.mem_append.1 hmem with hmem | hmem
    · exact hinnerClosed hfragment lexeme hmem
    · exact hclosed (fun lexeme hmem => hrow lexeme (List.mem_cons_of_mem _ hmem)) lexeme hmem

end GlslCompose.Scan
