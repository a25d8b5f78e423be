/-
`Proofs/ReturnedTokens.lean` -- a text has the same tokens with either kind of line end.

The scanner takes a carriage return for white space, so a text without one and the same
text with carriage returns in front of some line feeds are cut at the same places, with
one exception: a directive and a line comment end in front of a line feed, and take in a
carriage return that stands there. For a comment that does not matter, since it is
dropped.

`Rows` says what is left of that: two rows of tokens of the same kinds on the same lines,
related one by one, where a directive in front of a line feed is related to the other one
only together with that line feed (`Rows.fed`). The flag of `Rows` is for what stands
behind a directive. There both rows start with the same character, because the one that
could make a difference belongs to the directive.
-/
import GlslCompose.Proofs.ReturnedDirective

set_option autoImplicit false

namespace GlslCompose

open Text (Returned)

namespace Scan

variable {s t body rest : Text}

/-! ## Outside directives -/

theorem NoHash.returned (h : NoHash s) (hret : Returned s t) : NoHash t :=
  (hret.dropWhile (by decide)).head?_ne (by decide) h

/-- What ends in the first `*/` in it does so with other line ends, too. -/
theorem closeComment?_returned {body' : Text} (h : closeComment? body = some (body, []))
    (hret : Returned body body') : closeComment? body' = some (body', []) := by
  rcases rel_cases hret.closeComment? with ⟨hnone, -⟩ | ⟨_, found, hsome, hsome', -, hrest⟩
  · rw [h] at hnone
    cases hnone
  · obtain ⟨closed, behind⟩ := found
    rw [h] at hsome
    obtain rfl := Option.some.inj hsome
    obtain rfl : behind = [] := hrest.eq_nil_iff.2 rfl
    have hsplit := (closeComment?_split hsome').1
    rw [List.append_nil] at hsplit
    rw [hsome', hsplit]

theorem closeComment?_none_returned {body' : Text} (h : closeComment? body = none)
    (hret : Returned body body') : closeComment? body' = none := by
  rcases rel_cases hret.closeComment? with ⟨-, hnone⟩ | ⟨_, _, hsome, -, -⟩
  · exact hnone
  · rw [h] at hsome
    cases hsome

/-- **The token that is read in the other text:** of the same kind, with the same line ends but for
carriage returns, and in front of related texts. -/
structure Counterpart (kind : TokenKind) (data rest data' rest' : Text) : Prop where
  reads : Reads kind data' rest'
  behind : Returned rest rest'
  feeds : lineFeeds data' = lineFeeds data
  content : kind.isComment = false → Returned data data'
  edge : kind.isComment = true → Edge (data ++ rest) → Edge rest ∧ rest'.head? = rest.head?

theorem isComment_of_isCode {kind : TokenKind} (h : isCode kind = true) : kind.isComment = false := by
  cases kind <;> first | rfl | cases h

/-- A code token is the same in both texts. -/
theorem Reads.returned_of_code {kind : TokenKind} {data : Text} (h : Reads kind data rest)
    (hcode : isCode kind = true) (hret : Returned (data ++ rest) t) :
    ∃ rest', t = data ++ rest' ∧ Reads kind data rest' ∧ Returned rest rest' := by
  obtain ⟨rest', rfl, hrest⟩ := hret.exists_of_append_of_notMem (h.lineFeed_notMem hcode)
  refine ⟨rest', rfl, ?_, hrest⟩
  -- It depends on the text behind it only up to a character that can stand in no number.
  have hsplit := List.takeWhile_append_dropWhile (p := isGlue) (l := rest)
  have hglue : '\n' ∉ rest.takeWhile isGlue := fun hmem => absurd (all_takeWhile _ hmem) (by decide)
  rw [← hsplit] at hrest
  obtain ⟨apart, rfl, hbehind⟩ := hrest.exists_of_append_of_notMem hglue
  have hapart : Apart apart := by
    intro c hc
    rcases hbehind.head?_cases with heq | ⟨-, hreturn⟩
    · rw [heq] at hc
      exact head?_dropWhile c hc
    · rw [hreturn] at hc
      obtain rfl := Option.some.inj hc
      decide
  refine Reads.of_apart (t := rest.dropWhile isGlue) (by rwa [hsplit]) hcode head?_dropWhile hapart ?_
  intro hnil hdata
  rw [hnil, List.nil_append] at hsplit
  rcases h.slash (isComment_of_isCode hcode) with hmem | ⟨-, -, hline, hblock⟩
  · exact absurd (hdata ▸ List.mem_cons_self) hmem
  · rw [← hsplit] at hline hblock
    exact ⟨hbehind.head?_ne (by decide) hline, hbehind.head?_ne (by decide) hblock⟩

/-- A line comment takes in a carriage return in front of the line feed that ends it. -/
theorem exists_counterpart_of_lineComment (hbody : ∀ c ∈ body, (c != '\n') = true)
    (hfeed : ∀ c ∈ rest.head?, (c != '\n') = false) (hret : Returned ('/' :: '/' :: body ++ rest) t) :
    ∃ data' rest', t = data' ++ rest' ∧
      Counterpart .lineComment ('/' :: '/' :: body) rest data' rest' := by
  have hnot : '\n' ∉ '/' :: '/' :: body := by
    simp only [List.mem_cons, not_or]
    exact ⟨by decide, by decide, fun hmem => absurd (hbody _ hmem) (by decide)⟩
  obtain ⟨u, rfl, hu⟩ := hret.exists_of_append_of_notMem hnot
  cases rest with
  | nil =>
    obtain rfl := hu.eq_nil_iff.2 rfl
    exact ⟨_, [], rfl, .lineComment hbody hfeed, .nil, rfl, fun hcode => absurd hcode (by decide),
      fun _ _ => ⟨edge_nil, rfl⟩⟩
  | cons c rest =>
    obtain rfl : c = '\n' := by simpa using hfeed c rfl
    rcases hu.exists_of_cons with ⟨rest', rfl, hrest⟩ | ⟨-, rest', rfl, hrest⟩
    · exact ⟨_, _, rfl, .lineComment hbody hfeed, .same hrest, rfl,
        fun hcode => absurd hcode (by decide), fun _ _ => ⟨edge_lineFeed rest, rfl⟩⟩
    · have hbody' : ∀ c ∈ body ++ ['\r'], (c != '\n') = true :=
        List.forall_mem_append.2 ⟨hbody, List.forall_mem_singleton.2 (by decide)⟩
      refine ⟨'/' :: '/' :: (body ++ ['\r']), '\n' :: rest', by simp, .lineComment hbody' hfeed,
        .same hrest, ?_, fun hcode => absurd hcode (by decide),
        fun _ _ => ⟨edge_lineFeed rest, rfl⟩⟩
      simp [lineFeeds, List.count_append]

/-- White space up to a line feed takes in the carriage return, too. -/
theorem exists_counterpart_of_lineFeed {blanks : Text} (hblanks : ∀ c ∈ blanks, isSpace c = true)
    (hret : Returned (blanks ++ ['\n'] ++ rest) t) :
    ∃ data' rest', t = data' ++ rest' ∧ Counterpart .space (blanks ++ ['\n']) rest data' rest' := by
  have hnot : '\n' ∉ blanks := fun hmem => absurd (hblanks _ hmem) (by decide)
  obtain ⟨data', rest', rfl, hdata, hrest⟩ := hret.exists_of_append
  refine ⟨data', rest', rfl, ?_, hrest, hdata.count_lineFeed, fun _ => hdata,
    fun hcomment => absurd hcomment (by decide)⟩
  obtain ⟨feed, rfl, hfeed⟩ := hdata.exists_of_append_of_notMem hnot
  rcases hfeed.exists_of_cons with ⟨_, rfl, hend⟩ | ⟨-, _, rfl, hend⟩
  · obtain rfl := hend.eq_nil_iff.2 rfl
    exact .lineFeed hblanks
  · obtain rfl := hend.eq_nil_iff.2 rfl
    have hsplit : blanks ++ ['\r', '\n'] = (blanks ++ ['\r']) ++ ['\n'] := by
      rw [List.append_assoc]
      rfl
    rw [hsplit]
    exact .lineFeed (List.forall_mem_append.2 ⟨hblanks, List.forall_mem_singleton.2 (by decide)⟩)

/-- **Outside directives** the other text has a token in the same place. -/
theorem Reads.exists_counterpart {kind : TokenKind} {data : Text} (h : Reads kind data rest)
    (hret : Returned (data ++ rest) t) :
    ∃ data' rest', t = data' ++ rest' ∧ Counterpart kind data rest data' rest' := by
  by_cases hcode : isCode kind = true
  · obtain ⟨rest', rfl, hreads, hrest⟩ := h.returned_of_code hcode hret
    refine ⟨data, rest', rfl, hreads, hrest, rfl, fun _ => .refl _, fun hcomment => ?_⟩
    rw [isComment_of_isCode hcode] at hcomment
    cases hcomment
  cases h with
  | @closedComment body rest hclose =>
    obtain ⟨data', rest', rfl, hdata, hrest⟩ := hret.exists_of_append
    obtain ⟨_, rfl, hstar⟩ := hdata.exists_of_cons_of_ne (by decide)
    obtain ⟨body', rfl, hbody⟩ := hstar.exists_of_cons_of_ne (by decide)
    refine ⟨_, rest', rfl, .closedComment (closeComment?_returned hclose hbody), hrest,
      hdata.count_lineFeed, fun hcode => absurd hcode (by decide), fun _ hedge => ?_⟩
    -- A directive does not end in front of a comment that is closed.
    have hclosed : Continues ('/' :: '*' :: body) rest := .comment hclose
    rw [Edge, directivePiece?_of_continues hclosed] at hedge
    cases hedge
  | @openComment body hopen =>
    rw [List.append_nil] at hret
    obtain ⟨_, rfl, hstar⟩ := hret.exists_of_cons_of_ne (by decide)
    obtain ⟨body', rfl, hbody⟩ := hstar.exists_of_cons_of_ne (by decide)
    refine ⟨_, [], (List.append_nil _).symm, .openComment (closeComment?_none_returned hopen hbody), .nil,
      hret.count_lineFeed, fun hcode => absurd hcode (by decide), fun _ _ => ⟨edge_nil, rfl⟩⟩
  | lineComment hbody hfeed => exact exists_counterpart_of_lineComment hbody hfeed hret
  | lineFeed hblanks => exact exists_counterpart_of_lineFeed hblanks hret
  | blanks hne hblanks hspace hfeed =>
    -- No carriage return comes in behind them, for there is no line feed behind them.
    have hnot : '\n' ∉ data := fun hmem => absurd (hblanks _ hmem) (by decide)
    obtain ⟨rest', rfl, hrest⟩ := hret.exists_of_append_of_notMem hnot
    have hhead := hrest.head?_of_ne hfeed
    exact ⟨data, rest', rfl, .blanks hne hblanks (by rwa [hhead]) (by rwa [hhead]), hrest, rfl,
      fun _ => .refl _, fun hcomment => absurd hcomment (by decide)⟩
  | identifier _ _ _ => exact absurd rfl hcode
  | number _ _ _ => exact absurd rfl hcode
  | other _ _ _ => exact absurd rfl hcode

/-! ## Directives -/

/-- **What a directive is in the other text.** It ends in the same place, but where it ends in front of
a line feed it takes in a carriage return that stands there. -/
structure DirectiveCounterpart (body rest body' rest' : Text) : Prop where
  extent : Extent body' rest'
  behind : Returned rest rest'
  head : rest'.head? = rest.head?
  content : Returned body body' ∨
    rest.head? = some '\n' ∧ Returned (body ++ ['\n']) (body' ++ ['\n'])

theorem DirectiveCounterpart.goesOn {piece piece' body' rest' : Text}
    (h : DirectiveCounterpart body rest body' rest') (hpiece : Returned piece piece')
    (hgoes : Continues piece' (body' ++ rest')) :
    DirectiveCounterpart (piece ++ body) rest (piece' ++ body') rest' := by
  refine ⟨.goesOn hgoes h.extent, h.behind, h.head, ?_⟩
  rcases h.content with hbody | ⟨hfeed, hbody⟩
  · exact .inl (hpiece.append hbody)
  · refine .inr ⟨hfeed, ?_⟩
    rw [List.append_assoc, List.append_assoc]
    exact hpiece.append hbody

theorem exists_counterpart_of_edge (h : Edge rest) (hret : Returned rest t) :
    ∃ body' rest', t = body' ++ rest' ∧ DirectiveCounterpart [] rest body' rest' := by
  rcases edge_iff.1 h with rfl | hfeed | ⟨u, rfl⟩ | ⟨u, rfl, hopen⟩
  · obtain rfl := hret.eq_nil_iff.2 rfl
    exact ⟨[], [], rfl, .ends edge_nil, .nil, rfl, .inl .nil⟩
  · obtain ⟨u, rfl⟩ := List.head?_eq_some_iff.1 hfeed
    rcases hret.exists_of_cons with ⟨v, rfl, hv⟩ | ⟨-, v, rfl, hv⟩
    · exact ⟨[], _, rfl, .ends (edge_lineFeed v), .same hv, rfl, .inl .nil⟩
    · have hgoes : Continues ['\r'] ('\n' :: v) := .char (by decide) (by decide) (by decide)
      exact ⟨['\r'], '\n' :: v, rfl, .goesOn hgoes (.ends (edge_lineFeed v)), .same hv, rfl,
        .inr ⟨rfl, .feed .nil⟩⟩
  · obtain ⟨_, rfl, hslash⟩ := hret.exists_of_cons_of_ne (by decide)
    obtain ⟨v, rfl, -⟩ := hslash.exists_of_cons_of_ne (by decide)
    exact ⟨[], _, rfl, .ends rfl, hret, rfl, .inl .nil⟩
  · obtain ⟨_, rfl, hstar⟩ := hret.exists_of_cons_of_ne (by decide)
    obtain ⟨v, rfl, hbody⟩ := hstar.exists_of_cons_of_ne (by decide)
    have hedge : Edge ('/' :: '*' :: v) :=
      edge_iff.2 (.inr (.inr (.inr ⟨v, rfl, closeComment?_none_returned hopen hbody⟩)))
    exact ⟨[], _, rfl, .ends hedge, hret, rfl, .inl .nil⟩

/-- **A directive reaches as far in the other text.** -/
theorem Extent.exists_counterpart (h : Extent body rest) (hbare : '\r' ∉ body ++ rest)
    (hret : Returned (body ++ rest) t) :
    ∃ body' rest', t = body' ++ rest' ∧ DirectiveCounterpart body rest body' rest' := by
  induction h generalizing t with
  | ends hedge => exact exists_counterpart_of_edge hedge hret
  | @goesOn piece body rest hpiece _ ih =>
    rw [List.append_assoc] at hbare hret
    have hbehind : '\r' ∉ body ++ rest := fun hmem => hbare (List.mem_append_right _ hmem)
    obtain ⟨piece', u, rfl, hrel, hu⟩ := hret.exists_of_append
    obtain ⟨body', rest', rfl, hcounterpart⟩ := ih hbehind hu
    refine ⟨piece' ++ body', rest', (List.append_assoc _ _ _).symm, hcounterpart.goesOn hrel ?_⟩
    cases hpiece with
    | lineBreak =>
      obtain ⟨_, rfl, hfeed⟩ := hrel.exists_of_cons_of_ne (by decide)
      rcases hfeed.exists_of_cons with ⟨_, rfl, hend⟩ | ⟨-, _, rfl, hend⟩
      · obtain rfl := hend.eq_nil_iff.2 rfl
        exact .lineBreak
      · obtain rfl := hend.eq_nil_iff.2 rfl
        exact .returnBreak
    | returnBreak => exact absurd (by simp) hbare
    | backslash hline hreturn =>
      -- No carriage return comes in behind the backslash, for there is no line feed behind it.
      obtain rfl := hrel.eq_of_notMem (by decide)
      have hhead := hu.head?_of_ne hline
      refine .backslash (by rwa [hhead]) fun v hv => hbehind ?_
      rw [hv] at hhead
      exact List.mem_of_mem_head? hhead.symm
    | comment hclose =>
      obtain ⟨_, rfl, hstar⟩ := hrel.exists_of_cons_of_ne (by decide)
      obtain ⟨comment, rfl, hcomment⟩ := hstar.exists_of_cons_of_ne (by decide)
      exact .comment (closeComment?_returned hclose hcomment)
    | slash hline hblock =>
      obtain rfl := hrel.eq_of_notMem (by decide)
      exact .slash (hu.head?_ne (by decide) hline) (hu.head?_ne (by decide) hblock)
    | char hfeed hback hslash =>
      obtain rfl := hrel.eq_of_notMem (by simpa [eq_comm] using hfeed)
      exact .char hfeed hback hslash

theorem exists_counterpart_of_hash {indent : Text} (hindent : ∀ c ∈ indent, isIndent c = true)
    (h : Extent body rest) (hbare : '\r' ∉ (indent ++ '#' :: body) ++ rest)
    (hret : Returned ((indent ++ '#' :: body) ++ rest) t) :
    ∃ body' rest', t = (indent ++ '#' :: body') ++ rest' ∧ DirectiveCounterpart body rest body' rest' := by
  have hsplit : ∀ u v : Text, (indent ++ '#' :: u) ++ v = (indent ++ ['#']) ++ (u ++ v) := by
    intro u v
    rw [List.append_assoc, List.append_assoc]
    rfl
  have hnot : '\n' ∉ indent ++ ['#'] := by
    intro hmem
    rcases List.mem_append.1 hmem with hmem | hmem
    · exact absurd (hindent _ hmem) (by decide)
    · exact absurd (List.mem_singleton.1 hmem) (by decide)
  rw [hsplit] at hbare hret
  obtain ⟨u, rfl, hu⟩ := hret.exists_of_append_of_notMem hnot
  have hbody : '\r' ∉ body ++ rest := fun hmem => hbare (List.mem_append_right _ hmem)
  obtain ⟨body', rest', rfl, hcounterpart⟩ := h.exists_counterpart hbody hu
  exact ⟨body', rest', (hsplit body' rest').symm, hcounterpart⟩

/-! ## Rows -/

/-- **Rows of tokens that differ in their line ends.** The flag says that the rows stand behind a
directive, where both start with the same character.

What is known of a directive beside is what the walk needs: without its comments it opens none, unless
it is an include. -/
inductive Rows : Bool → List Token → List Token → Prop
  | nil {behind : Bool} : Rows behind [] []
  | comment {behind : Bool} {kind : TokenKind} {data data' : Text} {line : Int}
      {rest rest' : List Token} : kind.isComment = true → Rows behind rest rest' →
      Rows behind (⟨kind, data, line⟩ :: rest) (⟨kind, data', line⟩ :: rest')
  | code {behind : Bool} {kind : TokenKind} {data data' : Text} {line : Int}
      {rest rest' : List Token} : kind.isComment = false → kind ≠ .directive → '\r' ∉ data →
      Returned data data' → (behind = true → data'.head? = data.head? ∧ data ≠ []) →
      Rows false rest rest' →
      Rows behind (⟨kind, data, line⟩ :: rest) (⟨kind, data', line⟩ :: rest')
  | directive {data data' : Text} {line : Int} {rest rest' : List Token} : '\r' ∉ data →
      Returned data data' → Rows true rest rest' →
      Rows false (⟨.directive, data, line⟩ :: rest) (⟨.directive, data', line⟩ :: rest')
  | fed {data data' : Text} {line next : Int} {rest rest' : List Token} : '\r' ∉ data →
      (Directive.keyword (Directive.withoutComments data) ≠ String.toList "include" →
        LeftDirective (Directive.withoutComments data)) →
      Returned (data ++ ['\n']) (data' ++ ['\n']) → rest ≠ [] → Rows false rest rest' →
      Rows false (⟨.directive, data, line⟩ :: ⟨.space, ['\n'], next⟩ :: rest)
        (⟨.directive, data', line⟩ :: ⟨.space, ['\n'], next⟩ :: rest')

theorem tokensFrom_lineFeed (line : Int) (lineStart : Bool) (s : Text) :
    tokensFrom line lineStart ('\n' :: s)
      = ⟨.space, ['\n'], line⟩ :: tokensFrom (line + 1) true s := by
  have hnone : ∀ c ∈ ([] : Text), isSpace c = true := by simp
  have hfirst := tokensFrom_append (starts_lineFeed lineStart hnone s) line
  rwa [startBehind_lineFeed] at hfirst

/-- Behind related tokens of one kind the line is at its start, or not. -/
theorem startBehind_returned {kind : TokenKind} {data data' : Text}
    (h : kind.isComment = false → Returned data data') (lineStart : Bool) :
    startBehind lineStart kind data' = startBehind lineStart kind data := by
  cases kind with
  | space =>
    unfold startBehind lineStartAfter
    dsimp only
    rw [(h rfl).getLast?]
  | _ => rfl

/-- No directive stands where one ends. -/
theorem not_edge_of_hash {indent : Text} (hindent : ∀ c ∈ indent, isIndent c = true) (s : Text) :
    ¬ Edge (indent ++ '#' :: s) := by
  have hhead : ∀ c ∈ (indent ++ '#' :: s).head?, c ≠ '\n' ∧ c ≠ '\\' ∧ c ≠ '/' := by
    intro c hc
    have hclass : isIndent c = true ∨ c = '#' := by
      cases indent with
      | nil => exact .inr (Option.some.inj hc).symm
      | cons d indent =>
        obtain rfl := Option.some.inj hc
        exact .inl (hindent _ List.mem_cons_self)
    rcases hclass with hc | rfl
    · rcases (by simpa [isIndent] using hc : c = ' ' ∨ c = '\t') with rfl | rfl <;> decide
    · decide
  intro hedge
  obtain ⟨c, t, hsplit⟩ : ∃ c t, indent ++ '#' :: s = c :: t := by cases indent <;> exact ⟨_, _, rfl⟩
  rw [hsplit] at hhead hedge
  obtain ⟨hfeed, hback, hslash⟩ := hhead c rfl
  have hgoes : Continues [c] t := .char hfeed hback hslash
  have hpiece := directivePiece?_of_continues hgoes
  rw [List.singleton_append, show directivePiece? (c :: t) = none from hedge] at hpiece
  cases hpiece

theorem tokensFrom_ne_nil {lineStart : Bool} (line : Int) (hs : s ≠ []) :
    tokensFrom line lineStart s ≠ [] := by
  intro hnil
  apply hs
  refine eq_nil_of_lexemes (?_ : [] = lexemes lineStart s)
  rw [← map_lexeme_tokensFrom line, hnil, List.map_nil]

/-- A directive and its counterpart in front of rows that differ in their line ends. -/
theorem rows_of_directive {indent body' rest' : Text} {line : Int} {lineStart : Bool}
    (hindent : ∀ c ∈ indent, isIndent c = true) (hextent : Extent body rest)
    (h : DirectiveCounterpart body rest body' rest') (hbare : '\r' ∉ indent ++ '#' :: body)
    (hlast : ¬ ['\r', '\n'] <:+ (indent ++ '#' :: body') ++ rest')
    (hnext : Rows true (tokensFrom (line + lineFeeds (indent ++ '#' :: body)) lineStart rest)
      (tokensFrom (line + lineFeeds (indent ++ '#' :: body)) lineStart rest')) :
    Rows false
      (⟨.directive, indent ++ '#' :: body, line⟩
        :: tokensFrom (line + lineFeeds (indent ++ '#' :: body)) lineStart rest)
      (⟨.directive, indent ++ '#' :: body', line⟩
        :: tokensFrom (line + lineFeeds (indent ++ '#' :: body')) lineStart rest') := by
  rcases h.content with hcontent | ⟨hfeed, hcontent⟩
  · have hrel : Returned (indent ++ '#' :: body) (indent ++ '#' :: body') :=
      (Returned.refl _).append (.same hcontent)
    rw [show lineFeeds (indent ++ '#' :: body') = _ from hrel.count_lineFeed]
    exact .directive hbare hrel hnext
  have hrel : Returned ((indent ++ '#' :: body) ++ ['\n']) ((indent ++ '#' :: body') ++ ['\n']) := by
    rw [List.append_assoc, List.append_assoc]
    exact (Returned.refl _).append (.same hcontent)
  have hfeed' := h.head
  rw [hfeed] at hfeed'
  obtain ⟨next, rfl⟩ := List.head?_eq_some_iff.1 hfeed
  obtain ⟨next', rfl⟩ := List.head?_eq_some_iff.1 hfeed'
  rw [show lineFeeds (indent ++ '#' :: body') = _ from hrel.count_of_lineFeed]
  by_cases hends : next = []
  · -- The line feed is the last character, so it has no carriage return in front of it.
    subst hends
    rcases Directive.returned_or_of_lineFeed hrel with hplain | ⟨u, hu, -⟩
    · exact .directive hbare hplain hnext
    · have hnil : next' = [] := by
        rcases h.behind.exists_of_cons with ⟨_, heq, hend⟩ | ⟨-, _, heq, -⟩
        · rw [(List.cons.inj heq).2]
          exact hend.eq_nil_iff.2 rfl
        · exact absurd (List.cons.inj heq).1 (by decide)
      refine absurd ?_ hlast
      rw [hu, hnil, List.append_assoc]
      exact List.suffix_append _ _
  · rw [tokensFrom_lineFeed, tokensFrom_lineFeed] at hnext ⊢
    cases hnext with
    | comment hkind _ => cases hkind
    | code _ _ _ _ _ hmore =>
      exact .fed hbare (leftDirective_withoutComments hindent hextent) hrel
        (tokensFrom_ne_nil _ hends) hmore

/-- **A text has the same tokens with carriage returns** in front of some of its line feeds, but not in
front of one that ends it. -/
theorem rows_tokensFrom {behind lineStart : Bool} {line : Int} (hbare : '\r' ∉ s) (hret : Returned s t)
    (hlast : ¬ ['\r', '\n'] <:+ t) (hbehind : behind = true → Edge s ∧ t.head? = s.head?) :
    Rows behind (tokensFrom line lineStart s) (tokensFrom line lineStart t) := by
  induction lineStart, s using scan_induction generalizing behind line t with
  | nil lineStart =>
    obtain rfl := hret.eq_nil_iff.2 rfl
    rw [tokensFrom_nil]
    exact .nil
  | cons lineStart kind data rest hstarts ih =>
    have hdata : '\r' ∉ data := fun hmem => hbare (List.mem_append_left _ hmem)
    have hrest : '\r' ∉ rest := fun hmem => hbare (List.mem_append_right _ hmem)
    have hlater : ∀ u v : Text, ¬ ['\r', '\n'] <:+ u ++ v → ¬ ['\r', '\n'] <:+ v :=
      fun u v hnot hsuffix => hnot (hsuffix.trans (List.suffix_append u v))
    cases hstarts with
    | @directive indent body _ hstart hindent hextent =>
      have hstarts : Starts lineStart .directive (indent ++ '#' :: body) rest :=
        .directive hstart hindent hextent
      -- No directive stands where another one ends, so these rows do not stand behind one.
      have hfalse : behind = false := by
        cases behind with
        | false => rfl
        | true =>
          have hedge := (hbehind rfl).1
          rw [List.append_assoc] at hedge
          exact absurd hedge (not_edge_of_hash hindent _)
      subst hfalse
      obtain ⟨body', rest', rfl, hcounterpart⟩ := exists_counterpart_of_hash hindent hextent hbare hret
      have hstarts' : Starts lineStart .directive (indent ++ '#' :: body') rest' :=
        .directive hstart hindent hcounterpart.extent
      rw [tokensFrom_append hstarts, tokensFrom_append hstarts']
      refine rows_of_directive hindent hextent hcounterpart hdata hlast ?_
      exact ih hrest hcounterpart.behind (hlater _ _ hlast) fun _ => ⟨hextent.edge, hcounterpart.head⟩
    | plain hhash hreads =>
      obtain ⟨data', rest', rfl, hcounterpart⟩ := hreads.exists_counterpart hret
      have hstarts : Starts lineStart kind data rest := .plain hhash hreads
      have hstarts' : Starts lineStart kind data' rest' :=
        .plain (fun hstart => (hhash hstart).returned hret) hcounterpart.reads
      rw [tokensFrom_append hstarts, tokensFrom_append hstarts', hcounterpart.feeds,
        startBehind_returned hcounterpart.content]
      by_cases hcomment : kind.isComment = true
      · refine .comment hcomment (ih hrest hcounterpart.behind (hlater _ _ hlast) fun h => ?_)
        exact hcounterpart.edge hcomment (hbehind h).1
      · have hcode : kind.isComment = false := by simpa using hcomment
        have hkind : kind ≠ .directive := by
          rintro rfl
          cases hreads
        refine .code hcode hkind hdata (hcounterpart.content hcode) (fun h => ⟨?_, hreads.ne_nil⟩)
          (ih hrest hcounterpart.behind (hlater _ _ hlast) fun hbehind => absurd hbehind (by decide))
        have hhead := (hbehind h).2
        rwa [List.head?_append_of_ne_nil _ hreads.ne_nil,
          List.head?_append_of_ne_nil _ hcounterpart.reads.ne_nil] at hhead

end Scan

end GlslCompose
