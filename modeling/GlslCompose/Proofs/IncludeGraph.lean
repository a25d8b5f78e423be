/-
`Proofs/IncludeGraph.lean` -- which fragments a walk over directives reaches, and why
the name of a text cannot change what a successful walk gives.

A walk keeps the paths that are open and refuses to open one of them again. The name
of a text takes part in that: if the text really is the fragment of that name, the
name counts as open from the start. Two names in the same directory therefore start
the same walk with different open paths, and the question is whether that can show
in a result. It cannot, and the reason is a fact about the graph of includes rather
than about the walk:

* a walk that succeeds reaches none of the paths that were open when it started
  (`not_mem_of_reaches`), and
* it reaches no fragment that reaches itself (`not_reaches_self`).

If the walk of a text under one name reached the fragment of the other name, it
would reach a fragment with the same text and the same directory, hence one that
reaches whatever the text reaches, itself included. So the second name is not
reached at all, and a walk that does not reach a path does not notice whether it is
open (`ofText_eq_of_not_reaches`).

The first section names what becomes of a single token, so that the four kinds of
directive are told apart in one place.
-/
import GlslCompose.Expansion

set_option autoImplicit false

namespace GlslCompose.Expansion

/-! ## One token -/

/-- What becomes of a token in the walk over a file. -/
inductive Fate where
  /-- A comment. -/
  | dropped
  /-- A token that stays, perhaps with another text. -/
  | kept (token : Token)
  /-- An include that asks for a path. -/
  | fetched (path : Text)
  /-- An include whose argument cannot be read. -/
  | malformed (problem : IncludeProblem)
  /-- An include whose path cannot be found from the directory of the file. -/
  | unresolved (fault : Fault)

/-- What becomes of a token in a file whose includes are relative to `root`. -/
def fate (root : FileName) (token : Token) : Fate :=
  if token.kind.isComment then .dropped
  else if token.kind ≠ .directive then .kept token
  else
    let data := Directive.withoutComments token.data
    let keyword := Directive.keyword data
    if keyword = "define" then .kept { token with data := Directive.normalDefine data }
    else if keyword = "include" then
      match Directive.includeTarget (Directive.includeArgument data) with
      | .error problem => .malformed problem
      | .ok target =>
        match target.resolve root with
        | .error fault => .unresolved fault
        | .ok path => .fetched path
    else .kept { token with data := data }

/-- The walk over a file takes its tokens one by one, each according to its fate. -/
theorem ofTokens_cons (splice : IncludeFrame → Text → Logged (List Token)) (file root : FileName)
    (above : List IncludeFrame) (token : Token) (rest : List Token) :
    ofTokens splice file root above (token :: rest) =
      match fate root token with
      | .dropped => ofTokens splice file root above rest
      | .kept kept => (ofTokens splice file root above rest).map (kept :: ·)
      | .fetched path =>
        (splice ⟨file, token.line⟩ path).andThen fun inner =>
          (ofTokens splice file root above rest).map (inner ++ ·)
      | .malformed problem => .failed (.badInclude problem (⟨file, token.line⟩ :: above))
      | .unresolved fault => .failed fault := by
  simp only [ofTokens, fate]
  by_cases hcomment : token.kind.isComment = true
  · simp only [if_pos hcomment]
  · by_cases hkind : token.kind ≠ .directive
    · simp only [if_neg hcomment, if_pos hkind]
    · simp only [if_neg hcomment, if_neg hkind]
      by_cases hdefine :
          Directive.keyword (Directive.withoutComments token.data) = String.toList "define"
      · simp only [if_pos hdefine]
      · by_cases hinclude :
            Directive.keyword (Directive.withoutComments token.data) = String.toList "include"
        · simp only [if_neg hdefine, if_pos hinclude]
          cases Directive.includeTarget _ with
          | error problem => rfl
          | ok target =>
            dsimp only
            cases target.resolve root <;> rfl
        · simp only [if_neg hdefine, if_neg hinclude]

/-- Whether a token is an include directive. -/
def isInclude (token : Token) : Bool :=
  token.kind = .directive &&
    Directive.keyword (Directive.withoutComments token.data) = String.toList "include"

theorem kind_of_isInclude {token : Token} (h : isInclude token = true) :
    token.kind = .directive := by
  simp only [isInclude, Bool.and_eq_true, decide_eq_true_eq] at h
  exact h.1

section Fate

variable {root : FileName} {token : Token}

/-- What becomes of an include is decided by its argument. -/
theorem fate_of_isInclude (h : isInclude token = true) : fate root token =
    match Directive.includeTarget
        (Directive.includeArgument (Directive.withoutComments token.data)) with
    | .error problem => .malformed problem
    | .ok target =>
      match target.resolve root with
      | .error fault => .unresolved fault
      | .ok path => .fetched path := by
  simp only [isInclude, Bool.and_eq_true, decide_eq_true_eq] at h
  obtain ⟨hkind, hkeyword⟩ := h
  have hcomment : ¬ TokenKind.directive.isComment = true := by decide
  have hdefine : ¬ String.toList "include" = String.toList "define" := by decide
  unfold fate
  rw [hkind, if_neg hcomment, if_neg (Decidable.not_not.2 rfl)]
  dsimp only
  rw [hkeyword, if_neg hdefine, if_pos rfl]

/-- What is no include is dropped or kept. -/
theorem fate_of_not_isInclude (root : FileName) (h : isInclude token = false) :
    fate root token = .dropped ∨ ∃ kept, fate root token = .kept kept := by
  unfold fate
  by_cases hcomment : token.kind.isComment = true
  · exact .inl (if_pos hcomment)
  · rw [if_neg hcomment]
    by_cases hkind : token.kind = .directive
    · have hkeyword : ¬ Directive.keyword (Directive.withoutComments token.data)
          = String.toList "include" := by
        intro hkeyword
        simp [isInclude, hkind, hkeyword] at h
      rw [if_neg (Decidable.not_not.2 hkind)]
      dsimp only
      rw [if_neg hkeyword]
      split
      · exact .inr ⟨_, rfl⟩
      · exact .inr ⟨_, rfl⟩
    · exact .inr ⟨token, if_pos hkind⟩

/-- What is neither dropped nor kept is an include. -/
theorem isInclude_of_fate (root : FileName) (hdropped : fate root token ≠ .dropped)
    (hkept : ∀ kept, fate root token ≠ .kept kept) : isInclude token = true := by
  cases hinclude : isInclude token with
  | true => rfl
  | false =>
    rcases fate_of_not_isInclude root hinclude with hfate | ⟨kept, hfate⟩
    · exact absurd hfate hdropped
    · exact absurd hfate (hkept kept)

/-- A path is asked for only by an include whose argument can be read. -/
theorem of_fetched {path : Text} (h : fate root token = .fetched path) :
    isInclude token = true ∧ ∃ target, Directive.includeTarget
      (Directive.includeArgument (Directive.withoutComments token.data)) = .ok target := by
  have hinclude : isInclude token = true := isInclude_of_fate root (by simp [h]) (by simp [h])
  rw [fate_of_isInclude hinclude] at h
  cases htarget : Directive.includeTarget
      (Directive.includeArgument (Directive.withoutComments token.data)) with
  | error problem => rw [htarget] at h; cases h
  | ok target => exact ⟨hinclude, target, rfl⟩

end Fate

section Tokens

variable {splice splice' : IncludeFrame → Text → Logged (List Token)} {file file' root : FileName}
  {above above' : List IncludeFrame} {token : Token} {tokens rest out : List Token}

/-- **One step of a walk that succeeds.** The rest is walked, and the first token is dropped, or kept,
or asks for a path that is spliced in. -/
theorem ofTokens_cons_ok_iff :
    (ofTokens splice file root above (token :: rest)).result = .ok out ↔
      ∃ behind, (ofTokens splice file root above rest).result = .ok behind ∧
        ((fate root token = .dropped ∧ out = behind) ∨
          (∃ kept, fate root token = .kept kept ∧ out = kept :: behind) ∨
          ∃ path inner, fate root token = .fetched path ∧
            (splice ⟨file, token.line⟩ path).result = .ok inner ∧ out = inner ++ behind) := by
  rw [ofTokens_cons]
  cases hf : fate root token with
  | dropped => simp
  | kept kept =>
    simp only [Logged.result_map]
    cases (ofTokens splice file root above rest).result with
    | error fault => simp [Except.map]
    | ok behind => simp [Except.map, eq_comm]
  | fetched path =>
    simp only [Logged.result_andThen, Logged.result_map]
    cases hs : (splice ⟨file, token.line⟩ path).result with
    | error fault => simp [hs, Except.bind]
    | ok inner =>
      cases (ofTokens splice file root above rest).result with
      | error fault => simp [Except.map, Except.bind]
      | ok behind => simp [Except.map, Except.bind, hs, eq_comm]
  | malformed problem => simp
  | unresolved fault => simp

/-- Where the walk over a file succeeds, each path that it asks for was spliced in. -/
theorem splice_ok_of_mem (h : (ofTokens splice file root above tokens).result = .ok out)
    {token : Token} (hmem : token ∈ tokens) {path : Text} (hfate : fate root token = .fetched path) :
    ∃ inner, (splice ⟨file, token.line⟩ path).result = .ok inner := by
  induction tokens generalizing out with
  | nil => cases hmem
  | cons first rest ih =>
    obtain ⟨behind, hrest, hfirst⟩ := ofTokens_cons_ok_iff.1 h
    rcases List.mem_cons.1 hmem with rfl | hmem
    · rw [hfate] at hfirst
      rcases hfirst with ⟨hdropped, -⟩ | ⟨kept, hkept, -⟩ | ⟨path', inner, hfetched, hinner, -⟩
      · cases hdropped
      · cases hkept
      · cases hfetched
        exact ⟨inner, hinner⟩
    · exact ih hrest hmem

/-- What the walk over a file gives depends on how paths are spliced in only where it asks for
them, and neither on the name of the file nor on what is above it. -/
theorem ofTokens_ok_of_splice
    (hsplice : ∀ token ∈ tokens, ∀ path inner, fate root token = .fetched path →
      (splice ⟨file, token.line⟩ path).result = .ok inner →
      (splice' ⟨file', token.line⟩ path).result = .ok inner)
    (h : (ofTokens splice file root above tokens).result = .ok out) :
    (ofTokens splice' file' root above' tokens).result = .ok out := by
  induction tokens generalizing out with
  | nil => exact h
  | cons token rest ih =>
    obtain ⟨behind, hrest, hfirst⟩ := ofTokens_cons_ok_iff.1 h
    have hbehind := ih (fun token hmem => hsplice token (List.mem_cons_of_mem _ hmem)) hrest
    refine ofTokens_cons_ok_iff.2 ⟨behind, hbehind, ?_⟩
    rcases hfirst with hdropped | hkept | ⟨path, inner, hfate, hinner, hout⟩
    · exact .inl hdropped
    · exact .inr (.inl hkept)
    · have hinner' := hsplice token List.mem_cons_self path inner hfate hinner
      exact .inr (.inr ⟨path, inner, hfate, hinner', hout⟩)

/-- Also where it fails, a walk over a file depends on how paths are spliced in only where it asks for
them. -/
theorem result_ofTokens_congr
    (hsplice : ∀ token ∈ tokens, ∀ path, fate root token = .fetched path →
      (splice' ⟨file, token.line⟩ path).result = (splice ⟨file, token.line⟩ path).result) :
    (ofTokens splice' file root above tokens).result
      = (ofTokens splice file root above tokens).result := by
  induction tokens with
  | nil => rfl
  | cons token rest ih =>
    have hrest := ih fun token hmem => hsplice token (List.mem_cons_of_mem _ hmem)
    rw [ofTokens_cons, ofTokens_cons]
    cases hfate : fate root token with
    | dropped => exact hrest
    | kept kept =>
      dsimp only
      rw [Logged.result_map, Logged.result_map, hrest]
    | fetched path =>
      dsimp only
      rw [Logged.result_andThen, Logged.result_andThen, hsplice token List.mem_cons_self path hfate]
      simp only [Logged.result_map, hrest]
    | malformed problem => rfl
    | unresolved fault => rfl

end Tokens

/-! ## The graph of includes -/

/-- **A path is reached from a text:** the text asks for it, or for a fragment from which it is
reached. Includes in the text are relative to `root`, those in a fragment to its own directory. -/
inductive Reaches (store : FragmentStore) : FileName → Text → Text → Prop
  | direct {root : FileName} {text path fragment : Text} {token : Token} :
      token ∈ fileTokens text → fate root token = .fetched path →
      store.source? path = some fragment → Reaches store root text path
  | through {root : FileName} {text mid fragment path : Text} {token : Token} :
      token ∈ fileTokens text → fate root token = .fetched mid →
      store.source? mid = some fragment →
      Reaches store (FileName.text mid).root fragment path → Reaches store root text path

/-- How the walk goes on where a file asks for a path. -/
def splice (store : FragmentStore) (opened : List Text) (above : List IncludeFrame)
    (file : FileName) (frame : IncludeFrame) (path : Text) : Logged (List Token) :=
  (store.source? path).elim (.failed (.badInclude (.notFound path) (frame :: above)))
    fun fragment =>
      if opened.contains path then .failed (.badInclude (.cyclic path) (frame :: above))
      else
        (ofText store (path :: opened) (frame :: above) (.text path) fragment).note
          (.including path file)

/-- The walk of a text is the walk over its tokens. -/
theorem ofText_eq (store : FragmentStore) (opened : List Text) (above : List IncludeFrame)
    (file : FileName) (text : Text) :
    ofText store opened above file text =
      ofTokens (splice store opened above file) file file.root above (fileTokens text) := by
  rw [ofText]
  congr 1
  funext frame path
  simp only [splice, List.contains_iff_mem]
  split <;> rename_i hs
  · simp only [hs, Option.elim]
  · simp only [hs, Option.elim]
    split <;> rfl

section Walk

variable {store : FragmentStore} {opened : List Text} {above : List IncludeFrame}
  {file : FileName} {text path : Text} {out : List Token}

/-- A path that was spliced in is stored, was not open, and its fragment was walked. -/
theorem walked_of_splice_ok {frame : IncludeFrame}
    (h : (splice store opened above file frame path).result = .ok out) :
    ∃ fragment, store.source? path = some fragment ∧ path ∉ opened ∧
      (ofText store (path :: opened) (frame :: above) (.text path) fragment).result = .ok out := by
  unfold splice at h
  cases hs : store.source? path with
  | none => rw [hs] at h; cases h
  | some fragment =>
    rw [hs] at h
    by_cases ho : path ∈ opened
    · simp only [Option.elim, List.contains_iff_mem, if_pos ho] at h
      cases h
    · simp only [Option.elim, List.contains_iff_mem, if_neg ho] at h
      exact ⟨fragment, rfl, ho, h⟩

/-- Where the walk of a text succeeds, so did the walk of every fragment that the text asks for. -/
theorem walked_of_ofText_ok (h : (ofText store opened above file text).result = .ok out)
    {token : Token} (hmem : token ∈ fileTokens text) (hfate : fate file.root token = .fetched path)
    {fragment : Text} (hs : store.source? path = some fragment) :
    path ∉ opened ∧ ∃ above' inner,
      (ofText store (path :: opened) above' (.text path) fragment).result = .ok inner := by
  rw [ofText_eq] at h
  obtain ⟨inner, hinner⟩ := splice_ok_of_mem h hmem hfate
  obtain ⟨fragment', hs', ho, hwalk⟩ := walked_of_splice_ok hinner
  rw [hs] at hs'
  cases hs'
  exact ⟨ho, _, inner, hwalk⟩

/-- **A walk that succeeds reaches no path that was open when it started.** -/
theorem not_mem_of_reaches (h : (ofText store opened above file text).result = .ok out)
    (hreach : Reaches store file.root text path) : path ∉ opened := by
  generalize hroot : file.root = root at hreach
  induction hreach generalizing opened above file out with
  | direct hmem hfate hs =>
    subst hroot
    exact (walked_of_ofText_ok h hmem hfate hs).1
  -- Going into a fragment only opens more, so what is open out here is open in there.
  | through hmem hfate hs _ ih =>
    subst hroot
    obtain ⟨-, above', inner, hinner⟩ := walked_of_ofText_ok h hmem hfate hs
    exact fun hopen => ih hinner rfl (List.mem_cons_of_mem _ hopen)

/-- **A walk that succeeds reaches no fragment that reaches itself.** -/
theorem not_reaches_self (h : (ofText store opened above file text).result = .ok out)
    (hreach : Reaches store file.root text path) {fragment : Text}
    (hs : store.source? path = some fragment) :
    ¬ Reaches store (FileName.text path).root fragment path := by
  generalize hroot : file.root = root at hreach
  induction hreach generalizing opened above file out with
  | direct hmem hfate _ =>
    subst hroot
    -- While the fragment was walked its own path was open, hence not reached.
    obtain ⟨-, above', inner, hinner⟩ := walked_of_ofText_ok h hmem hfate hs
    exact fun hself => not_mem_of_reaches hinner hself List.mem_cons_self
  | through hmem hfate hmid _ ih =>
    subst hroot
    obtain ⟨-, above', inner, hinner⟩ := walked_of_ofText_ok h hmem hfate hmid
    exact ih hinner hs rfl

/-- **Paths that are not reached may as well be open.** A successful walk gives the same tokens
with other paths open, from another chain of includes and under another name, as long as the
directory is the same and none of the paths open now is reached.

The induction is on how many paths are still closed in the walk that is known to succeed, since
that is what each fragment entered makes smaller. -/
theorem ofText_eq_of_not_reaches {opened' : List Text} {above' : List IncludeFrame}
    {file' : FileName} (h : (ofText store opened above file text).result = .ok out)
    (hroot : file'.root = file.root)
    (hclosed : ∀ path, Reaches store file.root text path → path ∉ opened') :
    (ofText store opened' above' file' text).result = .ok out := by
  induction hn : (closedPaths store opened).length using Nat.strongRecOn
    generalizing opened opened' above above' file file' text out with
  | ind n ih =>
    -- The walk of the whole text is needed once more below, to see that no fragment reaches itself.
    have hall := h
    rw [ofText_eq] at h ⊢
    rw [hroot]
    refine ofTokens_ok_of_splice (fun token hmem path inner hfate hsplice => ?_) h
    obtain ⟨fragment, hs, ho, hwalk⟩ := walked_of_splice_ok hsplice
    have hreach : Reaches store file.root text path := .direct hmem hfate hs
    have hlt := length_closedPaths_lt hs ho
    have hinner : ∀ p, Reaches store (FileName.text path).root fragment p → p ∉ path :: opened' := by
      intro p hp hmem'
      rcases List.mem_cons.1 hmem' with rfl | hopen
      -- The path that was opened just now is out of reach for its own fragment, and the others for
      -- the whole text.
      · exact not_reaches_self hall hreach hs hp
      · exact hclosed p (.through hmem hfate hs hp) hopen
    simp only [splice, hs, Option.elim, List.contains_iff_mem, if_neg (hclosed path hreach),
      Logged.result_note]
    exact ih _ (hn ▸ hlt) hwalk rfl hinner rfl

/-- **Only paths that are reached need to be open in both walks** or in neither, for both to end the
same way. -/
theorem result_ofText_of_opened {opened' : List Text}
    (h : ∀ path, Reaches store file.root text path → (path ∈ opened' ↔ path ∈ opened)) :
    (ofText store opened' above file text).result = (ofText store opened above file text).result := by
  induction hn : (closedPaths store opened).length using Nat.strongRecOn
    generalizing opened opened' above file text with
  | ind n ih =>
    rw [ofText_eq, ofText_eq]
    refine result_ofTokens_congr fun token hmem path hfate => ?_
    cases hs : store.source? path with
    | none => simp only [splice, hs, Option.elim]
    | some fragment =>
      have hopened := h path (.direct hmem hfate hs)
      by_cases ho : path ∈ opened
      · simp only [splice, hs, Option.elim, List.contains_iff_mem, if_pos ho, if_pos (hopened.2 ho)]
      · have ho' : path ∉ opened' := fun hopen => ho (hopened.1 hopen)
        -- What the fragment reaches is reached through it, so it is open in both or in neither.
        have hinner : ∀ p, Reaches store (FileName.text path).root fragment p →
            (p ∈ path :: opened' ↔ p ∈ path :: opened) := by
          intro p hp
          rw [List.mem_cons, List.mem_cons, h p (.through hmem hfate hs hp)]
        have hlt := length_closedPaths_lt hs ho
        simp only [splice, hs, Option.elim, List.contains_iff_mem, if_neg ho, if_neg ho',
          Logged.result_note]
        exact ih _ (hn ▸ hlt) hinner rfl

end Walk

/-- Open from the start is only the name of a source, and only where the source is the fragment of
that name. -/
theorem of_mem_openedBy {store : FragmentStore} {name : FileName} {path source : Text}
    (h : path ∈ openedBy store name source) :
    name = .text path ∧ store.source? path = some source := by
  cases name with
  | bytes name => cases h
  | text name =>
    rw [openedBy] at h
    split at h
    · rename_i hs
      obtain rfl := List.mem_singleton.1 h
      exact ⟨rfl, hs⟩
    · cases h

/-- **What a source expands to does not depend on its name beyond the directory.** -/
theorem ofSource_ok_of_root_eq {store : FragmentStore} {name name' : FileName} {source out : Text}
    (h : (ofSource store name source).result = .ok out) (hroot : name'.root = name.root) :
    (ofSource store name' source).result = .ok out := by
  simp only [ofSource, Logged.result_map] at h ⊢
  cases hwalk : (ofText store (openedBy store name source) [] name source).result with
  | error fault => rw [hwalk] at h; cases h
  | ok tokens =>
    rw [hwalk] at h
    -- What is left to show is that the other name, if it counts as open, is not reached.
    have hclosed : ∀ path, Reaches store name.root source path →
        path ∉ openedBy store name' source := by
      intro path hreach hopen
      -- The other name is that of a fragment with this very text, so if it were reached it would
      -- reach itself.
      obtain ⟨rfl, hs⟩ := of_mem_openedBy hopen
      exact not_reaches_self hwalk hreach hs (hroot ▸ hreach)
    rw [ofText_eq_of_not_reaches hwalk hroot hclosed]
    exact h

end GlslCompose.Expansion
