/-
`Proofs/ReturnedWalk.lean` -- the walk over a text gives the same with either kind of line
end.

Rows of tokens that differ in their line ends are walked side by side. Each pair of tokens
has the same fate: both are dropped, both leave related texts, or both ask for the same
path, and then the same tokens are spliced in. So both walks end in the same fault, or in
texts that are the same but for carriage returns (`sameWalk_of_rows`).

Two things have to be known of the text. No include may ask for a path with a line end in
it, which would be another path with a carriage return. And a directive in front of a line
feed has to keep its end (`KeepsEnd`), because blanks are trimmed off it only where no
carriage return stands behind them.

The carriage returns have to stay apart from those that the fragments bring, so that the
texts are paired and not only related. That is what the flag of `Rows` is for: a fragment
may end in a carriage return, and what follows it is what stands behind a directive.
-/
import GlslCompose.Proofs.ReturnedTokens
import GlslCompose.Proofs.TextualInclude

set_option autoImplicit false

namespace GlslCompose

open Text (Returned Paired)

/-! ## What is left of a directive -/

namespace Directive

variable {data data' : Text}

/-- What is left of a directive that is no include. -/
def leftText (data : Text) : Text :=
  let data := withoutComments data
  if keyword data = "define" then normalDefine data else data

theorem leftText_of_define (h : keyword (withoutComments data) = String.toList "define") :
    leftText data = valued (withoutComments (withoutComments data)) := if_pos h

theorem leftText_of_ne (h : keyword (withoutComments data) ≠ String.toList "define") :
    leftText data = withoutComments data := if_neg h

theorem leftText_bare (h : '\r' ∉ data) : '\r' ∉ leftText data := by
  have hbare := withoutComments_bare h
  by_cases hdefine : keyword (withoutComments data) = String.toList "define"
  · rw [leftText_of_define hdefine]
    exact valued_bare (withoutComments_bare hbare)
  · rwa [leftText_of_ne hdefine]

theorem withoutComments_returned (h : Returned data data') :
    Returned (withoutComments data) (withoutComments data') := h.blankComments.trimEnd (by decide)

theorem leftText_returned (h : Returned data data') : Returned (leftText data) (leftText data') := by
  have hrel := withoutComments_returned h
  have hkeyword := hrel.keyword_eq
  by_cases hdefine : keyword (withoutComments data) = String.toList "define"
  · rw [leftText_of_define hdefine, leftText_of_define (hkeyword.trans hdefine)]
    exact (withoutComments_returned hrel).valued
  · rw [leftText_of_ne hdefine, leftText_of_ne (by rwa [hkeyword])]
    exact hrel

/-- **A directive that keeps its end** leaves related texts in front of a line feed. -/
theorem leftText_of_lineFeed (h : Returned (data ++ ['\n']) (data' ++ ['\n']))
    (hself : blankComments (withoutComments data) = withoutComments data) (hends : KeepsEnd data) :
    Returned (leftText data ++ ['\n']) (leftText data' ++ ['\n']) := by
  have hkeyword := keyword_eq_of_lineFeed h
  by_cases hdefine : keyword (withoutComments data) = String.toList "define"
  · rw [leftText_of_define hdefine, leftText_of_define (hkeyword.trans hdefine)]
    exact normalDefine_of_lineFeed h hself hends
  · rw [leftText_of_ne hdefine, leftText_of_ne (by rwa [hkeyword])]
    rcases hends with htrim | ⟨hkeyword, -⟩
    · exact withoutComments_of_lineFeed h htrim
    · exact absurd hkeyword hdefine

end Directive

theorem Scan.left?_directive {data : Text}
    (h : Directive.keyword (Directive.withoutComments data) ≠ String.toList "include") :
    left? (.directive, data) = some (Directive.leftText data) := by
  unfold Directive.leftText
  rw [left?, if_neg (by decide), if_neg (by simp)]
  dsimp only
  by_cases hdefine : Directive.keyword (Directive.withoutComments data) = String.toList "define"
  · rw [if_pos hdefine, if_pos hdefine]
  · rw [if_neg hdefine, if_neg hdefine, if_neg h]

namespace Expansion

open Scan (Rows)

/-! ## Two walks -/

/-- **Two walks that give the same:** the same fault, or the same text but for carriage returns. The
flag asks for texts that start with the same character. -/
inductive SameWalk : Bool → Except Fault Text → Except Fault Text → Prop
  | fault {behind : Bool} (fault : Fault) : SameWalk behind (.error fault) (.error fault)
  | text {behind : Bool} {s t : Text} : Paired s t → (behind = true → t.head? = s.head?) →
      SameWalk behind (.ok s) (.ok t)

theorem SameWalk.weaken {x y : Except Fault Text} (h : SameWalk true x y) : SameWalk false x y := by
  cases h with
  | fault fault => exact .fault fault
  | text hpaired _ => exact .text hpaired nofun

section Walk

variable {splice : IncludeFrame → Text → Logged (List Token)} {file root : FileName}
  {above : List IncludeFrame} {token token' : Token} {rest rest' : List Token} {behind : Bool}

/-- The text of the tokens that a walk gives. -/
def walkText (splice : IncludeFrame → Text → Logged (List Token)) (file root : FileName)
    (above : List IncludeFrame) (tokens : List Token) : Except Fault Text :=
  (ofTokens splice file root above tokens).result.map Token.toText

theorem walkText_of_left? {kind : TokenKind} {data left : Text} {line : Int}
    (h : Scan.left? (kind, data) = some left) :
    walkText splice file root above (⟨kind, data, line⟩ :: rest)
      = (walkText splice file root above rest).map (left ++ ·) := by
  rw [show (kind, data) = Token.lexeme ⟨kind, data, line⟩ from rfl, left?_eq root] at h
  unfold walkText
  rw [ofTokens_cons]
  cases hfate : fate root ⟨kind, data, line⟩ with
  | dropped =>
    rw [hfate] at h
    obtain rfl := Option.some.inj h
    cases (ofTokens splice file root above rest).result <;> rfl
  | kept kept =>
    rw [hfate] at h
    obtain rfl := Option.some.inj h
    dsimp only
    rw [Logged.result_map]
    cases (ofTokens splice file root above rest).result <;> rfl
  | fetched path => rw [hfate] at h; cases h
  | malformed problem => rw [hfate] at h; cases h
  | unresolved fault => rw [hfate] at h; cases h

theorem walkText_of_isComment {kind : TokenKind} (h : kind.isComment = true) (data : Text) (line : Int) :
    walkText splice file root above (⟨kind, data, line⟩ :: rest)
      = walkText splice file root above rest := by
  unfold walkText
  rw [ofTokens_cons, show fate root ⟨kind, data, line⟩ = .dropped from if_pos h]

/-- Related texts without carriage returns so far can be put in front of two walks. -/
theorem SameWalk.front {x y : Except Fault Text} {left left' : Text} (h : SameWalk false x y)
    (hbare : '\r' ∉ left) (hleft : Returned left left')
    (hhead : behind = true → left'.head? = left.head? ∧ left ≠ []) :
    SameWalk behind (x.map (left ++ ·)) (y.map (left' ++ ·)) := by
  cases h with
  | fault fault => exact .fault fault
  | text hpaired _ =>
    -- No carriage return ends what is put in front, so none comes to stand behind one.
    refine .text ((hleft.paired hbare).append hpaired fun hreturn => ?_) fun hbehind => ?_
    · exact absurd (List.mem_of_getLast? hreturn) hbare
    · obtain ⟨hsame, hne⟩ := hhead hbehind
      have hne' : left' ≠ [] := fun hnil => hne (hleft.eq_nil_iff.1 hnil)
      show (left' ++ _).head? = (left ++ _).head?
      rw [List.head?_append_of_ne_nil _ hne, List.head?_append_of_ne_nil _ hne', hsame]

/-- The same text can be put in front of two walks whose texts start the same way. -/
theorem SameWalk.front_same {x y : Except Fault Text} (h : SameWalk true x y) (left : Text) :
    SameWalk false (x.map (left ++ ·)) (y.map (left ++ ·)) := by
  cases h with
  | fault fault => exact .fault fault
  | text hpaired hhead => exact .text ((Paired.refl left).append hpaired fun _ => hhead rfl) nofun

theorem walkText_of_fetched {path : Text} (h : fate root token = .fetched path) :
    walkText splice file root above (token :: rest)
      = (splice ⟨file, token.line⟩ path).result.bind fun inner =>
          (walkText splice file root above rest).map (Token.toText inner ++ ·) := by
  unfold walkText
  rw [ofTokens_cons, h]
  dsimp only
  rw [Logged.result_andThen]
  cases (splice ⟨file, token.line⟩ path).result with
  | error fault => rfl
  | ok inner =>
    dsimp only [Except.bind]
    rw [Logged.result_map]
    cases (ofTokens splice file root above rest).result with
    | error fault => rfl
    | ok out => exact congrArg Except.ok (toText_append inner out)

theorem walkText_of_malformed {problem : IncludeProblem} (h : fate root token = .malformed problem) :
    walkText splice file root above (token :: rest)
      = .error (.badInclude problem (⟨file, token.line⟩ :: above)) := by
  unfold walkText
  rw [ofTokens_cons, h]
  rfl

theorem walkText_of_unresolved {fault : Fault} (h : fate root token = .unresolved fault) :
    walkText splice file root above (token :: rest) = .error fault := by
  unfold walkText
  rw [ofTokens_cons, h]
  rfl

/-- An include asks for a path, or it is a fault. -/
theorem fate_cases_of_isInclude (root : FileName) (h : isInclude token = true) :
    (∃ path, fate root token = .fetched path) ∨ (∃ problem, fate root token = .malformed problem) ∨
      ∃ fault, fate root token = .unresolved fault := by
  rw [fate_of_isInclude h]
  split
  · exact .inr (.inl ⟨_, rfl⟩)
  · split
    · exact .inr (.inr ⟨_, rfl⟩)
    · exact .inl ⟨_, rfl⟩

/-- **Two includes that ask for the same** have the same spliced in, or fail in the same way. -/
theorem SameWalk.include (h : SameWalk true (walkText splice file root above rest)
      (walkText splice file root above rest'))
    (hinclude : isInclude token = true) (hfate : fate root token' = fate root token)
    (hline : token'.line = token.line) :
    SameWalk false (walkText splice file root above (token :: rest))
      (walkText splice file root above (token' :: rest')) := by
  rcases fate_cases_of_isInclude root hinclude with ⟨path, hcase⟩ | ⟨problem, hcase⟩ | ⟨fault, hcase⟩
  · rw [walkText_of_fetched hcase, walkText_of_fetched (hfate.trans hcase), hline]
    cases (splice ⟨file, token.line⟩ path).result with
    | error fault => exact .fault fault
    | ok inner =>
      -- The fragment may end in a carriage return, but both texts go on with the same character.
      exact h.front_same (Token.toText inner)
  · rw [walkText_of_malformed hcase, walkText_of_malformed (hfate.trans hcase), hline]
    exact .fault _
  · rw [walkText_of_unresolved hcase, walkText_of_unresolved (hfate.trans hcase)]
    exact .fault fault

/-! ## Rows side by side -/

/-- What has to be known of a token in front of another one: a directive in front of a line feed is an
include, or keeps its end. -/
def KeepsEndBefore (token next : Token) : Prop :=
  token.kind = .directive → next.data.head? = some '\n' →
    isInclude token = true ∨ Directive.KeepsEnd token.data

/-- What has to be known of a token: an include asks for a path on one line. -/
def AsksOnOneLine (token : Token) : Prop :=
  isInclude token = true → '\n' ∉ Directive.includeArgument (Directive.withoutComments token.data)

/-- An include that asks on one line asks for the same in the other text. -/
theorem fate_eq_of_argument {data data' : Text} {line : Int}
    (hinclude : isInclude ⟨.directive, data, line⟩ = true)
    (hargument : AsksOnOneLine ⟨.directive, data, line⟩)
    (hkeyword : Directive.keyword (Directive.withoutComments data')
      = Directive.keyword (Directive.withoutComments data))
    (hrel : Returned (Directive.includeArgument (Directive.withoutComments data))
      (Directive.includeArgument (Directive.withoutComments data'))) :
    fate root ⟨.directive, data', line⟩ = fate root ⟨.directive, data, line⟩ := by
  have hinclude' : isInclude ⟨.directive, data', line⟩ = true := by
    simpa only [isInclude, hkeyword] using hinclude
  rw [fate_of_isInclude hinclude, fate_of_isInclude hinclude', hrel.eq_of_notMem (hargument hinclude)]

theorem isChain_of_dropLast_cons {related : Token → Token → Prop}
    (h : (token :: rest).dropLast.IsChain related) : rest.dropLast.IsChain related := by
  by_cases hrest : rest = []
  · subst hrest
    exact .nil
  · rw [List.dropLast_cons_of_ne_nil hrest] at h
    exact h.tail

theorem keyword_of_isInclude_eq_false {data : Text} {line : Int}
    (h : isInclude ⟨.directive, data, line⟩ = false) :
    Directive.keyword (Directive.withoutComments data) ≠ String.toList "include" := by
  intro hkeyword
  simp [isInclude, hkeyword] at h

/-- Two directives have the same fate with other line ends. -/
theorem SameWalk.directive {data data' : Text} {line : Int}
    (h : SameWalk true (walkText splice file root above rest) (walkText splice file root above rest'))
    (hbare : '\r' ∉ data) (hrel : Returned data data')
    (hargument : AsksOnOneLine ⟨.directive, data, line⟩) :
    SameWalk false (walkText splice file root above (⟨.directive, data, line⟩ :: rest))
      (walkText splice file root above (⟨.directive, data', line⟩ :: rest')) := by
  have hwithout := Directive.withoutComments_returned hrel
  cases hinclude : isInclude ⟨.directive, data, line⟩ with
  | true =>
    refine h.include hinclude ?_ rfl
    exact fate_eq_of_argument hinclude hargument hwithout.keyword_eq hwithout.includeArgument
  | false =>
    have hkeyword := keyword_of_isInclude_eq_false hinclude
    have hkeyword' := hkeyword
    rw [← hwithout.keyword_eq] at hkeyword'
    rw [walkText_of_left? (Scan.left?_directive hkeyword),
      walkText_of_left? (Scan.left?_directive hkeyword')]
    exact h.weaken.front (Directive.leftText_bare hbare) (Directive.leftText_returned hrel)
      fun hbehind => absurd hbehind (by decide)

theorem left?_lineFeed : Scan.left? (.space, ['\n']) = some ['\n'] := rfl

/-- What is left of a directive that is no include, and the line feed behind it, are one piece of
text. -/
theorem walkText_of_left?_lineFeed {data left : Text} {line next : Int}
    (h : Scan.left? (.directive, data) = some left) :
    walkText splice file root above (⟨.directive, data, line⟩ :: ⟨.space, ['\n'], next⟩ :: rest)
      = (walkText splice file root above rest).map ((left ++ ['\n']) ++ ·) := by
  rw [walkText_of_left? h, walkText_of_left? left?_lineFeed]
  cases walkText splice file root above rest with
  | error fault => rfl
  | ok s => exact congrArg Except.ok (List.append_assoc left ['\n'] s).symm

/-- Two directives that are related only together with the line feed behind them have the same fate,
too. -/
theorem SameWalk.fed {data data' : Text} {line next : Int}
    (h : SameWalk false (walkText splice file root above rest) (walkText splice file root above rest'))
    (hbare : '\r' ∉ data)
    (hselves : Directive.keyword (Directive.withoutComments data) ≠ String.toList "include" →
      Scan.LeftDirective (Directive.withoutComments data))
    (hrel : Returned (data ++ ['\n']) (data' ++ ['\n']))
    (hargument : AsksOnOneLine ⟨.directive, data, line⟩)
    (hends : KeepsEndBefore ⟨.directive, data, line⟩ ⟨.space, ['\n'], next⟩) :
    SameWalk false
      (walkText splice file root above (⟨.directive, data, line⟩ :: ⟨.space, ['\n'], next⟩ :: rest))
      (walkText splice file root above
        (⟨.directive, data', line⟩ :: ⟨.space, ['\n'], next⟩ :: rest')) := by
  have hkeywords := Directive.keyword_eq_of_lineFeed hrel
  cases hinclude : isInclude ⟨.directive, data, line⟩ with
  | true =>
    -- What is spliced in stands in front of the same line feed in both texts.
    have hbehind : SameWalk true (walkText splice file root above (⟨.space, ['\n'], next⟩ :: rest))
        (walkText splice file root above (⟨.space, ['\n'], next⟩ :: rest')) := by
      rw [walkText_of_left? left?_lineFeed, walkText_of_left? left?_lineFeed]
      exact h.front (by decide) (.refl _) fun _ => ⟨rfl, List.cons_ne_nil _ _⟩
    refine hbehind.include hinclude ?_ rfl
    exact fate_eq_of_argument hinclude hargument hkeywords (Directive.includeArgument_of_lineFeed hrel)
  | false =>
    have hkeyword := keyword_of_isInclude_eq_false hinclude
    have hkeyword' := hkeyword
    rw [← hkeywords] at hkeyword'
    have hkeeps : Directive.KeepsEnd data := by
      rcases hends rfl rfl with hcase | hkeeps
      · rw [hinclude] at hcase
        cases hcase
      · exact hkeeps
    rw [walkText_of_left?_lineFeed (Scan.left?_directive hkeyword),
      walkText_of_left?_lineFeed (Scan.left?_directive hkeyword')]
    refine h.front ?_ (Directive.leftText_of_lineFeed hrel (hselves hkeyword).blankComments_eq hkeeps)
      fun hbehind => absurd hbehind (by decide)
    rw [List.mem_append, not_or]
    exact ⟨Directive.leftText_bare hbare, by decide⟩

/-- **Rows that differ in their line ends are walked to the same end.** -/
theorem sameWalk_of_rows {tokens tokens' : List Token} (h : Rows behind tokens tokens')
    (hpaths : ∀ token ∈ tokens, AsksOnOneLine token)
    (hends : tokens.dropLast.IsChain KeepsEndBefore) :
    SameWalk behind (walkText splice file root above tokens) (walkText splice file root above tokens') := by
  induction h with
  | nil => exact .text .nil fun _ => rfl
  | @comment _ kind data data' line rest rest' hcomment _ ih =>
    rw [walkText_of_isComment hcomment, walkText_of_isComment hcomment]
    exact ih (List.forall_mem_cons.1 hpaths).2 (isChain_of_dropLast_cons hends)
  | @code _ kind data data' line rest rest' hcomment hkind hbare hrel hhead _ ih =>
    have hleft : ∀ data : Text, Scan.left? (kind, data) = some data := by
      intro data
      rw [Scan.left?, if_neg (by rw [hcomment]; exact Bool.false_ne_true), if_pos hkind]
    rw [walkText_of_left? (hleft data), walkText_of_left? (hleft data')]
    exact (ih (List.forall_mem_cons.1 hpaths).2 (isChain_of_dropLast_cons hends)).front hbare hrel hhead
  | @directive data data' line rest rest' hbare hrel _ ih =>
    obtain ⟨hargument, hpaths⟩ := List.forall_mem_cons.1 hpaths
    exact (ih hpaths (isChain_of_dropLast_cons hends)).directive hbare hrel hargument
  | @fed data data' line next rest rest' hbare hselves hrel hne _ ih =>
    -- The line feed is not the last token, so the chain reaches over the directive and it.
    rw [List.dropLast_cons_of_ne_nil (List.cons_ne_nil _ _), List.dropLast_cons_of_ne_nil hne] at hends
    obtain ⟨hargument, hpaths⟩ := List.forall_mem_cons.1 hpaths
    exact (ih (List.forall_mem_cons.1 hpaths).2 hends.tail.tail).fed hbare hselves hrel hargument
      (List.isChain_cons_cons.1 hends).1

end Walk

end Expansion

end GlslCompose
