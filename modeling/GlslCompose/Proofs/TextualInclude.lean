/-
`Proofs/TextualInclude.lean` -- including a fragment is writing its text in its place.

The walk over directives scans each fragment by itself and puts the tokens together. One
could as well replace every include by the text of the fragment, between two line feeds,
until no include is left, and then compose the one text that results. Both give the same
(`process_flatten`), provided that no fragment on the way has a comment that is open at
its end: such a comment ends with the fragment in the first case and swallows the rest
of the text in the second.

The work is in `Proofs/Splicing`, where the one text is scanned. What is left for this
file is to follow the walk: a walk that succeeds has a flat text (`exists_flattens`), in
which each include is replaced by what the walk put in its place.
-/
import GlslCompose.Proofs.CommentRemoval
import GlslCompose.Proofs.DirectiveText
import GlslCompose.Proofs.LibraryRun
import GlslCompose.Proofs.Splicing

set_option autoImplicit false

namespace GlslCompose

namespace Expansion

/-! ## Flat texts -/

/-- **The flat text of a row of tokens.** Every include is replaced by a line feed, the flat text of
the fragment that it asks for, and a line feed. Includes in the row are relative to `root`, those in
a fragment to its own directory. -/
inductive Flattens (store : FragmentStore) : FileName → List Token → Text → Prop
  | nil {root : FileName} : Flattens store root [] []
  | kept {root : FileName} {token : Token} {tokens : List Token} {flat : Text} :
      isInclude token = false → Flattens store root tokens flat →
      Flattens store root (token :: tokens) (token.data ++ flat)
  | fetched {root : FileName} {token : Token} {tokens : List Token}
      {path fragment inner flat : Text} :
      fate root token = .fetched path → store.source? path = some fragment →
      Flattens store (FileName.text path).root (Token.ofText fragment 1) inner →
      Flattens store root tokens flat →
      Flattens store root (token :: tokens) ('\n' :: inner ++ '\n' :: flat)

/-- What is left of a token depends on its kind and its text alone. -/
theorem left?_eq (root : FileName) (token : Token) : Scan.left? token.lexeme =
    match fate root token with
    | .dropped => some []
    | .kept kept => some kept.data
    | _ => none := by
  have hleft : Scan.left? token.lexeme =
      if token.kind.isComment then some []
      else if token.kind ≠ .directive then some token.data
      else
        let data := Directive.withoutComments token.data
        if Directive.keyword data = "define" then some (Directive.normalDefine data)
        else if Directive.keyword data = "include" then none
        else some data := rfl
  rw [hleft]
  simp only [fate]
  by_cases hcomment : token.kind.isComment = true
  · simp only [if_pos hcomment]
  · by_cases hkind : token.kind ≠ .directive
    · simp only [if_neg hcomment, if_pos hkind]
    · simp only [if_neg hcomment, if_neg hkind]
      by_cases hdefine :
          Directive.keyword (Directive.withoutComments token.data) = String.toList "define"
      · simp only [if_pos hdefine]
      · by_cases hinclude :
            Directive.keyword (Directive.withoutComments token.data) = String.toList "include"
        · simp only [if_neg hdefine, if_pos hinclude]
          cases Directive.includeTarget _ with
          | error problem => rfl
          | ok target =>
            dsimp only
            cases target.resolve root <;> rfl
        · simp only [if_neg hdefine, if_neg hinclude]

/-- What leaves a text is no include. -/
theorem isInclude_of_left? {token : Token} {left : Text} (h : Scan.left? token.lexeme = some left) :
    isInclude token = false := by
  cases hinclude : isInclude token with
  | false => rfl
  | true =>
    simp only [isInclude, Bool.and_eq_true, decide_eq_true_eq] at hinclude
    obtain ⟨hkind, hkeyword⟩ := hinclude
    simp [Scan.left?, Token.lexeme, hkind, hkeyword, TokenKind.isComment] at h

/-- A row of tokens has at most one flat text. -/
theorem Flattens.unique {store : FragmentStore} {root : FileName} {tokens : List Token}
    {flat flat' : Text} (h : Flattens store root tokens flat)
    (h' : Flattens store root tokens flat') : flat = flat' := by
  induction h generalizing flat' with
  | nil => cases h'; rfl
  | kept hinclude _ ih =>
    cases h' with
    | kept _ hrest => rw [ih hrest]
    | fetched hfate _ _ _ =>
      rw [(of_fetched hfate).1] at hinclude
      cases hinclude
  | fetched hfate hs _ _ ihinner ih =>
    cases h' with
    | kept hinclude _ =>
      rw [(of_fetched hfate).1] at hinclude
      cases hinclude
    | fetched hfate' hs' hinner hrest =>
      rw [hfate] at hfate'
      cases hfate'
      rw [hs] at hs'
      cases hs'
      rw [ihinner hinner, ih hrest]

/-! ## The walk -/

section Tokens

variable {splice : IncludeFrame → Text → Logged (List Token)} {file root : FileName}
  {above : List IncludeFrame} {token : Token} {rest out : List Token}

theorem toText_append (tokens rest : List Token) :
    Token.toText (tokens ++ rest) = Token.toText tokens ++ Token.toText rest := List.flatMap_append

/-- Where a walk succeeds, its first token leaves a text, or asks for a path that is spliced in. -/
theorem exists_toText_of_cons
    (h : (ofTokens splice file root above (token :: rest)).result = .ok out) :
    ∃ behind, (ofTokens splice file root above rest).result = .ok behind ∧
      ((∃ left, Scan.left? token.lexeme = some left ∧
          Token.toText out = left ++ Token.toText behind) ∨
        ∃ path inner, fate root token = .fetched path ∧
          (splice ⟨file, token.line⟩ path).result = .ok inner ∧
          Token.toText out = Token.toText inner ++ Token.toText behind) := by
  have hleft := left?_eq root token
  obtain ⟨behind, hrest, hfirst⟩ := ofTokens_cons_ok_iff.1 h
  refine ⟨behind, hrest, ?_⟩
  rcases hfirst with ⟨hfate, rfl⟩ | ⟨kept, hfate, rfl⟩ | ⟨path, inner, hfate, hinner, rfl⟩
  · rw [hfate] at hleft
    exact .inl ⟨[], hleft, rfl⟩
  · rw [hfate] at hleft
    exact .inl ⟨kept.data, hleft, rfl⟩
  · exact .inr ⟨path, inner, hfate, hinner, toText_append inner behind⟩

/-- The walk over a row without includes leaves what is left of its tokens. -/
theorem ofTokens_of_leftover {tokens : List Token} {text : Text}
    (h : Scan.leftover (tokens.map Token.lexeme) = some text) :
    ∃ out, (ofTokens splice file root above tokens).result = .ok out ∧
      Token.toText out = text := by
  induction tokens generalizing text with
  | nil => exact ⟨[], rfl, Option.some.inj h⟩
  | cons token tokens ih =>
    simp only [List.map_cons, Scan.leftover, Option.bind_eq_some_iff, Option.map_eq_some_iff] at h
    obtain ⟨left, hleft, behind, hbehind, rfl⟩ := h
    obtain ⟨out, hout, rfl⟩ := ih hbehind
    rw [left?_eq root] at hleft
    cases hfate : fate root token with
    | dropped =>
      rw [hfate] at hleft
      obtain rfl := Option.some.inj hleft
      exact ⟨out, ofTokens_cons_ok_iff.2 ⟨out, hout, .inl ⟨hfate, rfl⟩⟩, rfl⟩
    | kept kept =>
      rw [hfate] at hleft
      obtain rfl := Option.some.inj hleft
      exact ⟨kept :: out, ofTokens_cons_ok_iff.2 ⟨out, hout, .inr (.inl ⟨kept, hfate, rfl⟩)⟩, rfl⟩
    | fetched path => rw [hfate] at hleft; cases hleft
    | malformed problem => rw [hfate] at hleft; cases hleft
    | unresolved fault => rw [hfate] at hleft; cases hleft

end Tokens

/-! ## The flat text of a walk -/

/-- Only a directive takes in the line feed behind the text and might be an include. -/
theorem endsOpen_of_last {token : Token} (h : token.kind = .space ∨
      (token.kind = .directive ∧ Scan.EndsOpen token.data) ∨ Scan.isOpen token.lexeme = true)
    (hkind : token.kind = .directive) : Scan.EndsOpen token.data := by
  rcases h with hspace | ⟨-, hopen⟩ | hopen
  · rw [hspace] at hkind
    cases hkind
  · exact hopen
  · rw [Scan.isOpen, Token.fst_lexeme, hkind] at hopen
    cases hopen

/-- The line feed behind a text makes no include of a token and takes none away. -/
theorem isInclude_of_last {token : Token} (h : token.kind = .space ∨
      (token.kind = .directive ∧ Scan.EndsOpen token.data) ∨ Scan.isOpen token.lexeme = true) :
    isInclude { token with data := token.data ++ ['\n'] } = isInclude token := by
  by_cases hkind : token.kind = .directive
  · obtain ⟨-, hdata⟩ := Directive.withoutComments_lineFeed (endsOpen_of_last h hkind)
    have hkeyword := Directive.keyword_concat (c := '\n') (by decide) (by decide)
    simp only [isInclude, hdata, hkeyword]
  · simp only [isInclude, decide_eq_false hkind, Bool.false_and]

/-- No include that is asked for takes in the line feed behind the text. -/
theorem not_fetched_of_last {root : FileName} {token : Token} {path : Text}
    (h : token.kind = .space ∨ (token.kind = .directive ∧ Scan.EndsOpen token.data) ∨
      Scan.isOpen token.lexeme = true) :
    fate root { token with data := token.data ++ ['\n'] } ≠ .fetched path := by
  intro hfate
  obtain ⟨hinclude, target, htarget⟩ := of_fetched hfate
  have hkind := kind_of_isInclude hinclude
  obtain ⟨hopen, hdata⟩ := Directive.withoutComments_lineFeed (endsOpen_of_last h hkind)
  rw [hdata] at htarget
  exact Directive.not_ok_of_endsOpen hopen target htarget

/-- **The flat text of a row.** Where the walk over a row with a line feed behind it succeeds, and the
fragments that it asks for have flat texts, the row has one. -/
theorem exists_flattens_of_padded {store : FragmentStore}
    {splice : IncludeFrame → Text → Logged (List Token)} {file root : FileName}
    {above : List IncludeFrame} {tokens padded out : List Token} (hpadded : Scan.Padded tokens padded)
    (h : (ofTokens splice file root above padded).result = .ok out)
    (hfetch : ∀ token ∈ padded, ∀ path inner, fate root token = .fetched path →
      (splice ⟨file, token.line⟩ path).result = .ok inner →
      ∃ fragment flat, store.source? path = some fragment ∧
        Scan.Closed (Scan.lexemes true ('\n' :: fragment ++ ['\n'])) ∧
        Flattens store (FileName.text path).root (Token.ofText fragment 1) flat ∧
        Scan.Spliced (Scan.lexemes true ('\n' :: fragment ++ ['\n'])) ('\n' :: flat ++ ['\n'])
          (Token.toText inner)) :
    ∃ flat, Flattens store root tokens flat ∧
      Scan.Spliced (padded.map Token.lexeme) (flat ++ ['\n']) (Token.toText out) := by
  -- Token by token: one that stays is its own flat text, and one that asks for a path has that of the
  -- fragment between two line feeds.
  induction hpadded generalizing out with
  | nil =>
    obtain ⟨behind, hrest, hfirst⟩ := exists_toText_of_cons h
    obtain rfl : [] = behind := Except.ok.inj hrest
    rcases hfirst with ⟨left, hleft, htext⟩ | ⟨path, inner, hfate, -, -⟩
    · refine ⟨[], .nil, ?_⟩
      rw [htext]
      exact .kept hleft .nil
    · cases hfate
  | @last token hlast =>
    obtain ⟨behind, hrest, hfirst⟩ := exists_toText_of_cons h
    obtain rfl : [] = behind := Except.ok.inj hrest
    rcases hfirst with ⟨left, hleft, htext⟩ | ⟨path, inner, hfate, -, -⟩
    · have hinclude := isInclude_of_left? hleft
      rw [isInclude_of_last hlast] at hinclude
      refine ⟨token.data ++ [], .kept hinclude .nil, ?_⟩
      have hkept := Scan.Spliced.kept hleft .nil
      rw [List.append_nil] at hkept
      rw [htext, List.append_nil]
      exact hkept
    · exact absurd hfate (not_fetched_of_last hlast)
  | @cons token tokens padded _ ih =>
    obtain ⟨behind, hrest, hfirst⟩ := exists_toText_of_cons h
    obtain ⟨flat, hflat, hspliced⟩ := ih hrest fun token hmem => hfetch token (List.mem_cons_of_mem _ hmem)
    rcases hfirst with ⟨left, hleft, htext⟩ | ⟨path, inner, hfate, hinner, htext⟩
    · refine ⟨token.data ++ flat, .kept (isInclude_of_left? hleft) hflat, ?_⟩
      rw [htext, List.append_assoc]
      exact .kept hleft hspliced
    · obtain ⟨fragment, innerFlat, hs, hclosed, hinnerFlat, hinnerSpliced⟩ :=
        hfetch token List.mem_cons_self path inner hfate hinner
      refine ⟨'\n' :: innerFlat ++ '\n' :: flat, .fetched hfate hs hinnerFlat hflat, ?_⟩
      have hsplit : '\n' :: innerFlat ++ '\n' :: flat ++ ['\n']
          = ('\n' :: innerFlat ++ ['\n']) ++ (flat ++ ['\n']) := by simp
      have hkind : token.lexeme = (.directive, token.data) := by
        rw [Token.lexeme, kind_of_isInclude (of_fetched hfate).1]
      rw [htext, hsplit, List.map_cons, hkind]
      exact .fetched hclosed hinnerSpliced hspliced

/-- A text whose comments are closed has none open with a line feed behind it. -/
theorem closed_of_padded {tokens padded : List Token} (h : Scan.Padded tokens padded)
    (hclosed : ∀ token ∈ tokens, Scan.isOpen token.lexeme = false) :
    Scan.Closed (padded.map Token.lexeme) := by
  induction h with
  | nil => exact List.forall_mem_singleton.2 rfl
  | @last token hlast =>
    have htoken := hclosed token List.mem_cons_self
    refine List.forall_mem_singleton.2 ?_
    rcases hlast with hkind | ⟨hkind, -⟩ | hopen
    · simp [Scan.isOpen, hkind]
    · simp [Scan.isOpen, hkind]
    · rw [htoken] at hopen
      cases hopen
  | cons _ ih =>
    rw [List.forall_mem_cons] at hclosed
    exact List.forall_mem_cons.2 ⟨hclosed.1, ih hclosed.2⟩

theorem lexemes_fileTokens (text : Text) :
    (fileTokens text).map Token.lexeme = Scan.lexemes true ('\n' :: text ++ ['\n']) :=
  Scan.map_lexeme_tokensFrom 0 true _

theorem lexemes_file (text : Text) : Scan.lexemes true ('\n' :: text ++ ['\n'])
    = (.space, ['\n']) :: (Scan.tokensFrom 1 true (text ++ ['\n'])).map Token.lexeme := by
  rw [← lexemes_fileTokens, fileTokens_eq]
  rfl

/-- A fragment without open comments has none where it is scanned as a file. -/
theorem closed_file {text : Text}
    (h : ∀ token ∈ Token.ofText text 1, Scan.isOpen token.lexeme = false) :
    Scan.Closed (Scan.lexemes true ('\n' :: text ++ ['\n'])) := by
  rw [lexemes_file]
  exact List.forall_mem_cons.2 ⟨rfl, closed_of_padded (Scan.padded_tokensFrom 1 true text) h⟩

/-- **A walk that succeeds has a flat text.** In it each include is replaced by what the walk put in
its place, as long as no fragment that is reached has a comment that is open.

The induction is on how many paths are still closed. -/
theorem exists_flattens {store : FragmentStore} {opened : List Text} {above : List IncludeFrame}
    {file : FileName} {text : Text} {out : List Token}
    (h : (ofText store opened above file text).result = .ok out)
    (hclosed : ∀ path fragment, Reaches store file.root text path →
      store.source? path = some fragment →
      ∀ token ∈ Token.ofText fragment 1, Scan.isOpen token.lexeme = false) :
    ∃ flat, Flattens store file.root (Token.ofText text 1) flat ∧
      Scan.Spliced (Scan.lexemes true ('\n' :: text ++ ['\n'])) ('\n' :: flat ++ ['\n'])
        (Token.toText out) := by
  induction hn : (closedPaths store opened).length using Nat.strongRecOn
    generalizing opened above file text out with
  | ind n ih =>
    rw [ofText_eq, fileTokens_eq] at h
    obtain ⟨behind, hrest, hfirst⟩ := exists_toText_of_cons h
    have hpadded := Scan.padded_tokensFrom 1 true text
    have hfetch : ∀ token ∈ Scan.tokensFrom 1 true (text ++ ['\n']), ∀ path inner,
        fate file.root token = .fetched path →
        (splice store opened above file ⟨file, token.line⟩ path).result = .ok inner →
        ∃ fragment flat, store.source? path = some fragment ∧
          Scan.Closed (Scan.lexemes true ('\n' :: fragment ++ ['\n'])) ∧
          Flattens store (FileName.text path).root (Token.ofText fragment 1) flat ∧
          Scan.Spliced (Scan.lexemes true ('\n' :: fragment ++ ['\n'])) ('\n' :: flat ++ ['\n'])
            (Token.toText inner) := by
      intro token hmem path inner hfate hinner
      have hfile : token ∈ fileTokens text := by
        rw [fileTokens_eq]
        exact List.mem_cons_of_mem _ hmem
      obtain ⟨fragment, hs, ho, hwalk⟩ := walked_of_splice_ok hinner
      obtain ⟨flat, hflat, hspliced⟩ := ih _ (hn ▸ length_closedPaths_lt hs ho) hwalk
        (fun p g hreach => hclosed p g (.through hfile hfate hs hreach)) rfl
      exact ⟨fragment, flat, hs, closed_file (hclosed path fragment (.direct hfile hfate hs) hs),
        hflat, hspliced⟩
    obtain ⟨flat, hflat, hspliced⟩ := exists_flattens_of_padded hpadded hrest hfetch
    -- In front of the row stands the line feed that every file starts with.
    refine ⟨flat, hflat, ?_⟩
    rcases hfirst with ⟨left, hleft, htext⟩ | ⟨path, inner, hfate, -, -⟩
    · rw [htext, lexemes_file]
      exact .kept hleft hspliced
    · cases hfate

/-- **Including is writing the text in its place.** A source whose walk succeeds has a flat text, and
the walk of the flat text, under any name, collects the same. -/
theorem ofSource_flatten {store : FragmentStore} {name : FileName} {source text : Text}
    (h : (ofSource store name source).result = .ok text)
    (hclosed : ∀ path fragment, Reaches store name.root source path →
      store.source? path = some fragment →
      ∀ token ∈ Token.ofText fragment 1, Scan.isOpen token.lexeme = false) :
    ∃ flat, Flattens store name.root (Token.ofText source 1) flat ∧
      ∀ name', (ofSource store name' flat).result = .ok text := by
  simp only [ofSource, Logged.result_map] at h ⊢
  cases hwalk : (ofText store (openedBy store name source) [] name source).result with
  | error fault => rw [hwalk] at h; cases h
  | ok out =>
    rw [hwalk] at h
    obtain rfl := Except.ok.inj h
    obtain ⟨flat, hflat, hspliced⟩ := exists_flattens hwalk hclosed
    refine ⟨flat, hflat, fun name' => ?_⟩
    -- The flat text has no includes: what is left of its tokens is what the walk collected.
    have hleft := (hspliced.leftover_lexemes rfl).1
    rw [← lexemes_fileTokens] at hleft
    obtain ⟨out', hout', htext⟩ := ofTokens_of_leftover hleft
    rw [ofText_eq, hout', ← htext]
    rfl

end Expansion

namespace Composer

open Expansion

/-- **Including a fragment is writing its text in its place.** For every source whose walk succeeds,
when no fragment that is reached has a comment that is open: the source has one flat text, and
composing that gives what composing the source gives, which is a text when there are neither defines
nor transforms. -/
theorem process_flatten (composer : Composer) (name : FileName) (source : Text)
    (hwalk : ∃ text, (ofSource composer.store name.orAnonymous source).result = .ok text)
    (hclosed : ∀ path fragment, Reaches composer.store name.root source path →
      composer.store.source? path = some fragment →
      ∀ token ∈ Token.ofText fragment 1, Scan.isOpen token.lexeme = false) :
    ∃ flat, Flattens composer.store name.root (Token.ofText source 1) flat ∧
      (∀ other, Flattens composer.store name.root (Token.ofText source 1) other → other = flat) ∧
      (∀ defines, (composer.process name flat defines).result
        = (composer.process name source defines).result) ∧
      (composer.macros = .empty → composer.transforms = [] →
        ∃ text, (composer.process name source .null).result = .ok text) := by
  obtain ⟨text, hwalk⟩ := hwalk
  rw [← FileName.root_orAnonymous] at hclosed ⊢
  obtain ⟨flat, hflat, hagain⟩ := ofSource_flatten hwalk hclosed
  refine ⟨flat, hflat, fun other hother => hother.unique hflat, fun defines => ?_, fun hm ht => ?_⟩
  · rw [result_process, result_process]
    simp only [compose, Logged.result_andThen, hwalk, hagain]
  · rw [result_process]
    simp only [compose, Logged.result_andThen, hwalk, hm, ht]
    exact ⟨_, rfl⟩

/-- A fragment that includes the one beside it, which ends in a backslash. -/
def besideStore : FragmentStore :=
  (FragmentStore.empty.insert "noise/fbm" "#include \"hash\" // first\nfloat fbm;").insert "noise/hash"
    "/* one */ float hash;\n#define SEED \\"

/-- The flat text of a source with nested includes, one of them behind a comment. -/
theorem process_flatten_beside :
    (∃ text, (ofSource besideStore (.text "main") "a\n/**/ #include <noise/fbm>\nb").result
      = .ok text) ∧
    ∃ flat, Flattens besideStore (.text "/")
        (Token.ofText "a\n/**/ #include <noise/fbm>\nb" 1) flat ∧
      ∃ text, (process ⟨besideStore, .empty, [], 0⟩ (.text "main") flat .null).result = .ok text ∧
        (process ⟨besideStore, .empty, [], 0⟩ (.text "main")
          "a\n/**/ #include <noise/fbm>\nb" .null).result = .ok text := by
  have hcollected : (ofSource besideStore (.text "main")
      "a\n/**/ #include <noise/fbm>\nb").result.toOption.isSome = true := by decide +kernel
  have hwalk : ∃ text, (ofSource besideStore (.text "main")
      "a\n/**/ #include <noise/fbm>\nb").result = .ok text := by
    cases h : (ofSource besideStore (.text "main")
        "a\n/**/ #include <noise/fbm>\nb").result with
    | ok text => exact ⟨text, rfl⟩
    | error fault => rw [h] at hcollected; cases hcollected
  have hclosed : ∀ path fragment, Reaches besideStore (FileName.text "main").root
      "a\n/**/ #include <noise/fbm>\nb" path → besideStore.source? path = some fragment →
      ∀ token ∈ Token.ofText fragment 1, Scan.isOpen token.lexeme = false := by
    have hstored : ∀ path fragment, besideStore.source? path = some fragment →
        ∀ token ∈ Token.ofText fragment 1, Scan.isOpen token.lexeme = false :=
      FragmentStore.forall_source?_insert (by decide +kernel)
        (FragmentStore.forall_source?_insert (by decide +kernel) fun _ _ hs => nomatch hs)
    exact fun path fragment _ => hstored path fragment
  obtain ⟨flat, hflat, -, hagain, htext⟩ :=
    process_flatten ⟨besideStore, .empty, [], 0⟩ (.text "main") _ hwalk hclosed
  obtain ⟨text, htext⟩ := htext rfl rfl
  exact ⟨hwalk, flat, hflat, text, (hagain .null).trans htext, htext⟩

end Composer

end GlslCompose
