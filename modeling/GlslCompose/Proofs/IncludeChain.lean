/-
`Proofs/IncludeChain.lean` -- the chain of includes that a fault carries is a chain of
includes.

A fault of an include names a place for each file that was open when it was met: the
directive at fault first, then the directive that had asked for its file, and so on up to
the source. Two numbers could go wrong on the way. The line of a directive comes from a
scan that starts on line 0 and sees the text between two line feeds of its own, and a
token in front of the directive can run over several lines. And the chain itself is put
together while files are entered and left.

So the chain is said twice. `IncludeAt` speaks of a text by itself, with lines counted by
its line feeds, and not of the scan that the walk makes; `exists_includeAt` ties the two,
and the only token that differs in them is a last directive that takes in the line feed
behind the text. `Chain` then builds up the files from the source downwards, each by a
directive of the file above it that asks for it. The walk follows it one file at a time
(`fails_of_ofText`), with what it knows of the open paths: each is that of the file at
hand or of one in the chain, so what is refused as cyclic is in the chain.
-/
import GlslCompose.Proofs.IncludeCycles
import GlslCompose.Proofs.ReturnedDirective
import GlslCompose.Proofs.TextualInclude

set_option autoImplicit false

namespace GlslCompose

/-! ## Where a token stands -/

namespace Scan

/-- The tokens of a text make up the text. -/
theorem toText_tokensFrom (line : Int) (lineStart : Bool) (s : Text) :
    Token.toText (tokensFrom line lineStart s) = s := by
  induction lineStart, s using scan_induction generalizing line with
  | nil lineStart => rw [tokensFrom_nil]; rfl
  | cons lineStart kind data rest hstarts ih =>
    rw [tokensFrom_append hstarts, Token.toText, List.flatMap_cons]
    exact congrArg (data ++ ·) (ih _)

/-- **The line of a token** is the one on which the text starts, and one more for each line feed in
front of the token. -/
theorem line_of_tokensFrom {line : Int} {lineStart : Bool} {s : Text} {token : Token}
    {before behind : List Token} (h : tokensFrom line lineStart s = before ++ token :: behind) :
    token.line = line + lineFeeds (Token.toText before) := by
  induction lineStart, s using scan_induction generalizing line before with
  | nil lineStart =>
    rw [tokensFrom_nil] at h
    exact absurd h.symm (by simp)
  | cons lineStart kind data rest hstarts ih =>
    rw [tokensFrom_append hstarts] at h
    cases before with
    | nil =>
      obtain ⟨rfl, -⟩ := List.cons.inj h
      exact (Int.add_zero line).symm
    | cons first before =>
      obtain ⟨rfl, hrest⟩ := List.cons.inj h
      have hfeeds : lineFeeds (Token.toText (⟨kind, data, line⟩ :: before))
          = lineFeeds data + lineFeeds (Token.toText before) := List.count_append
      rw [ih hrest, hfeeds]
      omega

end Scan

namespace Expansion

/-- **An include directive of a text, and the line on which it starts.** The text is what stands before
the directive, the directive, and what stands behind it, and there is one line more than line feeds
before it. -/
def IncludeAt (text : Text) (line : Int) (token : Token) : Prop :=
  isInclude token = true ∧ ∃ before behind,
    Token.ofText text 1 = before ++ token :: behind ∧
    text = Token.toText before ++ token.data ++ Token.toText behind ∧
    line = 1 + Scan.lineFeeds (Token.toText before)

theorem includeAt_of_mem {text : Text} {token : Token} (hmem : token ∈ Token.ofText text 1)
    (hinclude : isInclude token = true) : IncludeAt text token.line token := by
  obtain ⟨before, behind, hsplit⟩ := List.append_of_mem hmem
  refine ⟨hinclude, before, behind, hsplit, ?_, Scan.line_of_tokensFrom hsplit⟩
  have htext : Token.toText (Token.ofText text 1) = text := Scan.toText_tokensFrom 1 true text
  rw [hsplit, toText_append] at htext
  rw [← htext, List.append_assoc]
  rfl

/-- The line feed behind a text does not change what becomes of an include. -/
theorem fate_of_last {token : Token} (root : FileName) (h : token.kind = .space ∨
      (token.kind = .directive ∧ Scan.EndsOpen token.data) ∨ Scan.isOpen token.lexeme = true)
    (hinclude : isInclude token = true) :
    fate root { token with data := token.data ++ ['\n'] } = fate root token := by
  have hlonger : isInclude { token with data := token.data ++ ['\n'] } = true := by
    rw [isInclude_of_last h, hinclude]
  obtain ⟨-, hdata⟩ :=
    Directive.withoutComments_lineFeed (endsOpen_of_last h (kind_of_isInclude hinclude))
  rw [fate_of_isInclude hlonger, fate_of_isInclude hinclude, hdata,
    Directive.includeArgument_concat (by decide) (by decide)]

/-- Each include of the text with a line feed behind it is one of the text. -/
theorem exists_of_padded {tokens padded : List Token} (h : Scan.Padded tokens padded)
    {token : Token} (hmem : token ∈ padded) (hinclude : isInclude token = true) :
    ∃ own ∈ tokens, isInclude own = true ∧ own.line = token.line ∧
      ∀ root, fate root own = fate root token := by
  induction h with
  | nil =>
    obtain rfl := List.mem_singleton.1 hmem
    cases hinclude
  | @last own hlast =>
    obtain rfl := List.mem_singleton.1 hmem
    rw [isInclude_of_last hlast] at hinclude
    exact ⟨own, List.mem_cons_self, hinclude, rfl,
      fun root => (fate_of_last root hlast hinclude).symm⟩
  | @cons first tokens padded _ ih =>
    rcases List.mem_cons.1 hmem with rfl | hlater
    · exact ⟨token, List.mem_cons_self, hinclude, rfl, fun _ => rfl⟩
    · obtain ⟨own, hown, hrest⟩ := ih hlater
      exact ⟨own, List.mem_cons_of_mem first hown, hrest⟩

/-- **The walk sees the includes of the text itself,** each on its line of the text. -/
theorem exists_includeAt {text : Text} {token : Token} (hmem : token ∈ fileTokens text)
    (hinclude : isInclude token = true) :
    ∃ own, IncludeAt text token.line own ∧ ∀ root, fate root own = fate root token := by
  rw [fileTokens_eq] at hmem
  -- The line feed in front of the text is on line 0 and no include.
  rcases List.mem_cons.1 hmem with rfl | hmem
  · cases hinclude
  · obtain ⟨own, hown, hinclude, hline, hfate⟩ :=
      exists_of_padded (Scan.padded_tokensFrom 1 true text) hmem hinclude
    exact ⟨own, hline ▸ includeAt_of_mem hown hinclude, hfate⟩

/-! ## Chains of includes -/

/-- **How a source leads to a file,** by the chain of the includes that were entered, innermost first.
The source is above everything. Below a file comes a stored fragment whose path is what an include
of that file asks for, and the place of the include is put in front of the chain. -/
inductive Chain (store : FragmentStore) (name : FileName) (source : Text) :
    List IncludeFrame → FileName → Text → Prop
  | source : Chain store name source [] name source
  | through {above : List IncludeFrame} {file : FileName} {text path fragment : Text}
      {token : Token} {line : Int} :
      Chain store name source above file text → IncludeAt text line token →
      fate file.root token = .fetched path → store.source? path = some fragment →
      Chain store name source (⟨file, line⟩ :: above) (.text path) fragment

/-- **What makes an include fail,** the chain that ends in it being known. A path that is not found is
the one that the include asks for, and nothing is stored there. A path that is refused as cyclic is
the one that the include asks for, and that of a file in the chain. In all other cases the argument of
the include is at fault. -/
def FailsBy (store : FragmentStore) (root : FileName) (token : Token) (trace : List IncludeFrame) :
    IncludeProblem → Prop
  | .notFound path => fate root token = .fetched path ∧ store.source? path = none
  | .cyclic path => fate root token = .fetched path ∧ (store.source? path).isSome = true ∧
      ∃ frame ∈ trace, frame.path = .text path
  | problem => fate root token = .malformed problem

/-- **The chain of a fault:** a directive at fault, in a file to which the source leads, and the chain
that leads there. -/
def FaultChain (store : FragmentStore) (name : FileName) (source : Text) (problem : IncludeProblem)
    (trace : List IncludeFrame) : Prop :=
  ∃ file text line token above, trace = ⟨file, line⟩ :: above ∧
    Chain store name source above file text ∧ IncludeAt text line token ∧
    FailsBy store file.root token trace problem

theorem failsBy_of_malformed {store : FragmentStore} {root : FileName} {token : Token}
    {problem : IncludeProblem} (h : fate root token = .malformed problem)
    (trace : List IncludeFrame) : FailsBy store root token trace problem := by
  have hpath := path?_of_malformed h
  cases problem with
  | notFound path => cases hpath
  | cyclic path => cases hpath
  | _ => exact h

/-- **A walk that fails at an include** carries the chain of the fault, if the walk was entered with a
chain and every open path is that of the file or of one in the chain.

The induction is on how many paths are still closed. -/
theorem faultChain_of_ofText {store : FragmentStore} {name file : FileName} {source text : Text}
    {opened : List Text} {above trace : List IncludeFrame} {problem : IncludeProblem}
    (hchain : Chain store name source above file text)
    (hopened : ∀ path ∈ opened, file = .text path ∨ ∃ frame ∈ above, frame.path = .text path)
    (h : (ofText store opened above file text).result = .error (.badInclude problem trace)) :
    FaultChain store name source problem trace := by
  induction hn : (closedPaths store opened).length using Nat.strongRecOn
    generalizing opened above file text with
  | ind n ih =>
    rw [ofText_eq] at h
    obtain ⟨token, hmem, hfault⟩ := exists_fault h
    rcases hfault with ⟨path, hfate, hsplice⟩ | ⟨problem', hfate, hfault⟩ | hfate
    · obtain ⟨own, hown, hsame⟩ := exists_includeAt hmem (of_fetched hfate).1
      have hasks : fate file.root own = .fetched path := (hsame file.root).trans hfate
      rcases splice_error_cases hsplice with ⟨hnone, hfault⟩ | ⟨fragment, hs, hfault | ⟨ho, hwalk⟩⟩
      · -- Nothing is stored at the path.
        cases hfault
        exact ⟨file, text, token.line, own, above, rfl, hchain, hown, hasks, hnone⟩
      · -- The path is open, so it is that of the file at hand or of one above it.
        obtain ⟨ho, hfault⟩ := hfault
        cases hfault
        have hstored : (store.source? path).isSome = true := by rw [hs]; rfl
        refine ⟨file, text, token.line, own, above, rfl, hchain, hown, hasks, hstored, ?_⟩
        rcases hopened path ho with hfile | ⟨frame, hframe, hpath⟩
        · exact ⟨⟨file, token.line⟩, List.mem_cons_self, hfile⟩
        · exact ⟨frame, List.mem_cons_of_mem _ hframe, hpath⟩
      · -- The fault comes out of the fragment. There the file that was at hand is the first above.
        refine ih _ (hn ▸ length_closedPaths_lt hs ho) (.through hchain hown hasks hs) ?_ hwalk rfl
        intro other hother
        rcases List.mem_cons.1 hother with rfl | hother
        · exact .inl rfl
        · rcases hopened other hother with hfile | ⟨frame, hframe, hpath⟩
          · exact .inr ⟨⟨file, token.line⟩, List.mem_cons_self, hfile⟩
          · exact .inr ⟨frame, List.mem_cons_of_mem _ hframe, hpath⟩
    · -- The argument of the directive is at fault.
      cases hfault
      obtain ⟨own, hown, hsame⟩ :=
        exists_includeAt hmem (isInclude_of_fate file.root (by simp [hfate]) (by simp [hfate]))
      exact ⟨file, text, token.line, own, above, rfl, hchain, hown,
        failsBy_of_malformed ((hsame file.root).trans hfate) _⟩
    · exact absurd hfate fate_ne_badInclude

theorem faultChain_of_ofSource {store : FragmentStore} {name : FileName} {source : Text}
    {problem : IncludeProblem} {trace : List IncludeFrame}
    (h : (ofSource store name source).result = .error (.badInclude problem trace)) :
    FaultChain store name source problem trace := by
  rw [ofSource, Logged.result_map] at h
  cases hwalk : (ofText store (openedBy store name source) [] name source).result with
  | ok out => rw [hwalk] at h; cases h
  | error fault =>
    rw [hwalk] at h
    cases h
    refine faultChain_of_ofText .source ?_ hwalk
    exact fun path hpath => .inl (of_mem_openedBy hpath).1

end Expansion

/-! ## Composing -/

section Faults

variable {α β : Type} {x : Except Fault α} {fault : Fault}

theorem bind_eq_error_iff {f : α → Except Fault β} :
    x.bind f = .error fault ↔ x = .error fault ∨ ∃ a, x = .ok a ∧ f a = .error fault := by
  cases x <;> simp [Except.bind]

theorem error_of_map {f : α → β} (h : x.map f = .error fault) : x = .error fault := by
  cases x with
  | error first => exact congrArg Except.error (Except.error.inj h)
  | ok a => cases h

end Faults

namespace MacroTable

theorem exists_of_defineOne_error {table : MacroTable} {name value : Value} {fault : Fault}
    (h : (table.defineOne name value).result = .error fault) : fault = .defineNotText name := by
  cases name with
  | text name =>
    simp only [defineOne] at h
    split at h <;> cases h
  | _ => exact (Except.error.inj h).symm

theorem exists_of_defineEntries_error {table : MacroTable} {changed : Bool}
    {entries : List (Value × Value)} {fault : Fault}
    (h : (table.defineEntries changed entries).result = .error fault) :
    ∃ name, fault = .defineNotText name := by
  induction entries generalizing table changed with
  | nil => cases h
  | cons entry rest ih =>
    obtain ⟨name, value⟩ := entry
    rw [defineEntries, Step.result_andThen] at h
    rcases bind_eq_error_iff.1 h with hone | ⟨now, -, hrest⟩
    · exact ⟨name, exists_of_defineOne_error hone⟩
    · exact ih hrest

/-- Nothing but a name that is no text is refused in a define. -/
theorem exists_of_ofValue_error {defines : Value} {fault : Fault}
    (h : ofValue defines = .error fault) : ∃ name, fault = .defineNotText name := by
  unfold ofValue at h
  split at h
  · have hdefine := error_of_map h
    unfold define at hdefine
    split at hdefine
    · exact exists_of_defineEntries_error hdefine
    · exact ⟨defines, exists_of_defineOne_error hdefine⟩
  · cases h

/-- Nothing but a value that is no mapping is refused as defines. -/
theorem eq_of_active_error {table : MacroTable} {defines : Value} {fault : Fault}
    (h : table.active defines = .error fault) : fault = .noSuchMember defines.kind "items" := by
  unfold active at h
  split at h
  · split at h
    · cases h
    · exact (Except.error.inj h).symm
  · cases h

end MacroTable

namespace Composer

open Expansion

variable {composer : Composer} {name : FileName} {source : Text} {defines : Value} {fault : Fault}

/-- A fault of the transforms is a fault of one of them. -/
theorem exists_of_transformed_error {transforms : List Transform} {v : Value}
    (h : transformed transforms v = .error fault) : ∃ t ∈ transforms, ∃ w, t w = .error fault := by
  induction transforms generalizing v with
  | nil => cases h
  | cons t ts ih =>
    have hlater : (∃ t ∈ ts, ∃ w, t w = .error fault) →
        ∃ s ∈ t :: ts, ∃ w, s w = .error fault :=
      Exists.imp fun _ => And.imp_left (List.mem_cons_of_mem t)
    rw [transformed] at h
    split at h
    · rename_i first hfirst
      obtain rfl := Except.error.inj h
      exact ⟨t, List.mem_cons_self, v, hfirst⟩
    · exact hlater (ih h)
    · exact hlater (ih h)

/-- **A fault of an include comes out of the walk,** unless a transform gives one. -/
theorem ofSource_of_compose {problem : IncludeProblem} {trace : List IncludeFrame}
    (htransforms : ∀ t ∈ composer.transforms, ∀ v, t v ≠ .error (.badInclude problem trace))
    (h : (composer.compose name source defines).result = .error (.badInclude problem trace)) :
    (ofSource composer.store name source).result = .error (.badInclude problem trace) := by
  rw [compose, Logged.result_andThen] at h
  rcases bind_eq_error_iff.1 h with hwalk | ⟨text, -, h⟩
  · exact hwalk
  -- Behind the walk there are four things that can fail, and none of them at an include.
  rcases bind_eq_error_iff.1 h with hactive | ⟨active, -, h⟩
  · cases MacroTable.eq_of_active_error hactive
  rcases bind_eq_error_iff.1 h with hinjected | ⟨injected, -, h⟩
  · unfold Prologue.injectDefines at hinjected
    split at hinjected
    · obtain ⟨name, hname⟩ := MacroTable.exists_of_ofValue_error (error_of_map hinjected)
      cases hname
    · cases hinjected
  rcases bind_eq_error_iff.1 h with hanswer | ⟨answer, -, h⟩
  · obtain ⟨t, ht, v, hfault⟩ := exists_of_transformed_error hanswer
    exact absurd hfault (htransforms t ht v)
  · cases answer <;> cases h

/-- **The include stack of a fault is a chain of includes.** Where composing a source faults at an
include, the outermost place is in the source, under its name or as the anonymous source. Each other
place is in the fragment that is stored at its path, and that path is what the directive at the place
above it asks for. In each of these texts an include directive starts on the line of the place,
counted from one by the line feeds before it. The directive at the innermost place is the one at
fault; what is not found or is refused as cyclic is the path that it asks for, and a path that is
refused as cyclic is that of a place in the chain. -/
theorem process_faultChain (composer : Composer) (name : FileName) (source : Text) (defines : Value)
    (problem : IncludeProblem) (trace : List IncludeFrame)
    (htransforms : ∀ t ∈ composer.transforms, ∀ v, t v ≠ .error (.badInclude problem trace))
    (h : (composer.process name source defines).result = .error (.badInclude problem trace)) :
    FaultChain composer.store name.orAnonymous source problem trace := by
  rw [result_process] at h
  exact faultChain_of_ofSource (ofSource_of_compose htransforms h)

/-- The include at fault where something failed at one, and the chain that leads to it. -/
def includeFault? {α : Type} : Except Fault α → Option (IncludeProblem × List IncludeFrame)
  | .error (.badInclude problem trace) => some (problem, trace)
  | _ => none

theorem eq_of_includeFault? {α : Type} {x : Except Fault α} {problem : IncludeProblem}
    {trace : List IncludeFrame} (h : includeFault? x = some (problem, trace)) :
    x = .error (.badInclude problem trace) := by
  unfold includeFault? at h
  split at h
  · cases h
    rfl
  · cases h

/-- Two fragments that include each other, each behind something that runs over two lines. -/
def windingStore : FragmentStore :=
  (FragmentStore.empty.insert "light/sun" "#define A \\\n 1\n#include \"./moon\"").insert
    "light/moon" "/* two\n lines */ #include \"sun\""

/-- A chain of three places, which ends where the path of the second one is asked for again. -/
theorem process_faultChain_of_winding :
    (process ⟨windingStore, .empty, [], 0⟩ (.text []) "float a;\n#include <light/moon>" .null).result
      = .error (.badInclude (.cyclic "light/moon")
        [⟨.text "light/sun", 3⟩, ⟨.text "light/moon", 2⟩, ⟨.anonymous, 2⟩]) ∧
    FaultChain windingStore .anonymous "float a;\n#include <light/moon>" (.cyclic "light/moon")
      [⟨.text "light/sun", 3⟩, ⟨.text "light/moon", 2⟩, ⟨.anonymous, 2⟩] := by
  have hfault : (process ⟨windingStore, .empty, [], 0⟩ (.text [])
      "float a;\n#include <light/moon>" .null).result
      = .error (.badInclude (.cyclic "light/moon")
        [⟨.text "light/sun", 3⟩, ⟨.text "light/moon", 2⟩, ⟨.anonymous, 2⟩]) :=
    eq_of_includeFault? (by decide +kernel)
  exact ⟨hfault, process_faultChain ⟨windingStore, .empty, [], 0⟩ (.text []) _ .null _ _
    (fun _ ht => nomatch ht) hfault⟩

end Composer

end GlslCompose
