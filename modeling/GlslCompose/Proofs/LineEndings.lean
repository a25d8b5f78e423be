/-
`Proofs/LineEndings.lean` -- a source compiles to the same with either kind of line end.

For most of the way a carriage return is white space, and the compiled text is put together
from lines that have none. But a source and the same source with carriage returns do not
always give the same, since each of these steps has one place where a line feed counts and
a carriage return in front of it does not: the guard for the shader's name is looked for
with bare line feeds (`guard_only_with_lineFeeds`), the mark of a tool ends in one, blanks
are trimmed off a directive only where no carriage return follows, a path over a backslash
holds the line end behind it, and the text that is open under its own name has to be the
stored one to the letter.

`Portable` says of a source that it uses none of the first four, and a library without
transforms then compiles it to the same text, or fails in the same way
(`result_compile_withReturns`).
-/
import GlslCompose.Proofs.IncludeFree
import GlslCompose.Proofs.ReturnedAssembly
import GlslCompose.Proofs.ReturnedWalk

set_option autoImplicit false

namespace GlslCompose

open Text (Returned withReturns)

/-! ## Texts with carriage returns -/

namespace Text

variable {s : Text}

theorem withReturns_cons (c : Char) (s : Text) :
    withReturns (c :: s) = (if c = '\n' then ['\r', '\n'] else [c]) ++ withReturns s := rfl

theorem head?_withReturns (s : Text) : (withReturns s).head? ≠ some '\n' := by
  cases s with
  | nil => exact nofun
  | cons c s =>
    rw [withReturns_cons]
    split
    · exact fun h => absurd (Option.some.inj h) (by decide)
    · rename_i hc
      exact fun h => hc (Option.some.inj h)

/-- Every line feed in such a text stands behind a carriage return. -/
theorem isChain_withReturns (s : Text) :
    List.IsChain (fun c d => d = '\n' → c = '\r') (withReturns s) := by
  induction s with
  | nil => exact .nil
  | cons c s ih =>
    have hnext : ∀ c, List.IsChain (fun c d => d = '\n' → c = '\r') (c :: withReturns s) := by
      intro c
      refine List.isChain_cons.2 ⟨fun d hd hfeed => ?_, ih⟩
      rw [hfeed] at hd
      exact absurd hd (head?_withReturns s)
    rw [withReturns_cons]
    split
    · exact List.isChain_cons_cons.2 ⟨fun _ => rfl, hnext '\n'⟩
    · exact hnext c

theorem withReturns_eq_nil_iff : withReturns s = [] ↔ s = [] := (Returned.withReturns s).eq_nil_iff

end Text

/-! ## The guard -/

namespace CompiledText

/-- **No guard has carriage returns in front of its line feeds.** -/
theorem isGuard_eq_false {s : Text} (h : List.IsChain (fun c d => d = '\n' → c = '\r') s) :
    isGuard s = false := by
  unfold isGuard
  cases hname : Text.after? (String.toList "#ifndef SHADER_NAME") s with
  | none => rfl
  | some behind =>
    dsimp only
    cases hdefine : Text.after? (String.toList "\n#define SHADER_NAME")
        (behind.dropWhile Directive.isTrailing) with
    | none => rfl
    | some rest =>
      rw [Text.after?_eq_some_iff] at hname hdefine
      have hblanks := List.takeWhile_append_dropWhile (p := Directive.isTrailing) (l := behind)
      -- The character in front of the first line feed is the last one of the name, or a blank.
      rw [hname, ← hblanks, hdefine, ← List.append_assoc, List.isChain_append] at h
      have hfront : '\r' ∉ String.toList "#ifndef SHADER_NAME" ++ behind.takeWhile Directive.isTrailing := by
        rw [List.mem_append, not_or]
        exact ⟨by decide, fun hmem => absurd (Scan.all_takeWhile _ hmem) (by decide)⟩
      have hlast := List.getLast?_eq_some_getLast (List.append_ne_nil_of_left_ne_nil
        (show String.toList "#ifndef SHADER_NAME" ≠ [] by decide)
        (behind.takeWhile Directive.isTrailing))
      have hreturn := h.2.2 _ hlast '\n' rfl rfl
      rw [hreturn] at hlast
      exact absurd (List.mem_of_getLast? hlast) hfront

theorem dropGuard_of_isChain {s : Text} (h : List.IsChain (fun c d => d = '\n' → c = '\r') s) :
    dropGuard s = s := by
  induction s with
  | nil => rfl
  | cons c s ih =>
    have hrest : List.IsChain (fun c d => d = '\n' → c = '\r') s := h.tail
    rw [dropGuard, isGuard_eq_false h, isGuard_eq_false hrest, Bool.and_false, Bool.or_false,
      if_neg Bool.false_ne_true, ih hrest]

end CompiledText

/-! ## Sources for either kind of line end -/

namespace Scan

theorem Padded.dropLast_isPrefix {tokens padded : List Token} (h : Padded tokens padded) :
    padded.dropLast <+: tokens := by
  induction h with
  | nil => exact List.nil_prefix
  | last _ => exact List.nil_prefix
  | @cons token tokens padded h ih =>
    have hne : padded ≠ [] := by rintro rfl; cases h
    rw [List.dropLast_cons_of_ne_nil hne]
    exact List.cons_prefix_cons.2 ⟨rfl, ih⟩

end Scan

namespace Expansion

variable {s : Text}

instance (token : Token) : Decidable (AsksOnOneLine token) :=
  inferInstanceAs (Decidable (isInclude token = true →
    '\n' ∉ Directive.includeArgument (Directive.withoutComments token.data)))

instance : DecidableRel KeepsEndBefore := fun token next =>
  inferInstanceAs (Decidable (token.kind = .directive → next.data.head? = some '\n' →
    isInclude token = true ∨ Directive.KeepsEnd token.data))

/-- **A source for either kind of line end.** It is written with line feeds. It has no guard for the
shader's name, its includes ask for paths on one line, and its other directives are not followed by
blanks or comments where their line ends, unless they are defines without a value. -/
structure Portable (s : Text) : Prop where
  bare : '\r' ∉ s
  unguarded : CompiledText.dropGuard s = s
  paths : ∀ token ∈ Token.ofText s 1, AsksOnOneLine token
  ends : (Token.ofText s 1).IsChain KeepsEndBefore

instance (s : Text) : Decidable (Portable s) :=
  decidable_of_iff ('\r' ∉ s ∧ CompiledText.dropGuard s = s ∧
      (∀ token ∈ Token.ofText s 1, AsksOnOneLine token) ∧ (Token.ofText s 1).IsChain KeepsEndBefore)
    ⟨fun h => ⟨h.1, h.2.1, h.2.2.1, h.2.2.2⟩, fun h => ⟨h.bare, h.unguarded, h.paths, h.ends⟩⟩

/-- A line feed behind a text is in no path that it asks for. -/
theorem asksOnOneLine_of_padded {tokens padded : List Token} (h : Scan.Padded tokens padded)
    (hpaths : ∀ token ∈ tokens, AsksOnOneLine token) : ∀ token ∈ padded, AsksOnOneLine token := by
  induction h with
  | nil => exact List.forall_mem_singleton.2 nofun
  | @last token hlast =>
    refine List.forall_mem_singleton.2 fun hinclude => ?_
    rw [isInclude_of_last hlast] at hinclude
    have hopen := endsOpen_of_last hlast (kind_of_isInclude hinclude)
    rw [(Directive.withoutComments_lineFeed hopen).2,
      Directive.includeArgument_concat (by decide) (by decide)]
    exact hpaths token List.mem_cons_self hinclude
  | cons _ ih =>
    rw [List.forall_mem_cons] at hpaths
    exact List.forall_mem_cons.2 ⟨hpaths.1, ih hpaths.2⟩

section Walk

variable {splice : IncludeFrame → Text → Logged (List Token)} {file root : FileName}
  {above : List IncludeFrame}

/-- **The walk over the tokens of a source** gives the same with carriage returns. -/
theorem Portable.sameWalk_fileTokens (h : Portable s) :
    SameWalk false (walkText splice file root above (fileTokens s))
      (walkText splice file root above (fileTokens (withReturns s))) := by
  have hpadded := Scan.padded_tokensFrom 1 true s
  have hbare : '\r' ∉ '\n' :: s ++ ['\n'] := by
    rw [List.mem_append, List.mem_cons, not_or, not_or]
    exact ⟨⟨by decide, h.bare⟩, by decide⟩
  have hfront : Returned ('\n' :: s) ('\n' :: withReturns s) := .same (.withReturns s)
  -- The last line feed is the one that every file ends in, and no carriage return comes before it.
  have hlast : ¬ ['\r', '\n'] <:+ '\n' :: withReturns s ++ ['\n'] := by
    rintro ⟨u, hu⟩
    have hsplit : (u ++ ['\r']) ++ ['\n'] = '\n' :: withReturns s ++ ['\n'] := by
      rw [← hu, List.append_assoc]
      rfl
    obtain ⟨hreturn, -⟩ := List.append_inj' hsplit rfl
    have hgetLast := hfront.getLast?
    rw [← hreturn, List.getLast?_concat] at hgetLast
    exact hbare (List.mem_append_left _ (List.mem_of_getLast? hgetLast.symm))
  refine sameWalk_of_rows (Scan.rows_tokensFrom hbare (hfront.append (.refl _)) hlast nofun) ?_ ?_
  · show ∀ token ∈ fileTokens s, AsksOnOneLine token
    rw [fileTokens_eq]
    exact List.forall_mem_cons.2 ⟨nofun, asksOnOneLine_of_padded hpadded h.paths⟩
  · show (fileTokens s).dropLast.IsChain KeepsEndBefore
    have hne : Scan.tokensFrom 1 true (s ++ ['\n']) ≠ [] := Scan.tokensFrom_ne_nil 1 (by simp)
    rw [fileTokens_eq, List.dropLast_cons_of_ne_nil hne]
    exact List.isChain_cons.2 ⟨fun _ _ => nofun, h.ends.prefix hpadded.dropLast_isPrefix⟩

end Walk

/-- **A source expands to the same with carriage returns,** where those of its names that are reached
are open for both texts or for neither. -/
theorem Portable.sameWalk_ofSource {store : FragmentStore} {name : FileName} (h : Portable s)
    (hopened : ∀ path, Reaches store name.root s path →
      (path ∈ openedBy store name (withReturns s) ↔ path ∈ openedBy store name s)) :
    SameWalk false (ofSource store name s).result (ofSource store name (withReturns s)).result := by
  have hwalk : ∀ text, (ofSource store name text).result
      = walkText (splice store (openedBy store name text) [] name) name name.root [] (fileTokens text) := by
    intro text
    rw [ofSource, Logged.result_map, ofText_eq]
    rfl
  have hsame : walkText (splice store (openedBy store name (withReturns s)) [] name) name name.root []
        (fileTokens s)
      = walkText (splice store (openedBy store name s) [] name) name name.root [] (fileTokens s) := by
    have hresult : (ofText store _ [] name s).result = (ofText store _ [] name s).result :=
      result_ofText_of_opened hopened
    rw [ofText_eq, ofText_eq] at hresult
    rw [walkText, walkText, hresult]
  rw [hwalk, hwalk, ← hsame]
  exact h.sameWalk_fileTokens

end Expansion

/-! ## Composing and compiling -/

namespace Composer

open Expansion (Portable SameWalk openedBy Reaches)

variable {composer : Composer} {name : FileName} {source : Text} {defines : Value}

/-- **Both texts are prepared, or neither is,** and they are the same but for carriage returns. -/
theorem prepared_withReturns (h : Portable source)
    (hopened : ∀ path, Reaches composer.store name.root source path →
      (path ∈ openedBy composer.store name (withReturns source) ↔
        path ∈ openedBy composer.store name source)) :
    (∃ fault, composer.prepared name source defines = .error fault ∧
        composer.prepared name (withReturns source) defines = .error fault) ∨
      ∃ text text', composer.prepared name source defines = .ok text ∧
        composer.prepared name (withReturns source) defines = .ok text' ∧ Returned text text' := by
  have hwalk := h.sameWalk_ofSource hopened
  unfold prepared
  generalize (Expansion.ofSource composer.store name source).result = x at hwalk
  generalize (Expansion.ofSource composer.store name (withReturns source)).result = y at hwalk
  cases hwalk with
  | fault fault => exact .inl ⟨fault, rfl, rfl⟩
  | @text text text' hpaired _ =>
    simp only [Except.bind]
    cases composer.macros.active defines with
    | error fault => exact .inl ⟨fault, rfl, rfl⟩
    | ok active =>
      simp only [Prologue.injectDefines]
      split
      · cases MacroTable.ofValue active.toValue with
        | error fault => exact .inl ⟨fault, rfl, rfl⟩
        | ok table => exact .inr ⟨_, _, rfl, rfl, Prologue.insert_returned hpaired table.prologue⟩
      · exact .inr ⟨text, text', rfl, rfl, hpaired.returned⟩

end Composer

namespace Library

open Expansion (Portable openedBy Reaches)

/-- A list that starts with a text has a digest if the rest of it has JSON texts. -/
theorem ofValue_list_text (s : Text) (items : List Value) :
    Digest.ofValue (.list (.text s :: items)) =
      match Value.jsonItems items with
      | .ok parts => .ok (Digest.ofText (Value.jsonGroup '[' ']' (Value.jsonText s :: parts)))
      | .error problem => .error (.notJson problem) := by
  simp only [Digest.ofValue, Value.json, Value.jsonItems, bind, Except.bind]
  cases Value.jsonItems items <;> rfl

/-- Whether there is a key does not depend on the source, which is a text. -/
theorem bind_cacheKey {α : Type} (library : Library) (name : FileName) (source source' : Text)
    (defines : Value) (x : Except Fault α) :
    ((library.cacheKey name (.text source') defines).bind fun _ => x)
      = (library.cacheKey name (.text source) defines).bind fun _ => x := by
  simp only [cacheKey, bind]
  cases library.macros.active defines with
  | error fault => rfl
  | ok active =>
    simp only [Except.bind, keyValue, ofValue_list_text]
    cases Value.jsonItems _ <;> rfl

/-- **A source compiles to the same with either kind of line end.** For every library without
transforms, every name and every set of defines, a portable source gives the same text with carriage
returns in front of its line feeds, or fails with the same fault.

That needs two things of the fragments. If the source includes a fragment under its own name, both
texts have to be that fragment or neither; and no mark of a tool may end in a line end of the source. -/
theorem result_compile_withReturns {library : Library} {name : FileName} {source : Text}
    {defines : Value} (hsource : Portable source) (htransforms : library.composer.transforms = [])
    (hopened : ∀ path, Reaches library.store name.orAnonymous.root source path →
      (path ∈ openedBy library.store name.orAnonymous (withReturns source) ↔
        path ∈ openedBy library.store name.orAnonymous source))
    (hmarks : ∀ text text',
      library.composer.prepared name.orAnonymous source defines = .ok text →
      library.composer.prepared name.orAnonymous (withReturns source) defines = .ok text' →
      Composer.marks text' = Composer.marks text) :
    (library.plain.compile name (withReturns source) defines).result
      = (library.plain.compile name source defines).result := by
  have hbody : (library.compileBody name.orAnonymous (withReturns source) defines).result
      = (library.compileBody name.orAnonymous source defines).result := by
    rw [result_compileBody, result_compileBody, FileName.orAnonymous_orAnonymous, hsource.unguarded,
      CompiledText.dropGuard_of_isChain (Text.isChain_withReturns source),
      Composer.result_compose_untransformed htransforms,
      Composer.result_compose_untransformed htransforms]
    rcases Composer.prepared_withReturns hsource hopened with
      ⟨fault, htext, htext'⟩ | ⟨text, text', htext, htext', hrel⟩
    · rw [htext, htext']
    · rw [htext, htext']
      have hunmarked := Composer.unmarked_returned hrel (hmarks text text' htext htext')
      exact congrArg Except.ok (CompiledText.body_returned hunmarked _ _)
  rw [result_compile_plain, result_compile_plain, hbody]
  by_cases hempty : source = []
  · subst hempty
    rfl
  · have hempty' : withReturns source ≠ [] := fun hnil => hempty (Text.withReturns_eq_nil_iff.1 hnil)
    rw [if_neg (by simpa using hempty'), if_neg (by simpa using hempty)]
    exact bind_cacheKey library _ _ _ _ _

/-- The mark of a tool is left, and blanks behind a directive are, if a carriage return follows. -/
example : ∀ source ∈ (["#define GLSLIFY 1\nint a;", "#if A \nint a;\n#endif"].map String.toList),
    (emptyLibrary.compile (.text "x") (withReturns source) .null).result.toOption
      ≠ (emptyLibrary.compile (.text "x") source .null).result.toOption := by
  decide +kernel

/-- **A source that compiles to another text.** The guard at its end is dropped, and with carriage
returns it is none. -/
theorem guard_only_with_lineFeeds : ¬ ∀ (library : Library) (name : FileName) (source : Text)
    (defines : Value) (compiled compiled' : Option Text), library.composer.transforms = [] →
    '\r' ∉ source → (library.compile name source defines).result = .ok compiled →
    (library.compile name (withReturns source) defines).result = .ok compiled' →
    compiled' = compiled := by
  intro h
  let source : Text := "int a;\n#ifndef SHADER_NAME\n#define SHADER_NAME x\n#endif\n"
  have hcompiled : (emptyLibrary.compile (.text "x") source .null).result
      = .ok (some "precision mediump float;\n// x\nint a;\n") := by
    apply ok_of_toOption
    decide +kernel
  have hcompiled' : (emptyLibrary.compile (.text "x") (withReturns source) .null).result
      = .ok (some ("precision mediump float;\n// x\nint a;\n" ++
          "#ifndef SHADER_NAME\n#define SHADER_NAME x\n#endif\n")) := by
    apply ok_of_toOption
    decide +kernel
  have heq := h emptyLibrary (.text "x") source .null _ _ rfl (by decide) hcompiled hcompiled'
  exact absurd heq (by decide)

/-- A library with a fragment that has both kinds of line end, and the mark of a tool. -/
def mixedLibrary : Library :=
  emptyLibrary.withStore (FragmentStore.empty.insert "noise"
    "precision highp float;\r\n#define GLSLIFY 1\nfloat noise;\r")

/-- A source with comments and blanks behind its directives that includes it. -/
def portableSource : Text :=
  "#version 300 es\n#include <noise>  /* first */\n#define A(x) \\\n  x * 2.0\n#define B // on\n" ++
    "#define C \nprecision highp float;\n\n#if SIZE > 2\nfloat a; /* a\nb */ \n#endif "

/-- The defines that it is compiled with. -/
def sizeDefines : Value := .map [(.text "SIZE", .int 4)]

/-- It compiles to the same text with carriage returns, as a case of the general statement. -/
theorem result_compile_withReturns_of_mixed_fragment :
    (mixedLibrary.plain.compile (.text "x") (withReturns portableSource) sizeDefines).result
      = .ok (some ("#version 300 es\nprecision mediump float;\n// x\n#define SIZE 4\n" ++
          "float noise;\n#define A(x) \\\n  x * 2.0\n#define B 1\n#define C 1\n" ++
          "#if SIZE > 2\nfloat a;  \n#endif\n")) := by
  have hclosed : ∀ source ∈ [portableSource, withReturns portableSource],
      openedBy mixedLibrary.store (.text "x") source = [] := by
    decide +kernel
  have hmarks : ∀ source ∈ [portableSource, withReturns portableSource],
      (mixedLibrary.composer.prepared (.text "x") source sizeDefines).toOption.map Composer.marks
        = some 1 := by
    decide +kernel
  have hsource : portableSource ∈ [portableSource, withReturns portableSource] := List.mem_cons_self
  have hreturned : withReturns portableSource ∈ [portableSource, withReturns portableSource] :=
    List.mem_cons_of_mem _ List.mem_cons_self
  have hsame : (mixedLibrary.plain.compile (.text "x") (withReturns portableSource) sizeDefines).result
      = (mixedLibrary.plain.compile (.text "x") portableSource sizeDefines).result := by
    refine result_compile_withReturns (by decide +kernel) rfl (fun path _ => ?_) ?_
    · rw [show (FileName.text "x").orAnonymous = .text "x" from rfl, hclosed _ hsource,
        hclosed _ hreturned]
    · intro text text' htext htext'
      have hfirst := hmarks _ hsource
      have hsecond := hmarks _ hreturned
      rw [show mixedLibrary.composer.prepared (.text "x") portableSource sizeDefines = _ from htext]
        at hfirst
      rw [show mixedLibrary.composer.prepared (.text "x") (withReturns portableSource) sizeDefines = _
        from htext'] at hsecond
      exact (Option.some.inj hsecond).trans (Option.some.inj hfirst).symm
  rw [hsame]
  apply ok_of_toOption
  decide +kernel

end Library

end GlslCompose
