/-
`Proofs/DefineBlock.lean` -- what the defines change in a compiled text: the lines that
define them, and when nothing else.

The lines of the defines go below the header directives of the walked text. Only then are
the marks of tools and the precision statements taken out, and only after that is it
decided whether the text declares a version: if it does, the directive moves to the top.
So the two decisions are made about different texts. Where a precision statement stands in
front of the version, the text has no header when the defines are written, they come first,
and with them the version is no longer what the text starts with: it stays where it is, and
the precision statement of the library comes in front of it (`leaves_version_behind`).

`inserts_defines_iff` says that this is all that can go wrong, as long as the header
directives stand on lines of their own and nothing is taken out of them. The block of the
defines then passes through the assembly as it is, because no word in it is the keyword of
a precision statement and no line of it is a mark (`TidyDefine`).
-/
import GlslCompose.Proofs.CompiledOver
import GlslCompose.Proofs.IncludeCycles
import GlslCompose.Proofs.KeptLines

set_option autoImplicit false

namespace GlslCompose

open Text (lacksWord isVisible visibleLines fed Unbroken Inserted)
open CompiledText (SelfContained assembled)

/-! ## The defines -/

/-- **A define that makes a line of its own:** a word for a name, other than the two that the assembly
looks for, and a text without breaks for a value, without the keyword of a precision statement and
without a mark at its end. -/
structure TidyDefine (name value : Text) : Prop where
  word : ∀ c ∈ name, Text.isWord c = true
  unmarked : name ≠ "GLSLIFY"
  bare : name ≠ "precision"
  unbroken : Unbroken value
  bareValue : lacksWord "precision" false value = true
  unmarkedValue : ¬ String.toList "#define GLSLIFY 1" <:+ value

namespace TidyDefine

variable {name value : Text}

instance : Decidable (TidyDefine name value) :=
  have := List.decidableBAll (fun c => Text.isWord c = true) name
  decidable_of_iff ((∀ c ∈ name, Text.isWord c = true) ∧ name ≠ "GLSLIFY" ∧ name ≠ "precision" ∧
      Unbroken value ∧ lacksWord "precision" false value = true ∧
      ¬ String.toList "#define GLSLIFY 1" <:+ value)
    ⟨fun ⟨word, unmarked, bare, unbroken, bareValue, unmarkedValue⟩ =>
      ⟨word, unmarked, bare, unbroken, bareValue, unmarkedValue⟩,
      fun h => ⟨h.word, h.unmarked, h.bare, h.unbroken, h.bareValue, h.unmarkedValue⟩⟩

/-- Its line without the line feed. -/
def line (name value : Text) : Text := "#define " ++ name ++ " " ++ value

theorem defineLine_eq (name value : Text) : MacroTable.defineLine name value = line name value ++ ['\n'] :=
  rfl

theorem line_eq (name value : Text) :
    line name value = String.toList "#define " ++ (name ++ ' ' :: value) := by
  have hassoc : ∀ lead : Text, lead ++ name ++ [' '] ++ value = lead ++ (name ++ ' ' :: value) := by
    intro lead
    rw [List.append_assoc, List.append_assoc, List.singleton_append]
  exact hassoc _

/-- The line is no mark: that would have to start at the `#` of the line, or in the value. -/
theorem not_isSuffix_of_word (hname : ∀ c ∈ name, Text.isWord c = true) (hne : name ≠ "GLSLIFY")
    (hunmarked : ¬ String.toList "#define GLSLIFY 1" <:+ value) :
    ¬ String.toList "#define GLSLIFY 1" <:+ line name value := by
  rw [line_eq]
  have hbehind : String.toList "GLSLIFY 1" ≠ name ++ ' ' :: value := by
    intro heq
    have hword := congrArg Text.word heq
    rw [Text.word_append_cons (by decide), Text.word_eq_self hname] at hword
    exact hne (hword.symm.trans (by decide))
  have hmark : String.toList "#define GLSLIFY 1"
      = String.toList "#define " ++ String.toList "GLSLIFY 1" := by decide
  rw [hmark] at hunmarked ⊢
  obtain ⟨lead, hlead, hhash⟩ : ∃ lead, String.toList "#define " = '#' :: lead ∧ '#' ∉ lead :=
    ⟨_, rfl, by decide⟩
  rw [hlead] at hunmarked ⊢
  generalize String.toList "GLSLIFY 1" = behind at hbehind hunmarked ⊢
  have hnone : '#' ∉ lead ++ name ++ [' '] := by
    intro hc
    rcases List.mem_append.1 hc with hc | hc
    · rcases List.mem_append.1 hc with hc | hc
      · exact hhash hc
      · exact absurd (hname _ hc) (by decide)
    · exact absurd hc (by decide)
  -- A suffix starts with a `#`, so it is the whole line or lies in the value.
  rintro ⟨front, hfront⟩
  have hsplit : '#' :: lead ++ (name ++ ' ' :: value) = '#' :: (lead ++ name ++ [' ']) ++ value := by
    simp only [List.cons_append, List.append_assoc, List.nil_append]
  rcases List.append_eq_append_iff.1 (hfront.trans hsplit) with ⟨a, ha, hrest⟩ | ⟨a, -, hvalue⟩
  · cases front with
    | nil => exact hbehind (List.append_cancel_left hfront)
    | cons c front =>
      have hlead := (List.cons.inj ha).2
      cases a with
      | nil => exact hunmarked ⟨[], hrest⟩
      | cons d a =>
        obtain ⟨rfl, -⟩ := List.cons.inj hrest
        exact hnone (by rw [hlead]; simp)
  · exact hunmarked ⟨a, hvalue.symm⟩

theorem not_isSuffix_line (h : TidyDefine name value) :
    ¬ String.toList "#define GLSLIFY 1" <:+ line name value :=
  not_isSuffix_of_word h.word h.unmarked h.unmarkedValue

/-- The line is one line. -/
theorem unbroken_of_word (hname : ∀ c ∈ name, Text.isWord c = true) (hvalue : Unbroken value) :
    Unbroken (line name value) := by
  have hlead : Unbroken (String.toList "#define ") := by decide
  have hblank : Unbroken (' ' :: value) := List.forall_mem_cons.2 ⟨by decide, hvalue⟩
  rw [line_eq]
  exact hlead.append ((Text.unbroken_of_isWord hname).append hblank)

theorem unbroken_line (h : TidyDefine name value) : Unbroken (line name value) :=
  unbroken_of_word h.word h.unbroken

/-- No word of the line is the keyword. -/
theorem lacksWord_defineLine (h : TidyDefine name value) :
    lacksWord "precision" false (MacroTable.defineLine name value) = true := by
  have hspace : Text.isWord ' ' = false := by decide
  have hfeed : Text.isWord '\n' = false := by decide
  have hkeyword : String.toList "precision" ≠ [] := by decide
  obtain ⟨lead, hlead, hbare⟩ : ∃ lead, String.toList "#define " = lead ++ [' '] ∧
      lacksWord "precision" false lead = true := ⟨String.toList "#define", by decide, by decide⟩
  rw [defineLine_eq, line_eq, hlead]
  have hsplit : lead ++ [' '] ++ (name ++ ' ' :: value) ++ ['\n']
      = lead ++ ' ' :: (name ++ ' ' :: (value ++ '\n' :: [])) := by
    simp only [List.append_assoc, List.cons_append, List.nil_append]
  rw [hsplit, Text.lacksWord_append_cons hkeyword hspace, hbare,
    Text.lacksWord_append_cons hkeyword hspace, Text.lacksWord_of_isWord h.word h.bare,
    Text.lacksWord_append_cons hkeyword hfeed, h.bareValue]
  rfl

/-- **The line of a define passes through the assembly.** -/
theorem selfContained_defineLine (h : TidyDefine name value) :
    SelfContained (MacroTable.defineLine name value) where
  ends := by
    rw [defineLine_eq]
    intro c hc
    rw [List.getLast?_concat] at hc
    rw [← Option.some.inj hc]
    exact Text.isLineBreak_lineFeed
  unmarked := CompiledText.hasPart_toolMarker_line h.unbroken_line.notMem.1 h.not_isSuffix_line
  bare := h.lacksWord_defineLine

/-- It is one visible line, and no version directive. -/
theorem visibleLines_defineLine (h : TidyDefine name value) :
    visibleLines (MacroTable.defineLine name value) = [line name value] ∧
      CompiledText.isVersion (line name value) = false := by
  have hline : ∃ s, line name value = '#' :: s := ⟨_, line_eq name value⟩
  have hvisible : isVisible (line name value) = true := by
    obtain ⟨s, hs⟩ := hline
    rw [hs, Text.isVisible_cons]
    rfl
  constructor
  · rw [defineLine_eq, Text.visibleLines_append_lineFeed, Text.visibleLines_of_unbroken h.unbroken_line,
      List.filter_cons_of_pos hvisible]
    rfl
  · rw [line_eq]
    rfl

end TidyDefine

/-- The lines of some defines, one below the other. -/
def defineBlock (defines : List (Text × Text)) : Text :=
  defines.flatMap fun define => MacroTable.defineLine define.1 define.2

/-- They are the lines that a table of defines is written as. -/
theorem MacroTable.prologue_eq (table : MacroTable) : table.prologue = defineBlock table.toList := rfl

section

variable {defines : List (Text × Text)} (htidy : ∀ define ∈ defines, TidyDefine define.1 define.2)
include htidy

theorem assembled_defineBlock (s : Text) :
    assembled (defineBlock defines ++ s) = defineBlock defines ++ assembled s := by
  induction defines with
  | nil => rfl
  | cons define rest ih =>
    rw [List.forall_mem_cons] at htidy
    rw [defineBlock, List.flatMap_cons, List.append_assoc,
      htidy.1.selfContained_defineLine.assembled_append, ← defineBlock, ih htidy.2, List.append_assoc]

theorem visibleLines_defineBlock (s : Text) :
    visibleLines (defineBlock defines ++ s)
      = defines.map (fun define => TidyDefine.line define.1 define.2) ++ visibleLines s := by
  induction defines with
  | nil => rfl
  | cons define rest ih =>
    rw [List.forall_mem_cons] at htidy
    rw [defineBlock, List.flatMap_cons, List.append_assoc,
      htidy.1.selfContained_defineLine.visibleLines_append, ← defineBlock, ih htidy.2,
      htidy.1.visibleLines_defineLine.1]
    rfl

end

theorem fed_defineBlock (defines : List (Text × Text)) :
    fed (defines.map fun define => TidyDefine.line define.1 define.2) = defineBlock defines := by
  induction defines with
  | nil => rfl
  | cons define rest ih =>
    rw [List.map_cons, Text.fed_cons, ih, defineBlock, defineBlock, List.flatMap_cons,
      TidyDefine.defineLine_eq, List.append_assoc]
    rfl

namespace Prologue

/-- The header directives at the start of a text, with the blank lines among them. -/
def header (s : Text) : Text := ((Text.lineParts s).take (headerLength (Text.lineParts s))).flatten

/-- What is below them. -/
def below (s : Text) : Text := ((Text.lineParts s).drop (headerLength (Text.lineParts s))).flatten

theorem header_append_below (s : Text) : header s ++ below s = s := by
  rw [header, below, ← List.flatten_append, List.take_append_drop, Text.flatten_lineParts]

theorem insert_eq (prologue s : Text) : insert prologue s = header s ++ (prologue ++ below s) :=
  List.append_assoc _ _ _

/-- There is a directive among the lines of a header. -/
theorem exists_isHeader {ls : List Text} (h : headerLength ls ≠ 0) :
    ∃ line ∈ ls.take (headerLength ls), isHeader line = true := by
  induction ls with
  | nil => exact absurd rfl h
  | cons line rest ih =>
    rw [headerLength] at h ⊢
    split
    · rename_i hheader
      exact ⟨line, List.mem_cons_self, hheader⟩
    · rename_i hheader
      rw [if_neg hheader] at h
      split at h
      · -- A blank line belongs to a header only where the header goes on behind it.
        rename_i hblank
        rw [if_pos hblank]
        cases hrest : headerLength rest with
        | zero =>
          rw [hrest] at h
          exact absurd rfl h
        | succ n =>
          obtain ⟨found, hmem, hfound⟩ := ih (by rw [hrest]; exact Nat.succ_ne_zero n)
          rw [hrest] at hmem
          exact ⟨found, List.mem_cons_of_mem _ hmem, hfound⟩
      · exact absurd rfl h

theorem isVisible_of_isHeader {line : Text} (h : isHeader line = true) : isVisible line = true := by
  cases hvisible : isVisible line with
  | true => rfl
  | false =>
    rw [Text.isVisible_eq_false_iff] at hvisible
    have hskip : Text.skipBlanks line = [] := List.dropWhile_eq_nil_iff.2 hvisible
    simp [isHeader, Directive.isOneOf, Directive.keyword, Directive.afterHash?, hskip] at h

/-- **A header is visible.** -/
theorem visibleLines_header {s : Text} (h : header s ≠ []) : visibleLines (header s) ≠ [] := by
  have hlength : headerLength (Text.lineParts s) ≠ 0 := by
    intro hzero
    rw [header, hzero] at h
    exact h rfl
  obtain ⟨line, hmem, hline⟩ := exists_isHeader hlength
  intro hnil
  rw [Text.visibleLines_eq_nil_iff, Text.isVisible_eq_false_iff] at hnil
  have hblank : isVisible line = false := by
    rw [Text.isVisible_eq_false_iff]
    exact fun c hc => hnil c (List.mem_flatten.2 ⟨line, hmem, hc⟩)
  rw [isVisible_of_isHeader hline] at hblank
  cases hblank

end Prologue

namespace MacroTable

/-- A new name comes behind the others. -/
theorem toList_set {table : MacroTable} {name : Text} (h : name ∉ Pairs.keys table.toList)
    (value : Text) : (table.set name value).1.toList = table.toList ++ [(name, value)] := by
  have hnone : table.get? name = none := by
    rw [← Option.not_isSome_iff_eq_none, get?, OrderedMap.isSome_get?_iff]
    exact h
  rw [set, hnone, if_neg nofun]
  exact @Pairs.put_of_not_mem Text Text instBEqOfDecidableEq _ name table.toList h value

/-- **A table that takes in new names** has them behind its own. -/
theorem toList_defineEntries {table : MacroTable} {entries : List (Text × Text)}
    (h : (Pairs.keys (table.toList ++ entries)).Nodup) (changed : Bool) :
    (table.defineEntries changed
        (entries.map fun (name, value) => (.text name, .text value))).state.toList
      = table.toList ++ entries := by
  induction entries generalizing table changed with
  | nil => exact (List.append_nil _).symm
  | cons entry rest ih =>
    obtain ⟨name, value⟩ := entry
    have hnew : name ∉ Pairs.keys table.toList := Pairs.not_mem_keys_of_nodup h
    have hset := toList_set hnew value
    rw [List.append_cons, ← hset] at h ⊢
    exact ih h (changed || (table.set name value).2)

end MacroTable

/-- **Defines whose names are texts are written as a block.** -/
theorem Prologue.injectDefines_named (s : Text) {defines : List (Text × Text)}
    (h : (Pairs.keys defines).Nodup) :
    injectDefines s (ActiveDefines.toValue (.named defines)) = .ok (insert (defineBlock defines) s) := by
  have hvalue : ActiveDefines.toValue (.named defines)
      = .map (defines.map fun (name, value) => (.text name, .text value)) := by
    rw [ActiveDefines.toValue, ActiveDefines.named, List.map_map]
    rfl
  rw [hvalue, injectDefines]
  split
  · rename_i htrue
    obtain ⟨now, hnow⟩ := MacroTable.empty.defineEntries_ok false defines
    have htable : (MacroTable.empty.defineEntries false
        (defines.map fun (name, value) => (.text name, .text value))).state.toList = defines :=
      @MacroTable.toList_defineEntries .empty defines h false
    rw [MacroTable.ofValue, if_pos htrue]
    simp only [MacroTable.define, Value.entries?, hnow, Except.map, MacroTable.prologue_eq]
    rw [htable]
  · rename_i htrue
    -- Without defines nothing is written, which is as good as a block without lines.
    cases defines with
    | nil => rw [insert_eq, defineBlock, List.flatMap_nil, List.nil_append, header_append_below]
    | cons define rest => exact absurd rfl htrue

/-- The active defines depend on what is in a table alone. -/
theorem MacroTable.active_congr {table other : MacroTable} (h : table.toList = other.toList)
    (defines : Value) : table.active defines = other.active defines := by
  unfold active overlay
  rw [h]

/-! ## Keys -/

namespace Value

/-- A list has a JSON text if all that is in it has one. -/
theorem jsonItems_ok_iff (vs : List Value) :
    (∃ ts, jsonItems vs = .ok ts) ↔ ∀ v ∈ vs, ∃ t, v.json = .ok t := by
  induction vs with
  | nil => exact ⟨fun _ _ hmem => absurd hmem List.not_mem_nil, fun _ => ⟨[], rfl⟩⟩
  | cons v vs ih =>
    rw [List.forall_mem_cons, ← ih, jsonItems]
    cases v.json with
    | error problem => simp [bind, Except.bind]
    | ok t => cases jsonItems vs <;> simp [bind, Except.bind, pure, Except.pure]

theorem json_list_ok_iff (vs : List Value) :
    (∃ t, (list vs).json = .ok t) ↔ ∀ v ∈ vs, ∃ t, v.json = .ok t := by
  rw [← jsonItems_ok_iff, json]
  cases jsonItems vs <;> simp [Except.map]

end Value

namespace Library

/-- **Whether there is a key does not depend on the defines,** if their names are texts. -/
theorem cacheKey_ok_iff {library : Library} {defines otherDefines : Value}
    {active otherActive : List (Text × Text)}
    (h : library.macros.active defines = .ok (.named active))
    (hother : library.macros.active otherDefines = .ok (.named otherActive)) (name : FileName)
    (source : Value) : (∃ key, library.cacheKey name source defines = .ok key)
      ↔ ∃ key, library.cacheKey name source otherDefines = .ok key := by
  have hkey : ∀ {defines : Value} {active : List (Text × Text)},
      library.macros.active defines = .ok (.named active) →
      ((∃ key, library.cacheKey name source defines = .ok key) ↔
        ∃ t, (library.keyValue name source (.named active)).json = .ok t) := by
    intro defines active hactive
    rw [cacheKey, hactive]
    simp only [bind, Except.bind, Digest.ofValue]
    cases (library.keyValue name source (.named active)).json <;> simp
  have hitems : ∀ active : List (Text × Text), library.keyValue name source (.named active) = .list [
      source, name.root.toValue,
      .list ((ActiveDefines.named active).map fun define => .list [define.1, .text define.2]),
      .int library.store.revision, .int library.composer.transforms.length, library.precision,
      library.version] := fun _ => rfl
  -- The defines are pairs of texts, so they are written in every key, and the other parts are the same.
  have hactive : ∀ active : List (Text × Text),
      ∃ t, (Value.list ((ActiveDefines.named active).map fun define =>
        .list [define.1, .text define.2])).json = .ok t := by
    intro active
    rw [Value.json_list_ok_iff]
    intro v hv
    obtain ⟨define, hdefine, rfl⟩ := List.mem_map.1 hv
    obtain ⟨pair, -, rfl⟩ := List.mem_map.1 hdefine
    exact ⟨_, rfl⟩
  rw [hkey h, hkey hother, hitems, hitems, Value.json_list_ok_iff, Value.json_list_ok_iff]
  simp only [List.forall_mem_cons, hactive, true_and]

variable {library : Library}

/-- The text of a library without defines, transforms and a cache, for a source that can be walked. -/
theorem result_compile_of_prepared (htransforms : library.composer.transforms = []) {name : FileName}
    {source : Text} {defines : Value} (hsource : source.isEmpty = false) {key : Nat}
    (hkey : library.cacheKey name.orAnonymous (.text source) defines = .ok key) :
    (library.plain.compile name source defines).result
      = (library.composer.prepared name.orAnonymous (CompiledText.dropGuard source) defines).map
          fun prepared => some (CompiledText.withMarker name.orAnonymous.written
            (CompiledText.body library.precision.display library.versionText?
              (Composer.unmarked prepared))) := by
  rw [result_compile_plain, hsource, if_neg Bool.false_ne_true, hkey, Except.bind, result_compileBody,
    Composer.result_compose_untransformed htransforms, FileName.orAnonymous_orAnonymous]
  cases library.composer.prepared name.orAnonymous (CompiledText.dropGuard source) defines <;> rfl

/-- Without a key nothing is compiled. -/
theorem exists_error_of_no_key {name : FileName} {source : Text} {defines : Value}
    (hsource : source.isEmpty = false)
    (h : ¬ ∃ key, library.cacheKey name.orAnonymous (.text source) defines = .ok key) :
    ∃ fault, (library.plain.compile name source defines).result = .error fault := by
  rw [result_compile_plain, hsource, if_neg Bool.false_ne_true]
  cases hkey : library.cacheKey name.orAnonymous (.text source) defines with
  | error fault => exact ⟨fault, rfl⟩
  | ok key => exact absurd ⟨key, hkey⟩ h

/-- What is prepared: the walked text with the block of the active defines. -/
theorem prepared_of_active {composer : Composer} {defines : Value} {active : List (Text × Text)}
    (hkeys : (Pairs.keys active).Nodup) (h : composer.macros.active defines = .ok (.named active))
    (name : FileName) (source : Text) :
    composer.prepared name source defines = (Expansion.ofSource composer.store name source).result.map
      (Prologue.insert (defineBlock active)) := by
  rw [Composer.prepared, h]
  cases (Expansion.ofSource composer.store name source).result with
  | error fault => rfl
  | ok text => exact Prologue.injectDefines_named text hkeys

/-- **The block of the defines in a compiled text.** The block stands behind the header directives of
the walked text, which decide where it goes; the first visible line of what is left of the text decides
about the version. -/
theorem inserted_compiled_iff {defines : List (Text × Text)}
    (htidy : ∀ define ∈ defines, TidyDefine define.1 define.2) {walked : Text}
    (hheader : SelfContained (Prologue.header walked)) (name precision : Text)
    (version : Option Text) :
    Inserted (defineBlock defines)
        (CompiledText.withMarker name (CompiledText.body precision version (Composer.unmarked walked)))
        (CompiledText.withMarker name (CompiledText.body precision version
          (Composer.unmarked (Prologue.insert (defineBlock defines) walked))))
      ↔ defines = [] ∨ Prologue.header walked ≠ [] ∨
        CompiledText.declared? (visibleLines (assembled walked)) = none := by
  have hformer : visibleLines (assembled walked) = visibleLines (Prologue.header walked)
      ++ visibleLines (assembled (Prologue.below walked)) := by
    conv_lhs => rw [← Prologue.header_append_below walked]
    rw [hheader.assembled_append, hheader.visibleLines_append]
  have hlatter : visibleLines (assembled (Prologue.insert (defineBlock defines) walked))
      = visibleLines (Prologue.header walked)
        ++ (defines.map (fun define => TidyDefine.line define.1 define.2)
          ++ visibleLines (assembled (Prologue.below walked))) := by
    rw [Prologue.insert_eq, hheader.assembled_append, hheader.visibleLines_append,
      assembled_defineBlock htidy, visibleLines_defineBlock htidy]
  -- So the block stands among the visible lines, and what is left to say is when it stays there.
  have hversion : ∀ line ∈ defines.map (fun define => TidyDefine.line define.1 define.2),
      CompiledText.isVersion line = false := by
    intro line hmem
    obtain ⟨define, hdefine, rfl⟩ := List.mem_map.1 hmem
    exact (htidy define hdefine).visibleLines_defineLine.2
  have hfirst : ∀ c ∈ (fed (defines.map fun define => TidyDefine.line define.1 define.2)).head?,
      c = '#' := by
    cases defines with
    | nil => exact fun c hc => absurd hc (by simp)
    | cons define rest =>
      rw [List.map_cons, Text.fed_cons, TidyDefine.line_eq]
      rintro c ⟨⟩
      rfl
  have hback : ∀ line ∈ visibleLines (assembled (Prologue.below walked)), Unbroken line :=
    fun line hmem => (Text.of_mem_visibleLines hmem).2
  have hiff := CompiledText.inserted_fed_iff name precision version
    (visibleLines (Prologue.header walked)) hback hversion hfirst
  rw [fed_defineBlock, ← hformer, ← hlatter] at hiff
  rw [CompiledText.withMarker_body_eq, CompiledText.withMarker_body_eq]
  refine hiff.trans ?_
  rw [List.map_eq_nil_iff]
  by_cases hnil : Prologue.header walked = []
  · rw [hformer, hnil]
    simp [visibleLines, Text.lines]
  · simp [hnil, Prologue.visibleLines_header hnil]

/-- **What the defines change in a compiled text.** For every library without defines and transforms of
its own, every name, every source and all tidy defines, compiling succeeds with them if and only if it
does without. And the one text is the other with the block of their lines in it, if and only if the walked
text has header directives, or does not declare a version once the marks and the precision statements
are taken out of it. Where neither holds, the version directive is left behind. -/
theorem inserts_defines_iff (hmacros : library.macros.toList = [])
    (htransforms : library.composer.transforms = []) {defines : OrderedMap Text Text}
    (htidy : ∀ define ∈ defines.pairs, TidyDefine define.1 define.2) (name : FileName) (source : Text) :
    ((∃ former, (library.plain.compile name source .null).result = .ok former)
      ↔ ∃ latter, (library.plain.compile name source
          (ActiveDefines.toValue (.named defines.pairs))).result = .ok latter) ∧
    ∀ former latter, (library.plain.compile name source .null).result = .ok (some former) →
      (library.plain.compile name source (ActiveDefines.toValue (.named defines.pairs))).result
        = .ok (some latter) →
      ∃ walked, (Expansion.ofSource library.store name.orAnonymous
          (CompiledText.dropGuard source)).result = .ok walked ∧
        (SelfContained (Prologue.header walked) →
          (Inserted (defineBlock defines.pairs) former latter
            ↔ defines.pairs = [] ∨ Prologue.header walked ≠ [] ∨
              CompiledText.declared? (visibleLines (assembled walked)) = none)) := by
  have hcongr : ∀ value, library.macros.active value = MacroTable.empty.active value :=
    fun value => MacroTable.active_congr hmacros value
  have hbare : library.macros.active .null = .ok (.named []) := hcongr .null
  have hnamed : library.macros.active (ActiveDefines.toValue (.named defines.pairs))
      = .ok (.named defines.pairs) :=
    (hcongr _).trans (MacroTable.active_empty_named defines.nodup)
  cases hsource : source.isEmpty with
  | true =>
    have hnothing : ∀ value, (library.plain.compile name source value).result = .ok none := by
      intro value
      rw [result_compile_plain, if_pos hsource]
    rw [hnothing, hnothing]
    exact ⟨⟨fun _ => ⟨_, rfl⟩, fun _ => ⟨_, rfl⟩⟩, nofun⟩
  | false =>
    have hkeys := cacheKey_ok_iff hbare hnamed name.orAnonymous (.text source)
    -- The names of the defines are texts, so there is a key with them exactly if there is one without.
    by_cases hkey : ∃ key, library.cacheKey name.orAnonymous (.text source) .null = .ok key
    · obtain ⟨key, hnullKey⟩ := hkey
      obtain ⟨namedKey, hnamedKey⟩ := hkeys.1 ⟨key, hnullKey⟩
      have hnone : (Pairs.keys ([] : List (Text × Text))).Nodup := List.nodup_nil
      have hnull := prepared_of_active hnone hbare name.orAnonymous (CompiledText.dropGuard source)
      rw [result_compile_of_prepared htransforms hsource hnullKey, hnull,
        result_compile_of_prepared htransforms hsource hnamedKey,
        prepared_of_active defines.nodup hnamed name.orAnonymous (CompiledText.dropGuard source)]
      have hstore : library.composer.store = library.store := rfl
      rw [hstore]
      -- Both runs walk the same text, before any define is looked at.
      cases (Expansion.ofSource library.store name.orAnonymous
          (CompiledText.dropGuard source)).result with
      | error fault => exact ⟨⟨nofun, nofun⟩, nofun⟩
      | ok walked =>
        refine ⟨⟨fun _ => ⟨_, rfl⟩, fun _ => ⟨_, rfl⟩⟩, fun former latter hformer hlatter =>
          ⟨walked, rfl, fun hheader => ?_⟩⟩
        have hwhole : Prologue.insert (defineBlock []) walked = walked := by
          rw [Prologue.insert_eq, defineBlock, List.flatMap_nil, List.nil_append,
            Prologue.header_append_below]
        rw [Except.map, Except.map, hwhole] at hformer
        obtain rfl := Option.some.inj (Except.ok.inj hformer)
        obtain rfl := Option.some.inj (Except.ok.inj hlatter)
        exact inserted_compiled_iff htidy hheader _ _ _
    · obtain ⟨fault, hnull⟩ := exists_error_of_no_key hsource hkey
      obtain ⟨otherFault, hnamedFault⟩ :=
        exists_error_of_no_key hsource fun hother => hkey (hkeys.2 hother)
      rw [hnull, hnamedFault]
      exact ⟨⟨nofun, nofun⟩, nofun⟩

/-- Two defines. -/
def twoDefines : OrderedMap Text Text := ⟨[("LIGHTS", "4"), ("GAIN", "max(x, .5)")], by decide⟩

theorem compile_versionedSource_twoDefines :
    (markedLibrary.plain.compile (.text "x") versionedSource
      (ActiveDefines.toValue (.named twoDefines.pairs))).result
      = .ok (some ("#version 300 es\nprecision mediump float;\n// x\n#define LIGHTS 4\n" ++
          "#define GAIN max(x, .5)\nfloat noise;\nfloat a;\n")) := by
  apply ok_of_toOption
  decide +kernel

/-- The source with a fragment that brings its own precision, as a case of the general statement: the
defines stand below the marker, and nothing else is different. -/
theorem inserts_defines_iff_of_marked_fragment :
    ∃ former latter, (markedLibrary.plain.compile (.text "x") versionedSource .null).result
        = .ok (some former) ∧
      (markedLibrary.plain.compile (.text "x") versionedSource
        (ActiveDefines.toValue (.named twoDefines.pairs))).result = .ok (some latter) ∧
      Inserted (defineBlock twoDefines.pairs) former latter := by
  have hheader : Prologue.header versionedWalked = "\n#version 300 es\r\n" := by decide +kernel
  obtain ⟨-, hinserted⟩ := inserts_defines_iff (rfl : markedLibrary.macros.toList = []) rfl
    (by decide +kernel : ∀ define ∈ twoDefines.pairs, TidyDefine define.1 define.2) (.text "x")
    versionedSource
  obtain ⟨walked, hwalk, hiff⟩ :=
    hinserted _ _ compile_versionedSource compile_versionedSource_twoDefines
  rw [ofSource_versionedSource] at hwalk
  obtain rfl := Except.ok.inj hwalk
  refine ⟨_, _, compile_versionedSource, compile_versionedSource_twoDefines,
    (hiff ?_).2 (.inr (.inl ?_))⟩
  · rw [hheader]
    decide +kernel
  · rw [hheader]
    decide

/-- **A version directive that is left behind.** Without defines it moves to the top when the precision
statement in front of it is gone. With one, the line of the define comes first, and the version stays
below it and the precision statement of the library. -/
theorem leaves_version_behind : ¬ ∀ (library : Library) (name : FileName) (source : Text)
    (defines : OrderedMap Text Text) (former latter : Text), library.macros.toList = [] →
    library.composer.transforms = [] → (∀ define ∈ defines.pairs, TidyDefine define.1 define.2) →
    (library.plain.compile name source .null).result = .ok (some former) →
    (library.plain.compile name source (ActiveDefines.toValue (.named defines.pairs))).result
      = .ok (some latter) →
    Inserted (defineBlock defines.pairs) former latter := by
  intro h
  let source : Text := "precision mediump float;\n#version 300 es\nint a;"
  let defines : OrderedMap Text Text := ⟨[("A", "1")], by decide⟩
  have hformer : (emptyLibrary.plain.compile (.text "x") source .null).result
      = .ok (some "#version 300 es\nprecision mediump float;\n// x\nint a;\n") := by
    apply ok_of_toOption
    decide +kernel
  have hlatter : (emptyLibrary.plain.compile (.text "x") source
      (ActiveDefines.toValue (.named defines.pairs))).result
      = .ok (some "precision mediump float;\n// x\n#define A 1\n#version 300 es\nint a;\n") := by
    apply ok_of_toOption
    decide +kernel
  have hinserted := h emptyLibrary (.text "x") source defines _ _ rfl rfl (by decide +kernel) hformer
    hlatter
  revert hinserted
  decide +kernel

end Library

end GlslCompose
