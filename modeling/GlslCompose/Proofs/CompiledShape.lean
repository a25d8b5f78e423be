/-
`Proofs/CompiledShape.lean` -- the lines of a compiled text, from the first to the last,
and when its header is in order.

A compiled text should start with the version directive, if the text or the library has
one, then the precision statement of the library, then the marker with the name of the
shader. The header is put together where nothing is known of the marker, and the marker
is put in where nothing is known of the header but its text. The two do not look for the
version in the same way: a directive that moves to the top may have white space around its
`#` and behind it, while the marker goes below a first line that starts with `#version`
just so. In front of any other spelling the marker comes between the version and the
precision statement (`marker_above_precision`).

`lines_withMarker_body` gives all lines of a compiled text. What is claimed of the header
then holds for the two reasons that `shaped_compile_iff` tells apart: the text still
starts with its version when the defines are in it, and the version is spelled as the
marker expects it.
-/
import GlslCompose.Proofs.DefineBlock

set_option autoImplicit false

namespace GlslCompose

open Text (isLineBreak isVisible visibleLines fed strip Unbroken)

/-! ## Lines with their line feeds -/

namespace Text

theorem lines_append_lineFeed {line : Text} (h : Unbroken line) (s : Text) :
    lines (line ++ '\n' :: s) = line :: lines s := by
  induction line with
  | nil =>
    rw [List.nil_append, lines, if_pos isLineBreak_lineFeed]
    rintro _ ⟨⟩
  | cons c line ih =>
    have hc : isLineBreak c = false := h c List.mem_cons_self
    rw [List.cons_append, lines, if_neg (Bool.eq_false_iff.1 hc),
      ih fun d hd => h d (List.mem_cons_of_mem _ hd)]
    -- A carriage return would be a break by itself.
    rintro rest rfl
    exact absurd hc (by decide)

/-- Lines that are written with a line feed behind each are read back. -/
theorem lines_fed {ls : List Text} (h : ∀ line ∈ ls, Unbroken line) : lines (fed ls) = ls := by
  induction ls with
  | nil => rfl
  | cons line ls ih =>
    rw [List.forall_mem_cons] at h
    rw [fed_cons, lines_append_lineFeed h.1, ih h.2]

/-- **A text that ends in one line feed,** with something in front of it that is no line break. -/
def EndsInOneFeed (s : Text) : Prop :=
  ∃ front c, s = front ++ [c, '\n'] ∧ isLineBreak c = false

theorem endsInOneFeed_fed {ls : List Text} (hne : ls ≠ [])
    (h : ∀ line ∈ ls, isVisible line = true ∧ Unbroken line) : EndsInOneFeed (fed ls) := by
  obtain ⟨front, line, rfl⟩ := List.eq_nil_or_concat ls |>.resolve_left hne
  rw [List.concat_eq_append] at h ⊢
  obtain ⟨hvisible, hunbroken⟩ := h line (by simp)
  obtain ⟨start, c, rfl⟩ := List.eq_nil_or_concat line |>.resolve_left (ne_nil_of_isVisible hvisible)
  refine ⟨fed front ++ start, c, ?_, hunbroken c (by simp)⟩
  rw [fed_append, fed_cons, fed_nil]
  simp

end Text

namespace CompiledText

/-! ## The header and the marker -/

/-- The comment with the name of a shader, without its line feed. -/
def marker (name : Text) : Text := "// " ++ name

theorem markerLine_eq (name : Text) : markerLine name = marker name ++ ['\n'] := rfl

/-- A stripped version directive is one visible line. -/
theorem visible_strip {line : Text} (h : VersionLike line) (hline : Unbroken line) :
    isVisible (strip line) = true ∧ Unbroken (strip line) := by
  have hwithin : strip line <:+: line :=
    (Text.trimEnd_isPrefix _ (line.dropWhile Text.isBlank)).isInfix.trans
      (List.dropWhile_suffix _).isInfix
  refine ⟨?_, fun c hc => hline c (hwithin.subset hc)⟩
  obtain ⟨indent, t, rfl, hindent, -⟩ := h
  rw [strip_directive hindent, Text.isVisible_cons]
  rfl

theorem visible_precisionLine {precision : Text} (h : Unbroken precision) :
    isVisible (precisionLine precision) = true ∧ Unbroken (precisionLine precision) := by
  have hlead : Unbroken (String.toList "precision ") := by decide
  have hsemicolon : Unbroken (String.toList ";") := by decide
  exact ⟨rfl, (hlead.append h).append hsemicolon⟩

theorem visible_marker {name : Text} (h : Unbroken name) :
    isVisible (marker name) = true ∧ Unbroken (marker name) := by
  have hlead : Unbroken (String.toList "// ") := by decide
  exact ⟨rfl, hlead.append h⟩

theorem unbroken_versionLine {version : Text} (h : Unbroken version) :
    Unbroken (versionLine version) := by
  have hlead : Unbroken (String.toList "#version ") := by decide
  exact hlead.append h

/-- **The version directive that belongs at the top** of a compiled text: the one that the text starts
with, or else the one of the library. -/
def topVersion? (version : Option Text) (s : Text) : Option Text :=
  ((declared? (visibleLines s)).or (version.map versionLine)).map strip

theorem heading_eq (precision : Text) (version : Option Text) (s : Text) :
    heading precision version (declared? (visibleLines s))
      = (topVersion? version s).toList ++ [precisionLine precision] := rfl

/-- It is one visible line, and starts with a `#`. -/
theorem visible_topVersion? {version : Option Text}
    (hversion : ∀ text, version = some text → Unbroken text) {s line : Text}
    (h : topVersion? version s = some line) :
    (isVisible line = true ∧ Unbroken line) ∧ ∃ t, line = '#' :: t := by
  have hstrip : ∀ {source : Text}, VersionLike source → Unbroken source → strip source = line →
      (isVisible line = true ∧ Unbroken line) ∧ ∃ t, line = '#' :: t := by
    rintro source hlike hunbroken rfl
    refine ⟨visible_strip hlike hunbroken, ?_⟩
    obtain ⟨indent, t, rfl, hindent, -⟩ := hlike
    exact ⟨_, strip_directive hindent t⟩
  obtain ⟨source, hsource, hline⟩ := Option.map_eq_some_iff.1 h
  rcases Option.or_eq_some_iff.1 hsource with hdeclared | ⟨-, hlibrary⟩
  · obtain ⟨rest, hls, -⟩ := exists_of_declared? hdeclared
    have hmem : source ∈ visibleLines s := by
      rw [hls]
      exact List.mem_cons_self
    exact hstrip (versionLike_of_isVersion (isVersion_of_declared? source hdeclared))
      (Text.of_mem_visibleLines hmem).2 hline
  · obtain ⟨text, htext, rfl⟩ := Option.map_eq_some_iff.1 hlibrary
    exact hstrip (versionLike_versionLine text) (unbroken_versionLine (hversion text htext)) hline

/-- A line feed behind a line is not part of how it starts. -/
theorem startsWith_append_lineFeed {lead : Text} (hlead : '\n' ∉ lead) (s : Text) :
    Text.startsWith lead (s ++ ['\n']) = Text.startsWith lead s := by
  have hiff : ∀ s : Text, Text.startsWith lead s = true ↔ lead <+: s := by
    intro s
    rw [Text.startsWith, Option.isSome_iff_exists]
    exact exists_congr fun rest => Text.after?_eq_some_iff.trans eq_comm
  rw [Bool.eq_iff_iff, hiff, hiff, List.prefix_concat_iff]
  refine ⟨fun h => h.resolve_left fun heq => hlead ?_, .inr⟩
  rw [heq]
  simp

/-- **The header of a compiled text, with the marker.** The marker stands below the precision
statement, unless the version directive is spelled otherwise than the marker expects. -/
def markedHeader (name precision : Text) : Option Text → List Text
  | none => [precisionLine precision, marker name]
  | some version =>
    if Text.startsWith "#version" version then [version, precisionLine precision, marker name]
    else [version, marker name, precisionLine precision]

theorem markedHeader_ne_nil (name precision : Text) (version : Option Text) :
    markedHeader name precision version ≠ [] := by
  unfold markedHeader
  split
  · exact List.cons_ne_nil _ _
  · split <;> exact List.cons_ne_nil _ _

section

variable {name precision : Text} {version : Option Text}
  (hprecision : Unbroken precision) (hversion : ∀ text, version = some text → Unbroken text)
include hprecision hversion

theorem visible_markedHeader (hname : Unbroken name) {s line : Text}
    (h : line ∈ markedHeader name precision (topVersion? version s)) :
    isVisible line = true ∧ Unbroken line := by
  have hmarker := visible_marker hname
  have hstatement := visible_precisionLine hprecision
  cases htop : topVersion? version s with
  | none =>
    rw [htop, markedHeader, List.mem_pair] at h
    rcases h with rfl | rfl
    · exact hstatement
    · exact hmarker
  | some found =>
    have hfound := (visible_topVersion? hversion htop).1
    rw [htop, markedHeader] at h
    split at h
    all_goals
      simp only [List.mem_cons, List.not_mem_nil, or_false] at h
      rcases h with rfl | rfl | rfl <;> assumption

/-- The lines of the header are visible as they are. -/
theorem top_eq (s : Text) : top precision version (declared? (visibleLines s))
    = (topVersion? version s).toList ++ [precisionLine precision] := by
  rw [top, heading_eq]
  refine Text.flatMap_visibleLines_of_forall fun line hmem => ?_
  obtain ⟨hvisible, hunbroken⟩ : isVisible line = true ∧ Unbroken line := by
    rcases List.mem_append.1 hmem with hmem | hmem
    · exact (visible_topVersion? hversion (Option.mem_toList.1 hmem)).1
    · rw [List.mem_singleton.1 hmem]
      exact visible_precisionLine hprecision
  rw [Text.visibleLines_of_unbroken hunbroken, List.filter_cons_of_pos hvisible, List.filter_nil]

theorem markedTop_eq (s : Text) : markedTop name precision version (declared? (visibleLines s))
    = fed (markedHeader name precision (topVersion? version s)) := by
  rw [markedTop, top_eq hprecision hversion]
  cases topVersion? version s with
  | none =>
    have hplace : markerPlace [precisionLine precision] = 1 := rfl
    rw [Option.toList_none, List.nil_append, hplace]
    simp [markedHeader, markerLine_eq]
  | some found =>
    have hplace : markerPlace ([found] ++ [precisionLine precision])
        = if Text.startsWith "#version" found then 2 else 1 := by
      rw [markerPlace, List.singleton_append, List.map_cons, List.head?_cons, Option.any_some,
        startsWith_append_lineFeed (by decide)]
    rw [Option.toList_some, hplace, markedHeader]
    split <;> simp [markerLine_eq]

/-- **A compiled text, line by line:** the header with the marker, and the visible lines below. -/
theorem withMarker_body_eq_fed (composed : Text) :
    withMarker name (body precision version composed)
      = fed (markedHeader name precision (topVersion? version (dropPrecision false composed))
          ++ below (visibleLines (dropPrecision false composed))) := by
  rw [withMarker_body_eq, markedTop_eq hprecision hversion, Text.fed_append]

theorem visible_line (hname : Unbroken name) {composed line : Text}
    (h : line ∈ markedHeader name precision (topVersion? version (dropPrecision false composed))
      ++ below (visibleLines (dropPrecision false composed))) :
    isVisible line = true ∧ Unbroken line := by
  rcases List.mem_append.1 h with h | h
  · exact visible_markedHeader hprecision hversion hname h
  · exact Text.of_mem_visibleLines (below_subset _ h)

theorem lines_withMarker_body (hname : Unbroken name) (composed : Text) :
    Text.lines (withMarker name (body precision version composed))
      = markedHeader name precision (topVersion? version (dropPrecision false composed))
          ++ below (visibleLines (dropPrecision false composed)) := by
  rw [withMarker_body_eq_fed hprecision hversion]
  exact Text.lines_fed fun line hmem => (visible_line hprecision hversion hname hmem).2

/-- **When the header is in order.** The lines that are claimed come first exactly if the version at
the top is the claimed one, and is spelled as the marker expects it. -/
theorem header_isPrefix_iff (hname : Unbroken name) (composed : Text) {claimed : Option Text}
    (hclaimed : ∀ line, claimed = some line → ∃ t, line = '#' :: t) :
    claimed.toList ++ [precisionLine precision, marker name]
        <+: Text.lines (withMarker name (body precision version composed))
      ↔ topVersion? version (dropPrecision false composed) = claimed ∧
        ∀ line, claimed = some line → Text.startsWith "#version" line = true := by
  have hfound : ∀ line, topVersion? version (dropPrecision false composed) = some line →
      ∃ t, line = '#' :: t := fun line hline => (visible_topVersion? hversion hline).2
  -- The three lines of a header start with three different characters.
  have hversionLine : ∀ {claimed : Option Text} {line : Text}, claimed = some line →
      (∀ line, claimed = some line → ∃ t, line = '#' :: t) → line ≠ precisionLine precision := by
    rintro claimed line hline hhash rfl
    obtain ⟨t, ht⟩ := hhash _ hline
    cases ht
  have hmarker : precisionLine precision ≠ marker name := nofun
  rw [lines_withMarker_body hprecision hversion hname]
  cases hclaim : claimed with
  | none =>
    cases htop : topVersion? version (dropPrecision false composed) with
    | none => simp [markedHeader]
    | some found =>
      have hne := hversionLine htop hfound
      rw [markedHeader]
      split <;> simp [hne.symm]
  | some line =>
    have hne := hversionLine hclaim hclaimed
    cases htop : topVersion? version (dropPrecision false composed) with
    | none => simp [markedHeader, hne]
    | some found =>
      rw [markedHeader]
      split
      · rename_i hstarts
        simp only [Option.toList_some, List.cons_append, List.nil_append, List.cons_prefix_cons,
          List.nil_prefix, and_true, Option.some.injEq, forall_eq']
        exact ⟨fun h => ⟨h.symm, h ▸ hstarts⟩, fun h => h.1.symm⟩
      · rename_i hstarts
        simp only [Option.toList_some, List.cons_append, List.nil_append, List.cons_prefix_cons,
          hmarker, false_and, and_false, Option.some.injEq, forall_eq', false_iff, not_and]
        rintro rfl
        exact hstarts

end

end CompiledText

/-! ## Compiled texts -/

namespace Library

open CompiledText (assembled dropPrecision marker precisionLine topVersion?)

/-- **The shape of a compiled text.** No line of it is blank, and it ends in one line feed. It starts
with the version directive of the walked text or of the library, the precision statement and the marker,
in this order, exactly if the version is still at the start of the text when the defines are in it, and
is spelled as the marker expects. Without defines the text that is assembled is the walked text. -/
theorem shaped_compile_iff {library : Library} (htransforms : library.composer.transforms = [])
    (hprecision : Unbroken library.precision.display)
    (hversion : ∀ version, library.versionText? = some version → Unbroken version) {name : FileName}
    (hname : Unbroken name.orAnonymous.written) {source : Text} (hsource : source ≠ [])
    {defines : Value} {answer : Option Text}
    (h : (library.plain.compile name source defines).result = .ok answer) :
    ∃ compiled walked composed, answer = some compiled ∧
      (Expansion.ofSource library.store name.orAnonymous (CompiledText.dropGuard source)).result
        = .ok walked ∧
      (library.composer.process name.orAnonymous (CompiledText.dropGuard source) defines).result
        = .ok composed ∧
      (library.macros.active defines = .ok [] → composed = Composer.unmarked walked) ∧
      (∀ line ∈ Text.lines compiled, isVisible line = true) ∧ Text.EndsInOneFeed compiled ∧
      ((topVersion? library.versionText? (assembled walked)).toList
            ++ [precisionLine library.precision.display, marker name.orAnonymous.written]
          <+: Text.lines compiled
        ↔ topVersion? library.versionText? (dropPrecision false composed)
              = topVersion? library.versionText? (assembled walked) ∧
            ∀ line, topVersion? library.versionText? (assembled walked) = some line →
              Text.startsWith "#version" line = true) := by
  have hfull : source.isEmpty = false := List.isEmpty_eq_false_iff.2 hsource
  rw [result_compile_plain, hfull, if_neg Bool.false_ne_true] at h
  cases hkey : library.cacheKey name.orAnonymous (.text source) defines with
  | error fault =>
    rw [hkey] at h
    cases h
  | ok key =>
    rw [hkey, Except.bind, compileBody, Step.result_map, Step.result_within] at h
    cases hprocess : (library.composer.process name.orAnonymous (CompiledText.dropGuard source)
        defines).result with
    | error fault =>
      rw [hprocess] at h
      cases h
    | ok composed =>
      rw [hprocess] at h
      obtain rfl := Except.ok.inj h
      rw [Composer.result_process, FileName.orAnonymous_orAnonymous] at hprocess
      cases hwalk : (Expansion.ofSource library.store name.orAnonymous
          (CompiledText.dropGuard source)).result with
      | error fault =>
        rw [Composer.compose, Logged.result_andThen,
          show library.composer.store = library.store from rfl, hwalk] at hprocess
        cases hprocess
      | ok walked =>
        have hlines := fun line (hmem : line ∈ _ ++ CompiledText.below (visibleLines
          (dropPrecision false composed))) => CompiledText.visible_line hprecision hversion hname hmem
        refine ⟨_, walked, composed, rfl, rfl, rfl, fun hactive => ?_, ?_, ?_, ?_⟩
        · rw [Composer.result_compose_bare hactive htransforms,
            show library.composer.store = library.store from rfl, hwalk] at hprocess
          exact (Except.ok.inj hprocess).symm
        · rw [CompiledText.lines_withMarker_body hprecision hversion hname]
          exact fun line hmem => (hlines line hmem).1
        · rw [CompiledText.withMarker_body_eq_fed hprecision hversion]
          exact Text.endsInOneFeed_fed
            (List.append_ne_nil_of_left_ne_nil (CompiledText.markedHeader_ne_nil _ _ _) _) hlines
        · exact CompiledText.header_isPrefix_iff hprecision hversion hname composed
            fun line hline => (CompiledText.visible_topVersion? hversion hline).2

/-- The source with a fragment that brings its own precision, compiled with two defines: its header is
in order. -/
theorem shaped_compile_iff_of_marked_fragment :
    ∃ compiled, (markedLibrary.plain.compile (.text "x") versionedSource
        (ActiveDefines.toValue (.named twoDefines.pairs))).result = .ok (some compiled) ∧
      ["#version 300 es".toList, "precision mediump float;".toList, "// x".toList]
        <+: Text.lines compiled := by
  have hcomposed : (markedLibrary.composer.process (FileName.text "x").orAnonymous
      (CompiledText.dropGuard versionedSource)
      (ActiveDefines.toValue (.named twoDefines.pairs))).result
      = .ok ("\n#version 300 es\r\n#define LIGHTS 4\n#define GAIN max(x, .5)\n\nprecision highp " ++
          "float;\nfloat noise;\n\nfloat a;\r\n\n") := by
    apply ok_of_toOption
    decide +kernel
  have htop : topVersion? markedLibrary.versionText? (assembled versionedWalked)
      = some "#version 300 es".toList := by
    decide +kernel
  obtain ⟨compiled, walked, composed, hanswer, hwalk, hprocess, -, -, -, hshape⟩ :=
    shaped_compile_iff (rfl : markedLibrary.composer.transforms = []) (by decide) nofun (by decide)
      (by decide) compile_versionedSource_twoDefines
  rw [ofSource_versionedSource] at hwalk
  obtain rfl := Except.ok.inj hwalk
  rw [hcomposed] at hprocess
  obtain rfl := Except.ok.inj hprocess
  refine ⟨compiled, compile_versionedSource_twoDefines.trans (congrArg Except.ok hanswer), ?_⟩
  have hsame : topVersion? markedLibrary.versionText? (dropPrecision false
      ("\n#version 300 es\r\n#define LIGHTS 4\n#define GAIN max(x, .5)\n\nprecision highp " ++
        "float;\nfloat noise;\n\nfloat a;\r\n\n")) = some "#version 300 es".toList := by
    decide +kernel
  have hheader := hshape.2 ⟨hsame.trans htop.symm, fun line hline => ?_⟩
  · rwa [htop] at hheader
  · rw [htop] at hline
    obtain rfl := Option.some.inj hline
    decide

/-- **A marker above the precision statement.** The version moves to the top with the blank behind its
`#`, and the marker does not take it for a version. -/
theorem marker_above_precision : ¬ ∀ (library : Library) (name : FileName) (source walked compiled : Text),
    library.composer.transforms = [] → Unbroken library.precision.display →
    (∀ version, library.versionText? = some version → Unbroken version) →
    Unbroken name.orAnonymous.written →
    (Expansion.ofSource library.store name.orAnonymous (CompiledText.dropGuard source)).result
      = .ok walked →
    (library.plain.compile name source .null).result = .ok (some compiled) →
    (topVersion? library.versionText? (assembled walked)).toList
        ++ [precisionLine library.precision.display, marker name.orAnonymous.written]
      <+: Text.lines compiled := by
  intro h
  have hwalked : (Expansion.ofSource emptyLibrary.store (FileName.text "x").orAnonymous
      (CompiledText.dropGuard "# version 300 es\nint a;")).result
      = .ok "\n# version 300 es\nint a;\n" := by
    apply ok_of_toOption
    decide +kernel
  have hcompiled : (emptyLibrary.plain.compile (.text "x") "# version 300 es\nint a;" .null).result
      = .ok (some "# version 300 es\n// x\nprecision mediump float;\nint a;\n") := by
    apply ok_of_toOption
    decide +kernel
  have hshape := h emptyLibrary (.text "x") _ _ _ rfl (by decide) nofun (by decide) hwalked hcompiled
  revert hshape
  decide +kernel

end Library

end GlslCompose
