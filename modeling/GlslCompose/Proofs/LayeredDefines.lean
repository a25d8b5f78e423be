/-
`Proofs/LayeredDefines.lean` -- the two ways of laying defines over those of a library agree.

The key of a compiled text and the drawing state hold the defines of the library with those
of a pair put over them (`MacroTable.active`), and know nothing of tables. The text holds the
lines of a table that has taken in the same defines one by one (`MacroTable.define`), where a
name that has the value already is left alone and does not count as a change. If the two came
apart, in the order or in the text of a single value, a key would stand for another text than
the one it was made for.

A value of nothing is no define, and true and false are written as one and zero, on both ways.
So what a mapping gives are the texts that its values come to (`givenDefines`), and both ways
put these into the entries of the library, one after the other. A name that is there keeps its
place, and a new one comes last (`Pairs.keys_overlay`). No name is then there twice, so taking
the result into a new table, as the assembly of a text does, adds every entry behind the ones
before it and changes nothing.
-/
import GlslCompose.Proofs.CompiledShape
import GlslCompose.Proofs.EntryEdits

set_option autoImplicit false

namespace GlslCompose

open Text (Unbroken fed lines)

/-! ## Entries over others -/

/-- **The names of entries that are laid over others:** those below keep their places, and behind them come
the ones that are new, in their own order. -/
theorem Pairs.keys_overlay {κ ν : Type} [BEq κ] [LawfulBEq κ] {above : List (κ × ν)}
    (h : (keys above).Nodup) (below : List (κ × ν)) :
    keys (overlay below above) = keys below ++ (keys above).filter (· ∉ keys below) := by
  induction above generalizing below with
  | nil => exact (List.append_nil _).symm
  | cons entry rest ih =>
    obtain ⟨key, value⟩ := entry
    obtain ⟨hnew, hrest⟩ := List.nodup_cons.1 h
    have hstep : keys (overlay below ((key, value) :: rest))
        = keys (put key value below) ++ (keys rest).filter (· ∉ keys (put key value below)) :=
      ih hrest (put key value below)
    have hkeys : keys ((key, value) :: rest) = key :: keys rest := rfl
    rw [hstep, hkeys, keys_put]
    -- A key that is new takes its place at the end, and none of the others is this key.
    by_cases hkey : key ∈ keys below
    · rw [if_pos hkey, List.filter_cons_of_neg (by simpa using hkey)]
    · have hothers : (keys rest).filter (· ∉ keys below ++ [key])
          = (keys rest).filter (· ∉ keys below) := by
        refine List.filter_congr fun other hother => ?_
        have hne : other ≠ key := fun heq => hnew (heq ▸ hother)
        simp [hne]
      rw [if_neg hkey, hothers, List.filter_cons_of_pos (by simpa using hkey), List.append_assoc]
      rfl

/-! ## Mappings of defines -/

/-- Entries with texts for their names, as a mapping has them. -/
def textEntries (entries : List (Text × Value)) : List (Value × Value) :=
  entries.map fun (name, value) => (.text name, value)

/-- **A value that is a mapping with texts for its names,** each of which it has once: a map, or a table. -/
structure Value.MapsTexts (v : Value) (entries : List (Text × Value)) : Prop where
  entries?_eq : v.entries? = some (textEntries entries)
  once : (Pairs.keys entries).Nodup

/-- A mapping counts as false if it has no entries. -/
theorem Value.MapsTexts.isTrue_eq {v : Value} {entries : List (Text × Value)}
    (h : v.MapsTexts entries) : v.isTrue = !entries.isEmpty := by
  have hentries := h.entries?_eq
  cases v with
  | map own =>
    rw [Option.some.inj hentries, isTrue, textEntries, List.isEmpty_map]
  | table own revision =>
    have hempty := congrArg List.isEmpty (Option.some.inj hentries)
    rw [textEntries, List.isEmpty_map, List.isEmpty_map] at hempty
    rw [isTrue, hempty]
  | _ => cases hentries

/-- **The defines that some entries give,** in order: every name with the text that its value comes to, and
none for a value of nothing. -/
def givenDefines : List (Text × Value) → List (Text × Text)
  | [] => []
  | (name, value) :: rest =>
    match macroValue? value with
    | none => givenDefines rest
    | some text => (name, text) :: givenDefines rest

section

variable {name : Text} {value : Value}

theorem givenDefines_cons_of_none (h : macroValue? value = none) (rest : List (Text × Value)) :
    givenDefines ((name, value) :: rest) = givenDefines rest := by
  rw [givenDefines, h]

theorem givenDefines_cons_of_some {text : Text} (h : macroValue? value = some text)
    (rest : List (Text × Value)) :
    givenDefines ((name, value) :: rest) = (name, text) :: givenDefines rest := by
  rw [givenDefines, h]

end

theorem keys_givenDefines_sublist (entries : List (Text × Value)) :
    (Pairs.keys (givenDefines entries)).Sublist (Pairs.keys entries) := by
  induction entries with
  | nil => exact .refl _
  | cons entry rest ih =>
    obtain ⟨name, value⟩ := entry
    cases hvalue : macroValue? value with
    | none =>
      rw [givenDefines_cons_of_none hvalue]
      exact .cons name ih
    | some text =>
      rw [givenDefines_cons_of_some hvalue]
      exact .cons_cons name ih

/-- A name is given what its value comes to. -/
theorem get?_givenDefines {entries : List (Text × Value)} (h : (Pairs.keys entries).Nodup)
    (name : Text) :
    Pairs.get? name (givenDefines entries) = (Pairs.get? name entries).bind macroValue? := by
  induction entries with
  | nil => rfl
  | cons entry rest ih =>
    obtain ⟨own, value⟩ := entry
    obtain ⟨hnew, hrest⟩ := List.nodup_cons.1 h
    rw [Pairs.get?]
    by_cases hname : own = name
    · subst hname
      rw [if_pos (beq_self_eq_true own), Option.bind_some]
      cases hvalue : macroValue? value with
      | none =>
        -- The name does not come again, so it is not given at all.
        rw [givenDefines_cons_of_none hvalue]
        exact Pairs.get?_eq_none_iff.2 fun hmem => hnew ((keys_givenDefines_sublist rest).subset hmem)
      | some text =>
        rw [givenDefines_cons_of_some hvalue]
        exact if_pos (beq_self_eq_true own)
    · rw [if_neg (by simpa using hname), ← ih hrest]
      cases hvalue : macroValue? value with
      | none => rw [givenDefines_cons_of_none hvalue]
      | some text =>
        rw [givenDefines_cons_of_some hvalue]
        exact if_neg (by simpa using hname)

namespace MacroTable

/-! ## The overlay, and the table that takes in defines -/

/-- Setting a name puts the value there, also if that is no change. -/
theorem toList_set_eq_put (table : MacroTable) (name value : Text) :
    (table.set name value).1.toList = Pairs.put name value table.toList := by
  have hinsert : (table.defines.insert name value).pairs = Pairs.put name value table.toList := by
    have hinstance : (instBEqOfDecidableEq : BEq Text) = List.instBEq := lawful_beq_subsingleton ..
    exact congrArg (fun equal => @Pairs.put Text Text equal name value table.defines.pairs) hinstance
  rw [set]
  split
  · rename_i hsame
    rw [← hinsert, OrderedMap.insert_of_get? hsame]
    rfl
  · exact hinsert

/-- One define of a mapping is passed over or set. -/
theorem overlay_cons_of_none {value : Value} (h : macroValue? value = none) (table : MacroTable)
    (name : Value) (rest : List (Value × Value)) :
    table.overlay ((name, value) :: rest) = table.overlay rest := by
  simp only [overlay, List.foldl_cons, h]

theorem overlay_cons_of_some {value : Value} {text : Text} (h : macroValue? value = some text)
    (table : MacroTable) (name : Text) (rest : List (Value × Value)) :
    table.overlay ((.text name, value) :: rest) = (table.set name text).1.overlay rest := by
  have hput : Pairs.put (.text name) text (ActiveDefines.named table.toList)
      = ActiveDefines.named (table.set name text).1.toList := by
    rw [ActiveDefines.put_named, toList_set_eq_put]
  simp only [ActiveDefines.named] at hput
  simp only [overlay, List.foldl_cons, h, hput]

/-- **The defines of a mapping over those of a table.** -/
theorem overlay_textEntries (table : MacroTable) (entries : List (Text × Value)) :
    table.overlay (textEntries entries)
      = .named (Pairs.overlay table.toList (givenDefines entries)) := by
  induction entries generalizing table with
  | nil => rfl
  | cons entry rest ih =>
    obtain ⟨name, value⟩ := entry
    rw [textEntries, List.map_cons, ← textEntries]
    cases hvalue : macroValue? value with
    | none => rw [overlay_cons_of_none hvalue, givenDefines_cons_of_none hvalue, ih]
    | some text =>
      rw [overlay_cons_of_some hvalue, givenDefines_cons_of_some hvalue, ih, toList_set_eq_put]
      rfl

theorem defineOne_of_none {value : Value} (h : macroValue? value = none) (table : MacroTable)
    (name : Text) : table.defineOne (.text name) value = .done false table := by
  rw [defineOne, h]

theorem defineOne_of_some {value : Value} {text : Text} (h : macroValue? value = some text)
    (table : MacroTable) (name : Text) :
    table.defineOne (.text name) value = .done (table.set name text).2 (table.set name text).1 := by
  rw [defineOne, h]

/-- **A table takes in the defines of a mapping,** and has them over its own then. -/
theorem defineEntries_textEntries (table : MacroTable) (changed : Bool)
    (entries : List (Text × Value)) :
    (∃ now, (table.defineEntries changed (textEntries entries)).result = .ok now) ∧
      (table.defineEntries changed (textEntries entries)).state.toList
        = Pairs.overlay table.toList (givenDefines entries) := by
  induction entries generalizing table changed with
  | nil => exact ⟨⟨changed, rfl⟩, rfl⟩
  | cons entry rest ih =>
    obtain ⟨name, value⟩ := entry
    rw [textEntries, List.map_cons, ← textEntries, defineEntries]
    cases hvalue : macroValue? value with
    | none =>
      rw [defineOne_of_none hvalue, givenDefines_cons_of_none hvalue]
      exact ih table (changed || false)
    | some text =>
      have hrest := ih (table.set name text).1 (changed || (table.set name text).2)
      rw [toList_set_eq_put] at hrest
      rw [defineOne_of_some hvalue, givenDefines_cons_of_some hvalue]
      exact hrest

/-- Every define of a table that takes in new names only counts as a change. -/
theorem revision_defineEntries {table : MacroTable} {entries : List (Text × Text)}
    (h : (Pairs.keys (table.toList ++ entries)).Nodup) (changed : Bool) :
    (table.defineEntries changed
        (entries.map fun (name, value) => (.text name, .text value))).state.revision
      = table.revision + entries.length := by
  induction entries generalizing table changed with
  | nil => rfl
  | cons entry rest ih =>
    obtain ⟨name, value⟩ := entry
    have hnew : name ∉ Pairs.keys table.toList := Pairs.not_mem_keys_of_nodup h
    have hnone : table.get? name ≠ some value := by
      intro hsome
      exact hnew ((OrderedMap.isSome_get?_iff table.defines name).1 (Option.isSome_of_eq_some hsome))
    have hrevision : (table.set name value).1.revision = table.revision + 1 := by
      rw [set, if_neg hnone]
    rw [List.append_cons, ← toList_set hnew value] at h
    have hrest := ih h (changed || (table.set name value).2)
    rw [hrevision, Nat.add_assoc, Nat.add_comm 1] at hrest
    exact hrest

/-- **Reading a mapping of texts back gives the table that has just these defines,** in their order, each
counted as one change. -/
theorem ofValue_of_texts {v : Value} {defines : OrderedMap Text Text}
    (hentries : v.entries? = some (defines.pairs.map fun (name, value) => (.text name, .text value)))
    (htrue : v.isTrue = !defines.pairs.isEmpty) :
    ofValue v = .ok ⟨defines, defines.size⟩ := by
  rw [ofValue]
  split
  · obtain ⟨now, hnow⟩ := empty.defineEntries_ok false defines.pairs
    have htoList := @toList_defineEntries .empty defines.pairs defines.nodup false
    have hrevision := @revision_defineEntries .empty defines.pairs defines.nodup false
    rw [define, hentries]
    dsimp only
    rw [hnow]
    refine congrArg Except.ok ?_
    generalize (empty.defineEntries false _).state = table at htoList hrevision
    obtain ⟨own, revision⟩ := table
    obtain rfl : own = defines := OrderedMap.ext htoList
    obtain rfl : revision = own.size := hrevision.trans (Nat.zero_add _)
    rfl
  · rename_i hfalse
    -- A mapping that counts as false is empty, and so is the table without defines.
    rw [htrue, Bool.not_eq_true, Bool.not_eq_false', List.isEmpty_iff] at hfalse
    obtain ⟨pairs, nodup⟩ := defines
    obtain rfl : pairs = [] := hfalse
    rfl

/-- A copy is the table read back. -/
theorem ofValue_toValue (table : MacroTable) : ofValue table.toValue = .ok table.copy :=
  ofValue_of_texts rfl rfl

/-- The active defines, read back. -/
theorem ofValue_named (defines : OrderedMap Text Text) :
    ofValue (ActiveDefines.toValue (.named defines.pairs)) = .ok ⟨defines, defines.size⟩ := by
  refine ofValue_of_texts ?_ ?_
  · rw [ActiveDefines.toValue, ActiveDefines.named, List.map_map]
    rfl
  · rw [ActiveDefines.toValue, ActiveDefines.named, Value.isTrue, List.isEmpty_map, List.isEmpty_map]

/-- The active defines of a mapping are its defines over those of the table. -/
theorem active_of_mapsTexts {defines : Value} {entries : List (Text × Value)}
    (h : defines.MapsTexts entries) (table : MacroTable) :
    table.active defines = .ok (.named (Pairs.overlay table.toList (givenDefines entries))) := by
  have hoverlay := overlay_textEntries table entries
  rw [active, h.isTrue_eq, h.entries?_eq]
  cases entries with
  | nil => exact congrArg Except.ok hoverlay
  | cons entry rest => exact congrArg Except.ok hoverlay

/-- A table that is given a mapping has its defines over its own. -/
theorem define_of_mapsTexts {defines : Value} {entries : List (Text × Value)}
    (h : defines.MapsTexts entries) (table : MacroTable) (argument : Value) :
    (∃ changed, (table.define defines argument).result = .ok changed) ∧
      (table.define defines argument).state.toList
        = Pairs.overlay table.toList (givenDefines entries) := by
  rw [define, h.entries?_eq]
  exact defineEntries_textEntries table false entries

end MacroTable

/-! ## One line for every define -/

/-- **The lines of a block of defines** are one for every define, unless a name or a value breaks its line. -/
theorem lines_defineBlock_iff (defines : List (Text × Text)) :
    lines (defineBlock defines) = defines.map (fun define => TidyDefine.line define.1 define.2)
      ↔ ∀ define ∈ defines, Unbroken define.1 ∧ Unbroken define.2 := by
  have hline : ∀ name value : Text,
      Unbroken (TidyDefine.line name value) ↔ Unbroken name ∧ Unbroken value := by
    intro name value
    have hlead : Unbroken (String.toList "#define ") := by decide
    have hblank : Text.isLineBreak ' ' = false := by decide
    rw [TidyDefine.line_eq]
    constructor
    · intro h
      have hbehind := (List.forall_mem_append.1 h).2
      have hparts := List.forall_mem_append.1 hbehind
      exact ⟨hparts.1, (List.forall_mem_cons.1 hparts.2).2⟩
    · rintro ⟨hname, hvalue⟩
      exact hlead.append (hname.append (List.forall_mem_cons.2 ⟨hblank, hvalue⟩))
  constructor
  · intro h define hmem
    rw [← hline]
    refine Text.unbroken_of_mem_lines (s := defineBlock defines) ?_
    rw [h]
    exact List.mem_map_of_mem hmem
  · intro h
    rw [← fed_defineBlock]
    refine Text.lines_fed fun line hmem => ?_
    obtain ⟨define, hdefine, rfl⟩ := List.mem_map.1 hmem
    exact (hline _ _).2 (h define hdefine)

/-! ## The two ways -/

namespace MacroTable

/-- **The two ways of laying defines agree.** For every table and every mapping with texts for its names,
the active defines are the defines of a copy of the table that has taken in the mapping, in the same
order; and taking them into a new table, as is done for the text, changes nothing about them. So what is
written into a text is one line for every active define. Their names are those of the table in its
order, each once, and then the new ones of the mapping; a name has what the mapping gives it, and else
what the table has.

A line of the block is the text `#define`, the name and the value. It is a line of the text as well, as
long as no name or value brings a line break of its own. -/
theorem layers_agree (table : MacroTable) {defines : Value} {entries : List (Text × Value)}
    (h : defines.MapsTexts entries) (argument : Value) :
    ∃ active : List (Text × Text),
      table.active defines = .ok (.named active) ∧
      (ofValue table.toValue = .ok table.copy ∧
        (∃ changed, (table.copy.define defines argument).result = .ok changed) ∧
        (table.copy.define defines argument).state.toList = active) ∧
      (∃ again, ofValue (ActiveDefines.toValue (.named active)) = .ok again ∧ again.toList = active ∧
        again.prologue = active.flatMap fun define => defineLine define.1 define.2) ∧
      (∀ source, Prologue.injectDefines source (ActiveDefines.toValue (.named active))
        = .ok (Prologue.insert (defineBlock active) source)) ∧
      (lines (defineBlock active) = active.map (fun define => TidyDefine.line define.1 define.2)
        ↔ ∀ define ∈ active, Unbroken define.1 ∧ Unbroken define.2) ∧
      (Pairs.keys active).Nodup ∧
      Pairs.keys active = Pairs.keys table.toList
        ++ (Pairs.keys (givenDefines entries)).filter (· ∉ Pairs.keys table.toList) ∧
      ∀ name, Pairs.get? name active
        = ((Pairs.get? name entries).bind macroValue?).or (Pairs.get? name table.toList) := by
  have hgiven : (Pairs.keys (givenDefines entries)).Nodup :=
    (keys_givenDefines_sublist entries).nodup h.once
  have hnodup := Pairs.nodup_keys_overlay table.defines.nodup (givenDefines entries)
  refine ⟨Pairs.overlay table.toList (givenDefines entries), active_of_mapsTexts h table,
    ⟨ofValue_toValue table, define_of_mapsTexts h table.copy argument⟩,
    ⟨_, ofValue_named ⟨_, hnodup⟩, rfl, rfl⟩,
    fun source => Prologue.injectDefines_named source hnodup, lines_defineBlock_iff _, hnodup,
    Pairs.keys_overlay hgiven _, fun name => ?_⟩
  rw [Pairs.get?_overlay hgiven, get?_givenDefines h.once]

/-- A library with two defines, one of which a pair has too. -/
def qualityTable : MacroTable := ⟨⟨[("QUALITY", "2"), ("DEBUG", "0")], by decide⟩, 2⟩

/-- Defines of a pair: a new one, one of the library, and a value of nothing. -/
def sketchEntries : List (Text × Value) :=
  [("GAIN", .int 3), ("QUALITY", .null), ("DEBUG", .bool true)]

/-- What is active then. -/
def sketchActive : List (Text × Text) := [("QUALITY", "2"), ("DEBUG", "1"), ("GAIN", "3")]

theorem layers_agree_of_sketch :
    (Value.map (textEntries sketchEntries)).MapsTexts sketchEntries ∧
    qualityTable.active (.map (textEntries sketchEntries)) = .ok (.named sketchActive) ∧
    (qualityTable.copy.define (.map (textEntries sketchEntries)) (.bool true)).state.toList
      = sketchActive ∧
    lines (defineBlock sketchActive)
      = ["#define QUALITY 2", "#define DEBUG 1", "#define GAIN 3"] ∧
    Prologue.injectDefines "#version 300 es\nint a;" (ActiveDefines.toValue (.named sketchActive))
      = .ok "#version 300 es\n#define QUALITY 2\n#define DEBUG 1\n#define GAIN 3\nint a;" := by
  have hmapping : (Value.map (textEntries sketchEntries)).MapsTexts sketchEntries :=
    ⟨rfl, by decide⟩
  obtain ⟨active, hactive, ⟨-, -, htaken⟩, -, hinjected, hlines, -⟩ :=
    layers_agree qualityTable hmapping (.bool true)
  obtain rfl : active = sketchActive := by
    rw [← htaken]
    decide +kernel
  refine ⟨hmapping, hactive, htaken, hlines.2 (by decide), ?_⟩
  rw [hinjected]
  refine congrArg Except.ok ?_
  decide +kernel

end MacroTable

end GlslCompose
