/-
`Proofs/CompiledOver.lean` -- compiling over a given store and with given defines, without
a cache.

A compiled text depends on the store, the transforms, what the library declares, and the
active defines (`Library.result_compile_plain_congr`). Where the defines come from makes
no difference: those of a pair laid over those of the library are the same as one list
of defines laid over nothing (`MacroTable.active_empty_named`), and such a list is what
drawing finds in its state. `Library.bareOver` is the library that has no defines but those.

An update compiles with a cache all the same, one text after the other, by a library that
remembers more each time. What it gets are the texts that a library without a cache gives
(`result_compile_of_mem`), and the cache stays sound (`sound_compileTexts`).
-/
import GlslCompose.Proofs.CacheTransparency
import GlslCompose.Proofs.CompileReasons

set_option autoImplicit false

namespace GlslCompose

/-! ## Defines that are laid over each other -/

/-- Defines whose names are texts, as they are written. -/
def ActiveDefines.named (entries : List (Text × Text)) : ActiveDefines :=
  entries.map fun (name, value) => (.text name, value)

theorem ActiveDefines.put_named (name value : Text) (entries : List (Text × Text)) :
    Pairs.put (.text name) value (named entries) = named (Pairs.put name value entries) :=
  Pairs.put_renamed (f := Value.text) (fun _ _ => rfl) name value entries

namespace MacroTable

/-- Texts laid over the defines of a table. -/
theorem overlay_texts (table : MacroTable) (entries : List (Text × Text)) :
    table.overlay (entries.map fun (name, value) => (.text name, .text value))
      = .named (Pairs.overlay table.toList entries) := by
  induction entries generalizing table with
  | nil => rfl
  | cons entry rest ih =>
    obtain ⟨name, value⟩ := entry
    -- Behind the first entry it is as if the table had held it from the start.
    have hrest := ih ⟨⟨Pairs.put name value table.toList,
      Pairs.nodup_keys_put table.defines.nodup⟩, table.revision⟩
    have hput := ActiveDefines.put_named name value table.toList
    rw [overlay] at hrest ⊢
    rw [List.map_cons, List.foldl_cons]
    refine Eq.trans ?_ hrest
    congr 1

/-- The active defines of a table with those of another over them. -/
theorem active_toValue (table own : MacroTable) :
    table.active own.toValue = .ok (.named (Pairs.overlay table.toList own.toList)) := by
  have hoverlay := overlay_texts table own.toList
  unfold active toValue
  cases hown : own.toList with
  | nil =>
    rw [hown] at hoverlay
    exact congrArg Except.ok hoverlay
  | cons entry rest =>
    rw [hown] at hoverlay
    exact congrArg Except.ok hoverlay

/-- Defines that were laid over each other before are laid over nothing. -/
theorem active_empty_named {entries : List (Text × Text)} (h : (Pairs.keys entries).Nodup) :
    empty.active (ActiveDefines.toValue (.named entries)) = .ok (.named entries) := by
  have hoverlay := overlay_texts empty entries
  have hempty : empty.toList = [] := rfl
  have hnothing : Pairs.overlay [] entries = [] ++ entries := Pairs.overlay_eq_append h
  rw [hempty, hnothing] at hoverlay
  have hvalue : ActiveDefines.toValue (.named entries)
      = .map (entries.map fun (name, value) => (.text name, .text value)) := by
    rw [ActiveDefines.toValue, ActiveDefines.named, List.map_map]
    rfl
  unfold active
  rw [hvalue]
  cases entries with
  | nil => rfl
  | cons entry rest => exact congrArg Except.ok hoverlay

end MacroTable

namespace Library

/-- **A compilation without a cache depends on the store, the transforms, what is declared, and the
defines,** wherever the defines come from. -/
theorem result_compile_plain_congr {library other : Library} {defines otherDefines : Value}
    (hstore : other.store = library.store)
    (htransforms : other.composer.transforms = library.composer.transforms)
    (hprecision : other.precision = library.precision) (hversion : other.version = library.version)
    (hactive : other.macros.active otherDefines = library.macros.active defines) (name : FileName)
    (source : Text) :
    (other.plain.compile name source otherDefines).result
      = (library.plain.compile name source defines).result := by
  have hkey : other.cacheKey name.orAnonymous (.text source) otherDefines
      = library.cacheKey name.orAnonymous (.text source) defines := by
    simp only [cacheKey, keyValue, hactive, hstore, htransforms, hprecision, hversion]
  have hbody : (other.compileBody name.orAnonymous source otherDefines).result
      = (library.compileBody name.orAnonymous source defines).result := by
    have hcomposerStore : other.composer.store = library.composer.store := hstore
    have hcomposerActive : other.composer.macros.active otherDefines
        = library.composer.macros.active defines := hactive
    simp only [result_compileBody, versionText?, hprecision, hversion, Composer.compose,
      Logged.result_andThen, hcomposerStore, htransforms, hcomposerActive]
  rw [result_compile_plain, result_compile_plain, hkey, hbody]

/-- A library that compiles over a given store, without a cache and without defines of its own. -/
def bareOver (library : Library) (store : FragmentStore) : Library :=
  (library.withComposer { library.composer with store := store, macros := .empty }).plain

end Library

/-! ## The texts of an update -/

namespace ShaderPair

section Texts

variable {pair : ShaderPair} {library : Library} {listing : Bool} {keys : List Text}
  {texts : List (Slot × Text)}

/-- The texts that are digested for keys when some texts are compiled for a pair. -/
def requestKeys (pair : ShaderPair) (library : Library) (texts : List (Slot × Text)) : List Text :=
  texts.filterMap fun (slot, text) =>
    library.requestKey? (.text (pair.slotName slot)) text pair.macros.toValue

theorem requestKeys_cons_subset {slot : Slot} {text : Text} {rest : List (Slot × Text)}
    (h : pair.requestKeys library ((slot, text) :: rest) ⊆ keys) :
    (∀ key ∈ library.requestKey? (.text (pair.slotName slot)) text pair.macros.toValue, key ∈ keys) ∧
      pair.requestKeys library rest ⊆ keys := by
  refine ⟨fun key hkey => ?_, fun key hkey => ?_⟩
  · exact h (List.mem_filterMap.2 ⟨_, List.mem_cons_self, hkey⟩)
  · obtain ⟨item, hitem, hfound⟩ := List.mem_filterMap.1 hkey
    exact h (List.mem_filterMap.2 ⟨item, List.mem_cons_of_mem _ hitem, hfound⟩)

theorem requestKeys_plain (pair : ShaderPair) (library : Library) (texts : List (Slot × Text)) :
    pair.requestKeys library.plain texts = pair.requestKeys library texts := rfl

/-- Which texts are digested does not depend on what is remembered. -/
theorem requestKeys_of_plain_eq {other : Library} (h : other.plain = library.plain)
    (texts : List (Slot × Text)) :
    pair.requestKeys other texts = pair.requestKeys library texts := by
  rw [← requestKeys_plain, h, requestKeys_plain]

/-- **What an update gets for a text is what a library without a cache gives.** -/
theorem result_compile_of_mem {compiled : List (Slot × Text × Option Text)} {slot : Slot}
    {text : Text} {found : Option Text} (hfree : Digest.CollisionFree keys)
    (hsound : Library.Sound keys library) (hkeys : pair.requestKeys library texts ⊆ keys)
    (h : (compileTexts pair listing library texts).result = .ok compiled)
    (hmem : (slot, text, found) ∈ compiled) :
    (library.plain.compile (.text (pair.slotName slot)) text pair.macros.toValue).result
      = .ok found := by
  induction texts generalizing library compiled with
  | nil =>
    rw [← Except.ok.inj h] at hmem
    cases hmem
  | cons item rest ih =>
    obtain ⟨own, source⟩ := item
    obtain ⟨hkey, hrest⟩ := requestKeys_cons_subset hkeys
    have hplain := library.plain_state_compile (.text (pair.slotName own)) source pair.macros.toValue
    rw [result_compileTexts_cons] at h
    cases hfirst : (library.compile (.text (pair.slotName own)) source
        pair.macros.toValue).result with
    | error fault => rw [hfirst] at h; cases h
    | ok first =>
      rw [hfirst] at h
      simp only [Except.bind] at h
      cases hothers : (compileTexts pair listing (library.compile (.text (pair.slotName own)) source
          pair.macros.toValue).state rest).result with
      | error fault => rw [hothers] at h; cases h
      | ok others =>
        rw [hothers] at h
        rw [← Except.ok.inj h] at hmem
        -- The first text finds the cache as it was, the others find it as the first has left it.
        rcases List.mem_cons.1 hmem with heq | hlater
        · obtain ⟨rfl, hpair⟩ := Prod.mk.inj heq
          obtain ⟨rfl, rfl⟩ := Prod.mk.inj hpair
          rw [← Library.result_compile hfree hsound hkey]
          exact hfirst
        · rw [← hplain]
          exact ih (Library.sound_compile hsound hkey)
            (requestKeys_of_plain_eq hplain rest ▸ hrest) hothers hlater

/-- **An update keeps the cache sound.** -/
theorem sound_compileTexts (hsound : Library.Sound keys library)
    (hkeys : pair.requestKeys library texts ⊆ keys) :
    Library.Sound keys (compileTexts pair listing library texts).state := by
  induction texts generalizing library with
  | nil => exact hsound
  | cons item rest ih =>
    obtain ⟨slot, text⟩ := item
    obtain ⟨hkey, hrest⟩ := requestKeys_cons_subset hkeys
    have hplain := library.plain_state_compile (.text (pair.slotName slot)) text pair.macros.toValue
    have hfirst := Library.sound_compile hsound hkey
    rw [state_compileTexts_cons]
    split
    · exact hfirst
    · exact ih hfirst (requestKeys_of_plain_eq hplain rest ▸ hrest)

end Texts

end ShaderPair

end GlslCompose
