/-
`Proofs/Snapshot.lean` -- the texts of a pair belong together: each is compiled over the
store of the last compilation, and with the defines that drawing finds.

The compiled texts of a pair come from three places. They were compiled for this frame, or
for an earlier one that had the same text, or they are remembered from a compilation of any
age. What they have in common is a `Snapshot`: the library and the defines of the pair at
the time of the last compilation. Everything that is in place, and everything that is
remembered, is what a library without a cache makes of its text over that snapshot
(`Consistent`). Only a compilation changes the snapshot. It puts all texts in place anew, and
what it does not forget of the memo is kept because neither the store nor the defines have
changed, so that the old snapshot and the new one give the same (`gives_iff_of_unchanged`).

The snapshot may be older than the store, which goes on, but not older than the defines:
where an update draws without compiling, the revisions of the defines are those of the
snapshot, and equal revisions are equal tables.
-/
import GlslCompose.Proofs.CompiledOver

set_option autoImplicit false

namespace GlslCompose

namespace ShaderPair

/-! ## Slots without a source -/

/-- **A slot without a source has no text.** -/
def Sparse (pair : ShaderPair) : Prop :=
  ∀ slot, pair.sources.get slot = none →
    pair.resolved.get slot = none ∧ pair.compiled.get slot = none

theorem Sparse.of_same {pair other : ShaderPair} (h : pair.Sparse)
    (hsources : other.sources = pair.sources) (hresolved : other.resolved = pair.resolved)
    (hcompiled : other.compiled = pair.compiled) : other.Sparse := by
  intro slot hsource
  rw [hsources] at hsource
  rw [hresolved, hcompiled]
  exact h slot hsource

section Courses

variable {drawing behind : Drawing} {listing : Bool} {state : List (Value × Value)}
  {pair : ShaderPair} {texts : List (Slot × Text)} {outcome : Except Fault Bool}

/-- A slot has a text in a frame only if it has a source. -/
theorem Ready.source_ne_none (h : Ready drawing state pair texts) {slot : Slot} {text : Text}
    (hmem : (slot, text) ∈ texts) : pair.sources.get slot ≠ none := by
  obtain ⟨source, hsource, -⟩ := (mem_iff_of_resolveSources h.resolved slot text).1 hmem
  rw [hsource]
  exact Option.some_ne_none source

theorem Ready.sparse (h : Ready drawing state pair texts) (hsparse : drawing.pair.Sparse) :
    pair.Sparse :=
  hsparse.of_same h.untouched.sources h.unbuilt.resolved h.unbuilt.compiled

/-- Texts are put in place only where there is a source. -/
theorem Course.sparse (h : Course drawing listing state outcome behind)
    (hsparse : drawing.pair.Sparse) : behind.pair.Sparse := by
  have huntouched := h.untouched
  by_cases hout : outcome = .ok true
  · subst hout
    cases h with
    | @compiled pair texts compiled hready htexts hdue h =>
      intro slot hsource
      have hnone : pair.sources.get slot = none := by
        rw [hready.untouched.sources, ← huntouched.sources]
        exact hsource
      -- What was compiled are the texts of the frame, and those come from sources.
      have hnot : slot ∉ compiled.map Prod.fst := by
        intro hmem
        obtain ⟨⟨own, text, found⟩, hitem, rfl⟩ := List.mem_map.1 hmem
        have htext : (own, text) ∈ texts := by
          rw [← map_of_compileTexts_ok h]
          exact List.mem_map.2 ⟨_, hitem, rfl⟩
        exact hready.source_ne_none htext hnone
      obtain ⟨hresolved, hcompiled⟩ := get_built_of_not_mem pair drawing.context.library hnot
      obtain ⟨hresolvedNone, hcompiledNone⟩ := hready.sparse hsparse slot hnone
      exact ⟨hresolved.trans hresolvedNone, hcompiled.trans hcompiledNone⟩
    | @swapped pair texts hready hdue hswapped =>
      intro slot hsource
      have hnone : pair.sources.get slot = none := by
        rw [hready.untouched.sources, ← huntouched.sources]
        exact hsource
      have hnot : slot ∉ swappedSlots (pair.changes drawing.context.library texts) := by
        intro hmem
        obtain ⟨text, compiled, hchange⟩ := mem_swappedSlots.1 hmem
        exact hready.source_ne_none (mem_changes.1 hchange).1 hnone
      obtain ⟨hresolved, hcompiled⟩ :=
        get_swap_of_not_mem (pair.reviewed drawing.context.library) hnot
      obtain ⟨hresolvedNone, hcompiledNone⟩ := hready.sparse hsparse slot hnone
      have hreviewed := unbuilt_forgetIf pair
        (some drawing.context.library.store.revision != pair.storeRevision)
      rw [reviewed, hreviewed.resolved, hresolvedNone] at hresolved
      rw [reviewed, hreviewed.compiled, hcompiledNone] at hcompiled
      exact ⟨hresolved, hcompiled⟩
  · have hunbuilt := h.unbuilt hout
    exact hsparse.of_same huntouched.sources hunbuilt.resolved hunbuilt.compiled

end Courses

/-! ## Snapshots -/

/-- **What a pair was compiled with:** the library as it was then, and the defines of the pair. -/
structure Snapshot where
  library : Library
  macros : MacroTable

/-- What a text gives over a snapshot, under a name and without a cache. -/
def Snapshot.Gives (snapshot : Snapshot) (name text : Text) (compiled : Option Text) : Prop :=
  (snapshot.library.plain.compile (.text name) text snapshot.macros.toValue).result = .ok compiled

/-- **A pair is consistent with a snapshot** that was taken when it was last compiled, if all its
texts are given over that snapshot, those that are in place and those that are remembered. The texts
that are remembered are among some given ones. -/
structure Consistent (snapshot : Snapshot) (seen : List Text) (pair : ShaderPair)
    (library : Library) : Prop where
  before : snapshot.library.Before library
  transforms : library.composer.transforms = snapshot.library.composer.transforms
  macros : snapshot.macros.Since pair.macros
  macroRevision : pair.macroRevision = some snapshot.macros.revision
  libraryRevision : pair.libraryRevision = some snapshot.library.macros.revision
  storeRevision : pair.storeRevision = some snapshot.library.store.revision
  /-- There is something to compile. -/
  sourced : ∃ slot, pair.sources.get slot ≠ none
  placed : ∀ slot text, pair.resolved.get slot = some text →
    snapshot.Gives (pair.slotName slot) text (pair.compiled.get slot)
  remembered : ∀ slot digest compiled, ((slot, digest), compiled) ∈ pair.memo →
    ∃ text ∈ seen, Digest.ofText text = digest ∧ snapshot.Gives (pair.slotName slot) text compiled

theorem slotName_congr {pair other : ShaderPair} (h : other.name = pair.name) (slot : Slot) :
    other.slotName slot = pair.slotName slot := by
  rw [slotName, slotName, h]

section Snapshots

variable {snapshot : Snapshot} {seen : List Text} {pair other : ShaderPair}
  {library libraryNow : Library}

/-- As long as nothing is compiled the pair stays consistent, whatever becomes of the store and of
the defines. -/
theorem Consistent.later (h : Consistent snapshot seen pair library)
    (huntouched : Untouched pair other) (hremembers : Remembers pair other)
    (hunbuilt : Unbuilt pair other) (hbefore : library.Before libraryNow)
    (htransforms : libraryNow.composer.transforms = library.composer.transforms) :
    Consistent snapshot seen other libraryNow := by
  refine ⟨h.before.trans hbefore, htransforms.trans h.transforms, h.macros.trans huntouched.macros,
    hremembers.macroRevision.trans h.macroRevision,
    hremembers.libraryRevision.trans h.libraryRevision,
    hremembers.storeRevision.trans h.storeRevision, ?_, ?_, ?_⟩
  · obtain ⟨slot, hslot⟩ := h.sourced
    rw [← huntouched.sources] at hslot
    exact ⟨slot, hslot⟩
  · intro slot text hresolved
    rw [hunbuilt.resolved] at hresolved
    rw [hunbuilt.compiled, slotName_congr huntouched.name]
    exact h.placed slot text hresolved
  · intro slot digest compiled hmem
    rw [slotName_congr huntouched.name]
    rcases hunbuilt.memo with hmemo | hmemo
    · rw [hmemo] at hmem
      exact h.remembered slot digest compiled hmem
    · rw [hmemo] at hmem
      cases hmem

/-- A pair that has nothing to do about its defines has those of the snapshot. -/
theorem Consistent.macros_eq (h : Consistent snapshot seen pair library)
    (hown : pair.macroRevision = some pair.macros.revision)
    (hshared : pair.libraryRevision = some library.macros.revision) :
    pair.macros = snapshot.macros ∧ library.macros = snapshot.library.macros := by
  rw [h.macroRevision] at hown
  rw [h.libraryRevision] at hshared
  refine ⟨?_, ?_⟩
  · exact h.macros.eq_of_revision (Option.some.inj hown).symm
  · exact h.before.macros.eq_of_revision (Option.some.inj hshared).symm

/-- **Where neither the defines nor the store have changed, a snapshot taken now gives the same.** -/
theorem Consistent.gives_iff_of_unchanged (h : Consistent snapshot seen pair library)
    (hown : pair.macroRevision = some pair.macros.revision)
    (hshared : pair.libraryRevision = some library.macros.revision)
    (hstore : pair.storeRevision = some library.store.revision) (name text : Text)
    (compiled : Option Text) :
    Snapshot.Gives ⟨library, pair.macros⟩ name text compiled
      ↔ snapshot.Gives name text compiled := by
  obtain ⟨hmacros, hlibraryMacros⟩ := h.macros_eq hown hshared
  rw [h.storeRevision] at hstore
  have hstoreSame := h.before.store.eq_of_revision (Option.some.inj hstore).symm
  have hactive : library.macros.active pair.macros.toValue
      = snapshot.library.macros.active snapshot.macros.toValue := by
    rw [hmacros, hlibraryMacros]
  rw [Snapshot.Gives, Snapshot.Gives, Library.result_compile_plain_congr hstoreSame h.transforms
    h.before.precision h.before.version hactive]

/-- **What a snapshot gives** is what compiling over its store gives with the defines of today,
provided that there is nothing to do about the defines. -/
theorem Consistent.result_over (h : Consistent snapshot seen pair library)
    (hown : pair.macroRevision = some pair.macros.revision)
    (hshared : pair.libraryRevision = some library.macros.revision) {name text : Text}
    {compiled : Option Text} (hgives : snapshot.Gives name text compiled) :
    ((library.bareOver snapshot.library.store).compile (.text name) text
      (ActiveDefines.toValue (.named (Pairs.overlay library.macros.toList pair.macros.toList)))).result
        = .ok compiled := by
  obtain ⟨hmacros, hlibraryMacros⟩ := h.macros_eq hown hshared
  -- The defines of today are handed over in the place of those that the library has no more.
  have hnodup := Pairs.nodup_keys_overlay library.macros.defines.nodup pair.macros.toList
  have hactive : (library.bareOver snapshot.library.store).macros.active
      (ActiveDefines.toValue (.named (Pairs.overlay library.macros.toList pair.macros.toList)))
        = snapshot.library.macros.active snapshot.macros.toValue := by
    rw [MacroTable.active_toValue, ← hmacros, ← hlibraryMacros]
    exact MacroTable.active_empty_named hnodup
  have hsame : ((library.bareOver snapshot.library.store).plain.compile (.text name) text
      (ActiveDefines.toValue (.named (Pairs.overlay library.macros.toList pair.macros.toList)))).result
        = (snapshot.library.plain.compile (.text name) text snapshot.macros.toValue).result := by
    apply Library.result_compile_plain_congr
    · rfl
    · exact h.transforms
    · exact h.before.precision
    · exact h.before.version
    · exact hactive
  exact hsame.trans hgives

end Snapshots

/-! ## The snapshot of an update -/

/-- **What a pair is consistent with,** given the store that it was last compiled with, if it was
compiled at all. -/
inductive Dated (last : Option FragmentStore) (seen : List Text) (pair : ShaderPair)
    (library : Library) : Prop
  /-- Nothing was compiled yet. -/
  | uncompiled (hlast : last = none) (hcount : pair.compileCount = 0)
      (hresolved : pair.resolved = ⟨none, none⟩) (hmemo : pair.memo = [])
  /-- The last compilation left a snapshot. -/
  | compiled {snapshot : Snapshot} (hlast : last = some snapshot.library.store)
      (hcount : pair.compileCount ≠ 0) (h : Consistent snapshot seen pair library)

section Updates

variable {last : Option FragmentStore} {seen keys : List Text} {drawing behind : Drawing}
  {listing : Bool} {state : List (Value × Value)} {pair other : ShaderPair}
  {library libraryNow : Library} {texts : List (Slot × Text)} {outcome : Except Fault Bool}

/-- As long as nothing is compiled the snapshot stays. -/
theorem Dated.later (h : Dated last seen pair library) (huntouched : Untouched pair other)
    (hremembers : Remembers pair other) (hunbuilt : Unbuilt pair other)
    (hbefore : library.Before libraryNow)
    (htransforms : pair.compileCount ≠ 0 →
      libraryNow.composer.transforms = library.composer.transforms) :
    Dated last seen other libraryNow := by
  cases h with
  | uncompiled hlast hcount hresolved hmemo =>
    refine .uncompiled hlast (hunbuilt.compileCount.trans hcount)
      (hunbuilt.resolved.trans hresolved) ?_
    rcases hunbuilt.memo with hsame | hempty
    · exact hsame.trans hmemo
    · exact hempty
  | compiled hlast hcount h =>
    refine .compiled hlast ?_ (h.later huntouched hremembers hunbuilt hbefore (htransforms hcount))
    rw [hunbuilt.compileCount]
    exact hcount

/-- Without any source there is no snapshot. -/
theorem Dated.uncompiled_of_textless (h : Dated last seen pair library)
    (hresolved : pair.resolveSources (.map state) = .ok []) : last = none ∧ pair.compileCount = 0 ∧
      pair.resolved = ⟨none, none⟩ ∧ pair.memo = [] := by
  cases h with
  | uncompiled hlast hcount hnone hmemo => exact ⟨hlast, hcount, hnone, hmemo⟩
  | compiled hlast hcount h =>
    obtain ⟨slot, hslot⟩ := h.sourced
    cases hsource : pair.sources.get slot with
    | none => exact absurd hsource hslot
    | some source =>
      obtain ⟨text, hmem, -⟩ := exists_mem_of_resolveSources hresolved hsource
      cases hmem

section Compiled

variable {compiled : List (Slot × Text × Option Text)}

/-- What was compiled just now stands in the slots. A slot that was left out has no source, and
never had a text. -/
theorem placed_built (hsparse : pair.Sparse)
    (hresolved : pair.resolveSources (.map state) = .ok texts)
    (hcompiled : (compileTexts pair listing library texts).result = .ok compiled) {slot : Slot}
    {text : Text} (h : (pair.built library compiled).resolved.get slot = some text) :
    (slot, text, (pair.built library compiled).compiled.get slot) ∈ compiled := by
  by_cases hslot : slot ∈ compiled.map Prod.fst
  · obtain ⟨⟨own, found, result⟩, hmem, rfl⟩ := List.mem_map.1 hslot
    obtain ⟨hown, hresult⟩ := get_built_of_mem pair library
      (nodup_compiled hcompiled (nodup_of_resolveSources hresolved)) hmem
    obtain rfl := Option.some.inj (hown.symm.trans h)
    rw [hresult]
    exact hmem
  · have hsource : pair.sources.get slot = none := by
      cases hsome : pair.sources.get slot with
      | none => rfl
      | some source =>
        obtain ⟨found, hmem, -⟩ := exists_mem_of_resolveSources hresolved hsome
        obtain ⟨result, hitem⟩ := mem_compiled_of_mem hcompiled hmem
        exact absurd (List.mem_map.2 ⟨_, hitem, rfl⟩) hslot
    have hbefore := (get_built_of_not_mem pair library hslot).1
    rw [(hsparse slot hsource).1, h] at hbefore
    cases hbefore

/-- **What a compilation leaves is consistent with a snapshot taken now.** -/
theorem Dated.consistent_built (h : Dated last seen pair library) (hsparse : pair.Sparse)
    (hfree : Digest.CollisionFree keys) (hsound : Library.Sound keys library)
    (hkeys : pair.requestKeys library texts ⊆ keys) (hseen : texts.map Prod.snd ⊆ seen)
    (hresolved : pair.resolveSources (.map state) = .ok texts) (htexts : texts ≠ [])
    (hcompiled : (compileTexts pair listing library texts).result = .ok compiled)
    (hplain : libraryNow.plain = library.plain) :
    Consistent ⟨library, pair.macros⟩ seen (pair.built library compiled) libraryNow := by
  have huntouched := untouched_built pair library compiled
  have hgives : ∀ {slot text found}, (slot, text, found) ∈ compiled →
      Snapshot.Gives ⟨library, pair.macros⟩ (pair.slotName slot) text found :=
    fun hmem => result_compile_of_mem hfree hsound hkeys hcompiled hmem
  have htransforms : libraryNow.composer.transforms = library.composer.transforms := by
    have hcomposer := congrArg (fun library => library.composer.transforms) hplain
    exact hcomposer
  refine ⟨.of_plain_eq hplain, htransforms, huntouched.macros, macroRevision_built _ _ _, rfl, rfl, ?_,
    ?_, ?_⟩
  · obtain ⟨⟨slot, text⟩, hmem⟩ := List.exists_mem_of_ne_nil texts htexts
    obtain ⟨source, hsource, -⟩ := (mem_iff_of_resolveSources hresolved slot text).1 hmem
    refine ⟨slot, ?_⟩
    rw [huntouched.sources, hsource]
    exact Option.some_ne_none source
  · intro slot text hplaced
    rw [slotName_congr huntouched.name]
    exact hgives (placed_built hsparse hresolved hcompiled hplaced)
  · intro slot digest found hmem
    rw [slotName_congr huntouched.name]
    -- A memo entry is from this compilation, or from one with the same store and the same defines.
    rcases mem_memo_built hmem with ⟨hold, hown, hshared, hstore⟩ | ⟨own, text, result, hitem, heq⟩
    · cases h with
      | uncompiled hlast hcount hnone hmemo =>
        rw [hmemo] at hold
        cases hold
      | compiled hlast hcount h =>
        obtain ⟨text, htext, hdigest, hgiven⟩ := h.remembered slot digest found hold
        refine ⟨text, htext, hdigest, ?_⟩
        exact (h.gives_iff_of_unchanged hown hshared hstore _ _ _).2 hgiven
    · obtain ⟨hkey, rfl⟩ := Prod.mk.inj heq
      obtain ⟨rfl, rfl⟩ := Prod.mk.inj hkey
      refine ⟨text, hseen ?_, rfl, hgives hitem⟩
      rw [← map_of_compileTexts_ok hcompiled, List.map_map]
      exact List.mem_map.2 ⟨_, hitem, rfl⟩

end Compiled

/-- **Remembered texts are given over the snapshot as well,** and so are those that stay. -/
theorem Consistent.swap {snapshot : Snapshot} (h : Consistent snapshot seen pair library)
    (hfree : Digest.CollisionFree seen) (hseen : texts.map Prod.snd ⊆ seen)
    (hnodup : (texts.map Prod.fst).Nodup) :
    Consistent snapshot seen ((pair.reviewed library).swap (pair.changes library texts))
      library := by
  have hreviewed : Consistent snapshot seen (pair.reviewed library) library :=
    h.later (untouched_forgetIf _ _) (remembers_reviewed _ _) (unbuilt_forgetIf _ _) (.refl _) rfl
  obtain ⟨resolved, compiled, heq⟩ := swap_eq (pair.reviewed library) (pair.changes library texts)
  have hplaced : ∀ slot text,
      ((pair.reviewed library).swap (pair.changes library texts)).resolved.get slot = some text →
      snapshot.Gives ((pair.reviewed library).slotName slot) text
        (((pair.reviewed library).swap (pair.changes library texts)).compiled.get slot) := by
    intro slot text hresolved
    by_cases hslot : slot ∈ swappedSlots (pair.changes library texts)
    · obtain ⟨own, found, hmem⟩ := mem_swappedSlots.1 hslot
      obtain ⟨hown, hfound⟩ := get_swap_of_mem (pair.reviewed library)
        (nodup_changes pair library hnodup) hmem
      obtain rfl := Option.some.inj (hown.symm.trans hresolved)
      obtain ⟨htext, hchange⟩ := mem_changes.1 hmem
      have hmemo := Memo.mem_of_get? (get?_memo_of_swapTo hchange.symm).1
      obtain ⟨past, hpast, hdigest, hgives⟩ := hreviewed.remembered _ _ _ hmemo
      -- The memo knows digests only, but those of the texts that came up do not collide.
      have hsame : past = own := by
        apply hfree past hpast own (hseen (List.mem_map.2 ⟨_, htext, rfl⟩))
        exact hdigest
      rw [hfound, ← hsame]
      exact hgives
    · obtain ⟨hown, hfound⟩ := get_swap_of_not_mem (pair.reviewed library) hslot
      rw [hfound]
      exact hreviewed.placed slot text (hown.symm.trans hresolved)
  rw [heq] at hplaced ⊢
  exact { hreviewed with placed := hplaced }

/-- A pair whose texts are swapped remembers something, so it was compiled, and its snapshot stays. -/
theorem Dated.swap (h : Dated last seen pair library) (hfree : Digest.CollisionFree seen)
    (hseen : texts.map Prod.snd ⊆ seen) (hnodup : (texts.map Prod.fst).Nodup)
    (hswapped : swappedSlots (pair.changes library texts) ≠ []) :
    Dated last seen ((pair.reviewed library).swap (pair.changes library texts)) library := by
  cases h with
  | uncompiled hlast hnone hresolved hmemo =>
    obtain ⟨slot, hslot⟩ := List.exists_mem_of_ne_nil _ hswapped
    obtain ⟨text, compiled, hmem⟩ := mem_swappedSlots.1 hslot
    have hmemory := (get?_memo_of_swapTo (mem_changes.1 hmem).2.symm).1
    rw [reviewed_eq, hmemo, ite_self] at hmemory
    cases hmemory
  | compiled hlast hcount h =>
    refine .compiled hlast ?_ (h.swap hfree hseen hnodup)
    rw [compileCount_swap_reviewed]
    exact hcount

end Updates

end ShaderPair

/-! ## What comes up in a run -/

namespace Drawing

/-- The texts that the sources resolve to in a frame, if they resolve at all. -/
def frameTexts (drawing : Drawing) (state : List (Value × Value)) : List (Slot × Text) :=
  ((drawing.pair.takeDefines state).state.resolveSources (.map state)).toOption.getD []

/-- The texts of sources that come up in an event. -/
def sourceTexts (drawing : Drawing) : Event → List Text
  | .update _ state => (drawing.frameTexts state).map Prod.snd
  | _ => []

/-- The texts that are digested for keys of the cache in an event. -/
def keyTexts (drawing : Drawing) : Event → List Text
  | .update _ state => (drawing.pair.takeDefines state).state.requestKeys drawing.context.library
      (drawing.frameTexts state)
  | .library act => (act.keyText? drawing.context.library).toList
  | _ => []

/-- The transforms that an event adds although the pair has been compiled before. -/
def lateTransforms (drawing : Drawing) (event : Event) : List Transform :=
  if drawing.pair.compileCount = 0 then []
  else (event.perform drawing).context.library.composer.transforms.drop
    drawing.context.library.composer.transforms.length

/-- The store that a pair was compiled over on the way to another drawing, if it was compiled. -/
def storesUntil (drawing new : Drawing) : List FragmentStore :=
  if new.pair.compileCount = drawing.pair.compileCount then [] else [drawing.context.library.store]

/-- **The store of the last compilation in a run,** if the pair was compiled at all. -/
def lastStore (drawing : Drawing) (events : List Event) : Option FragmentStore :=
  (drawing.gather (fun drawing event => drawing.storesUntil (event.perform drawing)) events).getLast?

theorem lastStore_concat (drawing : Drawing) (events : List Event) (event : Event) :
    drawing.lastStore (events ++ [event])
      = ((drawing.run events).storesUntil (event.perform (drawing.run events))).getLast?.or
          (drawing.lastStore events) := by
  rw [lastStore, gather_concat, List.getLast?_append]
  rfl

theorem storesUntil_of_same {drawing new : Drawing}
    (h : new.pair.compileCount = drawing.pair.compileCount) : drawing.storesUntil new = [] :=
  if_pos h

end Drawing

namespace ShaderPair

/-! ## Updates -/

section Updates

variable {last : Option FragmentStore} {seen keys : List Text} {drawing behind : Drawing}
  {listing : Bool} {state : List (Value × Value)} {pair : ShaderPair} {texts : List (Slot × Text)}
  {outcome : Except Fault Bool}

theorem Ready.frameTexts_eq (h : Ready drawing state pair texts) :
    drawing.frameTexts state = texts := by
  rw [Drawing.frameTexts, ← h.pair_eq, h.resolved]
  rfl

theorem Ready.requestKeys_subset (h : Ready drawing state pair texts)
    (hkeys : drawing.keyTexts (.update listing state) ⊆ keys) :
    pair.requestKeys drawing.context.library texts ⊆ keys := by
  rw [Drawing.keyTexts, h.frameTexts_eq, ← h.pair_eq] at hkeys
  exact hkeys

theorem Ready.texts_subset (h : Ready drawing state pair texts)
    (hseen : drawing.sourceTexts (.update listing state) ⊆ seen) : texts.map Prod.snd ⊆ seen := by
  rw [Drawing.sourceTexts, h.frameTexts_eq] at hseen
  exact hseen

/-- An update keeps the cache sound. -/
theorem Course.sound (h : Course drawing listing state outcome behind)
    (hsound : Library.Sound keys drawing.context.library)
    (hkeys : drawing.keyTexts (.update listing state) ⊆ keys) :
    Library.Sound keys behind.context.library := by
  cases h with
  | broken hready htexts hdue h hleft =>
    exact sound_compileTexts hsound (hready.requestKeys_subset hkeys)
  | compiled hready htexts hdue h =>
    exact sound_compileTexts hsound (hready.requestKeys_subset hkeys)
  | _ => exact hsound

/-- Taking the defines of the frame in changes no snapshot. -/
theorem Dated.ready (h : Dated last seen drawing.pair drawing.context.library)
    (hready : Ready drawing state pair texts) : Dated last seen pair drawing.context.library :=
  h.later hready.untouched hready.remembers hready.unbuilt (.refl _) fun _ => rfl

/-- **Only a compilation changes the snapshot,** and what it leaves is consistent with the new
one. -/
theorem Course.dated (h : Course drawing listing state outcome behind)
    (hdated : Dated last seen drawing.pair drawing.context.library) (hsparse : drawing.pair.Sparse)
    (hsound : Library.Sound keys drawing.context.library) (hfreeKeys : Digest.CollisionFree keys)
    (hfreeSeen : Digest.CollisionFree seen) (hkeys : drawing.keyTexts (.update listing state) ⊆ keys)
    (hseen : drawing.sourceTexts (.update listing state) ⊆ seen) :
    Dated ((drawing.storesUntil behind).getLast?.or last) seen behind.pair
      behind.context.library := by
  have huntouched := h.untouched
  have hplain := h.context.2
  have htransforms : behind.context.library.composer.transforms
      = drawing.context.library.composer.transforms := by
    have hcomposer := congrArg (fun library => library.composer.transforms) hplain
    exact hcomposer
  -- Most courses compile nothing, and then all that matters is what is still remembered.
  have hstays : Remembers drawing.pair behind.pair → outcome ≠ .ok true →
      Dated ((drawing.storesUntil behind).getLast?.or last) seen behind.pair
        behind.context.library := by
    intro hremembers hout
    have hunbuilt := h.unbuilt hout
    rw [Drawing.storesUntil_of_same hunbuilt.compileCount]
    exact hdated.later huntouched hremembers hunbuilt (.of_plain_eq hplain) fun _ => htransforms
  cases h with
  | refused h => exact hstays (remembers_takeDefines _ _) (by simp)
  | unresolved htaken h => exact hstays (remembers_takeDefines _ _) (by simp)
  | broken hready htexts hdue h hleft =>
    exact hstays (hready.remembers.trans (remembers_of_left hleft)) (by simp)
  | kept hready hdue hkept =>
    exact hstays (hready.remembers.trans (remembers_reviewed _ _)) (by simp)
  | textless hready hdue =>
    obtain ⟨hlast, hcount, hresolved, hmemo⟩ :=
      (hdated.ready hready).uncompiled_of_textless hready.resolved
    rw [Drawing.storesUntil_of_same hready.unbuilt.compileCount]
    exact .uncompiled hlast hcount hresolved hmemo
  | @compiled pair texts compiled hready htexts hdue h =>
    have hcount : (pair.built drawing.context.library compiled).compileCount
        = drawing.pair.compileCount + 1 := by
      rw [compileCount_built, hready.unbuilt.compileCount]
    have hgrown : (pair.built drawing.context.library compiled).compileCount
        ≠ drawing.pair.compileCount := by omega
    have hconsistent := (hdated.ready hready).consistent_built (hready.sparse hsparse) hfreeKeys hsound
      (hready.requestKeys_subset hkeys) (hready.texts_subset hseen) hready.resolved htexts h hplain
    rw [Drawing.storesUntil, if_neg hgrown]
    refine .compiled ?_ ?_ hconsistent
    · rfl
    · dsimp only
      omega
  | @swapped pair texts hready hdue hswapped =>
    have hcount := compileCount_swap_reviewed pair drawing.context.library
      (pair.changes drawing.context.library texts)
    rw [Drawing.storesUntil_of_same (hcount.trans hready.unbuilt.compileCount)]
    exact (hdated.ready hready).swap hfreeSeen (hready.texts_subset hseen)
      (nodup_of_resolveSources hready.resolved) hswapped

end Updates

/-! ## Runs -/

/-- **What is known of a pair and its library in a run,** given the texts that come up in it and the
store of the last compilation. -/
structure Tracked (keys seen : List Text) (last : Option FragmentStore) (drawing : Drawing) :
    Prop where
  sound : Library.Sound keys drawing.context.library
  sparse : drawing.pair.Sparse
  dated : Dated last seen drawing.pair drawing.context.library

section Runs

variable {last : Option FragmentStore} {seen keys : List Text} {start drawing : Drawing}
  {listing : Bool} {state : List (Value × Value)} {event : Event}

/-- Programs play no part in what is compiled. -/
theorem Dated.with_program {pair : ShaderPair} {library : Library} (h : Dated last seen pair library)
    (programs : List (Nat × Option Nat)) (program : Option Nat) :
    Dated last seen { pair with programs := programs, program := program } library := by
  cases h with
  | uncompiled hlast hcount hresolved hmemo => exact .uncompiled hlast hcount hresolved hmemo
  | compiled hlast hcount h =>
    refine .compiled hlast hcount ?_
    exact ⟨h.before, h.transforms, h.macros, h.macroRevision, h.libraryRevision, h.storeRevision,
      h.sourced, h.placed, h.remembered⟩

/-- Nothing that happens makes the cache of the library unsound. -/
theorem sound_perform (hsound : Library.Sound keys drawing.context.library)
    (hkeys : drawing.keyTexts event ⊆ keys) :
    Library.Sound keys (event.perform drawing).context.library := by
  cases event with
  | update listing state =>
    obtain ⟨outcome, behind, hcourse, -, hlibrary, -⟩ := update_texts drawing listing state
    rw [Event.perform, hlibrary]
    exact hcourse.sound hsound hkeys
  | library act =>
    apply Library.sound_perform hsound
    intro key hkey
    exact hkeys (Option.mem_toList.2 hkey)
  | _ => exact hsound

theorem Tracked.update (h : Tracked keys seen last drawing) (hfreeKeys : Digest.CollisionFree keys)
    (hfreeSeen : Digest.CollisionFree seen) (hkeys : drawing.keyTexts (.update listing state) ⊆ keys)
    (hseen : drawing.sourceTexts (.update listing state) ⊆ seen) :
    Tracked keys seen
      ((drawing.storesUntil (ShaderPair.update drawing listing state).state).getLast?.or last)
      (ShaderPair.update drawing listing state).state := by
  obtain ⟨outcome, behind, hcourse, ⟨programs, program, hpair⟩, hlibrary, -⟩ :=
    update_texts drawing listing state
  have hdated := hcourse.dated h.dated h.sparse h.sound hfreeKeys hfreeSeen hkeys hseen
  rw [Drawing.storesUntil, hpair]
  refine ⟨sound_perform h.sound hkeys, ?_, ?_⟩
  · rw [hpair]
    exact hcourse.sparse h.sparse
  · rw [hpair, hlibrary]
    exact hdated.with_program programs program

/-- Between updates the store and the defines go on, and the snapshot stays. -/
theorem Tracked.quiet (h : Tracked keys seen last drawing) (hupdate : event.isUpdate = false)
    (hkeys : drawing.keyTexts event ⊆ keys) (hlate : drawing.lateTransforms event = []) :
    Tracked keys seen last (event.perform drawing) ∧
      (event.perform drawing).pair.compileCount = drawing.pair.compileCount := by
  obtain ⟨⟨macros, hpair, hsince⟩, hlibrary⟩ := quiet_perform hupdate drawing
  refine ⟨⟨sound_perform h.sound hkeys, ?_, ?_⟩, ?_⟩
  · rw [hpair]
    exact h.sparse
  -- A transform that is added late would change what the texts give, so none may be.
  · rw [hpair]
    refine h.dated.later ⟨rfl, rfl, hsince, rfl, rfl⟩ ⟨rfl, rfl, rfl⟩ ⟨rfl, rfl, rfl, rfl, .inl rfl⟩
      hlibrary ?_
    intro hcount
    rw [Drawing.lateTransforms, if_neg hcount, List.drop_eq_nil_iff] at hlate
    have hlength := Nat.le_antisymm hlibrary.transforms.length_le hlate
    exact (hlibrary.transforms.eq_of_length hlength).symm
  · rw [hpair]

/-- **In every run the texts of a pair are those of a snapshot,** as long as no digests collide and
no transform comes too late. -/
theorem Tracked.run (hstart : Tracked keys seen none start) (hfreeKeys : Digest.CollisionFree keys)
    (hfreeSeen : Digest.CollisionFree seen) {events : List Event}
    (hkeys : start.gather Drawing.keyTexts events ⊆ keys)
    (hseen : start.gather Drawing.sourceTexts events ⊆ seen)
    (hlate : start.gather Drawing.lateTransforms events = []) :
    Tracked keys seen (start.lastStore events) (start.run events) := by
  revert hkeys hseen hlate
  refine Drawing.run_induction start (motive := fun events drawing =>
    start.gather Drawing.keyTexts events ⊆ keys → start.gather Drawing.sourceTexts events ⊆ seen →
      start.gather Drawing.lateTransforms events = [] →
      Tracked keys seen (start.lastStore events) drawing) ?_ ?_ events
  · intro _ _ _
    exact hstart
  · intro events event ih hkeys hseen hlate
    rw [Drawing.gather_concat, List.append_subset] at hkeys hseen
    rw [Drawing.gather_concat, List.append_eq_nil_iff] at hlate
    have hbefore := ih hkeys.1 hseen.1 hlate.1
    rw [Drawing.lastStore_concat]
    by_cases hupdate : event.isUpdate = false
    · obtain ⟨hafter, hcount⟩ := hbefore.quiet hupdate hkeys.2 hlate.2
      rw [Drawing.storesUntil_of_same hcount]
      exact hafter
    · obtain ⟨listing, state, rfl⟩ := Event.eq_update_of_isUpdate hupdate
      exact hbefore.update hfreeKeys hfreeSeen hkeys.2 hseen.2

/-- A new pair beside a library with nothing in its cache. -/
theorem tracked_fresh (keys seen : List Text) {name : Value}
    {sources : Slots (Option ShaderSource)} {macros : MacroTable}
    (hcache : start.context.library.cache.entries = .empty)
    (hpair : start.pair = fresh name sources macros) : Tracked keys seen none start := by
  refine ⟨Library.sound_of_entries_empty hcache, ?_, ?_⟩
  · intro slot _
    rw [hpair]
    cases slot
    · exact ⟨rfl, rfl⟩
    · exact ⟨rfl, rfl⟩
  · rw [hpair]
    exact .uncompiled rfl rfl rfl rfl

/-- **The texts that drawing finds belong together.** Whatever happened to a pair and its library
before, each text that is drawn is what compiling the text of this frame gives without a cache, over
the store of the last compilation, which is the same for both, and with exactly the defines that
drawing finds beside the texts. -/
theorem compiled_over_lastStore {options : Library.Options} {name : Value}
    {sources : Slots (Option ShaderSource)} {macros : MacroTable} {events : List Event}
    {shown : List (Value × Value)}
    (hlibrary : Library.make options = .ok start.context.library)
    (hpair : start.pair = fresh name sources macros)
    (hlate : start.gather Drawing.lateTransforms events = [])
    (hfreeKeys : Digest.CollisionFree
      (start.gather Drawing.keyTexts (events ++ [.update listing state])))
    (hfreeSources : Digest.CollisionFree
      (start.gather Drawing.sourceTexts (events ++ [.update listing state])))
    (hshown : (update (start.run events) listing state).result = .ok shown) :
    ∃ defines, stateAt? shown "defines" = some defines ∧
      (∀ slot, sources.get slot = none → stateAt? shown slot.stateName = some .null) ∧
      ∀ slot source, sources.get slot = some source →
        ∃ store text compiled, start.lastStore (events ++ [.update listing state]) = some store ∧
          source.resolve (.map state) = .ok text ∧
          (((update (start.run events) listing state).state.context.library.bareOver store).compile
            (.text (start.pair.slotName slot)) text defines).result = .ok compiled ∧
          stateAt? shown slot.stateName = some (textValue compiled) := by
  have htracked : Tracked (start.gather Drawing.keyTexts (events ++ [.update listing state]))
      (start.gather Drawing.sourceTexts (events ++ [.update listing state]))
      (start.lastStore (events ++ [.update listing state]))
      (update (start.run events) listing state).state := by
    have hstart := tracked_fresh (start.gather Drawing.keyTexts (events ++ [.update listing state]))
      (start.gather Drawing.sourceTexts (events ++ [.update listing state]))
      (Library.entries_of_make hlibrary) hpair
    rw [Drawing.lastStore_concat]
    refine (hstart.run hfreeKeys hfreeSources ?_ ?_ hlate).update hfreeKeys hfreeSources ?_ ?_
    · rw [Drawing.gather_concat]
      exact List.subset_append_left _ _
    · rw [Drawing.gather_concat]
      exact List.subset_append_left _ _
    · rw [Drawing.gather_concat]
      exact List.subset_append_right _ _
    · rw [Drawing.gather_concat]
      exact List.subset_append_right _ _
  obtain ⟨hname, hsources⟩ := name_sources_update (start.run events) listing state
  obtain ⟨hnameRun, hsourcesRun⟩ := start.name_sources_run events
  obtain ⟨pair, texts, hready, hplaced, hown, hshared⟩ := settled_update hshown
  obtain rfl := eq_drawState_of_update hshown
  obtain ⟨htext, -, hdefines⟩ :=
    stateAt?_drawState (update (start.run events) listing state).state state
  have hpairSources : start.pair.sources = sources := by rw [hpair]; rfl
  refine ⟨_, hdefines, ?_, ?_⟩
  · intro slot hsource
    have hnone : (update (start.run events) listing state).state.pair.sources.get slot = none := by
      rw [hsources, hsourcesRun, hpairSources]
      exact hsource
    rw [htext, (htracked.sparse slot hnone).2]
    rfl
  · intro slot source hsource
    have hsome : pair.sources.get slot = some source := by
      rw [hready.untouched.sources, hsourcesRun, hpairSources]
      exact hsource
    obtain ⟨text, hmem, hresolve⟩ := exists_mem_of_resolveSources hready.resolved hsome
    have hresolved := hplaced slot text hmem
    -- There is a text in the slot, so the pair was compiled, and what stands there is what the
    -- snapshot gives.
    cases htracked.dated with
    | uncompiled hlast hcount hnone hmemo =>
      rw [hnone] at hresolved
      cases slot <;> cases hresolved
    | @compiled snapshot hlast hcount h =>
      refine ⟨snapshot.library.store, text, _, hlast, hresolve, ?_, htext slot⟩
      have hgives := h.placed slot text hresolved
      rw [slotName_congr (hname.trans hnameRun)] at hgives
      rw [drawDefines, MacroTable.overlay_texts]
      exact h.result_over hown hshared hgives

/-- A fragment is added behind the only compilation of a pair, which goes on being drawn as it was
compiled, over the store of then. -/
theorem compiled_over_lastStore_of_added_fragment :
    let start : Drawing := ⟨.around .recording, sketch⟩
    let events : List Event := [.update false (frame "int a;"),
      .library (.add (.text "b") (.text "int b;"))]
    start.gather Drawing.lateTransforms events = [] ∧
      Digest.CollisionFree
        (start.gather Drawing.keyTexts (events ++ [.update false (frame "int a;")])) ∧
      Digest.CollisionFree
        (start.gather Drawing.sourceTexts (events ++ [.update false (frame "int a;")])) ∧
      ∃ shown, (update (start.run events) false (frame "int a;")).result = .ok shown ∧
        ∃ defines, stateAt? shown "defines" = some defines ∧
          (∀ slot, sketch.sources.get slot = none → stateAt? shown slot.stateName = some .null) ∧
          ∀ slot source, sketch.sources.get slot = some source →
            ∃ store text compiled,
              start.lastStore (events ++ [.update false (frame "int a;")]) = some store ∧
              source.resolve (.map (frame "int a;")) = .ok text ∧
              (((update (start.run events) false (frame "int a;")).state.context.library.bareOver
                store).compile (.text (start.pair.slotName slot)) text defines).result
                  = .ok compiled ∧
              stateAt? shown slot.stateName = some (textValue compiled) := by
  intro start events
  obtain ⟨hlate, hkeys, hsources, hdrawn⟩ :
      (start.gather Drawing.lateTransforms events).isEmpty ∧
      Digest.CollisionFree
        (start.gather Drawing.keyTexts (events ++ [.update false (frame "int a;")])) ∧
      Digest.CollisionFree
        (start.gather Drawing.sourceTexts (events ++ [.update false (frame "int a;")])) ∧
      (update (start.run events) false (frame "int a;")).result.toOption.isSome := by
    decide +kernel +revert
  have hlibrary : Library.make { bundled := false } = .ok start.context.library := rfl
  have hnone := List.isEmpty_iff.1 hlate
  refine ⟨hnone, hkeys, hsources, ?_⟩
  cases hshown : (update (start.run events) false (frame "int a;")).result with
  | error fault => rw [hshown] at hdrawn; cases hdrawn
  | ok shown => exact ⟨shown, rfl, compiled_over_lastStore hlibrary rfl hnone hkeys hsources hshown⟩

end Runs

end ShaderPair

end GlslCompose
