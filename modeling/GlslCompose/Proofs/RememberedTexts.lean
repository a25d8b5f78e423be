/-
`Proofs/RememberedTexts.lean` -- with which transforms a remembered text was compiled.

An update that finds the text of a frame in the memo puts what is remembered for it in its
slot, and compiles nothing. So the memo has to be emptied whenever the text would compile
to something else. That happens where the defines or the store have changed
(`of_mem_kept`, `reviewed`), but a transform that is added leaves the memo as it is,
while the cache of the library has the number of transforms in its keys.

What a swap puts in place is therefore known exactly. It is what the text gives with the
store and the defines of now, but with the transforms that the library had when the text
was last compiled for the slot (`swapped_text_iff`). That is what the library itself would
answer now if no transform was added since, and otherwise only if the new ones make no
difference to the text. `swaps_untransformed_text` is a run in which they do.

The invariant is `Recalls`. It is void while the defines or the store are others than at
the last compilation (`Current`), because revisions never come back and the memo is emptied
before it is looked at again. A text that is compiled anew gets a new entry in the place of
the old one, and that is where the keys of the memo have to be different: of two entries
under one key the older one would survive.
-/
import GlslCompose.Proofs.Snapshot

set_option autoImplicit false

namespace GlslCompose

/-! ## Memos whose keys come once -/

namespace Memo

variable {κ ν : Type} [BEq κ] [LawfulBEq κ] {key : κ} {value : ν} {memo : List (κ × ν)}

theorem nodup_keys_remember (h : (Pairs.keys memo).Nodup) :
    (Pairs.keys (remember key value memo)).Nodup := by
  rw [remember]
  apply Pairs.nodup_keys_put
  split
  · exact List.Sublist.nodup ((List.drop_sublist 1 memo).map Prod.fst) h
  · exact h

/-- What is remembered under a key takes the place of what was remembered under it before. -/
theorem mem_remember_of_nodup (h : (Pairs.keys memo).Nodup) {entry : κ × ν}
    (hmem : entry ∈ remember key value memo) :
    entry = (key, value) ∨ (entry ∈ memo ∧ entry.1 ≠ key) := by
  rcases mem_remember hmem with heq | hold
  · exact .inl heq
  · by_cases hkey : entry.1 = key
    · have hnew : (key, value) ∈ remember key value memo := mem_of_get? (Pairs.get?_put_self _ _ _)
      exact .inl (List.inj_on_of_nodup_map (nodup_keys_remember h) hmem hnew hkey)
    · exact .inr ⟨hold, hkey⟩

end Memo

/-! ## Transforms of another time -/

namespace Library

/-- The library with other transforms. -/
def withTransforms (library : Library) (transforms : List Transform) : Library :=
  library.withComposer { library.composer with transforms := transforms }

/-- With given transforms, libraries that agree in everything else compile the same. -/
theorem result_compile_withTransforms {library other : Library} (hstore : other.store = library.store)
    (hmacros : other.macros = library.macros) (hprecision : other.precision = library.precision)
    (hversion : other.version = library.version) (transforms : List Transform) (name : FileName)
    (source : Text) (defines : Value) :
    ((other.withTransforms transforms).plain.compile name source defines).result
      = ((library.withTransforms transforms).plain.compile name source defines).result := by
  apply result_compile_plain_congr
  · exact hstore
  · rfl
  · exact hprecision
  · exact hversion
  · exact congrArg (fun table : MacroTable => table.active defines) hmacros

end Library

namespace Drawing

/-- What compiling a text for a slot of the pair answers. -/
def compiledNow (drawing : Drawing) (slot : Slot) (text : Text) : Except Fault (Option Text) :=
  (drawing.context.library.compile (.text (drawing.pair.slotName slot)) text
    drawing.pair.macros.toValue).result

/-- What it would answer without a cache, and with other transforms. -/
def compiledWith (drawing : Drawing) (transforms : List Transform) (slot : Slot) (text : Text) :
    Except Fault (Option Text) :=
  ((drawing.context.library.withTransforms transforms).plain.compile
    (.text (drawing.pair.slotName slot)) text drawing.pair.macros.toValue).result

/-- The transforms that the library has while a text is compiled for a slot in an event, if it is. -/
def transformsFor (slot : Slot) (text : Text) (drawing : Drawing) : Event → List (List Transform)
  | .update listing state =>
    if (ShaderPair.update drawing listing state).state.pair.compileCount ≠ drawing.pair.compileCount
        ∧ (slot, text) ∈ drawing.frameTexts state then
      [drawing.context.library.composer.transforms]
    else []
  | _ => []

/-- **The transforms with which a text was last compiled for a slot in a run,** if it was. -/
def lastTransforms (drawing : Drawing) (events : List Event) (slot : Slot) (text : Text) :
    Option (List Transform) :=
  (drawing.gather (transformsFor slot text) events).getLast?

theorem lastTransforms_concat (drawing : Drawing) (events : List Event) (event : Event) (slot : Slot)
    (text : Text) :
    drawing.lastTransforms (events ++ [event]) slot text
      = ((drawing.run events).transformsFor slot text event).getLast?.or
          (drawing.lastTransforms events slot text) := by
  rw [lastTransforms, gather_concat, List.getLast?_append]
  rfl

end Drawing

namespace ShaderPair

/-! ## What a memo is good for -/

/-- **Neither the defines nor the store have changed** since the pair was last compiled. -/
structure Current (pair : ShaderPair) (library : Library) : Prop where
  macros : pair.macroRevision = some pair.macros.revision
  shared : pair.libraryRevision = some library.macros.revision
  store : pair.storeRevision = some library.store.revision

/-- **A pair recalls what it remembers:** each compiled text in the memo is what one of some texts
gives with the defines and the store of now, as long as these have not changed, and with the
transforms that it was last compiled with. These are the first ones of those that there are now. -/
structure Recalls (last : Slot → Text → Option (List Transform)) (seen : List Text)
    (pair : ShaderPair) (library : Library) : Prop where
  nodup : (Pairs.keys pair.memo).Nodup
  sourced : pair.memo ≠ [] → ∃ slot, pair.sources.get slot ≠ none
  recalled : pair.Current library → ∀ slot digest compiled, ((slot, digest), compiled) ∈ pair.memo →
    ∃ text ∈ seen, Digest.ofText text = digest ∧
      ∃ transforms, last slot text = some transforms ∧
        transforms <+: library.composer.transforms ∧
        ((library.withTransforms transforms).plain.compile (.text (pair.slotName slot)) text
          pair.macros.toValue).result = .ok compiled

section Recalled

variable {last lastNow : Slot → Text → Option (List Transform)} {seen keys : List Text}
  {pair other : ShaderPair} {library libraryNow : Library}

/-- A pair that remembers nothing recalls it. -/
theorem recalls_of_memo_eq_nil (h : pair.memo = []) : Recalls last seen pair library := by
  refine ⟨?_, fun hne => absurd h hne, ?_⟩
  · rw [h]
    exact List.nodup_nil
  · intro _ slot digest compiled hmem
    rw [h] at hmem
    cases hmem

/-- What is current now was current before, with the same defines and the same store, since no
revision comes back. -/
theorem Current.before (h : other.Current libraryNow) (hrecorded : Recorded pair library)
    (hremembers : Remembers pair other) (hmacros : pair.macros.Since other.macros)
    (hbefore : library.Before libraryNow) :
    pair.Current library ∧ other.macros = pair.macros ∧ libraryNow.macros = library.macros ∧
      libraryNow.store = library.store := by
  have hown := hremembers.macroRevision.symm.trans h.macros
  have hshared := hremembers.libraryRevision.symm.trans h.shared
  have hstore := hremembers.storeRevision.symm.trans h.store
  have hownSame := Nat.le_antisymm (hrecorded.macros _ hown) hmacros.le
  have hsharedSame := Nat.le_antisymm (hrecorded.shared _ hshared) hbefore.macros.le
  have hstoreSame := Nat.le_antisymm (hrecorded.store _ hstore) hbefore.store.le
  refine ⟨⟨?_, ?_, ?_⟩, ?_, ?_, ?_⟩
  · rw [hown, hownSame]
  · rw [hshared, hsharedSame]
  · rw [hstore, hstoreSame]
  · exact hmacros.eq_of_revision hownSame
  · exact hbefore.macros.eq_of_revision hsharedSame
  · exact hbefore.store.eq_of_revision hstoreSame

/-- **As long as nothing is compiled a pair goes on to recall what it remembers,** whatever becomes of
the library. -/
theorem Recalls.later (h : Recalls last seen pair library) (hrecorded : Recorded pair library)
    (huntouched : Untouched pair other) (hremembers : Remembers pair other)
    (hmemo : other.memo = pair.memo ∨ other.memo = []) (hbefore : library.Before libraryNow) :
    Recalls last seen other libraryNow := by
  rcases hmemo with hmemo | hmemo
  · refine ⟨?_, ?_, ?_⟩
    · rw [hmemo]
      exact h.nodup
    · rw [hmemo, huntouched.sources]
      exact h.sourced
    · -- What is current now was current before, so each entry was recalled then.
      intro hcurrent slot digest compiled hmem
      rw [hmemo] at hmem
      obtain ⟨hcurrentBefore, hmacros, hshared, hstore⟩ :=
        hcurrent.before hrecorded hremembers huntouched.macros hbefore
      obtain ⟨text, hseen, hdigest, transforms, hlast, hprefix, hgives⟩ :=
        h.recalled hcurrentBefore slot digest compiled hmem
      refine ⟨text, hseen, hdigest, transforms, hlast, hprefix.trans hbefore.transforms, ?_⟩
      rw [slotName_congr huntouched.name, hmacros, Library.result_compile_withTransforms hstore hshared
        hbefore.precision hbefore.version]
      exact hgives
  · exact recalls_of_memo_eq_nil hmemo

/-- The cache of the library has no part in that. -/
theorem Recalls.of_plain_eq (h : Recalls last seen pair library)
    (hplain : libraryNow.plain = library.plain) : Recalls last seen pair libraryNow := by
  have hshared := Library.macros_eq_of_plain hplain
  have hstore := Library.store_eq_of_plain hplain
  have hprecision : libraryNow.plain.precision = library.plain.precision := by rw [hplain]
  have hversion : libraryNow.plain.version = library.plain.version := by rw [hplain]
  have htransforms : libraryNow.plain.composer.transforms = library.plain.composer.transforms := by
    rw [hplain]
  refine ⟨h.nodup, h.sourced, ?_⟩
  intro hcurrent slot digest compiled hmem
  have hcurrentBefore : pair.Current library :=
    ⟨hcurrent.macros, hshared ▸ hcurrent.shared, hstore ▸ hcurrent.store⟩
  obtain ⟨text, hseen, hdigest, transforms, hlast, hprefix, hgives⟩ :=
    h.recalled hcurrentBefore slot digest compiled hmem
  refine ⟨text, hseen, hdigest, transforms, hlast, htransforms ▸ hprefix, ?_⟩
  rw [Library.result_compile_withTransforms hstore hshared hprecision hversion]
  exact hgives

end Recalled

/-! ## Compiling -/

section Built

variable {items : List (Slot × Text × Option Text)} {entry : (Slot × Nat) × Option Text}

theorem nodup_keys_commit {pair : ShaderPair} (h : (Pairs.keys pair.memo).Nodup) :
    (Pairs.keys (pair.commit items).memo).Nodup := by
  induction items generalizing pair with
  | nil => exact h
  | cons item rest ih =>
    rw [commit]
    apply ih
    exact Memo.nodup_keys_remember h

/-- What is in the memo behind a compilation was compiled in it, or is older and of another text. -/
theorem mem_memo_commit_of_nodup {pair : ShaderPair} (hnodup : (Pairs.keys pair.memo).Nodup)
    (h : entry ∈ (pair.commit items).memo) :
    (entry ∈ pair.memo ∧ ∀ slot text compiled, (slot, text, compiled) ∈ items →
        entry.1 ≠ memoKey slot text) ∨
      ∃ slot text compiled, (slot, text, compiled) ∈ items ∧
        entry = (memoKey slot text, compiled) := by
  induction items generalizing pair with
  | nil => exact .inl ⟨h, fun _ _ _ hmem => nomatch hmem⟩
  | cons item rest ih =>
    obtain ⟨own, found, result⟩ := item
    rw [commit] at h
    rcases ih (Memo.nodup_keys_remember hnodup) h with ⟨hold, hrest⟩ | ⟨slot, text, compiled, hmem, heq⟩
    · rcases Memo.mem_remember_of_nodup hnodup hold with heq | ⟨hmemo, hne⟩
      · exact .inr ⟨own, found, result, List.mem_cons_self, heq⟩
      · refine .inl ⟨hmemo, fun slot text compiled hmem => ?_⟩
        rcases List.mem_cons.1 hmem with heq | hmem
        · obtain ⟨rfl, htext⟩ := Prod.mk.inj heq
          obtain ⟨rfl, -⟩ := Prod.mk.inj htext
          exact hne
        · exact hrest slot text compiled hmem
    · exact .inr ⟨slot, text, compiled, List.mem_cons_of_mem _ hmem, heq⟩

end Built

section Compiled

variable {last lastNow : Slot → Text → Option (List Transform)} {seen keys : List Text}
  {pair : ShaderPair} {library libraryNow : Library} {listing : Bool}
  {state : List (Value × Value)} {texts : List (Slot × Text)}
  {compiled : List (Slot × Text × Option Text)}

/-- **A pair recalls what was compiled just now,** with the transforms that there are, and of the rest
what it still remembers. -/
theorem Recalls.built (h : Recalls last seen pair library) (hfree : Digest.CollisionFree keys)
    (hsound : Library.Sound keys library) (hkeys : pair.requestKeys library texts ⊆ keys)
    (hseen : texts.map Prod.snd ⊆ seen) (hresolved : pair.resolveSources (.map state) = .ok texts)
    (htexts : texts ≠ [])
    (hcompiled : (compileTexts pair listing library texts).result = .ok compiled)
    (hnew : ∀ slot text, (slot, text) ∈ texts →
      lastNow slot text = some library.composer.transforms)
    (hold : ∀ slot text, (slot, text) ∉ texts → lastNow slot text = last slot text) :
    Recalls lastNow seen (pair.built library compiled) library := by
  have huntouched := untouched_built pair library compiled
  have hnodup : (Pairs.keys (pair.forgetIf (pair.definesChanged library
      || some library.store.revision != pair.storeRevision)).memo).Nodup := by
    rw [forgetIf_eq]
    dsimp only
    split
    · exact List.nodup_nil
    · exact h.nodup
  refine ⟨nodup_keys_commit hnodup, fun _ => ?_, ?_⟩
  · obtain ⟨⟨slot, text⟩, hmem⟩ := List.exists_mem_of_ne_nil texts htexts
    obtain ⟨source, hsource, -⟩ := (mem_iff_of_resolveSources hresolved slot text).1 hmem
    refine ⟨slot, ?_⟩
    rw [huntouched.sources, hsource]
    exact Option.some_ne_none source
  · intro _ slot digest found hmem
    rw [slotName_congr huntouched.name, macros_built]
    rcases mem_memo_commit_of_nodup hnodup hmem with ⟨hkept, hother⟩ | ⟨own, text, result, hitem, heq⟩
    · obtain ⟨hmemo, hown, hshared, hstore⟩ := of_mem_kept hkept
      obtain ⟨text, htext, rfl, transforms, hlast, hrest⟩ :=
        h.recalled ⟨hown, hshared, hstore⟩ slot digest found hmemo
      -- Had the text been compiled just now, its entry would be a new one.
      have hnot : (slot, text) ∉ texts := by
        intro hmem
        obtain ⟨result, hitem⟩ := mem_compiled_of_mem hcompiled hmem
        exact hother slot text result hitem rfl
      exact ⟨text, htext, rfl, transforms, (hold slot text hnot).trans hlast, hrest⟩
    · obtain ⟨hkey, rfl⟩ := Prod.mk.inj heq
      obtain ⟨rfl, rfl⟩ := Prod.mk.inj hkey
      have htext : (slot, text) ∈ texts := by
        rw [← map_of_compileTexts_ok hcompiled]
        exact List.mem_map.2 ⟨_, hitem, rfl⟩
      exact ⟨text, hseen (List.mem_map.2 ⟨_, htext, rfl⟩), rfl, _, hnew slot text htext,
        List.prefix_rfl, result_compile_of_mem hfree hsound hkeys hcompiled hitem⟩

end Compiled

/-! ## Updates -/

section Updates

variable {last lastNow : Slot → Text → Option (List Transform)} {seen keys : List Text}
  {start drawing behind : Drawing} {listing : Bool} {state : List (Value × Value)}
  {pair : ShaderPair} {texts : List (Slot × Text)} {outcome : Except Fault Bool}

theorem Ready.recalls (h : Ready drawing state pair texts)
    (hrecalls : Recalls last seen drawing.pair drawing.context.library)
    (hrecorded : Recorded drawing.pair drawing.context.library) :
    Recalls last seen pair drawing.context.library :=
  hrecalls.later hrecorded h.untouched h.remembers h.unbuilt.memo (.refl _)

/-- Going back to remembered texts compiles nothing and forgets nothing. -/
theorem compileCount_memo_swap (pair : ShaderPair) (items : List (Slot × Text × Change)) :
    (pair.swap items).compileCount = pair.compileCount ∧ (pair.swap items).memo = pair.memo := by
  obtain ⟨resolved, compiled, heq⟩ := swap_eq pair items
  rw [heq]
  exact ⟨rfl, rfl⟩

/-- **Each course of an update leaves a pair that recalls what it remembers,** where the texts that were
compiled in it now have the transforms of now. -/
theorem Course.recalls (h : Course drawing listing state outcome behind)
    (hrecalls : Recalls last seen drawing.pair drawing.context.library)
    (hrecorded : Recorded drawing.pair drawing.context.library)
    (hsound : Library.Sound keys drawing.context.library) (hfree : Digest.CollisionFree keys)
    (hkeys : drawing.keyTexts (.update listing state) ⊆ keys)
    (hseen : drawing.sourceTexts (.update listing state) ⊆ seen)
    (hlast : ∀ slot text, lastNow slot text =
      if behind.pair.compileCount ≠ drawing.pair.compileCount
          ∧ (slot, text) ∈ drawing.frameTexts state then
        some drawing.context.library.composer.transforms
      else last slot text) :
    Recalls lastNow seen behind.pair behind.context.library := by
  have hplain := h.context.2
  -- Where nothing is compiled, the transforms of all texts are what they were.
  have hstays : behind.pair.compileCount = drawing.pair.compileCount → lastNow = last := by
    intro hcount
    funext slot text
    rw [hlast, if_neg (fun hcompiled => hcompiled.1 hcount)]
  have hlater : outcome ≠ .ok true → Remembers drawing.pair behind.pair →
      Recalls lastNow seen behind.pair behind.context.library := by
    intro hout hremembers
    have hunbuilt := h.unbuilt hout
    rw [hstays hunbuilt.compileCount]
    exact hrecalls.later hrecorded h.untouched hremembers hunbuilt.memo (.of_plain_eq hplain)
  cases h with
  | refused h => exact hlater (by simp) (remembers_takeDefines _ _)
  | unresolved htaken h => exact hlater (by simp) (remembers_takeDefines _ _)
  | broken hready htexts hdue h hleft =>
    exact hlater (by simp) (hready.remembers.trans (remembers_of_left hleft))
  | kept hready hdue hkept =>
    exact hlater (by simp) (hready.remembers.trans (remembers_reviewed _ _))
  | @textless pair hready hdue =>
    -- The defines are marked although nothing was compiled, but without sources there is no memo.
    apply recalls_of_memo_eq_nil
    have hpair := hready.recalls hrecalls hrecorded
    refine Decidable.byContradiction fun hmemo => ?_
    obtain ⟨slot, hslot⟩ := hpair.sourced hmemo
    cases hsource : pair.sources.get slot with
    | none => exact hslot hsource
    | some source =>
      obtain ⟨text, hmem, -⟩ := exists_mem_of_resolveSources hready.resolved hsource
      cases hmem
  | @compiled pair texts compiled hready htexts hdue h =>
    have hgrown : (pair.built drawing.context.library compiled).compileCount
        ≠ drawing.pair.compileCount := by
      rw [compileCount_built, hready.unbuilt.compileCount]
      omega
    refine ((hready.recalls hrecalls hrecorded).built hfree hsound (hready.requestKeys_subset hkeys)
      (hready.texts_subset hseen) hready.resolved htexts h ?_ ?_).of_plain_eq hplain
    · intro slot text hmem
      rw [hlast, hready.frameTexts_eq, if_pos ⟨hgrown, hmem⟩]
    · intro slot text hmem
      rw [hlast, hready.frameTexts_eq, if_neg (fun hnow => hmem hnow.2)]
  | @swapped pair texts hready hdue hswapped =>
    obtain ⟨hcount, hmemo⟩ := compileCount_memo_swap (pair.reviewed drawing.context.library)
      (pair.changes drawing.context.library texts)
    have hreviewed := unbuilt_forgetIf pair
      (some drawing.context.library.store.revision != pair.storeRevision)
    rw [hstays ((hcount.trans hreviewed.compileCount).trans hready.unbuilt.compileCount)]
    refine (hready.recalls hrecalls hrecorded).later (hready.recorded hrecorded)
      ((untouched_forgetIf _ _).trans (untouched_swap _ _))
      ((remembers_reviewed _ _).trans (remembers_swap _ _)) ?_ (.refl _)
    rw [hmemo]
    exact hreviewed.memo

/-! ## Runs -/

theorem lastTransforms_update (start : Drawing) (events : List Event) (listing : Bool)
    (state : List (Value × Value)) (slot : Slot) (text : Text) :
    start.lastTransforms (events ++ [.update listing state]) slot text =
      if (update (start.run events) listing state).state.pair.compileCount
            ≠ (start.run events).pair.compileCount
          ∧ (slot, text) ∈ (start.run events).frameTexts state then
        some (start.run events).context.library.composer.transforms
      else start.lastTransforms events slot text := by
  rw [Drawing.lastTransforms_concat, Drawing.transformsFor]
  split
  · rfl
  · rfl

theorem lastTransforms_quiet (start : Drawing) (events : List Event) {event : Event}
    (h : event.isUpdate = false) :
    start.lastTransforms (events ++ [event]) = start.lastTransforms events := by
  funext slot text
  rw [Drawing.lastTransforms_concat]
  cases event with
  | update listing state => cases h
  | _ => rfl

/-- The cache of a library stays sound in every run. -/
theorem sound_run (hsound : Library.Sound keys start.context.library) {events : List Event}
    (hkeys : start.gather Drawing.keyTexts events ⊆ keys) :
    Library.Sound keys (start.run events).context.library := by
  revert hkeys
  refine Drawing.run_induction start (motive := fun events drawing =>
    start.gather Drawing.keyTexts events ⊆ keys → Library.Sound keys drawing.context.library)
    ?_ ?_ events
  · intro _
    exact hsound
  · intro events event ih hkeys
    rw [Drawing.gather_concat, List.append_subset] at hkeys
    exact sound_perform (ih hkeys.1) hkeys.2

/-- **In every run a pair recalls what it remembers,** with the transforms that each text was last
compiled with. -/
theorem recalls_run (hcache : start.context.library.cache.entries = .empty) {name : Value}
    {sources : Slots (Option ShaderSource)} {macros : MacroTable}
    (hpair : start.pair = fresh name sources macros) (hfree : Digest.CollisionFree keys)
    {events : List Event} (hkeys : start.gather Drawing.keyTexts events ⊆ keys)
    (hseen : start.gather Drawing.sourceTexts events ⊆ seen) :
    Recalls (start.lastTransforms events) seen (start.run events).pair
      (start.run events).context.library := by
  have hstart : start = ⟨start.context, fresh name sources macros⟩ := by rw [← hpair]
  revert hkeys hseen
  refine Drawing.run_induction start (motive := fun events drawing =>
    start.gather Drawing.keyTexts events ⊆ keys → start.gather Drawing.sourceTexts events ⊆ seen →
      Recalls (start.lastTransforms events) seen drawing.pair drawing.context.library) ?_ ?_ events
  -- A new pair remembers nothing.
  · intro _ _
    apply recalls_of_memo_eq_nil
    rw [hpair]
    rfl
  · intro events event ih hkeys hseen
    rw [Drawing.gather_concat, List.append_subset] at hkeys hseen
    have hbefore := ih hkeys.1 hseen.1
    have hrecorded : Recorded (start.run events).pair (start.run events).context.library := by
      rw [hstart]
      exact recorded_run _ _ _ _ _
    by_cases hupdate : event.isUpdate = false
    · -- Between updates the memo stays, and the library only goes on.
      obtain ⟨⟨table, hnow, hsince⟩, hlibrary⟩ := quiet_perform hupdate (start.run events)
      rw [lastTransforms_quiet start events hupdate, hnow]
      exact hbefore.later hrecorded ⟨rfl, rfl, hsince, rfl, rfl⟩ ⟨rfl, rfl, rfl⟩ (.inl rfl) hlibrary
    · obtain ⟨listing, state, rfl⟩ := Event.eq_update_of_isUpdate hupdate
      obtain ⟨outcome, behind, hcourse, ⟨programs, program, hnow⟩, hlibrary, -⟩ :=
        update_texts (start.run events) listing state
      have hsound := sound_run (Library.sound_of_entries_empty hcache) hkeys.1
      have hlast := lastTransforms_update start events listing state
      rw [hnow] at hlast
      have hbehind := hcourse.recalls hbefore hrecorded hsound hfree hkeys.2 hseen.2 hlast
      rw [Event.perform, hnow, hlibrary]
      exact ⟨hbehind.nodup, hbehind.sourced, fun hcurrent =>
        hbehind.recalled ⟨hcurrent.macros, hcurrent.shared, hcurrent.store⟩⟩

/-- **A text that comes to its slot without a compilation is remembered,** and nothing has changed that
empties the memo. -/
theorem Course.remembered {slot : Slot} {text : Text}
    (h : Course drawing listing state outcome behind)
    (hcount : behind.pair.compileCount = drawing.pair.compileCount)
    (htext : behind.pair.resolved.get slot = some text)
    (hnew : drawing.pair.resolved.get slot ≠ some text) :
    behind.pair.Current behind.context.library ∧
      (memoKey slot text, behind.pair.compiled.get slot) ∈ behind.pair.memo ∧
      ∃ pair texts, Ready drawing state pair texts ∧ (slot, text) ∈ texts ∧
        behind.pair.macros = pair.macros ∧ behind.context.library = drawing.context.library := by
  have hbuilt : outcome = .ok true := by
    refine Classical.byContradiction fun hout => hnew ?_
    rw [← (h.unbuilt hout).resolved]
    exact htext
  subst hbuilt
  obtain ⟨-, -, -, -, hown, hshared⟩ := h.settled
  cases h with
  | @compiled pair texts compiled hready htexts hdue h =>
    rw [compileCount_built, hready.unbuilt.compileCount] at hcount
    omega
  | @swapped pair texts hready hdue hswapped =>
    have hreviewed := reviewed_eq pair drawing.context.library
    obtain ⟨resolved, compiled, heq⟩ := swap_eq (pair.reviewed drawing.context.library)
      (pair.changes drawing.context.library texts)
    by_cases hslot : slot ∈ swappedSlots (pair.changes drawing.context.library texts)
    · obtain ⟨own, found, hchange⟩ := mem_swappedSlots.1 hslot
      obtain ⟨hplaced, hfound⟩ := get_swap_of_mem (pair.reviewed drawing.context.library)
        (nodup_changes pair _ (nodup_of_resolveSources hready.resolved)) hchange
      obtain rfl := Option.some.inj (hplaced.symm.trans htext)
      obtain ⟨hmem, hto⟩ := mem_changes.1 hchange
      have hentry := Memo.mem_of_get? (get?_memo_of_swapTo hto.symm).1
      -- There would be nothing to find in a memo that is for another store.
      have hstore : pair.storeRevision = some drawing.context.library.store.revision := by
        rw [hreviewed] at hentry
        dsimp only at hentry
        split at hentry
        · cases hentry
        · rename_i hgood
          rw [bne_iff_ne, ne_eq, Decidable.not_not] at hgood
          exact hgood.symm
      refine ⟨⟨hown, hshared, ?_⟩, ?_, pair, texts, hready, hmem, ?_, rfl⟩
      · rw [heq, hreviewed]
        exact hstore
      · rw [hfound, (compileCount_memo_swap _ _).2]
        exact hentry
      · rw [heq, hreviewed]
    -- A slot that is not swapped has the text that it had.
    · have hkept := (get_swap_of_not_mem (pair.reviewed drawing.context.library) hslot).1
      have hbefore : (pair.reviewed drawing.context.library).resolved = drawing.pair.resolved := by
        rw [hreviewed]
        exact hready.unbuilt.resolved
      rw [hbefore] at hkept
      exact absurd (hkept.symm.trans htext) hnew

/-- The cache of the library answers what compiling without it does. -/
theorem compiledNow_eq {slot : Slot} {text : Text} (hfree : Digest.CollisionFree keys)
    (hsound : Library.Sound keys drawing.context.library)
    (hkeys : drawing.pair.requestKeys drawing.context.library [(slot, text)] ⊆ keys) :
    drawing.compiledNow slot text
      = drawing.compiledWith drawing.context.library.composer.transforms slot text := by
  obtain ⟨hkey, -⟩ := requestKeys_cons_subset hkeys
  exact Library.result_compile hfree hsound hkey

/-- A text of the frame is asked for under a key that the update would have asked for. -/
theorem Ready.requestKeys_singleton_subset {slot : Slot} {text : Text} {after : ShaderPair}
    {library : Library} (h : Ready drawing state pair texts) (hmem : (slot, text) ∈ texts)
    (hkeys : drawing.keyTexts (.update listing state) ⊆ keys) (hname : after.name = pair.name)
    (hmacros : after.macros = pair.macros) (hlibrary : library = drawing.context.library) :
    after.requestKeys library [(slot, text)] ⊆ keys := by
  have hone : after.requestKeys library [(slot, text)]
      = pair.requestKeys drawing.context.library [(slot, text)] := by
    simp only [requestKeys, List.filterMap_cons, List.filterMap_nil, slotName_congr hname, hmacros,
      hlibrary]
  rw [hone]
  intro key hkey
  obtain ⟨item, hitem, hfound⟩ := List.mem_filterMap.1 hkey
  obtain rfl := List.mem_singleton.1 hitem
  exact h.requestKeys_subset hkeys (List.mem_filterMap.2 ⟨_, hmem, hfound⟩)

/-- **What a swap puts in place.** Whatever happened to a pair and its library before: where an update
puts another text in a slot without compiling, this is the text of the frame, and what it puts beside it
is what the text gives at that moment without a cache, but with the transforms of the last time when it
was compiled for the slot. So it is what the library itself would answer exactly if the transforms that
were added since then make no difference to the text. -/
theorem swapped_text_iff {options : Library.Options} {name : Value}
    {sources : Slots (Option ShaderSource)} {macros : MacroTable} {events : List Event} {slot : Slot}
    {text : Text} {after : Drawing} (hlibrary : Library.make options = .ok start.context.library)
    (hpair : start.pair = fresh name sources macros)
    (hfreeKeys : Digest.CollisionFree
      (start.gather Drawing.keyTexts (events ++ [.update listing state])))
    (hfreeSources : Digest.CollisionFree
      (start.gather Drawing.sourceTexts (events ++ [.update listing state])))
    (hafter : (update (start.run events) listing state).state = after)
    (hcount : after.pair.compileCount = (start.run events).pair.compileCount)
    (hnew : (start.run events).pair.resolved.get slot ≠ some text)
    (htext : after.pair.resolved.get slot = some text) :
    ∃ source transforms,
      sources.get slot = some source ∧ source.resolve (.map state) = .ok text ∧
      start.lastTransforms events slot text = some transforms ∧
      transforms <+: after.context.library.composer.transforms ∧
      after.compiledWith transforms slot text = .ok (after.pair.compiled.get slot) ∧
      (after.compiledNow slot text = .ok (after.pair.compiled.get slot) ↔
        after.compiledWith after.context.library.composer.transforms slot text
          = after.compiledWith transforms slot text) := by
  have hcache := Library.entries_of_make hlibrary
  have hrun : start.run (events ++ [.update listing state]) = after := by
    rw [Drawing.run_append]
    exact hafter
  have hrecalls := recalls_run hcache hpair hfreeKeys (List.Subset.refl _) (List.Subset.refl _)
  have hsound := sound_run (Library.sound_of_entries_empty hcache) (List.Subset.refl
    (start.gather Drawing.keyTexts (events ++ [.update listing state])))
  rw [hrun] at hrecalls hsound
  -- Nothing was compiled, so the transforms of all texts are those of before.
  have hlast : start.lastTransforms (events ++ [.update listing state]) slot text
      = start.lastTransforms events slot text := by
    rw [lastTransforms_update, hafter, if_neg (fun hcompiled => hcompiled.1 hcount)]
  obtain ⟨outcome, behind, hcourse, ⟨programs, program, hbehind⟩, hshared, -⟩ :=
    update_texts (start.run events) listing state
  rw [hafter] at hbehind hshared
  have hcountBehind := hcount
  rw [hbehind] at hcountBehind htext
  obtain ⟨hcurrent, hmemo, pair, texts, hready, hmem, hmacros, hsame⟩ :=
    hcourse.remembered hcountBehind htext hnew
  have hcurrentNow : after.pair.Current after.context.library := by
    rw [hbehind, hshared]
    exact ⟨hcurrent.macros, hcurrent.shared, hcurrent.store⟩
  have hentry : (memoKey slot text, after.pair.compiled.get slot) ∈ after.pair.memo := by
    rw [hbehind]
    exact hmemo
  obtain ⟨past, hpast, hdigest, transforms, htransforms, hprefix, hgives⟩ :=
    hrecalls.recalled hcurrentNow _ _ _ hentry
  rw [Drawing.gather_concat] at hfreeSources hpast hfreeKeys hsound
  -- The memo knows digests only, but those of the texts that came up do not collide.
  have hseen := hready.texts_subset (List.subset_append_right
    (start.gather Drawing.sourceTexts events) ((start.run events).sourceTexts (.update listing state)))
  obtain rfl : past = text :=
    hfreeSources past hpast text (hseen (List.mem_map.2 ⟨_, hmem, rfl⟩)) hdigest
  have hplaced : after.compiledWith transforms slot past = .ok (after.pair.compiled.get slot) := hgives
  have hkeys : after.pair.requestKeys after.context.library [(slot, past)]
      ⊆ start.gather Drawing.keyTexts events
        ++ (start.run events).keyTexts (.update listing state) := by
    refine hready.requestKeys_singleton_subset hmem (List.subset_append_right _ _) ?_ ?_ ?_
    · rw [hbehind, hready.untouched.name]
      exact hcourse.untouched.name
    · rw [hbehind]
      exact hmacros
    · rw [hshared, hsame]
  obtain ⟨source, hsource, hresolve⟩ := (mem_iff_of_resolveSources hready.resolved slot past).1 hmem
  rw [hready.untouched.sources, (start.name_sources_run events).2, hpair] at hsource
  refine ⟨source, transforms, hsource, hresolve, hlast.symm.trans htransforms, hprefix, hplaced, ?_⟩
  rw [compiledNow_eq hfreeKeys hsound hkeys, hplaced]

end Updates

/-! ## A transform that comes late -/

/-- The sketch before anything happens. -/
def untouchedSketch : Drawing := ⟨.around .recording, sketch⟩

/-- It is drawn with a text and with none, and then a transform is added. -/
def transformedLate : List Event :=
  [.update false (frame "int a;"), .update false (frame []),
    .library (.use (.function (.replace "int" "float")))]

/-- Then it goes back to its first text. -/
def goneBack : Drawing :=
  (update (untouchedSketch.run transformedLate) false (frame "int a;")).state

/-- The text is swapped in as it was compiled the first time, while compiling it at that moment gives
another one. -/
theorem run_goneBack :
    Digest.CollisionFree (untouchedSketch.gather Drawing.keyTexts
        (transformedLate ++ [.update false (frame "int a;")])) ∧
      Digest.CollisionFree (untouchedSketch.gather Drawing.sourceTexts
        (transformedLate ++ [.update false (frame "int a;")])) ∧
      goneBack.pair.compileCount = (untouchedSketch.run transformedLate).pair.compileCount ∧
      (untouchedSketch.run transformedLate).pair.resolved.get .vertex ≠ some "int a;" ∧
      goneBack.pair.resolved.get .vertex = some "int a;" ∧
      goneBack.pair.compiled.get .vertex
        = some "precision mediump float;\n// sketch (vertex)\nint a;\n" ∧
      (goneBack.compiledNow .vertex "int a;").toOption
        = some (some (String.toList "precision mediump float;\n// sketch (vertex)\nfloat a;\n")) := by
  -- The two lists of texts are looked at by themselves: what is computed for one is given up then.
  refine ⟨by decide +kernel, by decide +kernel, ?_⟩
  decide +kernel

/-- What is swapped in was compiled without any transform. -/
theorem swapped_text_iff_of_late_transform :
    Digest.CollisionFree (untouchedSketch.gather Drawing.keyTexts
        (transformedLate ++ [.update false (frame "int a;")])) ∧
      Digest.CollisionFree (untouchedSketch.gather Drawing.sourceTexts
        (transformedLate ++ [.update false (frame "int a;")])) ∧
      goneBack.pair.compileCount = (untouchedSketch.run transformedLate).pair.compileCount ∧
      (untouchedSketch.run transformedLate).pair.resolved.get .vertex ≠ some "int a;" ∧
      goneBack.pair.resolved.get .vertex = some "int a;" ∧
      ∃ source transforms,
        sketch.sources.get .vertex = some source ∧
        source.resolve (.map (frame "int a;")) = .ok "int a;" ∧
        untouchedSketch.lastTransforms transformedLate .vertex "int a;" = some transforms ∧
        transforms <+: goneBack.context.library.composer.transforms ∧
        goneBack.compiledWith transforms .vertex "int a;" = .ok (goneBack.pair.compiled.get .vertex) ∧
        (goneBack.compiledNow .vertex "int a;" = .ok (goneBack.pair.compiled.get .vertex) ↔
          goneBack.compiledWith goneBack.context.library.composer.transforms .vertex "int a;"
            = goneBack.compiledWith transforms .vertex "int a;") := by
  obtain ⟨hkeys, hsources, hcount, hnew, htext, -⟩ := run_goneBack
  have hlibrary : Library.make { bundled := false } = .ok untouchedSketch.context.library := rfl
  have hpair : untouchedSketch.pair = fresh sketch.name sketch.sources sketch.macros := rfl
  have hafter : (update (untouchedSketch.run transformedLate) false (frame "int a;")).state
      = goneBack := by rw [goneBack]
  exact ⟨hkeys, hsources, hcount, hnew, htext,
    swapped_text_iff hlibrary hpair hkeys hsources hafter hcount hnew htext⟩

/-- **A transform that is added late is missed.** The memo outlives it, so what is swapped in is not what
compiling the same text gives at that moment. -/
theorem swaps_untransformed_text :
    goneBack.pair.compileCount = (untouchedSketch.run transformedLate).pair.compileCount ∧
      (untouchedSketch.run transformedLate).pair.resolved.get .vertex ≠ some "int a;" ∧
      goneBack.pair.resolved.get .vertex = some "int a;" ∧
      goneBack.compiledNow .vertex "int a;" ≠ .ok (goneBack.pair.compiled.get .vertex) := by
  obtain ⟨-, -, hcount, hnew, htext, hplaced, hnow⟩ := run_goneBack
  refine ⟨hcount, hnew, htext, fun hsame => ?_⟩
  rw [hsame, hplaced] at hnow
  exact absurd hnow (by decide)

end ShaderPair

end GlslCompose
