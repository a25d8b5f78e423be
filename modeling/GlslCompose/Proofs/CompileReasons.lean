/-
`Proofs/CompileReasons.lean` -- when a pair is compiled, and that a reason to compile
does not go away by itself.

A pair remembers the revisions of the defines and of the store that it was compiled
with, and never one that is still to come (`Recorded`). So where a revision differs from
the remembered one it has grown, and since revisions only grow it goes on to differ. That
is why the reasons for a compilation that failed are there again the next time
(`dueReasons_ne_nil_of_later`): a frame that forces it still does, defines that had
changed are still others, and a text that was not remembered has not become so.
-/
import Mathlib.Data.List.Nodup
import GlslCompose.Proofs.PairRun

set_option autoImplicit false

namespace GlslCompose

namespace ShaderPair

/-! ## Reasons -/

section Reasons

variable {pair : ShaderPair} {library : Library} {state : List (Value × Value)}
  {texts : List (Slot × Text)} {slot : Slot} {text : Text}

/-- A frame gives no reason if it does not force one, and the defines are those that the pair was
compiled with. -/
theorem frameReasons_eq_nil_iff :
    pair.frameReasons library state = [] ↔
      stateHolds state "force_compile" = false ∧
        pair.macroRevision = some pair.macros.revision ∧
        pair.libraryRevision = some library.macros.revision := by
  unfold frameReasons definesChanged
  cases hforce : stateHolds state "force_compile" with
  | true => simp
  | false =>
    cases hmacros : pair.macroRevision with
    | none => simp
    | some revision =>
      by_cases hsame : revision = pair.macros.revision
      · subst hsame
        by_cases hlibrary : pair.libraryRevision = some library.macros.revision
        · simp [hlibrary]
        · have hne : ¬ some library.macros.revision = pair.libraryRevision := fun h => hlibrary h.symm
          simp [hlibrary, hne]
      · have hne : ¬ pair.macros.revision = revision := fun h => hsame h.symm
        simp [hsame, hne]

/-- A text is kept if it is the one that the slot was compiled from. -/
theorem changeOf_eq_keep_iff :
    pair.changeOf slot text = .keep ↔ pair.resolved.get slot = some text := by
  unfold changeOf
  cases hold : pair.resolved.get slot with
  | none => simp
  | some old =>
    by_cases hsame : text = old
    · simp [hsame]
    · have hne : ¬ old = text := fun h => hsame h.symm
      simp only [if_neg hsame, Option.some.injEq, hne, iff_false]
      cases Pairs.get? (memoKey slot text) pair.memo <;> simp

/-- A text that is swapped for comes from the memo. -/
theorem get?_memo_of_swapTo {compiled : Option Text}
    (h : pair.changeOf slot text = .swapTo compiled) :
    Pairs.get? (memoKey slot text) pair.memo = some compiled ∧ pair.resolved.get slot ≠ some text ∧
      pair.resolved.get slot ≠ none := by
  unfold changeOf at h
  cases hold : pair.resolved.get slot with
  | none => rw [hold] at h; cases h
  | some old =>
    rw [hold] at h
    dsimp only at h
    split at h
    · cases h
    · rename_i hne
      refine ⟨?_, fun heq => hne (Option.some.inj heq).symm, Option.some_ne_none _⟩
      cases hget : Pairs.get? (memoKey slot text) pair.memo with
      | none => rw [hget] at h; cases h
      | some found =>
        rw [hget] at h
        obtain rfl := Change.swapTo.inj h
        rfl

/-- A text is compiled for if the slot is new, or if the text is another one and not remembered. -/
theorem changeOf_eq_compileFor_iff :
    (∃ reason, pair.changeOf slot text = .compileFor reason) ↔
      pair.resolved.get slot = none ∨
        (pair.resolved.get slot ≠ some text ∧ Pairs.get? (memoKey slot text) pair.memo = none) := by
  unfold changeOf
  cases hold : pair.resolved.get slot with
  | none => simp
  | some old =>
    by_cases hsame : text = old
    · simp [hsame]
    · have hne : ¬ old = text := fun h => hsame h.symm
      cases hget : Pairs.get? (memoKey slot text) pair.memo <;> simp [hsame, hne]

/-- There is nothing to compile if neither the frame nor any of the texts gives a reason. -/
theorem dueReasons_eq_nil_iff :
    pair.dueReasons library state texts = [] ↔
      pair.frameReasons library state = [] ∧
        ∀ slot text, (slot, text) ∈ texts →
          ¬ ∃ reason, (pair.reviewed library).changeOf slot text = .compileFor reason := by
  rw [dueReasons, List.append_eq_nil_iff]
  refine and_congr_right fun _ => ?_
  rw [reasonsOf, List.filterMap_eq_nil_iff]
  simp only [changes, List.map_map, List.mem_map, Function.comp]
  refine ⟨?_, ?_⟩
  · rintro h slot text hmem ⟨reason, hreason⟩
    have hnone := h _ ⟨(slot, text), hmem, rfl⟩
    rw [hreason] at hnone
    cases hnone
  · rintro h change ⟨⟨slot, text⟩, hmem, rfl⟩
    cases hchange : (pair.reviewed library).changeOf slot text with
    | compileFor reason => exact absurd ⟨reason, hchange⟩ (h slot text hmem)
    | keep => rfl
    | swapTo compiled => rfl

end Reasons

/-! ## Revisions that a pair remembers -/

/-- **No remembered revision is still to come.** -/
structure Recorded (pair : ShaderPair) (library : Library) : Prop where
  macros : ∀ revision, pair.macroRevision = some revision → revision ≤ pair.macros.revision
  shared : ∀ revision, pair.libraryRevision = some revision → revision ≤ library.macros.revision
  store : ∀ revision, pair.storeRevision = some revision → revision ≤ library.store.revision

/-- The same revisions are remembered. -/
structure Remembers (old new : ShaderPair) : Prop where
  macroRevision : new.macroRevision = old.macroRevision
  libraryRevision : new.libraryRevision = old.libraryRevision
  storeRevision : new.storeRevision = old.storeRevision

theorem Remembers.refl (pair : ShaderPair) : Remembers pair pair := ⟨rfl, rfl, rfl⟩

theorem Remembers.trans {a b c : ShaderPair} (hab : Remembers a b) (hbc : Remembers b c) :
    Remembers a c :=
  ⟨hbc.macroRevision.trans hab.macroRevision, hbc.libraryRevision.trans hab.libraryRevision,
    hbc.storeRevision.trans hab.storeRevision⟩

/-- What is remembered stays in the past. -/
theorem Recorded.later {old new : ShaderPair} {library other : Library} (h : Recorded old library)
    (hremembers : Remembers old new) (hmacros : old.macros.Since new.macros)
    (hlibrary : library.macros.Since other.macros) (hstore : library.store.Since other.store) :
    Recorded new other := by
  refine ⟨fun revision hrevision => ?_, fun revision hrevision => ?_, fun revision hrevision => ?_⟩
  · rw [hremembers.macroRevision] at hrevision
    exact Nat.le_trans (h.macros revision hrevision) hmacros.le
  · rw [hremembers.libraryRevision] at hrevision
    exact Nat.le_trans (h.shared revision hrevision) hlibrary.le
  · rw [hremembers.storeRevision] at hrevision
    exact Nat.le_trans (h.store revision hrevision) hstore.le

theorem remembers_takeDefines (pair : ShaderPair) (state : List (Value × Value)) :
    Remembers pair (pair.takeDefines state).state := by
  obtain ⟨macros, heq, -⟩ := takeDefines_eq pair state
  rw [heq]
  exact ⟨rfl, rfl, rfl⟩

theorem remembers_reviewed (pair : ShaderPair) (library : Library) :
    Remembers pair (pair.reviewed library) := by
  rw [reviewed_eq]
  exact ⟨rfl, rfl, rfl⟩

theorem remembers_of_left {pair left : ShaderPair} {library : Library}
    (h : left = pair ∨ left = pair.reviewed library) : Remembers pair left := by
  rcases h with rfl | rfl
  · exact .refl _
  · exact remembers_reviewed _ _

theorem remembers_swap (pair : ShaderPair) (items : List (Slot × Text × Change)) :
    Remembers pair (pair.swap items) := by
  obtain ⟨resolved, compiled, heq⟩ := swap_eq pair items
  rw [heq]
  exact ⟨rfl, rfl, rfl⟩

section Courses

variable {drawing behind : Drawing} {listing : Bool} {state : List (Value × Value)}
  {pair : ShaderPair} {texts : List (Slot × Text)} {outcome : Except Fault Bool}

theorem Ready.remembers (h : Ready drawing state pair texts) : Remembers drawing.pair pair := by
  rw [h.pair_eq]
  exact remembers_takeDefines _ _

theorem Ready.recorded (h : Ready drawing state pair texts)
    (hrecorded : Recorded drawing.pair drawing.context.library) :
    Recorded pair drawing.context.library :=
  hrecorded.later h.remembers h.untouched.macros (.refl _) (.refl _)

/-- A course that compiles nothing remembers what was remembered, unless there is nothing to
compile. -/
theorem Course.remembers_of_error {fault : Fault}
    (h : Course drawing listing state (.error fault) behind) :
    Remembers drawing.pair behind.pair := by
  cases h with
  | refused h => exact remembers_takeDefines _ _
  | unresolved htaken h => exact remembers_takeDefines _ _
  | broken hready htexts hdue h hleft => exact hready.remembers.trans (remembers_of_left hleft)

/-- What is marked now is no revision to come. -/
theorem Course.recorded (h : Course drawing listing state outcome behind)
    (hrecorded : Recorded drawing.pair drawing.context.library) :
    Recorded behind.pair behind.context.library := by
  have hmacros : drawing.context.library.macros.Since behind.context.library.macros := by
    rw [Library.macros_eq_of_plain h.context.2]
    exact .refl _
  have hstore : drawing.context.library.store.Since behind.context.library.store := by
    rw [Library.store_eq_of_plain h.context.2]
    exact .refl _
  have hlater : Remembers drawing.pair behind.pair →
      Recorded behind.pair behind.context.library :=
    fun hremembers => hrecorded.later hremembers h.untouched.macros hmacros hstore
  -- Only what marks the defines or the store as seen has to be looked at.
  cases h with
  | refused h => exact hlater (remembers_takeDefines _ _)
  | unresolved htaken h => exact hlater (remembers_takeDefines _ _)
  | textless hready hdue =>
    refine ⟨fun revision hrevision => ?_, fun revision hrevision => ?_, ?_⟩
    · exact Nat.le_of_eq (Option.some.inj hrevision).symm
    · exact Nat.le_of_eq (Option.some.inj hrevision).symm
    · exact (hready.recorded hrecorded).store
  | broken hready htexts hdue h hleft =>
    exact hlater (hready.remembers.trans (remembers_of_left hleft))
  | compiled hready htexts hdue h =>
    refine ⟨fun revision hrevision => ?_, fun revision hrevision => ?_, fun revision hrevision => ?_⟩
    · exact Nat.le_of_eq (Option.some.inj hrevision).symm
    · rw [← Option.some.inj hrevision]
      exact hmacros.le
    · rw [← Option.some.inj hrevision]
      exact hstore.le
  | kept hready hdue hkept => exact hlater (hready.remembers.trans (remembers_reviewed _ _))
  | swapped hready hdue hswapped =>
    exact hlater ((hready.remembers.trans (remembers_reviewed _ _)).trans (remembers_swap _ _))

end Courses

/-- **In every run no pair remembers a revision that is still to come.** -/
theorem recorded_run (context : DrawContext) (name : Value) (sources : Slots (Option ShaderSource))
    (macros : MacroTable) (events : List Event) :
    Recorded (Drawing.run ⟨context, fresh name sources macros⟩ events).pair
      (Drawing.run ⟨context, fresh name sources macros⟩ events).context.library := by
  refine Drawing.run_induction ⟨context, fresh name sources macros⟩
    (motive := fun _ drawing => Recorded drawing.pair drawing.context.library) ?_ ?_ events
  · exact ⟨nofun, nofun, nofun⟩
  · intro seen event h
    by_cases hupdate : event.isUpdate = false
    · obtain ⟨⟨macros, hpair, hsince⟩, hlibrary⟩ := quiet_perform hupdate
        (Drawing.run ⟨context, fresh name sources macros⟩ seen)
      rw [hpair]
      exact h.later ⟨rfl, rfl, rfl⟩ hsince hlibrary.macros hlibrary.store
    · obtain ⟨listing, state, rfl⟩ := Event.eq_update_of_isUpdate hupdate
      obtain ⟨outcome, behind, hcourse, ⟨programs, program, hpair⟩, hlibrary, -⟩ :=
        update_texts (Drawing.run ⟨context, fresh name sources macros⟩ seen) listing state
      have hbehind := hcourse.recorded h
      rw [Event.perform, hpair, hlibrary]
      exact ⟨hbehind.macros, hbehind.shared, hbehind.store⟩

/-! ## Reasons that stay -/

/-- **A reason to compile is still one later,** as long as nothing was compiled. -/
theorem dueReasons_ne_nil_of_later {pair later : ShaderPair} {library other : Library}
    {state : List (Value × Value)} {texts : List (Slot × Text)} (hrecorded : Recorded pair library)
    (hremembers : Remembers pair later) (hunbuilt : Unbuilt pair later)
    (hmacros : pair.macros.Since later.macros) (hlibrary : library.Before other)
    (hdue : pair.dueReasons library state texts ≠ []) :
    later.dueReasons other state texts ≠ [] := by
  rw [Ne, dueReasons_eq_nil_iff] at hdue ⊢
  rintro ⟨hframe, htexts⟩
  -- Were nothing due later, then nothing would have been due before either.
  refine hdue ⟨?_, fun slot text hmem hcompile => htexts slot text hmem ?_⟩
  · rw [frameReasons_eq_nil_iff] at hframe ⊢
    obtain ⟨hforce, hown, hshared⟩ := hframe
    rw [hremembers.macroRevision] at hown
    rw [hremembers.libraryRevision] at hshared
    -- Between what is remembered and what is there now, there is no room for a change.
    have hownLe := hrecorded.macros _ hown
    have hsharedLe := hrecorded.shared _ hshared
    have hownSame := Nat.le_antisymm hownLe hmacros.le
    have hsharedSame := Nat.le_antisymm hsharedLe hlibrary.macros.le
    exact ⟨hforce, by rw [hown, hownSame], by rw [hshared, hsharedSame]⟩
  · rw [changeOf_eq_compileFor_iff, reviewed_eq] at hcompile ⊢
    dsimp only at hcompile ⊢
    rw [hunbuilt.resolved, hremembers.storeRevision]
    rcases hcompile with hnone | ⟨hother, hforgotten⟩
    · exact .inl hnone
    · refine .inr ⟨hother, ?_⟩
      split
      · rfl
      · rename_i hgood
        rcases hunbuilt.memo with hmemo | hmemo
        · rw [hmemo]
          have hstore : pair.storeRevision = some other.store.revision := by
            simp only [bne_iff_ne, ne_eq, Decidable.not_not] at hgood
            exact hgood.symm
          have hstoreSame := Nat.le_antisymm (hrecorded.store _ hstore) hlibrary.store.le
          rw [hstore, hstoreSame] at hforgotten
          simpa using hforgotten
        · rw [hmemo]
          rfl

/-! ## Where nothing is due any more -/

section Courses

variable {drawing behind : Drawing} {listing : Bool} {state : List (Value × Value)}
  {pair : ShaderPair} {texts : List (Slot × Text)} {slot : Slot} {text : Text}

/-- Texts are compiled in their order, each into its slot. -/
theorem map_of_compileTexts_ok {library : Library} {compiled : List (Slot × Text × Option Text)}
    (h : (compileTexts pair listing library texts).result = .ok compiled) :
    compiled.map (fun item => (item.1, item.2.1)) = texts := by
  induction texts generalizing library compiled with
  | nil => rw [← Except.ok.inj h]; rfl
  | cons item rest ih =>
    obtain ⟨slot, text⟩ := item
    rw [result_compileTexts_cons] at h
    cases hfirst : (library.compile (.text (pair.slotName slot)) text pair.macros.toValue).result with
    | error fault => rw [hfirst] at h; cases h
    | ok first =>
      rw [hfirst] at h
      simp only [Except.bind] at h
      cases hrest : (compileTexts pair listing (library.compile (.text (pair.slotName slot)) text
          pair.macros.toValue).state rest).result with
      | error fault => rw [hrest] at h; cases h
      | ok others =>
        rw [hrest] at h
        rw [← Except.ok.inj h, List.map_cons, ih hrest]

theorem mem_compiled_of_mem {library : Library} {compiled : List (Slot × Text × Option Text)}
    (h : (compileTexts pair listing library texts).result = .ok compiled)
    (hmem : (slot, text) ∈ texts) : ∃ found, (slot, text, found) ∈ compiled := by
  rw [← map_of_compileTexts_ok h] at hmem
  obtain ⟨⟨own, found, result⟩, hitem, heq⟩ := List.mem_map.1 hmem
  obtain ⟨rfl, rfl⟩ := Prod.mk.inj heq
  exact ⟨result, hitem⟩

theorem nodup_compiled {library : Library} {compiled : List (Slot × Text × Option Text)}
    (h : (compileTexts pair listing library texts).result = .ok compiled)
    (hnodup : (texts.map Prod.fst).Nodup) : (compiled.map Prod.fst).Nodup := by
  rw [← map_of_compileTexts_ok h, List.map_map] at hnodup
  exact hnodup

theorem mem_changes {library : Library} {change : Change} :
    (slot, text, change) ∈ pair.changes library texts ↔
      (slot, text) ∈ texts ∧ change = (pair.reviewed library).changeOf slot text := by
  rw [changes, List.mem_map]
  refine ⟨?_, ?_⟩
  · rintro ⟨⟨own, found⟩, hmem, heq⟩
    obtain ⟨rfl, hrest⟩ := Prod.mk.inj heq
    obtain ⟨rfl, rfl⟩ := Prod.mk.inj hrest
    exact ⟨hmem, rfl⟩
  · rintro ⟨hmem, rfl⟩
    exact ⟨_, hmem, rfl⟩

theorem nodup_changes (pair : ShaderPair) (library : Library) (hnodup : (texts.map Prod.fst).Nodup) :
    ((pair.changes library texts).map Prod.fst).Nodup := by
  rw [changes, List.map_map]
  exact hnodup

/-- A slot whose text is kept is not swapped. -/
theorem not_mem_swappedSlots_of_keep {library : Library} (hnodup : (texts.map Prod.fst).Nodup)
    (hmem : (slot, text) ∈ texts) (hkeep : (pair.reviewed library).changeOf slot text = .keep) :
    slot ∉ swappedSlots (pair.changes library texts) := by
  rw [mem_swappedSlots]
  rintro ⟨other, compiled, hother⟩
  obtain ⟨hotherMem, hchange⟩ := mem_changes.1 hother
  have hsame : (slot, text) = (slot, other) :=
    List.inj_on_of_nodup_map hnodup hmem hotherMem rfl
  obtain rfl := (Prod.mk.inj hsame).2
  rw [hkeep] at hchange
  cases hchange

/-- **An update that does not fail leaves nothing to do** behind its course: every slot holds the
text of the frame, and the defines are those that the pair was compiled with. -/
theorem Course.settled {built : Bool} (h : Course drawing listing state (.ok built) behind) :
    ∃ pair texts, Ready drawing state pair texts ∧
      (∀ slot text, (slot, text) ∈ texts → behind.pair.resolved.get slot = some text) ∧
      behind.pair.macroRevision = some behind.pair.macros.revision ∧
      behind.pair.libraryRevision = some behind.context.library.macros.revision := by
  have hmacros := Library.macros_eq_of_plain h.context.2
  cases h with
  | @textless pair hready hdue =>
    exact ⟨pair, [], hready, fun _ _ hmem => absurd hmem List.not_mem_nil, rfl, rfl⟩
  | @compiled pair texts compiled hready htexts hdue h =>
    refine ⟨pair, texts, hready, fun slot text hmem => ?_, rfl, ?_⟩
    · obtain ⟨found, hfound⟩ := mem_compiled_of_mem h hmem
      exact (get_built_of_mem pair _ (nodup_compiled h (nodup_of_resolveSources hready.resolved))
        hfound).1
    · rw [hmacros]
      rfl
  | @kept pair texts hready hdue hkept =>
    obtain ⟨hframe, htexts⟩ := dueReasons_eq_nil_iff.1 hdue
    obtain ⟨-, hown, hshared⟩ := frameReasons_eq_nil_iff.1 hframe
    refine ⟨pair, texts, hready, fun slot text hmem => ?_, ?_, ?_⟩
    -- No text is due, and none is swapped, so each is the one that stands in its slot.
    · cases hchange : (pair.reviewed drawing.context.library).changeOf slot text with
      | keep => exact changeOf_eq_keep_iff.1 hchange
      | compileFor reason => exact absurd ⟨reason, hchange⟩ (htexts slot text hmem)
      | swapTo compiled =>
        have hswapped : slot ∈ swappedSlots (pair.changes drawing.context.library texts) :=
          mem_swappedSlots.2 ⟨text, compiled, mem_changes.2 ⟨hmem, hchange.symm⟩⟩
        rw [hkept] at hswapped
        cases hswapped
    · rw [reviewed_eq]
      exact hown
    · rw [reviewed_eq]
      exact hshared
  | @swapped pair texts hready hdue hswapped =>
    obtain ⟨hframe, htexts⟩ := dueReasons_eq_nil_iff.1 hdue
    obtain ⟨-, hown, hshared⟩ := frameReasons_eq_nil_iff.1 hframe
    have hnodup := nodup_of_resolveSources hready.resolved
    have hremembers := (remembers_reviewed pair drawing.context.library).trans
      (remembers_swap _ (pair.changes drawing.context.library texts))
    refine ⟨pair, texts, hready, fun slot text hmem => ?_, ?_, ?_⟩
    · cases hchange : (pair.reviewed drawing.context.library).changeOf slot text with
      -- A text either stands in its slot already, or comes there from the memo.
      | keep =>
        have hnot := not_mem_swappedSlots_of_keep hnodup hmem hchange
        exact (get_swap_of_not_mem _ hnot).1.trans (changeOf_eq_keep_iff.1 hchange)
      | compileFor reason => exact absurd ⟨reason, hchange⟩ (htexts slot text hmem)
      | swapTo compiled =>
        exact (get_swap_of_mem _ (nodup_changes _ _ hnodup)
          (mem_changes.2 ⟨hmem, hchange.symm⟩)).1
    · rw [hremembers.macroRevision, hown, macros_swap_reviewed]
    · rw [hremembers.libraryRevision, hshared]

/-- An update that does not fail leaves nothing to do. -/
theorem settled_update {shown : List (Value × Value)}
    (h : (update drawing listing state).result = .ok shown) :
    ∃ pair texts, Ready drawing state pair texts ∧
      (∀ slot text, (slot, text) ∈ texts →
        (update drawing listing state).state.pair.resolved.get slot = some text) ∧
      (update drawing listing state).state.pair.macroRevision
        = some (update drawing listing state).state.pair.macros.revision ∧
      (update drawing listing state).state.pair.libraryRevision
        = some (update drawing listing state).state.context.library.macros.revision := by
  obtain ⟨outcome, behind, hcourse, ⟨programs, program, hpair⟩, hlibrary, hok⟩ :=
    update_texts drawing listing state
  obtain ⟨built, rfl⟩ := hok shown h
  rw [hpair, hlibrary]
  exact hcourse.settled

end Courses

end ShaderPair

end GlslCompose
