/-
`Proofs/PlacedTexts.lean` -- which texts a pair holds once some are put in place.

Texts come to their slots from the sources, each slot at most once
(`nodup_of_resolveSources`). Putting them in place goes through them one after the
other and writes slot by slot, whether they were compiled just now (`commit`) or are
remembered (`swap`); since no slot comes twice, what stands in a slot afterwards is what
was put there, and the other slots are as they were. What is written into the memo on
the way is said by `mem_memo_commit`.
-/
import GlslCompose.Proofs.UpdateCourse

set_option autoImplicit false

namespace GlslCompose

/-! ## Memos -/

namespace Memo

variable {κ ν : Type} [BEq κ] [LawfulBEq κ]

/-- What is found stands there. -/
theorem mem_of_get? {key : κ} {value : ν} {memo : List (κ × ν)}
    (h : Pairs.get? key memo = some value) : (key, value) ∈ memo := by
  induction memo with
  | nil => cases h
  | cons entry rest ih =>
    obtain ⟨k, v⟩ := entry
    rw [Pairs.get?] at h
    split at h
    · rename_i hk
      obtain rfl := beq_iff_eq.1 hk
      obtain rfl := Option.some.inj h
      exact List.mem_cons_self
    · exact List.mem_cons_of_mem _ (ih h)

omit [LawfulBEq κ] in
theorem mem_put {key : κ} {value : ν} {memo : List (κ × ν)} {entry : κ × ν}
    (h : entry ∈ Pairs.put key value memo) :
    (entry.2 = value ∧ (entry.1 == key) = true) ∨ entry = (key, value) ∨ entry ∈ memo := by
  induction memo with
  | nil => exact .inr (.inl (List.mem_singleton.1 h))
  | cons first rest ih =>
    obtain ⟨k, v⟩ := first
    rw [Pairs.put] at h
    split at h
    · rename_i hk
      rcases List.mem_cons.1 h with rfl | hrest
      · exact .inl ⟨rfl, hk⟩
      · exact .inr (.inr (List.mem_cons_of_mem _ hrest))
    · rcases List.mem_cons.1 h with rfl | hrest
      · exact .inr (.inr List.mem_cons_self)
      · rcases ih hrest with hsame | heq | hmem
        · exact .inl hsame
        · exact .inr (.inl heq)
        · exact .inr (.inr (List.mem_cons_of_mem _ hmem))

/-- A memo holds what was remembered last, and otherwise what it held before, if it has not been
pushed out. -/
theorem mem_remember {key : κ} {value : ν} {memo : List (κ × ν)} {entry : κ × ν}
    (h : entry ∈ remember key value memo) : entry = (key, value) ∨ entry ∈ memo := by
  have hkept : ∀ entry ∈ (if !Pairs.has key memo && capacity ≤ memo.length then memo.drop 1
      else memo), entry ∈ memo := by
    intro entry hentry
    split at hentry
    · exact List.mem_of_mem_drop hentry
    · exact hentry
  -- A memo that is full loses its oldest entry first, which does no harm to the others.
  rcases mem_put h with ⟨hvalue, hkey⟩ | heq | hmem
  · exact .inl (Prod.ext (beq_iff_eq.1 hkey) hvalue)
  · exact .inl heq
  · exact .inr (hkept _ hmem)

end Memo

namespace ShaderPair

/-! ## The texts of the sources -/

section Sources

variable {pair other : ShaderPair} {state : Value} {texts : List (Slot × Text)}

/-- The texts of a pair depend on its sources alone. -/
theorem resolveSources_congr (h : other.sources = pair.sources) (state : Value) :
    other.resolveSources state = pair.resolveSources state := by
  simp only [resolveSources, resolveSlot, h]

/-- A slot has the text of its source, if it has a source. -/
theorem resolveSlot_ok {slot : Slot} {items : List (Slot × Text)}
    (h : pair.resolveSlot slot state = .ok items) :
    (pair.sources.get slot = none ∧ items = []) ∨
      ∃ source text, pair.sources.get slot = some source ∧ source.resolve state = .ok text ∧
        items = [(slot, text)] := by
  unfold resolveSlot at h
  split at h
  · rename_i hnone
    exact .inl ⟨hnone, (Except.ok.inj h).symm⟩
  · rename_i source hsome
    cases htext : source.resolve state with
    | error fault => rw [htext] at h; cases h
    | ok text =>
      rw [htext] at h
      exact .inr ⟨source, text, hsome, htext, (Except.ok.inj h).symm⟩

theorem resolveSources_ok (h : pair.resolveSources state = .ok texts) :
    ∃ vertex fragment, pair.resolveSlot .vertex state = .ok vertex ∧
      pair.resolveSlot .fragment state = .ok fragment ∧ texts = vertex ++ fragment := by
  simp only [resolveSources, bind, Except.bind, pure, Except.pure] at h
  cases hvertex : pair.resolveSlot .vertex state with
  | error fault => rw [hvertex] at h; cases h
  | ok vertex =>
    cases hfragment : pair.resolveSlot .fragment state with
    | error fault => simp only [hvertex, hfragment] at h; cases h
    | ok fragment =>
      simp only [hvertex, hfragment] at h
      exact ⟨vertex, fragment, rfl, rfl, (Except.ok.inj h).symm⟩

/-- **The texts of a frame are those of the sources,** each in its slot. -/
theorem mem_iff_of_resolveSources (h : pair.resolveSources state = .ok texts) (slot : Slot)
    (text : Text) :
    (slot, text) ∈ texts ↔
      ∃ source, pair.sources.get slot = some source ∧ source.resolve state = .ok text := by
  obtain ⟨vertex, fragment, hvertex, hfragment, rfl⟩ := resolveSources_ok h
  have hslot : ∀ {own : Slot} {items : List (Slot × Text)}, pair.resolveSlot own state = .ok items →
      ((slot, text) ∈ items ↔ own = slot ∧
        ∃ source, pair.sources.get slot = some source ∧ source.resolve state = .ok text) := by
    intro own items hitems
    rcases resolveSlot_ok hitems with ⟨hnone, rfl⟩ | ⟨source, found, hsome, htext, rfl⟩
    · refine ⟨fun hmem => absurd hmem List.not_mem_nil, ?_⟩
      rintro ⟨rfl, source, hsource, -⟩
      rw [hnone] at hsource
      cases hsource
    · rw [List.mem_singleton]
      refine ⟨?_, ?_⟩
      · rintro heq
        obtain ⟨rfl, rfl⟩ := Prod.mk.inj heq
        exact ⟨rfl, source, hsome, htext⟩
      · rintro ⟨rfl, other, hother, hresolve⟩
        obtain rfl := Option.some.inj (hsome.symm.trans hother)
        rw [Except.ok.inj (htext.symm.trans hresolve)]
  rw [List.mem_append, hslot hvertex, hslot hfragment]
  refine ⟨?_, fun hsource => ?_⟩
  · rintro (⟨-, hsource⟩ | ⟨-, hsource⟩)
    · exact hsource
    · exact hsource
  · cases slot with
    | vertex => exact .inl ⟨rfl, hsource⟩
    | fragment => exact .inr ⟨rfl, hsource⟩

/-- Each source has its text. -/
theorem exists_mem_of_resolveSources (h : pair.resolveSources state = .ok texts) {slot : Slot}
    {source : ShaderSource} (hsource : pair.sources.get slot = some source) :
    ∃ text, (slot, text) ∈ texts ∧ source.resolve state = .ok text := by
  have hslot : ∃ items, pair.resolveSlot slot state = .ok items := by
    obtain ⟨vertex, fragment, hvertex, hfragment, -⟩ := resolveSources_ok h
    cases slot with
    | vertex => exact ⟨vertex, hvertex⟩
    | fragment => exact ⟨fragment, hfragment⟩
  obtain ⟨items, hitems⟩ := hslot
  rcases resolveSlot_ok hitems with ⟨hnone, -⟩ | ⟨found, text, hfound, htext, -⟩
  · rw [hsource] at hnone
    cases hnone
  · obtain rfl := Option.some.inj (hsource.symm.trans hfound)
    exact ⟨text, (mem_iff_of_resolveSources h slot text).2 ⟨source, hsource, htext⟩, htext⟩

/-- No slot has two texts. -/
theorem nodup_of_resolveSources (h : pair.resolveSources state = .ok texts) :
    (texts.map Prod.fst).Nodup := by
  obtain ⟨vertex, fragment, hvertex, hfragment, rfl⟩ := resolveSources_ok h
  rcases resolveSlot_ok hvertex with ⟨-, rfl⟩ | ⟨_, _, -, -, rfl⟩
  · rcases resolveSlot_ok hfragment with ⟨-, rfl⟩ | ⟨_, _, -, -, rfl⟩
    · simp
    · simp
  · rcases resolveSlot_ok hfragment with ⟨-, rfl⟩ | ⟨_, _, -, -, rfl⟩
    · simp
    · simp

end Sources

/-! ## Compiled texts in place -/

section Commit

variable {items : List (Slot × Text × Option Text)} {slot : Slot}

/-- Taking compiled texts over concerns the texts and the memo. -/
theorem commit_eq (pair : ShaderPair) (items : List (Slot × Text × Option Text)) :
    ∃ resolved compiled memo, pair.commit items
      = { pair with resolved := resolved, compiled := compiled, memo := memo } := by
  induction items generalizing pair with
  | nil => exact ⟨_, _, _, rfl⟩
  | cons item rest ih =>
    obtain ⟨resolved, compiled, memo, heq⟩ := ih { pair.put item.1 item.2.1 item.2.2 with
      memo := Memo.remember (memoKey item.1 item.2.1) item.2.2 pair.memo }
    exact ⟨resolved, compiled, memo, heq⟩

/-- A slot for which nothing was compiled is as it was. -/
theorem get_commit_of_not_mem (pair : ShaderPair) (h : slot ∉ items.map Prod.fst) :
    (pair.commit items).resolved.get slot = pair.resolved.get slot ∧
      (pair.commit items).compiled.get slot = pair.compiled.get slot := by
  induction items generalizing pair with
  | nil => exact ⟨rfl, rfl⟩
  | cons item rest ih =>
    obtain ⟨own, text, compiled⟩ := item
    rw [List.map_cons, List.mem_cons, not_or] at h
    obtain ⟨hresolved, hcompiled⟩ := ih { pair.put own text compiled with
      memo := Memo.remember (memoKey own text) compiled pair.memo } h.2
    have hne : own ≠ slot := fun he => h.1 he.symm
    exact ⟨hresolved.trans (Slots.get_set_of_ne _ _ hne),
      hcompiled.trans (Slots.get_set_of_ne _ _ hne)⟩

/-- **What was compiled stands in its slot.** -/
theorem get_commit_of_mem (pair : ShaderPair) {text : Text} {compiled : Option Text}
    (hnodup : (items.map Prod.fst).Nodup) (h : (slot, text, compiled) ∈ items) :
    (pair.commit items).resolved.get slot = some text ∧
      (pair.commit items).compiled.get slot = compiled := by
  induction items generalizing pair with
  | nil => cases h
  | cons item rest ih =>
    rw [List.map_cons, List.nodup_cons] at hnodup
    -- What is written first is not overwritten, because the slot does not come again.
    rcases List.mem_cons.1 h with rfl | hrest
    · obtain ⟨hresolved, hcompiled⟩ := get_commit_of_not_mem { pair.put slot text compiled with
        memo := Memo.remember (memoKey slot text) compiled pair.memo } hnodup.1
      exact ⟨hresolved.trans (Slots.get_set_self _ _ _), hcompiled.trans (Slots.get_set_self _ _ _)⟩
    · exact ih _ hnodup.2 hrest

/-- The memo holds what was compiled now, and otherwise nothing that it did not hold. -/
theorem mem_memo_commit {pair : ShaderPair} {entry : (Slot × Nat) × Option Text}
    (h : entry ∈ (pair.commit items).memo) :
    entry ∈ pair.memo ∨
      ∃ slot text compiled, (slot, text, compiled) ∈ items ∧
        entry = (memoKey slot text, compiled) := by
  induction items generalizing pair with
  | nil => exact .inl h
  | cons item rest ih =>
    rcases ih h with hmemo | ⟨slot, text, compiled, hmem, heq⟩
    · rcases Memo.mem_remember hmemo with heq | hold
      · exact .inr ⟨_, _, _, List.mem_cons_self, heq⟩
      · exact .inl hold
    · exact .inr ⟨slot, text, compiled, List.mem_cons_of_mem _ hmem, heq⟩

/-- A pair that takes compiled texts over holds what was compiled, and in the other slots what it
held before. -/
theorem get_built_of_mem (pair : ShaderPair) (library : Library) {text : Text}
    {compiled : Option Text} (hnodup : (items.map Prod.fst).Nodup)
    (h : (slot, text, compiled) ∈ items) :
    (pair.built library items).resolved.get slot = some text ∧
      (pair.built library items).compiled.get slot = compiled :=
  get_commit_of_mem _ hnodup h

theorem get_built_of_not_mem (pair : ShaderPair) (library : Library)
    (h : slot ∉ items.map Prod.fst) :
    (pair.built library items).resolved.get slot = pair.resolved.get slot ∧
      (pair.built library items).compiled.get slot = pair.compiled.get slot := by
  have hcommit := get_commit_of_not_mem (pair.forgetIf
    (pair.definesChanged library || some library.store.revision != pair.storeRevision)) h
  rw [forgetIf_eq] at hcommit
  rw [built, forgetIf_eq]
  exact hcommit

/-- The defines of a pair and those of its library are as they were when it was compiled. -/
theorem definesChanged_eq_false_iff {pair : ShaderPair} {library : Library} :
    pair.definesChanged library = false ↔
      pair.macroRevision = some pair.macros.revision ∧
        pair.libraryRevision = some library.macros.revision := by
  unfold definesChanged
  rw [Bool.or_eq_false_iff, bne_eq_false_iff_eq, bne_eq_false_iff_eq]
  exact ⟨fun h => ⟨h.1.symm, h.2.symm⟩, fun h => ⟨h.1.symm, h.2.symm⟩⟩

/-- What a pair remembered is kept only where neither the defines nor the store have changed. -/
theorem of_mem_kept {pair : ShaderPair} {library : Library} {entry : (Slot × Nat) × Option Text}
    (h : entry ∈ (pair.forgetIf
      (pair.definesChanged library || some library.store.revision != pair.storeRevision)).memo) :
    entry ∈ pair.memo ∧ pair.macroRevision = some pair.macros.revision ∧
      pair.libraryRevision = some library.macros.revision ∧
      pair.storeRevision = some library.store.revision := by
  rw [forgetIf_eq] at h
  dsimp only at h
  split at h
  · cases h
  · rename_i hgood
    rw [Bool.not_eq_true, Bool.or_eq_false_iff, definesChanged_eq_false_iff,
      bne_eq_false_iff_eq] at hgood
    exact ⟨h, hgood.1.1, hgood.1.2, hgood.2.symm⟩

/-- Behind a compilation it remembers what was compiled, and of the rest what is kept. -/
theorem mem_memo_built {pair : ShaderPair} {library : Library} {entry : (Slot × Nat) × Option Text}
    (h : entry ∈ (pair.built library items).memo) :
    (entry ∈ pair.memo ∧ pair.macroRevision = some pair.macros.revision ∧
        pair.libraryRevision = some library.macros.revision ∧
        pair.storeRevision = some library.store.revision) ∨
      ∃ slot text compiled, (slot, text, compiled) ∈ items ∧
        entry = (memoKey slot text, compiled) := by
  rcases mem_memo_commit h with hkept | hnew
  · exact .inl (of_mem_kept hkept)
  · exact .inr hnew

end Commit

/-! ## Remembered texts in place -/

section Swap

variable {items : List (Slot × Text × Change)} {slot : Slot}

/-- Going back to remembered texts concerns the texts. -/
theorem swap_eq (pair : ShaderPair) (items : List (Slot × Text × Change)) :
    ∃ resolved compiled, pair.swap items
      = { pair with resolved := resolved, compiled := compiled } := by
  induction items generalizing pair with
  | nil => exact ⟨_, _, rfl⟩
  | cons item rest ih =>
    obtain ⟨own, text, change⟩ := item
    cases change with
    | swapTo compiled =>
      obtain ⟨resolved, compiled', heq⟩ := ih (pair.put own text compiled)
      exact ⟨resolved, compiled', heq⟩
    | keep => exact ih pair
    | compileFor reason => exact ih pair

/-- A pair whose texts are swapped keeps its defines. -/
theorem macros_swap_reviewed (pair : ShaderPair) (library : Library)
    (items : List (Slot × Text × Change)) :
    ((pair.reviewed library).swap items).macros = pair.macros := by
  obtain ⟨resolved, compiled, heq⟩ := swap_eq (pair.reviewed library) items
  rw [heq, reviewed_eq]

/-- Nor does the swap count as a compilation. -/
theorem compileCount_swap_reviewed (pair : ShaderPair) (library : Library)
    (items : List (Slot × Text × Change)) :
    ((pair.reviewed library).swap items).compileCount = pair.compileCount := by
  obtain ⟨resolved, compiled, heq⟩ := swap_eq (pair.reviewed library) items
  rw [heq, reviewed_eq]

theorem mem_swappedSlots :
    slot ∈ swappedSlots items ↔ ∃ text compiled, (slot, text, .swapTo compiled) ∈ items := by
  rw [swappedSlots, List.mem_filterMap]
  refine ⟨?_, ?_⟩
  · rintro ⟨⟨own, text, change⟩, hmem, hslot⟩
    cases change with
    | swapTo compiled =>
      obtain rfl := Option.some.inj hslot
      exact ⟨text, compiled, hmem⟩
    | keep => cases hslot
    | compileFor reason => cases hslot
  · rintro ⟨text, compiled, hmem⟩
    exact ⟨_, hmem, rfl⟩

/-- A slot whose text is no remembered one is as it was. -/
theorem get_swap_of_not_mem (pair : ShaderPair) (h : slot ∉ swappedSlots items) :
    (pair.swap items).resolved.get slot = pair.resolved.get slot ∧
      (pair.swap items).compiled.get slot = pair.compiled.get slot := by
  induction items generalizing pair with
  | nil => exact ⟨rfl, rfl⟩
  | cons item rest ih =>
    obtain ⟨own, text, change⟩ := item
    cases change with
    | swapTo compiled =>
      -- The slot is none of those that are swapped, so another slot was set.
      rw [mem_swappedSlots] at h
      have hne : own ≠ slot := by
        rintro rfl
        exact h ⟨text, compiled, List.mem_cons_self⟩
      have hrest : slot ∉ swappedSlots rest := by
        rw [mem_swappedSlots]
        rintro ⟨other, found, hmem⟩
        exact h ⟨other, found, List.mem_cons_of_mem _ hmem⟩
      obtain ⟨hresolved, hcompiled⟩ := ih (pair.put own text compiled) hrest
      exact ⟨hresolved.trans (Slots.get_set_of_ne _ _ hne),
        hcompiled.trans (Slots.get_set_of_ne _ _ hne)⟩
    | keep => exact ih pair h
    | compileFor reason => exact ih pair h

/-- **What was remembered stands in its slot.** -/
theorem get_swap_of_mem (pair : ShaderPair) {text : Text} {compiled : Option Text}
    (hnodup : (items.map Prod.fst).Nodup) (h : (slot, text, .swapTo compiled) ∈ items) :
    (pair.swap items).resolved.get slot = some text ∧
      (pair.swap items).compiled.get slot = compiled := by
  induction items generalizing pair with
  | nil => cases h
  | cons item rest ih =>
    rw [List.map_cons, List.nodup_cons] at hnodup
    rcases List.mem_cons.1 h with rfl | hrest
    · have hnot : slot ∉ swappedSlots rest := by
        rw [mem_swappedSlots]
        rintro ⟨other, found, hmem⟩
        exact hnodup.1 (List.mem_map.2 ⟨_, hmem, rfl⟩)
      obtain ⟨hresolved, hcompiled⟩ := get_swap_of_not_mem (pair.put slot text compiled) hnot
      exact ⟨hresolved.trans (Slots.get_set_self _ _ _), hcompiled.trans (Slots.get_set_self _ _ _)⟩
    · obtain ⟨own, found, change⟩ := item
      cases change with
      | swapTo other => exact ih _ hnodup.2 hrest
      | keep => exact ih _ hnodup.2 hrest
      | compileFor reason => exact ih _ hnodup.2 hrest

end Swap

end ShaderPair

end GlslCompose
