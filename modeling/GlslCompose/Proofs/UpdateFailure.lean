/-
`Proofs/UpdateFailure.lean` -- what an update that fails leaves behind.

An update may fail at every point up to the block: the defines of the frame, a source,
an include or a transform in either text, and last the layer that makes programs. All
but the last come before anything is put in place. Such a failure does not depend on the
layer (`update_error_of_verdict`), what was built is as before, and the reasons to
compile are still there, so that no later update with the same frame state gets to
the block without compiling (`due_again`).

A layer that refuses is met too late. By then the texts are in place, and marked as those
that the pair was compiled with. The fault is reported once; the next update with this
frame state finds nothing to do, and draws the refused texts with the program from
before (`update_after_refusal`).
-/
import GlslCompose.Proofs.CompileReasons
import GlslCompose.Proofs.ProgramCoherence

set_option autoImplicit false

namespace GlslCompose

/-! ## Defines that are refused -/

namespace MacroTable

/-- Whether a define is refused does not depend on the table. -/
theorem defineOne_error {table : MacroTable} {name value : Value} {fault : Fault}
    (h : (table.defineOne name value).result = .error fault) (other : MacroTable) :
    (other.defineOne name value).result = .error fault := by
  cases name with
  | text name =>
    simp only [defineOne] at h
    split at h <;> cases h
  | _ => exact h

theorem defineEntries_error {table : MacroTable} {changed : Bool} {entries : List (Value × Value)}
    {fault : Fault} (h : (table.defineEntries changed entries).result = .error fault)
    (other : MacroTable) (otherChanged : Bool) :
    (other.defineEntries otherChanged entries).result = .error fault := by
  induction entries generalizing table changed other otherChanged with
  | nil => cases h
  | cons entry rest ih =>
    obtain ⟨name, value⟩ := entry
    rw [defineEntries, Step.result_andThen] at h ⊢
    cases hone : (table.defineOne name value).result with
    | error first =>
      rw [hone] at h
      obtain rfl := Except.error.inj h
      rw [defineOne_error hone other]
      rfl
    | ok now =>
      rw [hone] at h
      cases hother : (other.defineOne name value).result with
      | error first =>
        rw [defineOne_error hother table] at hone
        cases hone
      | ok otherNow => exact ih h _ _

theorem define_error {table : MacroTable} {name value : Value} {fault : Fault}
    (h : (table.define name value).result = .error fault) (other : MacroTable) :
    (other.define name value).result = .error fault := by
  unfold define at h ⊢
  split at h
  · exact defineEntries_error h other false
  · exact defineOne_error h other

end MacroTable

namespace ShaderPair

theorem takeDefines_error {pair : ShaderPair} {state : List (Value × Value)} {fault : Fault}
    (h : (pair.takeDefines state).result = .error fault) (other : ShaderPair) :
    (other.takeDefines state).result = .error fault := by
  unfold takeDefines at h ⊢
  split at h
  · split at h
    · rename_i defines hstate htrue
      have hdefine : (pair.macros.define defines (.bool true)).result = .error fault := by
        simp only [Step.result_map, Step.result_within] at h
        cases hresult : (pair.macros.define defines (.bool true)).result with
        | error first => rw [hresult] at h; exact congrArg Except.error (Except.error.inj h)
        | ok now => rw [hresult] at h; cases h
      rw [if_pos htrue, Step.result_map, Step.result_within,
        MacroTable.define_error hdefine other.macros]
      rfl
    · cases h
  · cases h

/-! ## Failures before anything is put in place -/

/-- **How an update goes up to the program,** as a function of the pair and the library. The layer
has no part in it. -/
def verdict (pair : ShaderPair) (library : Library) (listing : Bool) (state : List (Value × Value)) :
    Except Fault Bool :=
  let taken := pair.takeDefines state
  match taken.result, taken.state.resolveSources (.map state) with
  | .error fault, _ => .error fault
  | _, .error fault => .error fault
  | _, .ok texts =>
    if (taken.state.dueReasons library state texts).isEmpty then
      .ok !(swappedSlots (taken.state.changes library texts)).isEmpty
    else if texts.isEmpty then .ok false
    else (compileTexts taken.state listing library texts).result.map fun _ => true

section Courses

variable {drawing behind later : Drawing} {listing : Bool} {state : List (Value × Value)}
  {pair : ShaderPair} {texts : List (Slot × Text)} {outcome : Except Fault Bool} {fault : Fault}

theorem Course.eq_verdict (h : Course drawing listing state outcome behind) :
    outcome = verdict drawing.pair drawing.context.library listing state := by
  unfold verdict
  cases h with
  | refused h => simp only [h]
  | unresolved htaken h => simp only [htaken, h]
  | textless hready hdue =>
    obtain ⟨htaken, rfl, hresolved⟩ := hready
    simp [htaken, hresolved, hdue]
  | broken hready htexts hdue h hleft =>
    obtain ⟨htaken, rfl, hresolved⟩ := hready
    simp [htaken, hresolved, hdue, htexts, h, Except.map]
  | compiled hready htexts hdue h =>
    obtain ⟨htaken, rfl, hresolved⟩ := hready
    simp [htaken, hresolved, hdue, htexts, h, Except.map]
  | kept hready hdue hkept =>
    obtain ⟨htaken, rfl, hresolved⟩ := hready
    simp [htaken, hresolved, hdue, hkept]
  | swapped hready hdue hswapped =>
    obtain ⟨htaken, rfl, hresolved⟩ := hready
    simp [htaken, hresolved, hdue, hswapped]

theorem update_error_of_verdict
    (h : verdict drawing.pair drawing.context.library listing state = .error fault) :
    (update drawing listing state).result = .error fault := by
  rcases update_cases drawing listing state with
    ⟨first, hcourse, hresult⟩ | ⟨hcourse, -⟩ | ⟨outcome, behind, hcourse, -, -⟩
  · rw [hresult, Except.error.inj (hcourse.eq_verdict.trans h)]
  · cases hcourse.eq_verdict.trans h
  · cases hcourse.eq_verdict.trans h

/-- **What was built is the same:** the texts, what they were compiled to, the program, and the
number of compilations. -/
structure SameBuild (old new : ShaderPair) : Prop where
  resolved : new.resolved = old.resolved
  compiled : new.compiled = old.compiled
  program : new.program = old.program
  compileCount : new.compileCount = old.compileCount

theorem Course.sameBuild (h : Course drawing listing state (.error fault) behind) :
    SameBuild drawing.pair behind.pair := by
  have hunbuilt := h.unbuilt (by simp)
  exact ⟨hunbuilt.resolved, hunbuilt.compiled, h.untouched.program, hunbuilt.compileCount⟩

/-! ## The next time -/

/-- **After a failure there is still something to compile.** Whatever happens in between, an update
with the same frame state that gets beyond its sources has texts, and a reason to compile them. -/
theorem due_again (hrecorded : Recorded drawing.pair drawing.context.library)
    (h : Course drawing listing state (.error fault) behind) (hquiet : Quiet behind later)
    (hready : Ready later state pair texts) :
    texts ≠ [] ∧ pair.dueReasons later.context.library state texts ≠ [] := by
  have hremembers := h.remembers_of_error
  have hunbuilt := h.unbuilt (by simp)
  have huntouched := h.untouched
  have hplain := h.context.2
  obtain ⟨⟨macros, hpair, hsince⟩, hlibrary⟩ := hquiet
  have hsources : pair.sources = drawing.pair.sources := by
    rw [hready.untouched.sources, hpair]
    exact huntouched.sources
  -- The fault was in the defines or in a source, and then it is there again, or in a text.
  cases h with
  | refused h =>
    have hagain := takeDefines_error h later.pair
    rw [hready.taken] at hagain
    cases hagain
  | unresolved htaken h =>
    have hagain := hready.resolved
    rw [resolveSources_congr (hsources.trans (untouched_takeDefines _ _).sources.symm), h] at hagain
    cases hagain
  | @broken first left firstTexts _ hfirst htexts hdue h hleft =>
    have hsame : texts = firstTexts := by
      have hagain := hready.resolved
      rw [resolveSources_congr (hsources.trans hfirst.untouched.sources.symm),
        hfirst.resolved] at hagain
      exact (Except.ok.inj hagain).symm
    rw [hsame]
    refine ⟨htexts, ?_⟩
    -- From the pair that was to be compiled then to the one that is to be compiled now.
    have hlaterPair : Remembers left later.pair ∧ Unbuilt left later.pair := by
      rw [hpair]
      exact ⟨⟨rfl, rfl, rfl⟩, ⟨rfl, rfl, rfl, rfl, .inl rfl⟩⟩
    refine dueReasons_ne_nil_of_later (hfirst.recorded hrecorded)
      (((remembers_of_left hleft).trans hlaterPair.1).trans hready.remembers)
      (((unbuilt_of_left hleft).trans hlaterPair.2).trans hready.unbuilt) ?_ ?_ hdue
    · have hnow := hready.untouched.macros
      rw [hpair] at hnow
      rw [← macros_of_left hleft]
      exact hsince.trans hnow
    · exact (Library.Before.of_plain_eq hplain).trans hlibrary

/-- **After a failure no update draws without compiling.** -/
theorem compiled_again {laterListing built : Bool}
    (hrecorded : Recorded drawing.pair drawing.context.library)
    (h : Course drawing listing state (.error fault) behind) (hquiet : Quiet behind later)
    {ready : Drawing} (hagain : Course later laterListing state (.ok built) ready) :
    built = true ∧ ready.pair.compileCount = drawing.pair.compileCount + 1 := by
  have hcount : later.pair.compileCount = drawing.pair.compileCount := by
    obtain ⟨⟨macros, hpair, -⟩, -⟩ := hquiet
    rw [hpair]
    exact (h.unbuilt (by simp)).compileCount
  cases hagain with
  | textless hready hdue => exact absurd rfl (due_again hrecorded h hquiet hready).1
  | compiled hready htexts hdue hcompiled =>
    refine ⟨rfl, ?_⟩
    rw [compileCount_built, hready.unbuilt.compileCount, hcount]
  | kept hready hdue hkept => exact absurd hdue (due_again hrecorded h hquiet hready).2
  | swapped hready hdue hswapped => exact absurd hdue (due_again hrecorded h hquiet hready).2

/-! ## A layer that refuses -/

theorem Programmed.of_error (h : Programmed drawing (.error fault) behind) :
    behind = drawing ∧ drawing.pair.compiled ≠ ⟨none, none⟩ ∧
      drawing.context.commands.accept drawing.pair.compiled = .error fault := by
  cases h with
  | refused htexts hunknown hrefused => exact ⟨rfl, htexts, hrefused⟩

/-- Texts that are put in place are no longer what was built. -/
theorem Course.not_sameBuild (h : Course drawing listing state (.ok true) behind) :
    ¬ SameBuild drawing.pair behind.pair := by
  intro hsame
  cases h with
  | compiled hready htexts hdue hcompiled =>
    have hcount := hsame.compileCount
    rw [compileCount_built, hready.unbuilt.compileCount] at hcount
    omega
  | @swapped pair texts hready hdue hswapped =>
    -- A text is swapped only for another one.
    obtain ⟨slot, hslot⟩ := List.exists_mem_of_ne_nil _ hswapped
    obtain ⟨text, compiled, hmem⟩ := mem_swappedSlots.1 hslot
    obtain ⟨-, hchange⟩ := mem_changes.1 hmem
    have hnodup := nodup_changes pair drawing.context.library
      (nodup_of_resolveSources hready.resolved)
    have hafter := (get_swap_of_mem (pair.reviewed drawing.context.library) hnodup hmem).1
    have hbefore := (get?_memo_of_swapTo hchange.symm).2.1
    rw [reviewed_eq] at hbefore
    rw [hsame.resolved, ← hready.unbuilt.resolved] at hafter
    exact hbefore hafter

/-- **Behind texts that were put in place nothing is left to do.** An update with the same frame
state, which does not force a compilation and brings no new defines, draws at once. -/
theorem update_after_refusal (h : Course drawing listing state (.ok true) behind)
    (hforce : stateHolds state "force_compile" = false)
    (hdefines : (behind.pair.takeDefines state).state = behind.pair) (again : Bool) :
    ∃ shown, (update behind again state).result = .ok shown ∧
      (update behind again state).state.pair.compiled = behind.pair.compiled ∧
      (update behind again state).state.pair.program = behind.pair.program := by
  obtain ⟨pair, texts, hready, hplaced, hown, hshared⟩ := h.settled
  have huntouched := h.untouched
  have hagain : Ready behind state behind.pair texts := by
    refine ⟨?_, hdefines.symm, ?_⟩
    · cases htaken : (behind.pair.takeDefines state).result with
      | ok done => rfl
      | error fault =>
        have hfault := takeDefines_error htaken drawing.pair
        rw [hready.taken] at hfault
        cases hfault
    · rw [resolveSources_congr (huntouched.sources.trans hready.untouched.sources.symm)]
      exact hready.resolved
  -- The refused texts stand in their slots, as if all had gone well.
  have hkeep : ∀ slot text, (slot, text) ∈ texts →
      (behind.pair.reviewed behind.context.library).changeOf slot text = .keep := by
    intro slot text hmem
    rw [changeOf_eq_keep_iff, reviewed_eq]
    exact hplaced slot text hmem
  have hdue : behind.pair.dueReasons behind.context.library state texts = [] := by
    rw [dueReasons_eq_nil_iff, frameReasons_eq_nil_iff]
    refine ⟨⟨hforce, hown, hshared⟩, ?_⟩
    rintro slot text hmem ⟨reason, hreason⟩
    rw [hkeep slot text hmem] at hreason
    cases hreason
  have hstill : swappedSlots (behind.pair.changes behind.context.library texts) = [] := by
    rw [List.eq_nil_iff_forall_not_mem]
    intro slot hslot
    obtain ⟨text, compiled, hmem⟩ := mem_swappedSlots.1 hslot
    obtain ⟨htext, hchange⟩ := mem_changes.1 hmem
    rw [hkeep slot text htext] at hchange
    cases hchange
  have hverdict : verdict behind.pair behind.context.library again state = .ok false := by
    have hkept : Course behind again state (.ok false) _ := .kept hagain hdue hstill
    exact hkept.eq_verdict.symm
  rcases update_cases behind again state with
    ⟨fault, hcourse, -⟩ | ⟨hcourse, hresult⟩ | ⟨outcome, after, hcourse, -, -⟩
  · cases hcourse.eq_verdict.trans hverdict
  · exact ⟨_, hresult, (hcourse.unbuilt (by simp)).compiled, hcourse.untouched.program⟩
  · cases hcourse.eq_verdict.trans hverdict

end Courses

/-! ## Failing updates in a run -/

section Runs

variable (start : Drawing) (events : List Event) (listing : Bool) (state : List (Value × Value))
  (fault : Fault)

/-- **A failure behind some events that leaves nothing behind.** The layer has no part in it. What
was built is as before, and the next update with the same frame state that gets to draw, whatever
happens in between, has compiled the texts once more, and draws them with the program of exactly
these texts if there is one. -/
structure LeavesNothing : Prop where
  anyLayer : ∀ commands, (update ⟨{ (start.run events).context with commands := commands },
    (start.run events).pair⟩ listing state).result = .error fault
  sameBuild : SameBuild (start.run events).pair
    (update (start.run events) listing state).state.pair
  retried : ∀ quiet : List Event, (∀ event ∈ quiet, event.isUpdate = false) → ∀ again shown,
    let later := start.run (events ++ .update listing state :: quiet)
    let drawn := (update later again state).state
    (update later again state).result = .ok shown →
      drawn.pair.compileCount = (start.run events).pair.compileCount + 1 ∧
      (Digest.CollisionFree ((start.programTexts ((events ++ .update listing state :: quiet)
          ++ [.update again state])).map programText) →
        drawn.pair.compiled ≠ ⟨none, none⟩ → ∀ index, drawn.pair.program = some index →
          drawn.context.commands.programs[index]? = some drawn.pair.compiled)

/-- **A failure behind some events that comes too late:** the layer refuses the texts that stand in
the pair by then. What was built is not as before, except for the program; and the next update with
the same frame state draws the refused texts with it, unless the frame forces a compilation or
brings new defines. -/
structure ComesTooLate : Prop where
  refused : (start.run events).context.commands.accept
    (update (start.run events) listing state).state.pair.compiled = .error fault
  notSameBuild : ¬ SameBuild (start.run events).pair
    (update (start.run events) listing state).state.pair
  program : (update (start.run events) listing state).state.pair.program
    = (start.run events).pair.program
  drawn : ∀ again, let after := (update (start.run events) listing state).state
    stateHolds state "force_compile" = false →
    (after.pair.takeDefines state).state = after.pair →
    ∃ shown, (update after again state).result = .ok shown ∧
      (∀ slot : Slot, stateAt? shown slot.stateName
        = some (textValue (after.pair.compiled.get slot))) ∧
      stateAt? shown "program" = some (programValue (start.run events).pair.program)

end Runs

/-- **An update that fails leaves nothing behind, or comes too late,** after any run and over any
layer. -/
theorem leavesNothing_or_comesTooLate {context : DrawContext} {name : Value}
    {sources : Slots (Option ShaderSource)} {macros : MacroTable} {events : List Event}
    {listing : Bool} {state : List (Value × Value)} {fault : Fault}
    (hfailed : (update (Drawing.run ⟨context, fresh name sources macros⟩ events) listing state).result
      = .error fault) :
    LeavesNothing ⟨context, fresh name sources macros⟩ events listing state fault ∨
      ComesTooLate ⟨context, fresh name sources macros⟩ events listing state fault := by
  have hrecorded := recorded_run context name sources macros events
  rcases update_cases (Drawing.run ⟨context, fresh name sources macros⟩ events) listing state with
    ⟨first, hcourse, hresult⟩ | ⟨-, hresult⟩ | ⟨outcome, behind, hcourse, hprogrammed, hresult⟩
  -- The update broke off before anything was put in place.
  · obtain rfl : first = fault := Except.error.inj (hresult.symm.trans hfailed)
    refine .inl ⟨fun commands => ?_, hcourse.sameBuild, fun quiet hquiet again shown => ?_⟩
    · exact update_error_of_verdict hcourse.eq_verdict.symm
    · intro later drawn hshown
      have hlater : Quiet (update (Drawing.run ⟨context, fresh name sources macros⟩ events) listing
          state).state later := by
        have hrun := Drawing.quiet_run (update (Drawing.run ⟨context, fresh name sources macros⟩
          events) listing state).state hquiet
        rw [show later = _ from Drawing.run_append _ events (.update listing state :: quiet)]
        exact hrun
      rcases update_cases later again state with
        ⟨second, -, hsecond⟩ | ⟨hagain, -⟩ | ⟨outcome, ready, hagain, hmade, hsecond⟩
      · rw [hsecond] at hshown
        cases hshown
      · obtain ⟨hbuilt, -⟩ := compiled_again hrecorded hcourse hlater hagain
        cases hbuilt
      · obtain ⟨-, hcount⟩ := compiled_again hrecorded hcourse hlater hagain
        obtain rfl : outcome = .ok () := by
          cases outcome with
          | ok done => rfl
          | error second => rw [hsecond] at hshown; cases hshown
        refine ⟨?_, fun hfree htexts index hindex => made_of_update hagain hmade hfree htexts hindex⟩
        obtain ⟨⟨programs, program, hpair⟩, -⟩ := hmade.eq
        rw [show drawn.pair = _ from hpair]
        exact hcount
  · rw [hresult] at hfailed
    cases hfailed
  -- The texts were put in place, and then the layer refused them.
  · obtain rfl : outcome = .error fault := by
      cases outcome with
      | ok done => rw [hresult] at hfailed; cases hfailed
      | error second => exact congrArg Except.error (Except.error.inj (hresult.symm.trans hfailed))
    obtain ⟨hafter, -, haccept⟩ := hprogrammed.of_error
    rw [← hafter] at hcourse haccept
    rw [hcourse.context.1] at haccept
    refine .inr ⟨haccept, hcourse.not_sameBuild, hcourse.untouched.program, fun again => ?_⟩
    intro after hforce hdefines
    obtain ⟨shown, hshown, hcompiled, hprogram⟩ :=
      update_after_refusal hcourse hforce hdefines again
    obtain ⟨htext, hstate, -⟩ := stateAt?_drawState (update after again state).state state
    refine ⟨shown, hshown, fun slot => ?_, ?_⟩
    · rw [eq_drawState_of_update hshown, htext, hcompiled]
    · rw [eq_drawState_of_update hshown, hstate, hprogram, hcourse.untouched.program]

/-! ## A text that is refused -/

/-- A drawing over a layer that refuses every text, for which a text has been compiled. -/
def refusedSketch : Step Drawing (List (Value × Value)) :=
  update ⟨.around .bare, sketch⟩ false (frame "int a;")

theorem update_refusedSketch :
    refusedSketch.result.toOption.isNone = true ∧ refusedSketch.state.pair.compileCount = 1 ∧
      (update refusedSketch.state false (frame "int a;")).result.toOption.isSome = true ∧
      (update refusedSketch.state false (frame "int a;")).state.pair.compiled.vertex.isSome = true ∧
      (update refusedSketch.state false (frame "int a;")).state.pair.program = none := by
  decide +kernel

/-- The first update fails, and has compiled. The second one draws, with a text and no program. -/
theorem draws_refused_text :
    (∃ fault, (update ⟨.around .bare, sketch⟩ false (frame "int a;")).result = .error fault) ∧
      ¬ SameBuild sketch (update ⟨.around .bare, sketch⟩ false (frame "int a;")).state.pair ∧
      ∃ shown, (update (update ⟨.around .bare, sketch⟩ false (frame "int a;")).state false
          (frame "int a;")).result = .ok shown ∧
        (∃ text, stateAt? shown Slot.vertex.stateName = some (.text text)) ∧
        stateAt? shown "program" = some .null := by
  obtain ⟨hfails, hcount, hdraws, htext, hprogram⟩ := update_refusedSketch
  refine ⟨?_, fun hsame => ?_, ?_⟩
  · cases hresult : (update ⟨.around .bare, sketch⟩ false (frame "int a;")).result with
    | ok shown => rw [refusedSketch, hresult] at hfails; cases hfails
    | error fault => exact ⟨fault, rfl⟩
  · have hcounts := hsame.compileCount
    rw [refusedSketch] at hcount
    rw [hcount] at hcounts
    cases hcounts
  · cases hshown : (update refusedSketch.state false (frame "int a;")).result with
    | error fault => rw [hshown] at hdraws; cases hdraws
    | ok shown =>
      obtain ⟨hslots, hstate, -⟩ := stateAt?_drawState
        (update refusedSketch.state false (frame "int a;")).state (frame "int a;")
      rw [← eq_drawState_of_update hshown] at hslots hstate
      obtain ⟨text, htext⟩ := Option.isSome_iff_exists.1 htext
      refine ⟨shown, hshown, ⟨text, ?_⟩, ?_⟩
      · rw [hslots, Slots.get, htext]
        rfl
      · rw [hstate, hprogram]
        rfl

/-- The first update of that run, as a case of the general statement. -/
theorem leavesNothing_or_comesTooLate_of_refusal :
    ∃ fault, (update ⟨.around .bare, sketch⟩ false (frame "int a;")).result = .error fault ∧
      (LeavesNothing ⟨.around .bare, sketch⟩ [] false (frame "int a;") fault ∨
        ComesTooLate ⟨.around .bare, sketch⟩ [] false (frame "int a;") fault) := by
  obtain ⟨hfails, -⟩ := update_refusedSketch
  cases hresult : (update ⟨.around .bare, sketch⟩ false (frame "int a;")).result with
  | ok shown => rw [refusedSketch, hresult] at hfails; cases hfails
  | error fault => exact ⟨fault, rfl, leavesNothing_or_comesTooLate hresult⟩

end ShaderPair

end GlslCompose
