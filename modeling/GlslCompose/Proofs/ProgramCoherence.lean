/-
`Proofs/ProgramCoherence.lean` -- which program drawing finds beside its texts.

A pair looks its program up by the digest of the two compiled texts. Programs pile up in
a memo that pushes old ones out, and texts are put in place on two different ways, by
compiling and by going back to remembered ones; but each program that is kept was made
of texts that some update left in place, and stands under the key of those
(`Registered`). That holds over any layer. Over one that always hands a program out, the
program is therefore that of exactly the texts, whenever there is any text.

Where there is none, nothing is looked up, and the program stays what it was. So the
program is wrong in exactly one situation (`programFor_iff`): both texts have become
empty, and there has been a text before.
-/
import GlslCompose.Proofs.JsonReading
import GlslCompose.Proofs.PairRun

set_option autoImplicit false

namespace GlslCompose

/-! ## Keys of programs -/

namespace ShaderPair

open Value

/-- The JSON text of the texts of a program. -/
def programText (texts : ProgramTexts) : Text :=
  jsonGroup '[' ']' [jsonOf texts.vertex, jsonOf texts.fragment]

/-- The key of a program is the digest of its text. -/
theorem programKey_eq (texts : ProgramTexts) :
    programKey texts = Digest.ofText (programText texts) := rfl

theorem jsonOf_append_inj {a b : Option Text} {r s : Text} (h : jsonOf a ++ r = jsonOf b ++ s) :
    a = b ∧ r = s := by
  cases a with
  | none =>
    cases b with
    | none => exact ⟨rfl, List.append_cancel_left h⟩
    | some t => exact absurd (List.cons.inj h).1 (by decide)
  | some t =>
    cases b with
    | none => exact absurd (List.cons.inj h).1 (by decide)
    | some u =>
      obtain ⟨rfl, hr⟩ := jsonText_append_inj h
      exact ⟨rfl, hr⟩

/-- **The text under a program's key determines the texts of the program.** -/
theorem programText_injective {texts other : ProgramTexts}
    (h : programText texts = programText other) : texts = other := by
  unfold programText at h
  rw [← List.append_nil (jsonGroup _ _ _), ← List.append_nil (jsonGroup _ _ [jsonOf other.vertex, _]),
    jsonGroup_cons_append, jsonGroup_cons_append] at h
  obtain ⟨hvertex, hrest⟩ := jsonOf_append_inj (List.cons.inj h).2
  simp only [List.flatMap_cons, List.flatMap_nil, List.cons_append, List.append_nil] at hrest
  obtain ⟨hfragment, -⟩ := jsonOf_append_inj (List.cons.inj hrest).2
  obtain ⟨vertex, fragment⟩ := texts
  obtain ⟨otherVertex, otherFragment⟩ := other
  obtain rfl : vertex = otherVertex := hvertex
  obtain rfl : fragment = otherFragment := hfragment
  rfl

end ShaderPair

/-! ## Programs and what they were made of -/

namespace CommandLayer

/-- **A program for exactly the texts that are there,** and none where there is no text. -/
def ProgramFor (layer : CommandLayer) (texts : ProgramTexts) : Option Nat → Prop
  | none => texts = ⟨none, none⟩
  | some index => texts ≠ ⟨none, none⟩ ∧ layer.programs[index]? = some texts

/-- A layer that hands out a program for every pair of texts. -/
def Generous (accept : ProgramTexts → Except Fault Bool) : Prop := ∀ texts, accept texts = .ok true

end CommandLayer

namespace ShaderPair

/-- **Every program that a pair keeps was made of texts that updates left in place,** and stands
under the key of those. -/
def Registered (texts : List ProgramTexts) (drawing : Drawing) : Prop :=
  ∀ key index, (key, some index) ∈ drawing.pair.programs →
    ∃ made ∈ texts, programKey made = key ∧ drawing.context.commands.programs[index]? = some made

/-- A drawing with the same programs keeps as good ones, and so does one with more texts behind it. -/
theorem Registered.mono {texts more : List ProgramTexts} {drawing other : Drawing}
    (h : Registered texts drawing) (hprograms : other.pair.programs = drawing.pair.programs)
    (hcommands : other.context.commands.programs = drawing.context.commands.programs)
    (htexts : texts ⊆ more) : Registered more other := by
  intro key index hmem
  rw [hprograms] at hmem
  obtain ⟨made, hmade, hkey, hprogram⟩ := h key index hmem
  exact ⟨made, htexts hmade, hkey, by rw [hcommands, hprogram]⟩

/-- Seeing to the program keeps everything registered. -/
theorem Programmed.registered {texts : List ProgramTexts} {drawing behind : Drawing}
    {outcome : Except Fault Unit} (hprogrammed : Programmed drawing outcome behind)
    (h : Registered texts drawing)
    (hmem : drawing.pair.compiled ≠ ⟨none, none⟩ → drawing.pair.compiled ∈ texts) :
    Registered texts behind := by
  cases hprogrammed with
  | textless hnone => exact h
  | known htexts hknown => exact h
  | refused htexts hunknown hrefused => exact h
  | created htexts hunknown haccept =>
    intro key index hentry
    -- The program that was made just now comes last in the layer, and the others keep their places.
    rcases Memo.mem_remember hentry with heq | hold
    · obtain ⟨rfl, hindex⟩ := Prod.mk.inj heq
      refine ⟨_, hmem htexts, rfl, ?_⟩
      split at hindex
      · obtain rfl := Option.some.inj hindex
        exact List.getElem?_concat_length
      · cases hindex
    · obtain ⟨made, hmade, hkey, hprogram⟩ := h key index hold
      refine ⟨made, hmade, hkey, ?_⟩
      have hlt := (List.getElem?_eq_some_iff.1 hprogram).1
      exact (List.getElem?_append_left hlt).trans hprogram

/-- The program that is found or made is one for exactly the texts that are there. -/
theorem Programmed.made {texts : List ProgramTexts} {drawing behind : Drawing} {index : Nat}
    (hprogrammed : Programmed drawing (.ok ()) behind) (h : Registered texts drawing)
    (hfree : Digest.CollisionFree (texts.map programText))
    (htexts : drawing.pair.compiled ≠ ⟨none, none⟩)
    (hmem : drawing.pair.compiled ∈ texts) (hindex : behind.pair.program = some index) :
    behind.context.commands.programs[index]? = some behind.pair.compiled := by
  cases hprogrammed with
  | textless hnone => exact absurd hnone htexts
  | known _ hknown =>
    obtain rfl := Option.some.inj hindex
    cases hget : Pairs.get? (programKey drawing.pair.compiled) drawing.pair.programs with
    | none => rw [hget] at hknown; cases hknown
    | some value =>
      rw [hget] at hknown
      obtain rfl : value = some _ := hknown
      -- What is found under the key was made of texts with that key, and keys do not collide.
      obtain ⟨made, hmade, hkey, hprogram⟩ := h _ _ (Memo.mem_of_get? hget)
      rw [programKey_eq, programKey_eq] at hkey
      have htext := hfree _ (List.mem_map_of_mem hmade) _ (List.mem_map_of_mem hmem) hkey
      rw [← programText_injective htext]
      exact hprogram
  | created _ hunknown haccept =>
    dsimp only at hindex
    split at hindex
    · obtain rfl := Option.some.inj hindex
      exact List.getElem?_concat_length
    · cases hindex

/-! ## Runs -/

section Runs

variable {texts : List ProgramTexts} {drawing : Drawing} {listing : Bool}
  {state : List (Value × Value)}

/-- What an update leaves in place is among the texts of the run. -/
theorem mem_textsAfter (h : (update drawing listing state).state.pair.compiled ≠ ⟨none, none⟩) :
    (update drawing listing state).state.pair.compiled
      ∈ drawing.textsAfter (.update listing state) := by
  simp only [Drawing.textsAfter, if_neg h]
  exact List.mem_singleton.2 rfl

/-- Seeing to the program does not change what was compiled. -/
theorem Programmed.compiled {behind : Drawing} {outcome : Except Fault Unit}
    (h : Programmed drawing outcome behind) : behind.pair.compiled = drawing.pair.compiled := by
  cases h <;> rfl

/-- Where there is no text, the program is not seen to. -/
theorem Programmed.program_of_textless {behind : Drawing} {outcome : Except Fault Unit}
    (h : Programmed drawing outcome behind) (htexts : drawing.pair.compiled = ⟨none, none⟩) :
    behind.pair.program = drawing.pair.program := by
  cases h with
  | textless _ => rfl
  | refused _ hunknown hrefused => rfl
  | known hsome _ => exact absurd htexts hsome
  | created hsome _ _ => exact absurd htexts hsome

theorem registered_update (h : Registered texts drawing) :
    Registered (texts ++ drawing.textsAfter (.update listing state))
      (update drawing listing state).state := by
  have hbehind : ∀ {outcome behind}, Course drawing listing state outcome behind →
      Registered (texts ++ drawing.textsAfter (.update listing state)) behind :=
    fun hcourse => h.mono hcourse.untouched.programs (by rw [hcourse.context.1])
      (List.subset_append_left _ _)
  rcases update_cases drawing listing state with
    ⟨fault, hcourse, -⟩ | ⟨hcourse, -⟩ | ⟨outcome, behind, hcourse, hprogrammed, -⟩
  · exact hbehind hcourse
  · exact hbehind hcourse
  · refine hprogrammed.registered (hbehind hcourse) fun htexts => ?_
    rw [← hprogrammed.compiled] at htexts ⊢
    exact List.mem_append_right _ (mem_textsAfter htexts)

/-- Where an update leaves no text in place, it leaves the program as it is. -/
theorem program_update_of_textless
    (h : (update drawing listing state).state.pair.compiled = ⟨none, none⟩) :
    (update drawing listing state).state.pair.program = drawing.pair.program := by
  rcases update_cases drawing listing state with
    ⟨fault, hcourse, -⟩ | ⟨hcourse, -⟩ | ⟨outcome, behind, hcourse, hprogrammed, -⟩
  · exact hcourse.untouched.program
  · exact hcourse.untouched.program
  · rw [hprogrammed.compiled] at h
    rw [← hcourse.untouched.program, hprogrammed.program_of_textless h]

/-- A generous layer stays one. -/
theorem generous_perform {event : Event}
    (h : CommandLayer.Generous drawing.context.commands.accept)
    (hevent : ∀ accept, event = .commands accept → CommandLayer.Generous accept) :
    CommandLayer.Generous (event.perform drawing).context.commands.accept := by
  cases event with
  | update listing state =>
    rw [Event.perform, accept_update]
    exact h
  | commands accept => exact hevent accept rfl
  | _ => exact h

/-- **A pair over a generous layer:** where there is a text there is a program, it is the one of
exactly the texts that are there, and there is none only as long as there has been no text. -/
structure Settled (texts : List ProgramTexts) (drawing : Drawing) : Prop where
  registered : Registered texts drawing
  generous : CommandLayer.Generous drawing.context.commands.accept
  programFor : drawing.pair.compiled ≠ ⟨none, none⟩ →
    drawing.context.commands.ProgramFor drawing.pair.compiled drawing.pair.program
  eq_none_iff : drawing.pair.program = none ↔ texts = []

/-- A generous layer hands out a program wherever there is a text. -/
theorem Programmed.isSome_program {behind : Drawing} {outcome : Except Fault Unit}
    (h : Programmed drawing outcome behind)
    (hgenerous : CommandLayer.Generous drawing.context.commands.accept)
    (htexts : drawing.pair.compiled ≠ ⟨none, none⟩) :
    outcome = .ok () ∧ ∃ index, behind.pair.program = some index := by
  cases h with
  | textless hnone => exact absurd hnone htexts
  | known _ hknown => exact ⟨rfl, _, rfl⟩
  | created _ hunknown haccept =>
    rw [hgenerous] at haccept
    obtain rfl := Except.ok.inj haccept
    exact ⟨rfl, _, rfl⟩
  | refused _ hunknown hrefused =>
    rw [hgenerous] at hrefused
    cases hrefused

theorem Settled.update (h : Settled texts drawing)
    (hfree : Digest.CollisionFree
      ((texts ++ drawing.textsAfter (.update listing state)).map programText)) :
    Settled (texts ++ drawing.textsAfter (.update listing state))
      (ShaderPair.update drawing listing state).state := by
  have hregistered : Registered (texts ++ drawing.textsAfter (.update listing state))
      (ShaderPair.update drawing listing state).state := registered_update h.registered
  have hgenerous : CommandLayer.Generous
      ((Event.update listing state).perform drawing).context.commands.accept :=
    generous_perform h.generous fun _ hevent => by cases hevent
  -- Texts that were not put in place now were there before, beside their program.
  have hstays : ∀ {outcome}, Course drawing listing state outcome
      (ShaderPair.update drawing listing state).state → outcome ≠ .ok true →
      (ShaderPair.update drawing listing state).state.pair.compiled ≠ ⟨none, none⟩ →
      (ShaderPair.update drawing listing state).state.context.commands.ProgramFor
        (ShaderPair.update drawing listing state).state.pair.compiled
        (ShaderPair.update drawing listing state).state.pair.program := by
    intro outcome hcourse hout htexts
    rw [(hcourse.unbuilt hout).compiled] at htexts ⊢
    rw [hcourse.untouched.program, hcourse.context.1]
    exact h.programFor htexts
  have hprogramFor : (ShaderPair.update drawing listing state).state.pair.compiled ≠ ⟨none, none⟩ →
      (ShaderPair.update drawing listing state).state.context.commands.ProgramFor
        (ShaderPair.update drawing listing state).state.pair.compiled
        (ShaderPair.update drawing listing state).state.pair.program := by
    rcases update_cases drawing listing state with
      ⟨fault, hcourse, -⟩ | ⟨hcourse, -⟩ | ⟨outcome, behind, hcourse, hprogrammed, -⟩
    · exact hstays hcourse (by simp)
    · exact hstays hcourse (by simp)
    · intro htexts
      have hmem := List.mem_append_right texts (mem_textsAfter htexts)
      rw [hprogrammed.compiled] at htexts hmem
      have hbehind : Registered (texts ++ drawing.textsAfter (.update listing state)) behind :=
        h.registered.mono hcourse.untouched.programs (by rw [hcourse.context.1])
          (List.subset_append_left _ _)
      have hlayer : CommandLayer.Generous behind.context.commands.accept := by
        rw [hcourse.context.1]
        exact h.generous
      obtain ⟨rfl, index, hindex⟩ := hprogrammed.isSome_program hlayer htexts
      rw [hindex]
      refine ⟨?_, hprogrammed.made hbehind hfree htexts hmem hindex⟩
      rw [hprogrammed.compiled]
      exact htexts
  refine ⟨hregistered, hgenerous, hprogramFor, ?_⟩
  -- An update without any text changes neither side, and one with a text has a program.
  by_cases htexts : (ShaderPair.update drawing listing state).state.pair.compiled = ⟨none, none⟩
  · rw [program_update_of_textless htexts, h.eq_none_iff, Drawing.textsAfter, if_pos htexts,
      List.append_nil]
  · have hsome := hprogramFor htexts
    have hmem := List.mem_append_right texts (mem_textsAfter htexts)
    refine ⟨fun hnone => ?_, fun hempty => ?_⟩
    · rw [hnone] at hsome
      exact absurd hsome htexts
    · rw [hempty] at hmem
      cases hmem

/-- **Over any layer, and after any run,** every program that a pair keeps is for texts of the run. -/
theorem registered_run (context : DrawContext) (name : Value) (sources : Slots (Option ShaderSource))
    (macros : MacroTable) (events : List Event) :
    Registered (Drawing.programTexts ⟨context, fresh name sources macros⟩ events)
      (Drawing.run ⟨context, fresh name sources macros⟩ events) := by
  refine Drawing.run_induction ⟨context, fresh name sources macros⟩
    (motive := fun events drawing => Registered
      (Drawing.programTexts ⟨context, fresh name sources macros⟩ events) drawing) ?_ ?_ events
  · intro key index hmem
    cases hmem
  · intro events event h
    rw [Drawing.programTexts_concat]
    cases event with
    | update listing state => exact registered_update h
    | _ => exact h.mono rfl rfl (List.subset_append_left _ _)

/-- **Over any layer,** what an update puts in place gets the program of exactly these texts, if it
gets one. -/
theorem made_of_update {context : DrawContext} {name : Value} {sources : Slots (Option ShaderSource)}
    {macros : MacroTable} {events : List Event} {behind : Drawing} {index : Nat}
    (hcourse : Course (Drawing.run ⟨context, fresh name sources macros⟩ events) listing state
      (.ok true) behind)
    (hprogrammed : Programmed behind (.ok ())
      (update (Drawing.run ⟨context, fresh name sources macros⟩ events) listing state).state)
    (hfree : Digest.CollisionFree ((Drawing.programTexts ⟨context, fresh name sources macros⟩
      (events ++ [.update listing state])).map programText))
    (htexts : (update (Drawing.run ⟨context, fresh name sources macros⟩ events) listing
      state).state.pair.compiled ≠ ⟨none, none⟩)
    (hindex : (update (Drawing.run ⟨context, fresh name sources macros⟩ events) listing
      state).state.pair.program = some index) :
    (update (Drawing.run ⟨context, fresh name sources macros⟩ events) listing
      state).state.context.commands.programs[index]?
        = some (update (Drawing.run ⟨context, fresh name sources macros⟩ events) listing
            state).state.pair.compiled := by
  rw [Drawing.programTexts_concat] at hfree
  have hmem := List.mem_append_right
    (Drawing.programTexts ⟨context, fresh name sources macros⟩ events) (mem_textsAfter htexts)
  rw [hprogrammed.compiled] at htexts hmem
  have hbehind := (registered_run context name sources macros events).mono
    hcourse.untouched.programs (by rw [hcourse.context.1]) (List.subset_append_left _
      ((Drawing.run ⟨context, fresh name sources macros⟩ events).textsAfter (.update listing state)))
  exact hprogrammed.made hbehind hfree htexts hmem hindex

theorem settled_run {context : DrawContext} {name : Value} {sources : Slots (Option ShaderSource)}
    {macros : MacroTable} {events : List Event}
    (hgenerous : CommandLayer.Generous context.commands.accept)
    (hevents : ∀ accept, Event.commands accept ∈ events → CommandLayer.Generous accept)
    (hfree : Digest.CollisionFree
      ((Drawing.programTexts ⟨context, fresh name sources macros⟩ events).map programText)) :
    Settled (Drawing.programTexts ⟨context, fresh name sources macros⟩ events)
      (Drawing.run ⟨context, fresh name sources macros⟩ events) := by
  revert hevents hfree
  refine Drawing.run_induction ⟨context, fresh name sources macros⟩
    (motive := fun events drawing =>
      (∀ accept, Event.commands accept ∈ events → CommandLayer.Generous accept) →
      Digest.CollisionFree
        ((Drawing.programTexts ⟨context, fresh name sources macros⟩ events).map programText) →
      Settled (Drawing.programTexts ⟨context, fresh name sources macros⟩ events) drawing) ?_ ?_ events
  · intro _ _
    refine ⟨registered_run context name sources macros [], hgenerous, fun htexts => ?_, ?_⟩
    · exact absurd rfl htexts
    · exact ⟨fun _ => rfl, fun _ => rfl⟩
  · intro events event ih hevents hfree
    rw [Drawing.programTexts_concat] at hfree ⊢
    have hbefore := ih (fun accept hmem => hevents accept (List.mem_append_left _ hmem))
      (hfree.mono (List.map_subset _ (List.subset_append_left _ _)))
    -- Only an update changes the texts and their program; a new layer must accept as much as the old.
    cases event with
    | update listing state => exact hbefore.update hfree
    | commands accept =>
      have haccept := hevents accept (List.mem_append_right _ (List.mem_singleton.2 rfl))
      rw [Drawing.textsAfter_eq_nil rfl, List.append_nil]
      exact ⟨hbefore.registered, haccept, hbefore.programFor, hbefore.eq_none_iff⟩
    | _ =>
      rw [Drawing.textsAfter_eq_nil rfl, List.append_nil]
      exact ⟨hbefore.registered, hbefore.generous, hbefore.programFor, hbefore.eq_none_iff⟩

/-- **The program beside the texts.** Over a layer that always hands a program out, drawing finds
the program of exactly the texts that it finds, and none where it finds no text, with one exception:
where both texts are gone that an earlier update left in place, the program from before is still
there. -/
theorem programFor_iff {context : DrawContext} {name : Value}
    {sources : Slots (Option ShaderSource)} {macros : MacroTable} {events : List Event}
    {shown : List (Value × Value)}
    (hgenerous : CommandLayer.Generous context.commands.accept)
    (hevents : ∀ accept, Event.commands accept ∈ events → CommandLayer.Generous accept)
    (hfree : Digest.CollisionFree ((Drawing.programTexts ⟨context, fresh name sources macros⟩
      (events ++ [.update listing state])).map programText))
    (hshown : (update (Drawing.run ⟨context, fresh name sources macros⟩ events) listing state).result
      = .ok shown) :
    ∃ texts program,
      (∀ slot : Slot, stateAt? shown slot.stateName = some (textValue (texts.get slot))) ∧
      stateAt? shown "program" = some (programValue program) ∧
      ((update (Drawing.run ⟨context, fresh name sources macros⟩ events) listing
          state).state.context.commands.ProgramFor texts program ↔
        (texts = ⟨none, none⟩ →
          Drawing.programTexts ⟨context, fresh name sources macros⟩ events = [])) ∧
      (texts = ⟨none, none⟩ →
        program = (Drawing.run ⟨context, fresh name sources macros⟩ events).pair.program) := by
  have hsofar := hfree
  rw [Drawing.programTexts_concat] at hfree hsofar
  have hbefore := settled_run hgenerous hevents
    (hsofar.mono (List.map_subset _ (List.subset_append_left _ _)))
  have hafter := hbefore.update hfree
  obtain rfl := eq_drawState_of_update hshown
  obtain ⟨htext, hprogram, -⟩ := stateAt?_drawState (update (Drawing.run ⟨context,
    fresh name sources macros⟩ events) listing state).state state
  refine ⟨_, _, htext, hprogram, ?_, program_update_of_textless⟩
  refine ⟨fun hfor htexts => ?_, fun hno => ?_⟩
  · -- No program is there now, and none has been since before the update.
    rw [htexts] at hfor
    rw [← hbefore.eq_none_iff, ← program_update_of_textless htexts]
    cases hp : (update (Drawing.run ⟨context, fresh name sources macros⟩ events) listing
      state).state.pair.program with
    | none => rfl
    | some index =>
      rw [hp] at hfor
      exact absurd rfl hfor.1
  · by_cases htexts : (update (Drawing.run ⟨context, fresh name sources macros⟩ events) listing
        state).state.pair.compiled = ⟨none, none⟩
    · rw [program_update_of_textless htexts, hbefore.eq_none_iff.2 (hno htexts)]
      exact htexts
    · exact hafter.programFor htexts

end Runs

/-! ## A text that goes away -/

/-- A drawing whose only text has been compiled. -/
def sketched : Drawing :=
  Drawing.run ⟨.around .recording, sketch⟩ [.update false (frame "int a;")]

theorem update_sketched :
    (update sketched false (frame "")).result.toOption.isSome = true ∧
      (update sketched false (frame "")).state.pair.compiled = ⟨none, none⟩ ∧
      (update sketched false (frame "")).state.pair.program = some 0 := by
  decide +kernel

/-- The program of a text that is gone is still there. -/
theorem program_of_erased_text :
    ∃ shown, (update sketched false (frame "")).result = .ok shown ∧
      (∀ slot : Slot, stateAt? shown slot.stateName = some .null) ∧
      stateAt? shown "program" = some (.program 0) := by
  obtain ⟨hok, hcompiled, hprogram⟩ := update_sketched
  cases hshown : (update sketched false (frame "")).result with
  | error fault => rw [hshown] at hok; cases hok
  | ok shown =>
    obtain rfl := eq_drawState_of_update hshown
    obtain ⟨htexts, hstate, -⟩ :=
      stateAt?_drawState (update sketched false (frame "")).state (frame "")
    refine ⟨_, rfl, fun slot => ?_, ?_⟩
    · rw [htexts, hcompiled]
      cases slot <;> rfl
    · rw [hstate, hprogram]
      rfl

/-- The same run, as a case of the general statement. -/
theorem programFor_iff_of_erased_text :
    Digest.CollisionFree ((Drawing.programTexts ⟨.around .recording, sketch⟩
      ([.update false (frame "int a;")] ++ [.update false (frame "")])).map programText) ∧
    ∃ shown, (update sketched false (frame "")).result = .ok shown ∧
    ∃ texts program,
      (∀ slot : Slot, stateAt? shown slot.stateName = some (textValue (texts.get slot))) ∧
      stateAt? shown "program" = some (programValue program) ∧
      ((update sketched false (frame "")).state.context.commands.ProgramFor texts program ↔
        (texts = ⟨none, none⟩ →
          Drawing.programTexts ⟨.around .recording, sketch⟩ [.update false (frame "int a;")] = [])) ∧
      (texts = ⟨none, none⟩ → program = sketched.pair.program) := by
  have hfree : Digest.CollisionFree ((Drawing.programTexts ⟨.around .recording, sketch⟩
      ([.update false (frame "int a;")] ++ [.update false (frame "")])).map programText) := by
    decide +kernel
  obtain ⟨hok, -, -⟩ := update_sketched
  cases hshown : (update sketched false (frame "")).result with
  | error fault => rw [hshown] at hok; cases hok
  | ok shown =>
    have hevents : ∀ accept, Event.commands accept ∈ [Event.update false (frame "int a;")] →
        CommandLayer.Generous accept := by simp
    exact ⟨hfree, shown, rfl, programFor_iff (fun _ => rfl) hevents hfree hshown⟩

end ShaderPair

end GlslCompose
