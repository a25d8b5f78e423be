/-
`Proofs/UpdateCourse.lean` -- the courses that an update of a shader pair can take.

An update takes the defines of the frame in, resolves the sources, and then compiles all
texts, or swaps some of them for remembered ones, or leaves everything as it is; what
was compiled or swapped still needs its program. It may fail at each of these points,
with other parts of the pair changed by then. `Course` lists the ways up to the
program, with everything that is known there, and `Programmed` the ways to get one.
`update_cases` puts the two together: each update is a course that fails, or one that
needs no program, or one that is followed by the program. All that is proved about
updates goes by these cases, and nothing else opens `update`.
-/
import GlslCompose.Proofs.LibraryRun
import GlslCompose.ShaderPair

set_option autoImplicit false

namespace GlslCompose

/-! ## What is set in a frame state -/

/-- Nothing but a text is the same as a text. -/
theorem Value.eq_text_of_beq {v : Value} {t : Text} (h : (v == text t) = true) : v = text t := by
  have hsame : same v (text t) = true := h
  cases v with
  | text s => exact congrArg text (beq_iff_eq.1 hsame)
  | float x => cases x <;> simp [same, dyadic?] at hsame
  | _ => simp [same, dyadic?] at hsame

/-- The name under which a frame state holds the compiled text of a slot. -/
def Slot.stateName : Slot → Text
  | vertex => "vertex_shader"
  | fragment => "fragment_shader"

namespace ShaderPair

/-- Setting a name in a frame state changes what stands at that name. -/
theorem stateAt?_put (name other : Text) (value : Value) (state : List (Value × Value)) :
    stateAt? (Pairs.put (.text name) value state) other
      = if name = other then some value else stateAt? state other := by
  unfold stateAt?
  induction state with
  | nil =>
    by_cases h : name = other
    · simp [Pairs.put, Pairs.get?, h]
    · simp [Pairs.put, Pairs.get?, h]
  | cons entry rest ih =>
    obtain ⟨key, found⟩ := entry
    by_cases hkey : (key == .text name) = true
    · obtain rfl := Value.eq_text_of_beq hkey
      by_cases h : name = other
      · simp [Pairs.put, Pairs.get?, h]
      · simp [Pairs.put, Pairs.get?, h]
    · rw [Pairs.put, if_neg hkey, Pairs.get?, Pairs.get?]
      by_cases hother : (key == .text other) = true
      · have h : name ≠ other := fun he => hkey (he ▸ hother)
        rw [if_pos hother, if_pos hother, if_neg h]
      · rw [if_neg hother, if_neg hother, ih]

/-- A program, or none, as a value. -/
def programValue : Option Nat → Value
  | some index => .program index
  | none => .null

/-- The defines that drawing goes on with: those of the library, and those of the pair over them. -/
def drawDefines (drawing : Drawing) : ActiveDefines :=
  drawing.context.library.macros.overlay
    (drawing.pair.macros.toList.map fun (name, value) => (.text name, .text value))

/-- What is set in the state that drawing goes on with. -/
theorem drawState_eq (drawing : Drawing) (state : List (Value × Value)) :
    drawState drawing state
      = Pairs.put (.text "program") (programValue drawing.pair.program)
          (Pairs.put (.text "defines") (drawDefines drawing).toValue
            (Pairs.put (.text "fragment_shader") (textValue drawing.pair.compiled.fragment)
              (Pairs.put (.text "vertex_shader") (textValue drawing.pair.compiled.vertex) state))) := by
  dsimp only [drawState]
  cases drawing.pair.program <;> rfl

/-- **What drawing finds in its state:** the compiled text of each slot, the program, and the
defines. -/
theorem stateAt?_drawState (drawing : Drawing) (state : List (Value × Value)) :
    (∀ slot : Slot, stateAt? (drawState drawing state) slot.stateName
      = some (textValue (drawing.pair.compiled.get slot))) ∧
    stateAt? (drawState drawing state) "program" = some (programValue drawing.pair.program) ∧
    stateAt? (drawState drawing state) "defines" = some (drawDefines drawing).toValue := by
  rw [drawState_eq]
  simp only [stateAt?_put]
  refine ⟨fun slot => ?_, ?_, ?_⟩
  · cases slot <;> rfl
  · rfl
  · rfl

/-! ## Compiling the texts -/

/-- Compiling some texts is compiling the first of them, and then the others. -/
theorem result_compileTexts_cons (pair : ShaderPair) (listing : Bool) (library : Library)
    (slot : Slot) (text : Text) (rest : List (Slot × Text)) :
    (compileTexts pair listing library ((slot, text) :: rest)).result
      = (library.compile (.text (pair.slotName slot)) text pair.macros.toValue).result.bind
          fun compiled => (compileTexts pair listing (library.compile (.text (pair.slotName slot)) text
            pair.macros.toValue).state rest).result.map ((slot, text, compiled) :: ·) := by
  rw [compileTexts]
  dsimp only
  split
  · rename_i problem trace h
    rw [h]
    cases listing <;> rfl
  · rw [Step.result_andThen]
    rfl

/-- The texts are compiled by one library after the other. -/
theorem state_compileTexts_cons (pair : ShaderPair) (listing : Bool) (library : Library)
    (slot : Slot) (text : Text) (rest : List (Slot × Text)) :
    (compileTexts pair listing library ((slot, text) :: rest)).state
      = match (library.compile (.text (pair.slotName slot)) text pair.macros.toValue).result with
        | .error _ => (library.compile (.text (pair.slotName slot)) text pair.macros.toValue).state
        | .ok _ => (compileTexts pair listing (library.compile (.text (pair.slotName slot)) text
            pair.macros.toValue).state rest).state := by
  rw [compileTexts]
  dsimp only
  split
  · rename_i problem trace h
    rw [h]
    cases listing <;> rfl
  · cases h : (library.compile (.text (pair.slotName slot)) text pair.macros.toValue).result with
    | error fault => rw [Step.state_andThen_of_error h]
    | ok compiled => rw [Step.state_andThen_of_ok h]; rfl

/-- Compiling texts changes nothing of the library but what it remembers. -/
theorem plain_state_compileTexts (pair : ShaderPair) (listing : Bool) (library : Library)
    (texts : List (Slot × Text)) :
    (compileTexts pair listing library texts).state.plain = library.plain := by
  induction texts generalizing library with
  | nil => rfl
  | cons item rest ih =>
    obtain ⟨slot, text⟩ := item
    rw [state_compileTexts_cons]
    split
    · exact library.plain_state_compile _ _ _
    · exact (ih _).trans (library.plain_state_compile _ _ _)

/-- What becomes of texts depends on the name and the defines of the pair, and on nothing else. -/
theorem compileTexts_congr {pair other : ShaderPair} (hname : other.name = pair.name)
    (hmacros : other.macros = pair.macros) (listing : Bool) (library : Library)
    (texts : List (Slot × Text)) :
    compileTexts other listing library texts = compileTexts pair listing library texts := by
  induction texts generalizing library with
  | nil => rfl
  | cons item rest ih =>
    obtain ⟨slot, text⟩ := item
    have hslot : other.slotName slot = pair.slotName slot := by rw [slotName, slotName, hname]
    simp only [compileTexts, hslot, hmacros, ih]

/-! ## What becomes of the pair -/

/-- The pair with a memo that is good for the store of a library. -/
def reviewed (pair : ShaderPair) (library : Library) : ShaderPair :=
  pair.forgetIf (some library.store.revision != pair.storeRevision)

/-- What has to be done about each of some texts. -/
def changes (pair : ShaderPair) (library : Library) (texts : List (Slot × Text)) :
    List (Slot × Text × Change) :=
  texts.map fun (slot, text) => (slot, text, (pair.reviewed library).changeOf slot text)

/-- The reasons to compile, in a frame and for its texts. -/
def dueReasons (pair : ShaderPair) (library : Library) (state : List (Value × Value))
    (texts : List (Slot × Text)) : List Reason :=
  pair.frameReasons library state
    ++ reasonsOf ((pair.changes library texts).map fun change => change.2.2)

/-- **The pair that takes over what was compiled with a library.** -/
def built (pair : ShaderPair) (library : Library) (compiled : List (Slot × Text × Option Text)) :
    ShaderPair :=
  let kept := pair.forgetIf
    (pair.definesChanged library || some library.store.revision != pair.storeRevision)
  { (kept.commit compiled).markDefines library with
    storeRevision := some library.store.revision
    compileCount := (kept.commit compiled).compileCount + 1 }

/-- What checking the texts comes to: compiling, swapping, or nothing. -/
theorem checkSources_eq (drawing : Drawing) (listing : Bool) (texts : List (Slot × Text)) :
    checkSources drawing listing texts =
      let library := drawing.context.library
      let pair := drawing.pair.reviewed library
      let changes := drawing.pair.changes library texts
      let why := reasonsOf (changes.map fun change => change.2.2)
      let swapped := swappedSlots changes
      if !why.isEmpty then compile ⟨drawing.context, pair⟩ listing texts why
      else if swapped.isEmpty then .done () ⟨drawing.context, pair⟩
      else
        (updateProgram ⟨drawing.context, pair.swap changes⟩).andThen fun _ drawing =>
          (Step.done () drawing).note (.swapped pair.name.shown (Slot.names swapped)) := rfl

/-! ## Courses -/

/-- A pair that took the defines of a frame in, and the texts that its sources resolve to. -/
structure Ready (drawing : Drawing) (state : List (Value × Value)) (pair : ShaderPair)
    (texts : List (Slot × Text)) : Prop where
  taken : (drawing.pair.takeDefines state).result = .ok ()
  pair_eq : pair = (drawing.pair.takeDefines state).state
  resolved : pair.resolveSources (.map state) = .ok texts

/-- What a frame makes of a pair, and of its sources, is settled by the frame. -/
theorem Ready.unique {drawing : Drawing} {state : List (Value × Value)} {pair other : ShaderPair}
    {texts otherTexts : List (Slot × Text)} (h : Ready drawing state pair texts)
    (hother : Ready drawing state other otherTexts) : other = pair ∧ otherTexts = texts := by
  have hpair := hother.pair_eq.trans h.pair_eq.symm
  refine ⟨hpair, ?_⟩
  have hresolved := hother.resolved
  rw [hpair, h.resolved] at hresolved
  exact (Except.ok.inj hresolved).symm

/-- **The courses of an update, up to the program.** Each tells whether the update has failed, or
else whether compiled texts were put in place, and what has become of the drawing. -/
inductive Course (drawing : Drawing) (listing : Bool) (state : List (Value × Value)) :
    Except Fault Bool → Drawing → Prop where
  /-- The defines of the frame are none. -/
  | refused {fault : Fault} (h : (drawing.pair.takeDefines state).result = .error fault) :
      Course drawing listing state (.error fault)
        ⟨drawing.context, (drawing.pair.takeDefines state).state⟩
  /-- A source does not resolve. -/
  | unresolved {fault : Fault} (htaken : (drawing.pair.takeDefines state).result = .ok ())
      (h : (drawing.pair.takeDefines state).state.resolveSources (.map state) = .error fault) :
      Course drawing listing state (.error fault)
        ⟨drawing.context, (drawing.pair.takeDefines state).state⟩
  /-- There is a reason to compile, but no source. -/
  | textless {pair : ShaderPair} (hready : Ready drawing state pair [])
      (hdue : pair.dueReasons drawing.context.library state [] ≠ []) :
      Course drawing listing state (.ok false)
        ⟨drawing.context, pair.markDefines drawing.context.library⟩
  /-- A text does not compile. -/
  | broken {pair left : ShaderPair} {texts : List (Slot × Text)} {fault : Fault}
      (hready : Ready drawing state pair texts) (htexts : texts ≠ [])
      (hdue : pair.dueReasons drawing.context.library state texts ≠ [])
      (h : (compileTexts pair listing drawing.context.library texts).result = .error fault)
      (hleft : left = pair ∨ left = pair.reviewed drawing.context.library) :
      Course drawing listing state (.error fault)
        ⟨{ drawing.context with
            library := (compileTexts pair listing drawing.context.library texts).state }, left⟩
  /-- All texts are compiled and put in place. -/
  | compiled {pair : ShaderPair} {texts : List (Slot × Text)}
      {compiled : List (Slot × Text × Option Text)} (hready : Ready drawing state pair texts)
      (htexts : texts ≠ []) (hdue : pair.dueReasons drawing.context.library state texts ≠ [])
      (h : (compileTexts pair listing drawing.context.library texts).result = .ok compiled) :
      Course drawing listing state (.ok true)
        ⟨{ drawing.context with
            library := (compileTexts pair listing drawing.context.library texts).state },
          pair.built drawing.context.library compiled⟩
  /-- Nothing has changed. -/
  | kept {pair : ShaderPair} {texts : List (Slot × Text)} (hready : Ready drawing state pair texts)
      (hdue : pair.dueReasons drawing.context.library state texts = [])
      (hkept : swappedSlots (pair.changes drawing.context.library texts) = []) :
      Course drawing listing state (.ok false)
        ⟨drawing.context, pair.reviewed drawing.context.library⟩
  /-- Remembered texts are put in place. -/
  | swapped {pair : ShaderPair} {texts : List (Slot × Text)}
      (hready : Ready drawing state pair texts)
      (hdue : pair.dueReasons drawing.context.library state texts = [])
      (hswapped : swappedSlots (pair.changes drawing.context.library texts) ≠ []) :
      Course drawing listing state (.ok true)
        ⟨drawing.context, (pair.reviewed drawing.context.library).swap
          (pair.changes drawing.context.library texts)⟩

/-- **The end of an update:** the program for what was put in place, and then the state that drawing
goes on with. -/
def ending (state : List (Value × Value)) :
    Except Fault Bool → Drawing → Step Drawing (List (Value × Value))
  | .error fault, drawing => .failed fault drawing
  | .ok false, drawing => .done (drawState drawing state) drawing
  | .ok true, drawing =>
    (updateProgram drawing).andThen fun _ drawing => .done (drawState drawing state) drawing

/-- Forgetting concerns the memo alone. -/
theorem forgetIf_eq (pair : ShaderPair) (stale : Bool) :
    pair.forgetIf stale = { pair with memo := if stale then [] else pair.memo } := by
  cases stale <;> rfl

/-- Forgetting twice is forgetting once, if the first time was for one of the reasons of the
second. -/
theorem forgetIf_forgetIf (pair : ShaderPair) (changed stale : Bool) :
    (pair.forgetIf stale).forgetIf (changed || stale) = pair.forgetIf (changed || stale) := by
  cases stale <;> cases changed <;> rfl

/-- Where a text does not compile, the pair stays as it is. -/
theorem compile_of_error (drawing : Drawing) {listing : Bool} {texts : List (Slot × Text)}
    (why : List Reason) {fault : Fault} (htexts : texts ≠ [])
    (h : (compileTexts drawing.pair listing drawing.context.library texts).result = .error fault) :
    (compile drawing listing texts why).result = .error fault ∧
      (compile drawing listing texts why).state
        = ⟨{ drawing.context with
            library := (compileTexts drawing.pair listing drawing.context.library texts).state },
          drawing.pair⟩ := by
  have hempty : texts.isEmpty = false := List.isEmpty_eq_false_iff.2 htexts
  simp only [compile, hempty, Bool.false_eq_true, if_false]
  rw [Step.result_andThen_of_error (by rw [Step.result_within, h]),
    Step.state_andThen_of_error (by rw [Step.result_within, h])]
  exact ⟨rfl, rfl⟩

/-- Where all texts compile, they are put in place, and then the program is seen to. -/
theorem compile_of_ok (drawing : Drawing) {listing : Bool} {texts : List (Slot × Text)}
    (why : List Reason) {compiled : List (Slot × Text × Option Text)} (htexts : texts ≠ [])
    (h : (compileTexts drawing.pair listing drawing.context.library texts).result = .ok compiled) :
    (compile drawing listing texts why).result
        = (updateProgram ⟨{ drawing.context with
            library := (compileTexts drawing.pair listing drawing.context.library texts).state },
          drawing.pair.built drawing.context.library compiled⟩).result ∧
      (compile drawing listing texts why).state
        = (updateProgram ⟨{ drawing.context with
            library := (compileTexts drawing.pair listing drawing.context.library texts).state },
          drawing.pair.built drawing.context.library compiled⟩).state := by
  have hempty : texts.isEmpty = false := List.isEmpty_eq_false_iff.2 htexts
  have hplain := plain_state_compileTexts drawing.pair listing drawing.context.library texts
  simp only [compile, hempty, Bool.false_eq_true, if_false]
  rw [Step.result_andThen_of_ok (by rw [Step.result_within, h]),
    Step.state_andThen_of_ok (by rw [Step.result_within, h])]
  simp only [Step.state_within, markDefines, Library.store_eq_of_plain hplain,
    Library.macros_eq_of_plain hplain]
  generalize hprogram : updateProgram _ = step
  have hbuilt : updateProgram ⟨{ drawing.context with
        library := (compileTexts drawing.pair listing drawing.context.library texts).state },
      drawing.pair.built drawing.context.library compiled⟩ = step := hprogram
  rw [hbuilt]
  exact step.andThen_done_note _

theorem reviewed_eq (pair : ShaderPair) (library : Library) :
    pair.reviewed library = { pair with
      memo := if some library.store.revision != pair.storeRevision then [] else pair.memo } :=
  forgetIf_eq _ _

/-- A pair that has forgotten what is no longer good takes compiled texts over as before. -/
theorem built_reviewed (pair : ShaderPair) (library : Library)
    (compiled : List (Slot × Text × Option Text)) :
    (pair.reviewed library).built library compiled = pair.built library compiled := by
  have hchanged : (pair.reviewed library).definesChanged library = pair.definesChanged library := by
    rw [reviewed_eq]
    rfl
  have hrevision : (pair.reviewed library).storeRevision = pair.storeRevision := by
    rw [reviewed_eq]
  simp only [built, hchanged, hrevision]
  rw [reviewed, forgetIf_forgetIf]

section Courses

variable {drawing : Drawing} {listing : Bool} {state : List (Value × Value)} {pair left : ShaderPair}
  {texts : List (Slot × Text)}

/-- What an update does once its program is seen to. -/
def drawn (state : List (Value × Value)) (step : Step Drawing Unit) :
    Step Drawing (List (Value × Value)) :=
  step.andThen fun _ drawing => .done (drawState drawing state) drawing

/-- Where texts have to be compiled, the update breaks off or takes all of them over. -/
theorem course_of_compile (hready : Ready drawing state pair texts) (htexts : texts ≠ [])
    (hdue : pair.dueReasons drawing.context.library state texts ≠ [])
    (hleft : left = pair ∨ left = pair.reviewed drawing.context.library) (why : List Reason) :
    ∃ outcome behind, Course drawing listing state outcome behind ∧
      (drawn state (compile ⟨drawing.context, left⟩ listing texts why)).result
        = (ending state outcome behind).result ∧
      (drawn state (compile ⟨drawing.context, left⟩ listing texts why)).state
        = (ending state outcome behind).state := by
  -- A pair that was reviewed is compiled and built like one that was not.
  have hcompile : compileTexts left listing drawing.context.library texts
      = compileTexts pair listing drawing.context.library texts := by
    rcases hleft with rfl | rfl
    · rfl
    · refine compileTexts_congr ?_ ?_ _ _ _
      · rw [reviewed_eq]
      · rw [reviewed_eq]
  have hbuilt : ∀ compiled, left.built drawing.context.library compiled
      = pair.built drawing.context.library compiled := by
    intro compiled
    rcases hleft with rfl | rfl
    · rfl
    · exact built_reviewed _ _ _
  cases h : (compileTexts pair listing drawing.context.library texts).result with
  | error fault =>
    obtain ⟨hresult, hstate⟩ :=
      compile_of_error ⟨drawing.context, left⟩ why htexts (hcompile ▸ h)
    refine ⟨.error fault, _, .broken hready htexts hdue h hleft, ?_, ?_⟩
    · exact Step.result_andThen_of_error hresult
    · rw [drawn, Step.state_andThen_of_error hresult, hstate, hcompile]
      rfl
  | ok compiled =>
    obtain ⟨hresult, hstate⟩ :=
      compile_of_ok ⟨drawing.context, left⟩ why htexts (hcompile ▸ h)
    rw [hcompile, hbuilt] at hresult hstate
    exact ⟨.ok true, _, .compiled hready htexts hdue h, Step.andThen_congr _ hresult hstate⟩

/-- Where no frame asks for it, the texts themselves decide whether they are compiled. -/
theorem course_of_checkSources (hready : Ready drawing state pair texts)
    (hframe : pair.frameReasons drawing.context.library state = []) :
    ∃ outcome behind, Course drawing listing state outcome behind ∧
      (drawn state (checkSources ⟨drawing.context, pair⟩ listing texts)).result
        = (ending state outcome behind).result ∧
      (drawn state (checkSources ⟨drawing.context, pair⟩ listing texts)).state
        = (ending state outcome behind).state := by
  -- The texts are compiled if any of them gives a reason, and else swapped if any of them can be.
  rw [checkSources_eq]
  dsimp only
  by_cases hwhy : reasonsOf ((pair.changes drawing.context.library texts).map
      fun change => change.2.2) = []
  · have hdue : pair.dueReasons drawing.context.library state texts = [] := by
      rw [dueReasons, hframe, hwhy]
      rfl
    rw [hwhy, if_neg (by simp)]
    by_cases hswapped : swappedSlots (pair.changes drawing.context.library texts) = []
    · rw [hswapped, if_pos List.isEmpty_nil]
      exact ⟨.ok false, _, .kept hready hdue hswapped, rfl, rfl⟩
    · rw [if_neg (fun h => hswapped (List.isEmpty_iff.1 h))]
      have hnote := (updateProgram ⟨drawing.context, (pair.reviewed drawing.context.library).swap
        (pair.changes drawing.context.library texts)⟩).andThen_done_note
          (.swapped (pair.reviewed drawing.context.library).name.shown
            (Slot.names (swappedSlots (pair.changes drawing.context.library texts))))
      exact ⟨.ok true, _, .swapped hready hdue hswapped, Step.andThen_congr _ hnote.1 hnote.2⟩
  · have htexts : texts ≠ [] := by
      rintro rfl
      exact hwhy rfl
    have hdue : pair.dueReasons drawing.context.library state texts ≠ [] := by
      rw [dueReasons, hframe]
      exact hwhy
    rw [if_pos (by simpa using hwhy)]
    exact course_of_compile hready htexts hdue (.inr rfl) _

/-- **Every update takes one of the courses.** -/
theorem update_course (drawing : Drawing) (listing : Bool) (state : List (Value × Value)) :
    ∃ outcome behind, Course drawing listing state outcome behind ∧
      (update drawing listing state).result = (ending state outcome behind).result ∧
      (update drawing listing state).state = (ending state outcome behind).state := by
  cases htaken : (drawing.pair.takeDefines state).result with
  | error fault =>
    have hfail : ((drawing.pair.takeDefines state).within fun pair =>
        { drawing with pair := pair }).result = .error fault := htaken
    refine ⟨.error fault, _, .refused htaken, ?_, ?_⟩
    · exact Step.result_andThen_of_error hfail
    · exact Step.state_andThen_of_error hfail
  | ok done =>
    have htake : ((drawing.pair.takeDefines state).within fun pair =>
        { drawing with pair := pair }).result = .ok done := htaken
    rw [update, Step.result_andThen_of_ok htake, Step.state_andThen_of_ok htake]
    simp only [Step.state_within]
    cases hresolved : (drawing.pair.takeDefines state).state.resolveSources (.map state) with
    | error fault => exact ⟨.error fault, _, .unresolved htaken hresolved, rfl, rfl⟩
    | ok texts =>
      have hready : Ready drawing state (drawing.pair.takeDefines state).state texts :=
        ⟨htaken, rfl, hresolved⟩
      by_cases hframe : (drawing.pair.takeDefines state).state.frameReasons
          drawing.context.library state = []
      · simp only [hframe, List.isEmpty_nil, if_true]
        exact course_of_checkSources hready hframe
      -- The frame itself asks for a compilation, whatever the texts are.
      · have hdue : (drawing.pair.takeDefines state).state.dueReasons drawing.context.library state
            texts ≠ [] := by
          rw [dueReasons]
          exact List.append_ne_nil_of_left_ne_nil hframe _
        have hempty := List.isEmpty_eq_false_iff.2 hframe
        simp only [hempty, Bool.false_eq_true, if_false]
        cases texts with
        | nil => exact ⟨.ok false, _, .textless hready hdue, rfl, rfl⟩
        | cons item rest =>
          exact course_of_compile hready (List.cons_ne_nil _ _) hdue (.inl rfl) _

end Courses

/-! ## The program -/

/-- **The program of a pair of texts** is the one that is kept under their key, or a new one. -/
inductive Programmed (drawing : Drawing) : Except Fault Unit → Drawing → Prop where
  /-- There is no text to make a program of. -/
  | textless (h : drawing.pair.compiled = ⟨none, none⟩) : Programmed drawing (.ok ()) drawing
  /-- A program is kept under the key. -/
  | known {program : Nat} (htexts : drawing.pair.compiled ≠ ⟨none, none⟩)
      (h : (Pairs.get? (programKey drawing.pair.compiled) drawing.pair.programs).join = some program) :
      Programmed drawing (.ok ()) ⟨drawing.context, { drawing.pair with program := some program }⟩
  /-- The layer is asked, and takes the texts. -/
  | created {handsOut : Bool} (htexts : drawing.pair.compiled ≠ ⟨none, none⟩)
      (hunknown : (Pairs.get? (programKey drawing.pair.compiled) drawing.pair.programs).join = none)
      (h : drawing.context.commands.accept drawing.pair.compiled = .ok handsOut) :
      Programmed drawing (.ok ())
        ⟨{ drawing.context with commands := { drawing.context.commands with
            programs := drawing.context.commands.programs ++ [drawing.pair.compiled] } },
          { drawing.pair with
            programs := Memo.remember (programKey drawing.pair.compiled)
              (if handsOut then some drawing.context.commands.programs.length else none)
              drawing.pair.programs
            program := if handsOut then some drawing.context.commands.programs.length else none }⟩
  /-- The layer is asked, and refuses the texts. -/
  | refused {fault : Fault} (htexts : drawing.pair.compiled ≠ ⟨none, none⟩)
      (hunknown : (Pairs.get? (programKey drawing.pair.compiled) drawing.pair.programs).join = none)
      (h : drawing.context.commands.accept drawing.pair.compiled = .error fault) :
      Programmed drawing (.error fault) drawing

theorem updateProgram_programmed (drawing : Drawing) :
    Programmed drawing (updateProgram drawing).result (updateProgram drawing).state := by
  by_cases htexts : drawing.pair.compiled = ⟨none, none⟩
  · have hnone : updateProgram drawing = .done () drawing := by
      simp [updateProgram, htexts]
    rw [hnone]
    exact .textless htexts
  · have hsome : (drawing.pair.compiled.vertex.isNone && drawing.pair.compiled.fragment.isNone)
        = false := by
      rcases hcompiled : drawing.pair.compiled with ⟨_ | vertex, _ | fragment⟩
      · exact absurd hcompiled htexts
      · rfl
      · rfl
      · rfl
    simp only [updateProgram, hsome, Bool.false_eq_true, if_false]
    cases hknown : (Pairs.get? (programKey drawing.pair.compiled) drawing.pair.programs).join with
    -- A program that is kept is used again, and only otherwise the layer is asked.
    | some program => exact .known htexts hknown
    | none =>
      cases haccept : drawing.context.commands.accept drawing.pair.compiled with
      | error fault =>
        simp only [CommandLayer.create, haccept]
        exact .refused htexts hknown haccept
      | ok handsOut =>
        simp only [CommandLayer.create, haccept]
        exact .created htexts hknown haccept

/-- **What an update comes to:** it fails, or goes on with what there is, or puts texts in place and
then sees to the program. -/
theorem update_cases (drawing : Drawing) (listing : Bool) (state : List (Value × Value)) :
    (∃ fault, Course drawing listing state (.error fault) (update drawing listing state).state ∧
      (update drawing listing state).result = .error fault) ∨
    (Course drawing listing state (.ok false) (update drawing listing state).state ∧
      (update drawing listing state).result
        = .ok (drawState (update drawing listing state).state state)) ∨
    ∃ outcome behind, Course drawing listing state (.ok true) behind ∧
      Programmed behind outcome (update drawing listing state).state ∧
      (update drawing listing state).result
        = outcome.map fun _ => drawState (update drawing listing state).state state := by
  obtain ⟨outcome, behind, hcourse, hresult, hstate⟩ := update_course drawing listing state
  rw [hresult, hstate]
  rcases outcome with fault | _ | _
  · exact .inl ⟨fault, hcourse, rfl⟩
  · exact .inr (.inl ⟨hcourse, rfl⟩)
  · have hprogrammed := updateProgram_programmed behind
    refine .inr (.inr ⟨(updateProgram behind).result, behind, hcourse, ?_⟩)
    rw [ending]
    cases h : (updateProgram behind).result with
    | error fault =>
      rw [h] at hprogrammed
      rw [Step.result_andThen_of_error h, Step.state_andThen_of_error h]
      exact ⟨hprogrammed, rfl⟩
    | ok done =>
      rw [h] at hprogrammed
      rw [Step.result_andThen_of_ok h, Step.state_andThen_of_ok h]
      exact ⟨hprogrammed, rfl⟩

/-- What drawing goes on with is always made of the pair as the update left it. -/
theorem eq_drawState_of_update {drawing : Drawing} {listing : Bool}
    {state shown : List (Value × Value)} (h : (update drawing listing state).result = .ok shown) :
    shown = drawState (update drawing listing state).state state := by
  rcases update_cases drawing listing state with
    ⟨fault, -, hresult⟩ | ⟨-, hresult⟩ | ⟨outcome, behind, -, -, hresult⟩
  · rw [hresult] at h
    cases h
  · exact (Except.ok.inj (hresult.symm.trans h)).symm
  · cases outcome with
    | error fault => rw [hresult] at h; cases h
    | ok done => exact (Except.ok.inj (hresult.symm.trans h)).symm

end ShaderPair

end GlslCompose
