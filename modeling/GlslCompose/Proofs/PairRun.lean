/-
`Proofs/PairRun.lean` -- what can happen to a shader pair and to what it shares with
others.

Between two updates anything may be done to the library, to the defines of the pair, and
to the layer that makes programs, which may take texts today that it refused yesterday.
`Event` lists all of that, and `run` is what becomes of a drawing. A source that is a
function need not answer the same twice for this: what a frame state holds is open, so
it may say which frame it is.

Of an update only the parts are followed here that all results about pairs share: what it
never touches (`Course.untouched`), what it leaves as it was unless texts were put in
place (`Course.unbuilt`), and how the defines of the pair go on.
-/
import GlslCompose.Proofs.PlacedTexts

set_option autoImplicit false

namespace GlslCompose

namespace ShaderPair

/-! ## What an update leaves alone -/

/-- **What no update touches before its program is seen to.** -/
structure Untouched (old new : ShaderPair) : Prop where
  name : new.name = old.name
  sources : new.sources = old.sources
  macros : old.macros.Since new.macros
  programs : new.programs = old.programs
  program : new.program = old.program

/-- **What stays as it was,** unless texts are put in place: the texts, what they were compiled to,
and the number of compilations. Of the memo at most everything is forgotten. -/
structure Unbuilt (old new : ShaderPair) : Prop where
  resolved : new.resolved = old.resolved
  compiled : new.compiled = old.compiled
  compileCount : new.compileCount = old.compileCount
  storeRevision : new.storeRevision = old.storeRevision
  memo : new.memo = old.memo ∨ new.memo = []

theorem Untouched.trans {a b c : ShaderPair} (hab : Untouched a b) (hbc : Untouched b c) :
    Untouched a c :=
  ⟨hbc.name.trans hab.name, hbc.sources.trans hab.sources, hab.macros.trans hbc.macros,
    hbc.programs.trans hab.programs, hbc.program.trans hab.program⟩

theorem Unbuilt.trans {a b c : ShaderPair} (hab : Unbuilt a b) (hbc : Unbuilt b c) :
    Unbuilt a c := by
  refine ⟨hbc.resolved.trans hab.resolved, hbc.compiled.trans hab.compiled,
    hbc.compileCount.trans hab.compileCount, hbc.storeRevision.trans hab.storeRevision, ?_⟩
  rcases hbc.memo with h | h
  · rw [h]
    exact hab.memo
  · exact .inr h

/-- Taking the defines of a frame in concerns the table of the pair alone. -/
theorem takeDefines_eq (pair : ShaderPair) (state : List (Value × Value)) :
    ∃ macros, (pair.takeDefines state).state = { pair with macros := macros } ∧
      pair.macros.Since macros := by
  unfold takeDefines
  split
  · split
    · exact ⟨_, rfl, MacroTable.since_define _ _ _⟩
    · exact ⟨_, rfl, .refl _⟩
  · exact ⟨_, rfl, .refl _⟩

theorem untouched_takeDefines (pair : ShaderPair) (state : List (Value × Value)) :
    Untouched pair (pair.takeDefines state).state := by
  obtain ⟨macros, heq, hsince⟩ := takeDefines_eq pair state
  rw [heq]
  exact ⟨rfl, rfl, hsince, rfl, rfl⟩

theorem unbuilt_takeDefines (pair : ShaderPair) (state : List (Value × Value)) :
    Unbuilt pair (pair.takeDefines state).state := by
  obtain ⟨macros, heq, -⟩ := takeDefines_eq pair state
  rw [heq]
  exact ⟨rfl, rfl, rfl, rfl, .inl rfl⟩

theorem untouched_forgetIf (pair : ShaderPair) (stale : Bool) :
    Untouched pair (pair.forgetIf stale) := by
  rw [forgetIf_eq]
  exact ⟨rfl, rfl, .refl _, rfl, rfl⟩

theorem unbuilt_forgetIf (pair : ShaderPair) (stale : Bool) :
    Unbuilt pair (pair.forgetIf stale) := by
  rw [forgetIf_eq]
  refine ⟨rfl, rfl, rfl, rfl, ?_⟩
  cases stale
  · exact .inl rfl
  · exact .inr rfl

theorem untouched_commit (pair : ShaderPair) (items : List (Slot × Text × Option Text)) :
    Untouched pair (pair.commit items) := by
  obtain ⟨resolved, compiled, memo, heq⟩ := commit_eq pair items
  rw [heq]
  exact ⟨rfl, rfl, .refl _, rfl, rfl⟩

theorem untouched_built (pair : ShaderPair) (library : Library)
    (items : List (Slot × Text × Option Text)) : Untouched pair (pair.built library items) := by
  have hcommit := (untouched_forgetIf pair (pair.definesChanged library
    || some library.store.revision != pair.storeRevision)).trans (untouched_commit _ items)
  exact ⟨hcommit.name, hcommit.sources, hcommit.macros, hcommit.programs, hcommit.program⟩

/-- A pair that takes compiled texts over counts that, and marks the defines. -/
theorem compileCount_built (pair : ShaderPair) (library : Library)
    (items : List (Slot × Text × Option Text)) :
    (pair.built library items).compileCount = pair.compileCount + 1 := by
  obtain ⟨resolved, compiled, memo, heq⟩ := commit_eq (pair.forgetIf (pair.definesChanged library
    || some library.store.revision != pair.storeRevision)) items
  simp only [built, heq]
  rw [forgetIf_eq]

theorem macroRevision_built (pair : ShaderPair) (library : Library)
    (items : List (Slot × Text × Option Text)) :
    (pair.built library items).macroRevision = some pair.macros.revision := by
  obtain ⟨resolved, compiled, memo, heq⟩ := commit_eq (pair.forgetIf (pair.definesChanged library
    || some library.store.revision != pair.storeRevision)) items
  simp only [built, markDefines, heq]
  rw [forgetIf_eq]

/-- Taking compiled texts over does not concern the defines. -/
theorem macros_built (pair : ShaderPair) (library : Library)
    (items : List (Slot × Text × Option Text)) :
    (pair.built library items).macros = pair.macros := by
  obtain ⟨resolved, compiled, memo, heq⟩ := commit_eq (pair.forgetIf (pair.definesChanged library
    || some library.store.revision != pair.storeRevision)) items
  simp only [built, markDefines, heq]
  rw [forgetIf_eq]

theorem untouched_swap (pair : ShaderPair) (items : List (Slot × Text × Change)) :
    Untouched pair (pair.swap items) := by
  obtain ⟨resolved, compiled, heq⟩ := swap_eq pair items
  rw [heq]
  exact ⟨rfl, rfl, .refl _, rfl, rfl⟩

section Left

variable {pair left : ShaderPair} {library : Library}

/-- A pair that a compilation breaks off may have been reviewed before, which changes nothing else. -/
theorem untouched_of_left (h : left = pair ∨ left = pair.reviewed library) : Untouched pair left := by
  rcases h with rfl | rfl
  · exact ⟨rfl, rfl, .refl _, rfl, rfl⟩
  · exact untouched_forgetIf _ _

theorem unbuilt_of_left (h : left = pair ∨ left = pair.reviewed library) : Unbuilt pair left := by
  rcases h with rfl | rfl
  · exact ⟨rfl, rfl, rfl, rfl, .inl rfl⟩
  · exact unbuilt_forgetIf _ _

theorem macros_of_left (h : left = pair ∨ left = pair.reviewed library) :
    left.macros = pair.macros := by
  rcases h with rfl | rfl
  · rfl
  · rw [reviewed_eq]

end Left

section Courses

variable {drawing behind : Drawing} {listing : Bool} {state : List (Value × Value)}
  {pair : ShaderPair} {texts : List (Slot × Text)} {outcome : Except Fault Bool}

theorem Ready.untouched (h : Ready drawing state pair texts) : Untouched drawing.pair pair := by
  rw [h.pair_eq]
  exact untouched_takeDefines _ _

theorem Ready.unbuilt (h : Ready drawing state pair texts) : Unbuilt drawing.pair pair := by
  rw [h.pair_eq]
  exact unbuilt_takeDefines _ _

theorem Course.untouched (h : Course drawing listing state outcome behind) :
    Untouched drawing.pair behind.pair := by
  cases h with
  | refused h => exact untouched_takeDefines _ _
  | unresolved htaken h => exact untouched_takeDefines _ _
  | textless hready hdue =>
    exact hready.untouched.trans ⟨rfl, rfl, .refl _, rfl, rfl⟩
  | broken hready htexts hdue h hleft => exact hready.untouched.trans (untouched_of_left hleft)
  | compiled hready htexts hdue h => exact hready.untouched.trans (untouched_built _ _ _)
  | kept hready hdue hkept => exact hready.untouched.trans (untouched_forgetIf _ _)
  | swapped hready hdue hswapped =>
    exact (hready.untouched.trans (untouched_forgetIf _ _)).trans (untouched_swap _ _)

/-- An update asks nothing of the layer before its program is seen to, and of the library it changes
what is remembered. -/
theorem Course.context (h : Course drawing listing state outcome behind) :
    behind.context.commands = drawing.context.commands ∧
      behind.context.library.plain = drawing.context.library.plain := by
  cases h with
  | broken hready htexts hdue h hleft => exact ⟨rfl, plain_state_compileTexts _ _ _ _⟩
  | compiled hready htexts hdue h => exact ⟨rfl, plain_state_compileTexts _ _ _ _⟩
  | _ => exact ⟨rfl, rfl⟩

theorem Course.unbuilt (h : Course drawing listing state outcome behind)
    (hout : outcome ≠ .ok true) : Unbuilt drawing.pair behind.pair := by
  cases h with
  | refused h => exact unbuilt_takeDefines _ _
  | unresolved htaken h => exact unbuilt_takeDefines _ _
  | textless hready hdue => exact hready.unbuilt.trans ⟨rfl, rfl, rfl, rfl, .inl rfl⟩
  | broken hready htexts hdue h hleft => exact hready.unbuilt.trans (unbuilt_of_left hleft)
  | kept hready hdue hkept => exact hready.unbuilt.trans (unbuilt_forgetIf _ _)
  | compiled hready htexts hdue h => exact absurd rfl hout
  | swapped hready hdue hswapped => exact absurd rfl hout

/-- Seeing to the program concerns the programs. -/
theorem Programmed.eq {behind : Drawing} {result : Except Fault Unit}
    (h : Programmed drawing result behind) :
    (∃ programs program,
        behind.pair = { drawing.pair with programs := programs, program := program }) ∧
      behind.context.library = drawing.context.library := by
  cases h <;> exact ⟨⟨_, _, rfl⟩, rfl⟩

/-- Seeing to a program leaves the layer as it is, but for the programs it has taken. -/
theorem Programmed.accept {result : Except Fault Unit} (h : Programmed drawing result behind) :
    behind.context.commands.accept = drawing.context.commands.accept := by
  cases h <;> rfl

/-- An update does not change what the layer takes. -/
theorem accept_update (drawing : Drawing) (listing : Bool) (state : List (Value × Value)) :
    (update drawing listing state).state.context.commands.accept
      = drawing.context.commands.accept := by
  rcases update_cases drawing listing state with
    ⟨fault, hcourse, -⟩ | ⟨hcourse, -⟩ | ⟨outcome, behind, hcourse, hprogrammed, -⟩
  · rw [hcourse.context.1]
  · rw [hcourse.context.1]
  · rw [hprogrammed.accept, hcourse.context.1]

/-- **An update as far as it concerns the texts:** a course, which did not fail if the update did
not, and a program behind it that concerns nothing else. -/
theorem update_texts (drawing : Drawing) (listing : Bool) (state : List (Value × Value)) :
    ∃ outcome behind, Course drawing listing state outcome behind ∧
      (∃ programs program, (update drawing listing state).state.pair
        = { behind.pair with programs := programs, program := program }) ∧
      (update drawing listing state).state.context.library = behind.context.library ∧
      ∀ shown, (update drawing listing state).result = .ok shown → ∃ built, outcome = .ok built := by
  rcases update_cases drawing listing state with
    ⟨fault, hcourse, hresult⟩ | ⟨hcourse, -⟩ | ⟨outcome, behind, hcourse, hprogrammed, -⟩
  · refine ⟨_, _, hcourse, ⟨_, _, rfl⟩, rfl, ?_⟩
    intro shown hshown
    rw [hresult] at hshown
    cases hshown
  · exact ⟨_, _, hcourse, ⟨_, _, rfl⟩, rfl, fun _ _ => ⟨_, rfl⟩⟩
  -- Seeing to the program may fail as well, but the texts are in place by then.
  · obtain ⟨hpair, hlibrary⟩ := hprogrammed.eq
    exact ⟨_, _, hcourse, hpair, hlibrary, fun _ _ => ⟨_, rfl⟩⟩

/-- An update changes neither the name of a pair nor its sources. -/
theorem name_sources_update (drawing : Drawing) (listing : Bool) (state : List (Value × Value)) :
    (update drawing listing state).state.pair.name = drawing.pair.name ∧
      (update drawing listing state).state.pair.sources = drawing.pair.sources := by
  obtain ⟨outcome, behind, hcourse, ⟨programs, program, hpair⟩, -, -⟩ :=
    update_texts drawing listing state
  rw [hpair]
  exact ⟨hcourse.untouched.name, hcourse.untouched.sources⟩

end Courses

/-! ## New pairs -/

/-- A pair that nothing has been compiled for. -/
def fresh (name : Value) (sources : Slots (Option ShaderSource)) (macros : MacroTable) :
    ShaderPair where
  name := name
  sources := sources
  macros := macros
  resolved := ⟨none, none⟩
  compiled := ⟨none, none⟩
  memo := []
  storeRevision := none
  programs := []
  program := none
  macroRevision := none
  libraryRevision := none
  compileCount := 0

/-- A new pair is a fresh one. -/
theorem eq_fresh_of_make {vertex fragment defines name : Value} {pair : ShaderPair}
    (h : make vertex fragment defines name = .ok pair) :
    pair = fresh pair.name pair.sources pair.macros := by
  simp only [make, bind, Except.bind, pure, Except.pure] at h
  cases hvertex : ShaderSource.ofValue vertex with
  | error fault => rw [hvertex] at h; cases h
  | ok vertexSource =>
    cases hfragment : ShaderSource.ofValue fragment with
    | error fault => simp only [hvertex, hfragment] at h; cases h
    | ok fragmentSource =>
      cases hmacros : MacroTable.ofValue defines with
      | error fault => simp only [hvertex, hfragment, hmacros] at h; cases h
      | ok macros =>
        simp only [hvertex, hfragment, hmacros] at h
        rw [← Except.ok.inj h]
        rfl

end ShaderPair

/-! ## Events -/

/-- **Something that happens while a pair is in use.** -/
inductive Event where
  /-- The pair is brought up to date for a frame. -/
  | update (listing : Bool) (state : List (Value × Value))
  /-- Defines are set in the table of the pair. -/
  | define (name value : Value)
  /-- A define is removed from the table of the pair. -/
  | undefine (name : Value)
  /-- Something is done to the library. -/
  | library (act : Library.Act)
  /-- The layer takes other texts from now on. -/
  | commands (accept : ProgramTexts → Except Fault Bool)

/-- What becomes of a drawing when something happens. -/
def Event.perform : Event → Drawing → Drawing
  | update listing state, drawing => (ShaderPair.update drawing listing state).state
  | define name value, drawing =>
    { drawing with pair := { drawing.pair with
        macros := (drawing.pair.macros.define name value).state } }
  | undefine name, drawing =>
    { drawing with pair := { drawing.pair with
        macros := (drawing.pair.macros.remove name).state } }
  | library act, drawing =>
    { drawing with context := { drawing.context with
        library := (act.perform drawing.context.library).state } }
  | commands accept, drawing =>
    { drawing with context := { drawing.context with
        commands := { drawing.context.commands with accept := accept } } }

/-- Whether an event is an update. -/
def Event.isUpdate : Event → Bool
  | update .. => true
  | _ => false

theorem Event.eq_update_of_isUpdate {event : Event} (h : event.isUpdate ≠ false) :
    ∃ listing state, event = .update listing state := by
  cases event with
  | update listing state => exact ⟨listing, state, rfl⟩
  | _ => exact absurd rfl h

/-- **What can happen between updates:** the defines of the pair go on, and so does the library. -/
structure Quiet (old new : Drawing) : Prop where
  pair : ∃ macros, new.pair = { old.pair with macros := macros } ∧ old.pair.macros.Since macros
  library : old.context.library.Before new.context.library

theorem Quiet.refl (drawing : Drawing) : Quiet drawing drawing := ⟨⟨_, rfl, .refl _⟩, .refl _⟩

theorem Quiet.trans {a b c : Drawing} (hab : Quiet a b) (hbc : Quiet b c) : Quiet a c := by
  obtain ⟨macros, hpair, hmacros⟩ := hab.pair
  obtain ⟨more, hmore, hsince⟩ := hbc.pair
  refine ⟨⟨more, ?_, ?_⟩, hab.library.trans hbc.library⟩
  · rw [hmore, hpair]
  · rw [hpair] at hsince
    exact hmacros.trans hsince

theorem quiet_perform {event : Event} (h : event.isUpdate = false) (drawing : Drawing) :
    Quiet drawing (event.perform drawing) := by
  cases event with
  | update listing state => cases h
  | define name value => exact ⟨⟨_, rfl, MacroTable.since_define _ _ _⟩, .refl _⟩
  | undefine name => exact ⟨⟨_, rfl, MacroTable.since_remove _ _⟩, .refl _⟩
  | library act => exact ⟨⟨_, rfl, .refl _⟩, Library.before_perform _ _⟩
  | commands accept => exact ⟨⟨_, rfl, .refl _⟩, .refl _⟩

namespace Drawing

/-- What becomes of a drawing when one thing happens after the other. -/
def run (drawing : Drawing) (events : List Event) : Drawing :=
  events.foldl (fun drawing event => event.perform drawing) drawing

theorem run_append (drawing : Drawing) (events more : List Event) :
    drawing.run (events ++ more) = (drawing.run events).run more :=
  List.foldl_append

/-- **What holds at the start, and is kept by each event, holds after every run.** It may speak of
what has happened so far. -/
theorem run_induction {motive : List Event → Drawing → Prop} (start : Drawing)
    (hstart : motive [] start)
    (hstep : ∀ events event, motive events (start.run events) →
      motive (events ++ [event]) (event.perform (start.run events)))
    (events : List Event) : motive events (start.run events) := by
  -- The induction is on the events to come, with those that have been as a parameter.
  have hrest : ∀ rest seen, motive seen (start.run seen) →
      motive (seen ++ rest) (start.run (seen ++ rest)) := by
    intro rest
    induction rest with
    | nil =>
      intro seen hseen
      rw [List.append_nil]
      exact hseen
    | cons event rest ih =>
      intro seen hseen
      have hnext := ih (seen ++ [event])
      rw [run_append start seen [event], List.append_assoc] at hnext
      exact hnext (hstep seen event hseen)
  exact hrest events [] hstart

theorem quiet_run (drawing : Drawing) {events : List Event}
    (h : ∀ event ∈ events, event.isUpdate = false) : Quiet drawing (drawing.run events) := by
  induction events generalizing drawing with
  | nil => exact .refl drawing
  | cons event events ih =>
    have hevent := quiet_perform (h event List.mem_cons_self) drawing
    exact hevent.trans (ih _ fun event hmem => h event (List.mem_cons_of_mem _ hmem))

theorem name_sources_run (start : Drawing) (events : List Event) :
    (start.run events).pair.name = start.pair.name ∧
      (start.run events).pair.sources = start.pair.sources := by
  refine run_induction start (motive := fun _ drawing =>
    drawing.pair.name = start.pair.name ∧ drawing.pair.sources = start.pair.sources) ?_ ?_ events
  · exact ⟨rfl, rfl⟩
  · intro events event ih
    have hevent : (event.perform (start.run events)).pair.name = (start.run events).pair.name ∧
        (event.perform (start.run events)).pair.sources = (start.run events).pair.sources := by
      by_cases hupdate : event.isUpdate = false
      · obtain ⟨⟨macros, hpair, -⟩, -⟩ := quiet_perform hupdate (start.run events)
        rw [hpair]
        exact ⟨rfl, rfl⟩
      · obtain ⟨listing, state, rfl⟩ := Event.eq_update_of_isUpdate hupdate
        exact ShaderPair.name_sources_update _ _ _
    exact ⟨hevent.1.trans ih.1, hevent.2.trans ih.2⟩

/-- The texts that an event leaves in place, if it is an update and there is any text. -/
def textsAfter (drawing : Drawing) : Event → List ProgramTexts
  | .update listing state =>
    let texts := (ShaderPair.update drawing listing state).state.pair.compiled
    if texts = ⟨none, none⟩ then [] else [texts]
  | _ => []

theorem textsAfter_eq_nil {event : Event} (h : event.isUpdate = false) (drawing : Drawing) :
    drawing.textsAfter event = [] := by
  cases event with
  | update listing state => cases h
  | _ => rfl

/-- What is gathered in a run, event by event, each time from the drawing as it is then. -/
def gather {α : Type} (f : Drawing → Event → List α) (drawing : Drawing) : List Event → List α
  | [] => []
  | event :: events => f drawing event ++ gather f (event.perform drawing) events

theorem gather_concat {α : Type} (f : Drawing → Event → List α) (drawing : Drawing)
    (events : List Event) (event : Event) :
    drawing.gather f (events ++ [event])
      = drawing.gather f events ++ f (drawing.run events) event := by
  induction events generalizing drawing with
  | nil => exact List.append_nil _
  | cons first events ih =>
    rw [List.cons_append, gather, gather, ih, List.append_assoc]
    rfl

/-- **The texts of programs in a run:** the pairs of texts that its updates leave in place, without
those that hold no text. -/
def programTexts (drawing : Drawing) (events : List Event) : List ProgramTexts :=
  drawing.gather textsAfter events

theorem programTexts_concat (drawing : Drawing) (events : List Event) (event : Event) :
    drawing.programTexts (events ++ [event])
      = drawing.programTexts events ++ (drawing.run events).textsAfter event :=
  drawing.gather_concat textsAfter events event

end Drawing

/-! ## A pair to look at -/

/-- A new context around a layer, with a library that holds no fragments. -/
def DrawContext.around (commands : CommandLayer) : DrawContext :=
  ⟨⟨⟨.empty, .empty, [], 0⟩, .text Library.defaultPrecision, .null, .empty, 0⟩, commands⟩

example (commands : CommandLayer) :
    Library.make { bundled := false } = .ok (DrawContext.around commands).library := rfl

/-- A new pair with a vertex shader only, whose text stands in the frame state. -/
def ShaderPair.sketch : ShaderPair :=
  fresh (.text "sketch") ⟨some (.generated (Callable.state "text").apply), none⟩ .empty

/-- The frame state with a text for that. -/
def ShaderPair.frame (text : Text) : List (Value × Value) := [(.text "text", .text text)]

end GlslCompose
