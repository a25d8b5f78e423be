/-
`Proofs/SceneRun.lean` -- what can happen to a scene, and what one of its pairs sees of it.

In a scene several pairs share a library and a layer. What is done in it is done to one
pair, to the library, or to the layer, in any order (`Scene.Act`), and each pair is
affected by what is done to the others only through what they share.

`Seen` says how, and `drawing?_perform` that there is no other way: for a pair that is
there already, an act is an update of that pair, or it sets or removes defines of it, or
it concerns what is shared. An update of another pair belongs to the last kind, because
it changes nothing of the library but what that remembers (`plain_update`). Two facts
hold of every scene that came about from an empty one: no pair remembers a revision that
is still to come (`recorded_run`), and a layer that refuses nothing goes on to refuse
nothing (`willing_run`).
-/
import GlslCompose.Proofs.CompileReasons
import GlslCompose.Scene

set_option autoImplicit false

namespace GlslCompose

/-! ## What an update does to what is shared -/

/-- A layer that refuses no texts. It may still hand out nothing. -/
def CommandLayer.Willing (layer : CommandLayer) : Prop :=
  ∀ texts, ∃ handsOut, layer.accept texts = .ok handsOut

namespace ShaderPair

/-- An update changes nothing of the library but what it remembers. -/
theorem plain_update (drawing : Drawing) (listing : Bool) (state : List (Value × Value)) :
    (update drawing listing state).state.context.library.plain
      = drawing.context.library.plain := by
  obtain ⟨outcome, behind, hcourse, -, hlibrary, -⟩ := update_texts drawing listing state
  rw [hlibrary]
  exact hcourse.context.2

/-- An update leaves the revisions that a pair remembers in the past. -/
theorem recorded_update {drawing : Drawing} (listing : Bool) (state : List (Value × Value))
    (h : Recorded drawing.pair drawing.context.library) :
    Recorded (update drawing listing state).state.pair
      (update drawing listing state).state.context.library := by
  obtain ⟨outcome, behind, hcourse, ⟨programs, program, hpair⟩, hlibrary, -⟩ :=
    update_texts drawing listing state
  have hbehind := hcourse.recorded h
  rw [hpair, hlibrary]
  exact ⟨hbehind.macros, hbehind.shared, hbehind.store⟩

/-- What happens between updates leaves them there too. -/
theorem Recorded.quiet {old new : Drawing} (h : Recorded old.pair old.context.library)
    (hquiet : Quiet old new) : Recorded new.pair new.context.library := by
  obtain ⟨⟨macros, hpair, hsince⟩, hlibrary⟩ := hquiet
  rw [hpair]
  exact h.later ⟨rfl, rfl, rfl⟩ hsince hlibrary.macros hlibrary.store

end ShaderPair

namespace Scene

/-! ## Acts -/

/-- **Something that is done in a scene.** The layer may change what it hands out programs for; that
it hands out none is not a refusal. -/
inductive Act where
  /-- A pair is made. -/
  | add (vertex fragment defines name : Value)
  /-- The pair at a place is brought up to date. -/
  | update (index : Nat) (listing : Bool) (state : Value)
  /-- Defines are set in the table of the pair at a place. -/
  | define (index : Nat) (name value : Value)
  /-- A define is removed from that table. -/
  | undefine (index : Nat) (name : Value)
  /-- Something is done to the library. -/
  | library (act : Library.Act)
  /-- The layer hands out programs for other texts from now on. -/
  | commands (handsOut : ProgramTexts → Bool)

/-- What becomes of a scene when something is done in it. -/
def Act.perform : Act → Scene → Scene
  | add vertex fragment defines name, scene => (scene.addPair vertex fragment defines name).state
  | update index listing state, scene => (scene.update index listing state).state
  | define index name value, scene =>
    (scene.withMacros index fun macros => macros.define name value).state
  | undefine index name, scene => (scene.withMacros index fun macros => macros.remove name).state
  | library act, scene => scene.withLibrary (act.perform scene.library).state
  | commands handsOut, scene =>
    { scene with context := { scene.context with commands :=
        { scene.context.commands with accept := fun texts => .ok (handsOut texts) } } }

/-- What becomes of a scene when one thing is done after the other. -/
def run (scene : Scene) (acts : List Act) : Scene :=
  acts.foldl (fun scene act => act.perform scene) scene

@[simp] theorem run_nil (scene : Scene) : scene.run [] = scene := rfl

@[simp] theorem run_cons (scene : Scene) (act : Act) (acts : List Act) :
    scene.run (act :: acts) = (act.perform scene).run acts := rfl

theorem run_append (scene : Scene) (acts more : List Act) :
    scene.run (acts ++ more) = (scene.run acts).run more :=
  List.foldl_append

/-! ## One pair of a scene -/

/-- The pair at a place, together with what it shares with the others. -/
def drawing? (scene : Scene) (index : Nat) : Option Drawing :=
  scene.pairs[index]?.map fun pair => ⟨scene.context, pair⟩

section Drawings

variable {scene : Scene} {index : Nat} {old : Drawing}

theorem drawing?_eq_some_iff {drawing : Drawing} :
    scene.drawing? index = some drawing ↔
      scene.pairs[index]? = some drawing.pair ∧ drawing.context = scene.context := by
  rw [drawing?, Option.map_eq_some_iff]
  refine ⟨?_, ?_⟩
  · rintro ⟨pair, hpair, rfl⟩
    exact ⟨hpair, rfl⟩
  · rintro ⟨hpair, hcontext⟩
    exact ⟨drawing.pair, hpair, by rw [← hcontext]⟩

/-- What is put at the place of a pair is what stands there. -/
theorem drawing?_withPair (h : scene.drawing? index = some old) (drawing : Drawing) :
    (Scene.withPair { scene with context := drawing.context } index drawing.pair).drawing? index
      = some drawing := by
  obtain ⟨hpair, -⟩ := drawing?_eq_some_iff.1 h
  obtain ⟨hlength, -⟩ := List.getElem?_eq_some_iff.1 hpair
  rw [drawing?_eq_some_iff]
  exact ⟨List.getElem?_set_self hlength, rfl⟩

/-- What is put at another place leaves a pair alone. -/
theorem drawing?_withPair_of_ne {other : Nat} (h : scene.drawing? index = some old)
    (hne : other ≠ index) (drawing : Drawing) :
    (Scene.withPair { scene with context := drawing.context } other drawing.pair).drawing? index
      = some ⟨drawing.context, old.pair⟩ := by
  obtain ⟨hpair, -⟩ := drawing?_eq_some_iff.1 h
  rw [drawing?_eq_some_iff]
  refine ⟨?_, rfl⟩
  rw [withPair, List.getElem?_set_ne hne, hpair]

/-- An update in a scene is an update of the pair. -/
theorem update_eq (h : scene.drawing? index = some old) {state : Value}
    {entries : List (Value × Value)} (hstate : frameState state = .ok entries) (listing : Bool) :
    scene.update index listing state = (ShaderPair.update old listing entries).within fun drawing =>
      Scene.withPair { scene with context := drawing.context } index drawing.pair := by
  obtain ⟨hpair, hcontext⟩ := drawing?_eq_some_iff.1 h
  unfold update
  rw [hpair, hstate]
  dsimp only
  rw [← hcontext]

/-- A frame state that is none stops an update at once. -/
theorem update_of_error (h : scene.drawing? index = some old) {state : Value} {fault : Fault}
    (hstate : frameState state = .error fault) (listing : Bool) :
    scene.update index listing state = .failed fault scene := by
  obtain ⟨hpair, -⟩ := drawing?_eq_some_iff.1 h
  unfold update
  rw [hpair, hstate]

/-- **An update leaves a scene as it is,** or there is a pair at the place and a frame state for it. -/
theorem state_update_cases (scene : Scene) (index : Nat) (listing : Bool) (state : Value) :
    (scene.update index listing state).state = scene ∨
      ∃ found entries, scene.drawing? index = some found ∧ frameState state = .ok entries ∧
        (scene.update index listing state).state = Scene.withPair
          { scene with context := (ShaderPair.update found listing entries).state.context } index
          (ShaderPair.update found listing entries).state.pair := by
  cases hfound : scene.drawing? index with
  | none =>
    left
    rw [update, Option.map_eq_none_iff.1 hfound]
    rfl
  | some found =>
    cases hstate : frameState state with
    | error fault =>
      left
      rw [update_of_error hfound hstate]
      rfl
    | ok entries =>
      right
      refine ⟨found, entries, rfl, rfl, ?_⟩
      rw [update_eq hfound hstate, Step.state_within]

/-- **What one pair sees of an act,** if it is there already. -/
inductive Seen (index : Nat) (old : Drawing) : Act → Drawing → Prop where
  /-- The pair is brought up to date. -/
  | updated {listing : Bool} {state : Value} {entries : List (Value × Value)}
      (h : frameState state = .ok entries) :
      Seen index old (.update index listing state) (ShaderPair.update old listing entries).state
  /-- Defines are set in its table. -/
  | defined (name value : Value) :
      Seen index old (.define index name value)
        ⟨old.context, { old.pair with macros := (old.pair.macros.define name value).state }⟩
  /-- A define is removed from its table. -/
  | undefined (name : Value) :
      Seen index old (.undefine index name)
        ⟨old.context, { old.pair with macros := (old.pair.macros.remove name).state }⟩
  /-- The act concerns it through what it shares with others, if at all. -/
  | shared {act : Act} {context : DrawContext}
      (h : old.context.library.Before context.library) : Seen index old act ⟨context, old.pair⟩

theorem Seen.refl (index : Nat) (old : Drawing) (act : Act) : Seen index old act old :=
  .shared (.refl _)

/-- What is no update of the pair can happen between its updates. -/
theorem Seen.quiet {act : Act} {new : Drawing} (h : Seen index old act new) :
    (∃ listing state entries, act = .update index listing state ∧
        frameState state = .ok entries ∧ new = (ShaderPair.update old listing entries).state) ∨
      Quiet old new := by
  cases h with
  | updated h => exact .inl ⟨_, _, _, rfl, h, rfl⟩
  | defined name value => exact .inr ⟨⟨_, rfl, MacroTable.since_define _ _ _⟩, .refl _⟩
  | undefined name => exact .inr ⟨⟨_, rfl, MacroTable.since_remove _ _⟩, .refl _⟩
  | shared h => exact .inr ⟨⟨_, rfl, .refl _⟩, h⟩

/-- What is done to the table of one pair is no matter to the others. -/
theorem drawing?_withMacros {α : Type} (h : scene.drawing? index = some old) (other : Nat)
    (act : MacroTable → Step MacroTable α) :
    (scene.withMacros other act).state.drawing? index
      = some (if other = index then
          ⟨old.context, { old.pair with macros := (act old.pair.macros).state }⟩ else old) := by
  obtain ⟨hpair, hcontext⟩ := drawing?_eq_some_iff.1 h
  by_cases hother : other = index
  · subst hother
    obtain ⟨hlength, -⟩ := List.getElem?_eq_some_iff.1 hpair
    rw [if_pos rfl, drawing?_eq_some_iff, withMacros, hpair]
    exact ⟨List.getElem?_set_self hlength, hcontext⟩
  · rw [if_neg hother, drawing?_eq_some_iff, withMacros]
    cases scene.pairs[other]? with
    | none => exact ⟨hpair, hcontext⟩
    | some pair => exact ⟨(List.getElem?_set_ne hother).trans hpair, hcontext⟩

/-- **A pair goes on in a scene as it sees what is done there.** -/
theorem drawing?_perform (h : scene.drawing? index = some old) (act : Act) :
    ∃ new, (act.perform scene).drawing? index = some new ∧ Seen index old act new := by
  obtain ⟨hpair, hcontext⟩ := drawing?_eq_some_iff.1 h
  cases act with
  | add vertex fragment defines name =>
    refine ⟨old, ?_, .refl _ _ _⟩
    rw [Act.perform, addPair]
    split
    · exact h
    · obtain ⟨hlength, -⟩ := List.getElem?_eq_some_iff.1 hpair
      rw [drawing?_eq_some_iff]
      refine ⟨?_, hcontext⟩
      rw [Step.state_done, List.getElem?_append_left hlength, hpair]
  | update other listing state =>
    rw [Act.perform]
    rcases scene.state_update_cases other listing state with
      hsame | ⟨found, entries, hfound, hstate, hbehind⟩
    · rw [hsame]
      exact ⟨old, h, .refl _ _ _⟩
    · rw [hbehind]
      by_cases hother : other = index
      · subst hother
        obtain rfl := Option.some.inj (hfound.symm.trans h)
        exact ⟨_, drawing?_withPair h _, .updated hstate⟩
      -- Of the update of another pair this one sees what it did to the library and to the layer.
      · refine ⟨_, drawing?_withPair_of_ne h hother _, .shared (.of_plain_eq ?_)⟩
        rw [hcontext, ← (drawing?_eq_some_iff.1 hfound).2]
        exact ShaderPair.plain_update _ _ _
  | define other name value =>
    refine ⟨_, drawing?_withMacros h other _, ?_⟩
    split
    · rename_i hother
      subst hother
      exact .defined name value
    · exact .refl _ _ _
  | undefine other name =>
    refine ⟨_, drawing?_withMacros h other _, ?_⟩
    split
    · rename_i hother
      subst hother
      exact .undefined name
    · exact .refl _ _ _
  -- What is done to the library or to the layer concerns the pair through what it shares.
  | library act =>
    refine ⟨⟨{ scene.context with library := (act.perform scene.library).state }, old.pair⟩, ?_, ?_⟩
    · exact drawing?_eq_some_iff.2 ⟨hpair, rfl⟩
    · apply Seen.shared
      rw [hcontext]
      exact Library.before_perform act scene.library
  | commands handsOut =>
    refine ⟨⟨{ scene.context with commands := { scene.context.commands with
      accept := fun texts => .ok (handsOut texts) } }, old.pair⟩, ?_, ?_⟩
    · exact drawing?_eq_some_iff.2 ⟨hpair, rfl⟩
    · apply Seen.shared
      rw [hcontext]
      exact .refl _

end Drawings

/-! ## What holds of every scene -/

/-- No pair remembers a revision that is still to come. -/
def Recorded (scene : Scene) : Prop :=
  ∀ index drawing, scene.drawing? index = some drawing →
    ShaderPair.Recorded drawing.pair drawing.context.library

/-- A pair that is there after an act was there before it, or is a new one. -/
theorem drawing?_of_perform {scene : Scene} {act : Act} {index : Nat} {new : Drawing}
    (h : (act.perform scene).drawing? index = some new) :
    (∃ old, scene.drawing? index = some old) ∨
      new.pair = ShaderPair.fresh new.pair.name new.pair.sources new.pair.macros := by
  cases hold : scene.drawing? index with
  | some old => exact .inl ⟨old, rfl⟩
  | none =>
    right
    obtain ⟨hpair, -⟩ := drawing?_eq_some_iff.1 h
    have hlength : scene.pairs.length ≤ index :=
      List.getElem?_eq_none_iff.1 (Option.map_eq_none_iff.1 hold)
    -- Apart from making a pair, nothing makes their number grow.
    have hset : ∀ (other : Nat) (pair : ShaderPair),
        (scene.pairs.set other pair)[index]? = some new.pair → False := by
      intro other pair hsome
      obtain ⟨hbound, -⟩ := List.getElem?_eq_some_iff.1 hsome
      rw [List.length_set] at hbound
      omega
    have hsame : scene.pairs[index]? = some new.pair → False := by
      intro hsome
      rw [List.getElem?_eq_none hlength] at hsome
      cases hsome
    cases act with
    | add vertex fragment defines name =>
      rw [Act.perform, addPair] at hpair
      split at hpair
      · exact absurd hpair hsame
      · rename_i pair hmake
        rw [Step.state_done, List.getElem?_append_right hlength] at hpair
        obtain ⟨hbound, hget⟩ := List.getElem?_eq_some_iff.1 hpair
        rw [List.getElem_singleton] at hget
        rw [← hget]
        exact ShaderPair.eq_fresh_of_make hmake
    | update other listing state =>
      rw [Act.perform, update] at hpair
      split at hpair
      · exact absurd hpair hsame
      · exact absurd hpair hsame
      · exact absurd hpair (hset _ _)
    | define other name value =>
      rw [Act.perform, withMacros] at hpair
      split at hpair
      · exact absurd hpair hsame
      · exact absurd hpair (hset _ _)
    | undefine other name =>
      rw [Act.perform, withMacros] at hpair
      split at hpair
      · exact absurd hpair hsame
      · exact absurd hpair (hset _ _)
    | library act => exact absurd hpair hsame
    | commands handsOut => exact absurd hpair hsame

theorem recorded_perform {scene : Scene} (h : scene.Recorded) (act : Act) :
    (act.perform scene).Recorded := by
  intro index new hnew
  rcases drawing?_of_perform hnew with ⟨old, hold⟩ | hfresh
  · obtain ⟨found, hfound, hseen⟩ := drawing?_perform hold act
    obtain rfl := Option.some.inj (hfound.symm.trans hnew)
    have hrecorded := h index old hold
    rcases hseen.quiet with ⟨listing, state, entries, -, -, rfl⟩ | hquiet
    · exact ShaderPair.recorded_update listing entries hrecorded
    · exact hrecorded.quiet hquiet
  -- A new pair remembers nothing.
  · rw [hfresh]
    exact ⟨nofun, nofun, nofun⟩

/-- **In a scene that started empty, no pair remembers a revision that is still to come.** -/
theorem recorded_run (context : DrawContext) (acts : List Act) :
    (run ⟨context, []⟩ acts).Recorded := by
  have hrest : ∀ (acts : List Act) (scene : Scene), scene.Recorded → (scene.run acts).Recorded := by
    intro acts
    induction acts with
    | nil => exact fun scene h => h
    | cons act acts ih => exact fun scene h => ih _ (recorded_perform h act)
  apply hrest
  intro index drawing hdrawing
  cases hdrawing

theorem willing_perform {scene : Scene} (h : scene.context.commands.Willing) (act : Act) :
    (act.perform scene).context.commands.Willing := by
  cases act with
  | add vertex fragment defines name =>
    rw [Act.perform, addPair]
    split <;> exact h
  | update index listing state =>
    rw [Act.perform, update]
    split
    · exact h
    · exact h
    · intro texts
      rw [Step.state_within, withPair, ShaderPair.accept_update]
      exact h texts
  | define index name value =>
    rw [Act.perform, withMacros]
    split <;> exact h
  | undefine index name =>
    rw [Act.perform, withMacros]
    split <;> exact h
  | library act => exact h
  | commands handsOut => exact fun texts => ⟨handsOut texts, rfl⟩

/-- **A layer that refuses nothing goes on to refuse nothing.** -/
theorem willing_run {scene : Scene} (h : scene.context.commands.Willing) (acts : List Act) :
    (scene.run acts).context.commands.Willing := by
  induction acts generalizing scene with
  | nil => exact h
  | cons act acts ih => exact ih (willing_perform h act)

end Scene

end GlslCompose
