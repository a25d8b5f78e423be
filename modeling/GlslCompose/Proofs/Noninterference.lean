/-
`Proofs/Noninterference.lean` -- the pairs of a scene do not interfere.

A pair shares the library and the layer with all others. What the others do to these is
less than it seems: their updates fill the cache, but from a sound cache come the texts
that would be compiled anyway; and they make programs, but these only count when the next
one gets its name. Their own tables, texts and memos are nowhere else.

So a scene is compared to another one in which less was done: the same was done to the
library, to the layer and to one of the pairs, but nothing to the others (`Alike`). What
is done to another pair keeps the two alike although it is done in one of them only
(`Alike.drop`), and what is done in both keeps them alike (`Alike.keep`), with the same
outcome for the pair (`Alike.outcome_eq`). By induction over what is done, all outcomes of
a run are those of the run in which the other pairs are left alone
(`outcomes_eq_outcomes_alone`).
-/
import GlslCompose.Proofs.AlikeDrawings
import GlslCompose.Proofs.SceneRun

set_option autoImplicit false

namespace GlslCompose

namespace Scene

open ShaderPair (blurredState)

/-! ## What there is to see of a pair -/

/-- Whether an act is left when nothing is done to other pairs than the one at a place. They are made
all the same, so that the places stay what they are. -/
def Act.isLeft (index : Nat) : Act → Bool
  | .update other _ _ => other == index
  | .define other _ _ => other == index
  | .undefine other _ => other == index
  | _ => true

/-- The outcome of an update: the fault, or what drawing goes on with, but for the name of the
program. -/
def outcome (scene : Scene) (index : Nat) (listing : Bool) (state : Value) :
    Except Fault (List (Value × Value)) :=
  (scene.update index listing state).result.map blurredState

/-- How often the pair at a place has been compiled. -/
def compileCount? (scene : Scene) (index : Nat) : Option Nat :=
  scene.pairs[index]?.map fun pair => pair.compileCount

/-- What there is to see of the pair at a place when something is done. -/
def Act.seen (index : Nat) (scene : Scene) : Act → List (Except Fault (List (Value × Value)) × Option Nat)
  | .update other listing state =>
    if other = index then
      [(scene.outcome index listing state,
        ((Act.update other listing state).perform scene).compileCount? index)]
    else []
  | _ => []

/-- **The outcomes of all updates of a pair in a run,** with the number of its compilations behind each
of them. -/
def outcomes (index : Nat) : Scene → List Act → List (Except Fault (List (Value × Value)) × Option Nat)
  | _, [] => []
  | scene, act :: acts => act.seen index scene ++ outcomes index (act.perform scene) acts

/-- The texts that are digested for keys of the cache in an act. -/
def Act.keyTexts (scene : Scene) : Act → List Text
  | .update index listing state =>
    match scene.drawing? index, frameState state with
    | some drawing, .ok entries => drawing.keyTexts (.update listing entries)
    | _, _ => []
  | .library act => (act.keyText? scene.library).toList
  | _ => []

/-- The texts that are digested in a run. -/
def keyTexts : Scene → List Act → List Text
  | _, [] => []
  | scene, act :: acts => act.keyTexts scene ++ keyTexts (act.perform scene) acts

/-! ## What acts do to what is shared -/

section Shared

variable {scene : Scene} {keys : List Text}

/-- **No act makes the cache unsound.** -/
theorem sound_perform {act : Act} (h : Library.Sound keys scene.library)
    (hkeys : act.keyTexts scene ⊆ keys) : Library.Sound keys (act.perform scene).library := by
  cases act with
  | add vertex fragment defines name =>
    rw [Act.perform, addPair]
    split <;> exact h
  | update index listing state =>
    rw [Act.perform]
    rcases scene.state_update_cases index listing state with
      hsame | ⟨drawing, entries, hfound, hstate, hbehind⟩
    · rw [hsame]
      exact h
    · rw [Act.keyTexts, hfound, hstate] at hkeys
      rw [hbehind]
      have hdrawing : Library.Sound keys drawing.context.library := by
        rw [(drawing?_eq_some_iff.1 hfound).2]
        exact h
      exact @ShaderPair.sound_perform keys drawing (.update listing entries) hdrawing hkeys
  | define index name value =>
    rw [Act.perform, withMacros]
    split <;> exact h
  | undefine index name =>
    rw [Act.perform, withMacros]
    split <;> exact h
  | library act =>
    apply Library.sound_perform h
    exact fun text htext => hkeys (Option.mem_toList.2 htext)
  | commands handsOut => exact h

/-- **What an act that is left out changes:** of what is shared nothing that matters, and nothing of the
pair in question. -/
theorem left_out {act : Act} {index : Nat} (hact : act.isLeft index = false) (scene : Scene) :
    (act.perform scene).library.plain = scene.library.plain ∧
      (act.perform scene).context.commands.accept = scene.context.commands.accept ∧
      (act.perform scene).pairs.length = scene.pairs.length ∧
      (act.perform scene).pairs[index]? = scene.pairs[index]? := by
  have hpairs : ∀ (context : DrawContext) {other : Nat} (pair : ShaderPair), (other == index) = false →
      (Scene.withPair { scene with context := context } other pair).pairs.length = scene.pairs.length ∧
      (Scene.withPair { scene with context := context } other pair).pairs[index]?
        = scene.pairs[index]? := by
    intro context other pair hother
    exact ⟨List.length_set, List.getElem?_set_ne (by simpa using hother)⟩
  cases act with
  | update other listing state =>
    rw [Act.perform]
    rcases scene.state_update_cases other listing state with
      hsame | ⟨drawing, entries, hfound, -, hbehind⟩
    · rw [hsame]
      exact ⟨rfl, rfl, rfl, rfl⟩
    · -- The update of another pair may fill the cache and register programs.
      have hplain := ShaderPair.plain_update drawing listing entries
      have haccept := ShaderPair.accept_update drawing listing entries
      rw [(drawing?_eq_some_iff.1 hfound).2] at hplain haccept
      rw [hbehind]
      exact ⟨hplain, haccept, hpairs _ _ hact⟩
  | define other name value =>
    rw [Act.perform, withMacros]
    split
    · exact ⟨rfl, rfl, rfl, rfl⟩
    · exact ⟨rfl, rfl, hpairs scene.context _ hact⟩
  | undefine other name =>
    rw [Act.perform, withMacros]
    split
    · exact ⟨rfl, rfl, rfl, rfl⟩
    · exact ⟨rfl, rfl, hpairs scene.context _ hact⟩
  -- Nothing else is left out.
  | add vertex fragment defines name => cases hact
  | library act => cases hact
  | commands handsOut => cases hact

end Shared

/-! ## Two scenes -/

/-- **Two scenes that are the same to the pair at a place.** -/
structure Alike (keys : List Text) (index : Nat) (scene other : Scene) : Prop where
  library : other.library.plain = scene.library.plain
  accept : other.context.commands.accept = scene.context.commands.accept
  length : other.pairs.length = scene.pairs.length
  pair : other.pairs[index]?.map ShaderPair.blurred = scene.pairs[index]?.map ShaderPair.blurred
  sound : Library.Sound keys scene.library
  soundOther : Library.Sound keys other.library

namespace Alike

variable {keys : List Text} {index : Nat} {scene other : Scene} {act : Act}

/-- **An act that is left out keeps scenes alike.** -/
theorem drop (h : Alike keys index scene other) (hact : act.isLeft index = false)
    (hkeys : act.keyTexts scene ⊆ keys) : Alike keys index (act.perform scene) other := by
  obtain ⟨hlibrary, haccept, hlength, hpair⟩ := left_out hact scene
  exact ⟨h.library.trans hlibrary.symm, h.accept.trans haccept.symm, h.length.trans hlength.symm,
    h.pair.trans (congrArg _ hpair.symm), sound_perform h.sound hkeys, h.soundOther⟩

/-- The pair is in both scenes or in none, and comes to the same. -/
theorem drawings (h : Alike keys index scene other) :
    (scene.drawing? index = none ∧ other.drawing? index = none) ∨
      ∃ drawing otherDrawing, scene.drawing? index = some drawing ∧
        other.drawing? index = some otherDrawing ∧ otherDrawing.blurred = drawing.blurred := by
  have hpair := h.pair
  cases hfound : scene.pairs[index]? with
  | none =>
    rw [hfound, Option.map_none, Option.map_eq_none_iff] at hpair
    refine .inl ⟨?_, ?_⟩
    · rw [drawing?, hfound]
      rfl
    · rw [drawing?, hpair]
      rfl
  | some pair =>
    rw [hfound, Option.map_some, Option.map_eq_some_iff] at hpair
    obtain ⟨otherPair, hotherFound, hsame⟩ := hpair
    refine .inr ⟨⟨scene.context, pair⟩, ⟨other.context, otherPair⟩, ?_, ?_, ?_⟩
    · rw [drawing?, hfound]
      rfl
    · rw [drawing?, hotherFound]
      rfl
    · exact ShaderPair.blurred_congr h.library h.accept hsame

/-- The same texts are digested in both scenes. -/
theorem keyTexts_eq (h : Alike keys index scene other) (hact : act.isLeft index = true) :
    act.keyTexts other = act.keyTexts scene := by
  cases act with
  | update place listing state =>
    obtain rfl : place = index := eq_of_beq hact
    rw [Act.keyTexts, Act.keyTexts]
    rcases h.drawings with ⟨hnone, hotherNone⟩ | ⟨drawing, otherDrawing, hfound, hotherFound, hsame⟩
    · rw [hnone, hotherNone]
    · rw [hfound, hotherFound]
      cases frameState state with
      | error fault => rfl
      | ok entries => exact ShaderPair.keyTexts_same hsame listing entries
  | library act =>
    rw [Act.keyTexts, Act.keyTexts, ← Library.keyText?_plain, h.library, Library.keyText?_plain]
  | _ => rfl

/-- **An update of the pair** has the same outcome in both scenes, and what it leaves is the same to the
pair. -/
theorem update_alike (h : Alike keys index scene other) (hfree : Digest.CollisionFree keys)
    {listing : Bool} {state : Value} (hkeys : (Act.update index listing state).keyTexts scene ⊆ keys) :
    other.outcome index listing state = scene.outcome index listing state ∧
      Alike keys index ((Act.update index listing state).perform scene)
        ((Act.update index listing state).perform other) := by
  have hleft : (Act.update index listing state).isLeft index = true := beq_self_eq_true index
  have hsound := sound_perform h.sound hkeys
  have hotherSound : Library.Sound keys ((Act.update index listing state).perform other).library := by
    apply sound_perform h.soundOther
    rw [h.keyTexts_eq hleft]
    exact hkeys
  rw [outcome, outcome]
  simp only [Act.perform] at hsound hotherSound ⊢
  rcases h.drawings with ⟨hnone, hotherNone⟩ | ⟨drawing, otherDrawing, hfound, hotherFound, hsame⟩
  · rw [update, update, Option.map_eq_none_iff.1 hnone, Option.map_eq_none_iff.1 hotherNone]
    exact ⟨rfl, h⟩
  · cases hstate : frameState state with
    | error fault =>
      rw [update_of_error hfound hstate, update_of_error hotherFound hstate]
      exact ⟨rfl, h⟩
    | ok entries =>
      -- Both updates are of drawings that come to the same, and each is put back into its scene.
      obtain ⟨-, hcontext⟩ := drawing?_eq_some_iff.1 hfound
      obtain ⟨-, hotherContext⟩ := drawing?_eq_some_iff.1 hotherFound
      rw [Act.keyTexts, hfound, hstate] at hkeys
      obtain ⟨hresult, hbehind⟩ := ShaderPair.update_same hsame hfree (hcontext ▸ h.sound)
        (hotherContext ▸ h.soundOther) hkeys
      obtain ⟨hlibrary, haccept, hpair⟩ := ShaderPair.same_parts hbehind
      have hscene := drawing?_withPair hfound (ShaderPair.update drawing listing entries).state
      have hother := drawing?_withPair hotherFound
        (ShaderPair.update otherDrawing listing entries).state
      rw [update_eq hfound hstate] at hsound ⊢
      rw [update_eq hotherFound hstate] at hotherSound ⊢
      refine ⟨hresult, hlibrary, haccept, ?_, ?_, hsound, hotherSound⟩
      · exact List.length_set.trans (h.length.trans List.length_set.symm)
      · rw [Step.state_within, Step.state_within, (drawing?_eq_some_iff.1 hscene).1,
          (drawing?_eq_some_iff.1 hother).1]
        exact congrArg some hpair

/-- What is done to the table of the pair. -/
theorem withMacros_alike {α : Type} (h : Alike keys index scene other)
    (change : MacroTable → Step MacroTable α) :
    Alike keys index (scene.withMacros index change).state (other.withMacros index change).state := by
  rcases h.drawings with ⟨hnone, hotherNone⟩ | ⟨drawing, otherDrawing, hfound, hotherFound, hsame⟩
  · rw [Scene.withMacros, Scene.withMacros, Option.map_eq_none_iff.1 hnone,
      Option.map_eq_none_iff.1 hotherNone]
    exact h
  · obtain ⟨-, -, hpair⟩ := ShaderPair.same_parts hsame
    have hmacros : otherDrawing.pair.macros = drawing.pair.macros :=
      congrArg (fun pair => pair.macros) hpair
    have hscene := (drawing?_eq_some_iff.1 hfound).1
    have hother := (drawing?_eq_some_iff.1 hotherFound).1
    obtain ⟨hbound, -⟩ := List.getElem?_eq_some_iff.1 hscene
    obtain ⟨hotherBound, -⟩ := List.getElem?_eq_some_iff.1 hother
    rw [Scene.withMacros, Scene.withMacros, hscene, hother]
    refine ⟨h.library, h.accept, ?_, ?_, h.sound, h.soundOther⟩
    · exact List.length_set.trans (h.length.trans List.length_set.symm)
    · have hchanged := congrArg (fun pair : ShaderPair =>
        { pair with macros := (change drawing.pair.macros).state }) hpair
      rw [Step.state_within, Step.state_within, withPair, withPair, List.getElem?_set_self hbound,
        List.getElem?_set_self hotherBound, hmacros]
      exact congrArg some hchanged

/-- **What is done in both scenes keeps them alike.** -/
theorem keep (h : Alike keys index scene other) (hfree : Digest.CollisionFree keys)
    (hact : act.isLeft index = true) (hkeys : act.keyTexts scene ⊆ keys) :
    Alike keys index (act.perform scene) (act.perform other) := by
  cases act with
  | add vertex fragment defines name =>
    rw [Act.perform, Act.perform, addPair, addPair]
    cases ShaderPair.make vertex fragment defines name with
    | error fault => exact h
    | ok pair =>
      refine ⟨h.library, h.accept, ?_, ?_, h.sound, h.soundOther⟩
      · rw [Step.state_done, Step.state_done, List.length_append, List.length_append, h.length]
      · -- The new pair is the last in both scenes, and the same.
        rw [Step.state_done, Step.state_done, List.getElem?_append, List.getElem?_append, h.length]
        split
        · exact h.pair
        · rfl
  | update place listing state =>
    obtain rfl : place = index := eq_of_beq hact
    exact (h.update_alike hfree hkeys).2
  | define place name value =>
    obtain rfl : place = index := eq_of_beq hact
    exact h.withMacros_alike _
  | undefine place name =>
    obtain rfl : place = index := eq_of_beq hact
    exact h.withMacros_alike _
  | library change =>
    -- What the caches remember differs, but without them both libraries change to the same.
    have hplain := Library.plain_state_perform change scene.library
    have hotherPlain := Library.plain_state_perform change other.library
    refine ⟨?_, h.accept, h.length, h.pair, sound_perform h.sound hkeys, ?_⟩
    · rw [h.library, ← hplain] at hotherPlain
      exact hotherPlain
    · apply sound_perform h.soundOther
      rw [h.keyTexts_eq hact]
      exact hkeys
  | commands handsOut => exact ⟨h.library, rfl, h.length, h.pair, h.sound, h.soundOther⟩

/-- What there is to see of the pair is the same. -/
theorem seen_eq (h : Alike keys index scene other) (hfree : Digest.CollisionFree keys)
    (hkeys : act.keyTexts scene ⊆ keys) : act.seen index other = act.seen index scene := by
  cases act with
  | update place listing state =>
    rw [Act.seen, Act.seen]
    split
    · rename_i hplace
      subst hplace
      obtain ⟨houtcome, halike⟩ := h.update_alike hfree hkeys
      have hcount := congrArg (Option.map fun pair => pair.compileCount) halike.pair
      rw [Option.map_map, Option.map_map] at hcount
      rw [houtcome]
      exact congrArg (fun count => [(scene.outcome place listing state, count)]) hcount
    · rfl
  | _ => rfl

/-- An act that is left out is not seen. -/
theorem seen_eq_nil (hact : act.isLeft index = false) : act.seen index scene = [] := by
  cases act with
  | update place listing state =>
    have hplace : place ≠ index := by simpa [Act.isLeft] using hact
    rw [Act.seen, if_neg hplace]
  | _ => rfl

/-- **Runs of alike scenes** in which the same is done but to other pairs show the same. -/
theorem run (h : Alike keys index scene other) (hfree : Digest.CollisionFree keys) {acts : List Act}
    (hkeys : scene.keyTexts acts ⊆ keys) :
    outcomes index other (acts.filter (Act.isLeft index)) = outcomes index scene acts ∧
      Alike keys index (scene.run acts) (other.run (acts.filter (Act.isLeft index))) := by
  induction acts generalizing scene other with
  | nil => exact ⟨rfl, h⟩
  | cons act acts ih =>
    rw [Scene.keyTexts, List.append_subset] at hkeys
    cases hact : act.isLeft index with
    | true =>
      obtain ⟨houtcomes, halike⟩ := ih (h.keep hfree hact hkeys.1) hkeys.2
      rw [List.filter_cons_of_pos hact, outcomes, outcomes, h.seen_eq hfree hkeys.1, houtcomes]
      exact ⟨rfl, halike⟩
    | false =>
      obtain ⟨houtcomes, halike⟩ := ih (h.drop hact hkeys.1) hkeys.2
      rw [List.filter_cons_of_neg (by simp [hact]), outcomes, seen_eq_nil hact, houtcomes]
      exact ⟨rfl, halike⟩

end Alike

end Scene

end GlslCompose
