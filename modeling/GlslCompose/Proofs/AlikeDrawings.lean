/-
`Proofs/AlikeDrawings.lean` -- two drawings that come to the same, and that updates keep
them so.

What an update does to a pair does not depend on everything that is there. What the
library remembers makes no difference, as long as the cache is sound; and the programs
that the layer has made so far only give the next one its name. `Drawing.blurred` is a
drawing without both. Two drawings that are the same when blurred are answered the same by
an update, but for the name of the program, and are the same behind it (`update_same`).

There is one lemma for each function that an update calls. Those that change the pair
commute with blurring, so they need no induction over two runs.
-/
import GlslCompose.Proofs.Snapshot

set_option autoImplicit false

namespace GlslCompose

namespace ShaderPair

/-! ## Blurred pairs -/

/-- A program that could be any. -/
def blurredProgram (program : Option Nat) : Option Nat := program.map fun _ => 0

/-- **A pair without the names of its programs.** Whether there is one is still told. -/
def blurred (pair : ShaderPair) : ShaderPair :=
  { pair with
    programs := pair.programs.map fun entry => (entry.1, blurredProgram entry.2)
    program := blurredProgram pair.program }

theorem blurred_takeDefines (pair : ShaderPair) (state : List (Value × Value)) :
    pair.blurred.takeDefines state = (pair.takeDefines state).within blurred := by
  unfold takeDefines
  split
  · split <;> rfl
  · rfl

theorem blurred_forgetIf (pair : ShaderPair) (stale : Bool) :
    (pair.forgetIf stale).blurred = pair.blurred.forgetIf stale := by
  cases stale <;> rfl

theorem blurred_commit (pair : ShaderPair) (items : List (Slot × Text × Option Text)) :
    (pair.commit items).blurred = pair.blurred.commit items := by
  induction items generalizing pair with
  | nil => rfl
  | cons item rest ih => exact ih _

theorem blurred_swap (pair : ShaderPair) (items : List (Slot × Text × Change)) :
    (pair.swap items).blurred = pair.blurred.swap items := by
  induction items generalizing pair with
  | nil => rfl
  | cons item rest ih =>
    obtain ⟨slot, text, change⟩ := item
    cases change <;> exact ih _

theorem blurred_built (pair : ShaderPair) (library : Library)
    (compiled : List (Slot × Text × Option Text)) :
    (pair.built library compiled).blurred = pair.blurred.built library compiled := by
  let kept := pair.forgetIf
    (pair.definesChanged library || some library.store.revision != pair.storeRevision)
  have hcommit : (kept.commit compiled).blurred = (pair.blurred.forgetIf
      (pair.definesChanged library || some library.store.revision != pair.storeRevision)).commit
        compiled :=
    (blurred_commit kept compiled).trans (congrArg (·.commit compiled) (blurred_forgetIf _ _))
  exact congrArg (fun other : ShaderPair => { other.markDefines library with
    storeRevision := some library.store.revision
    compileCount := other.compileCount + 1 }) hcommit

/-- What is remembered of the programs tells whether there is one, when it is blurred. -/
theorem join_get?_blurred (pair : ShaderPair) (key : Nat) :
    (Pairs.get? key pair.blurred.programs).join
      = blurredProgram (Pairs.get? key pair.programs).join := by
  show (Pairs.get? key (pair.programs.map fun entry => (entry.1, blurredProgram entry.2))).join = _
  induction pair.programs with
  | nil => rfl
  | cons entry rest ih =>
    rw [List.map_cons, Pairs.get?, Pairs.get?]
    split
    · rfl
    · exact ih

theorem map_remember {κ ν μ : Type} [BEq κ] (f : ν → μ) (key : κ) (value : ν)
    (memo : List (κ × ν)) :
    (Memo.remember key value memo).map (fun entry => (entry.1, f entry.2))
      = Memo.remember key (f value) (memo.map fun entry => (entry.1, f entry.2)) := by
  have hput : ∀ memo : List (κ × ν), (Pairs.put key value memo).map (fun entry => (entry.1, f entry.2))
      = Pairs.put key (f value) (memo.map fun entry => (entry.1, f entry.2)) := by
    intro memo
    induction memo with
    | nil => rfl
    | cons entry rest ih =>
      rw [List.map_cons, Pairs.put, Pairs.put]
      split
      · rfl
      · rw [List.map_cons, ih]
  have hhas : Pairs.has key (memo.map fun entry => (entry.1, f entry.2)) = Pairs.has key memo := by
    rw [Pairs.has, Pairs.has]
    induction memo with
    | nil => rfl
    | cons entry rest ih =>
      rw [List.map_cons, Pairs.get?, Pairs.get?]
      split
      · rfl
      · exact ih
  rw [Memo.remember, Memo.remember, hput, hhas, List.length_map]
  split
  · rw [List.map_drop]
  · rfl

end ShaderPair

/-- **A drawing without what makes no difference to updates:** what the library remembers, the programs
that the layer has made, and the names of those that the pair has. -/
def Drawing.blurred (drawing : Drawing) : Drawing :=
  ⟨⟨drawing.context.library.plain, ⟨drawing.context.commands.accept, []⟩⟩, drawing.pair.blurred⟩

/-- **Two steps that come to the same.** -/
structure SameStep {α : Type} (step other : Step Drawing α) : Prop where
  result : other.result = step.result
  state : other.state.blurred = step.state.blurred

namespace ShaderPair

variable {drawing other : Drawing} {keys : List Text} {listing : Bool} {state : List (Value × Value)}
  {texts : List (Slot × Text)}

/-- What is the same in two drawings that come to the same. -/
theorem same_parts (h : other.blurred = drawing.blurred) :
    other.context.library.plain = drawing.context.library.plain ∧
      other.context.commands.accept = drawing.context.commands.accept ∧
      other.pair.blurred = drawing.pair.blurred :=
  ⟨congrArg (fun drawing => drawing.context.library) h,
    congrArg (fun drawing => drawing.context.commands.accept) h,
    congrArg (fun drawing => drawing.pair) h⟩

theorem blurred_congr {context otherContext : DrawContext} {pair otherPair : ShaderPair}
    (hlibrary : otherContext.library.plain = context.library.plain)
    (haccept : otherContext.commands.accept = context.commands.accept)
    (hpair : otherPair.blurred = pair.blurred) :
    (Drawing.mk otherContext otherPair).blurred = (Drawing.mk context pair).blurred := by
  rw [Drawing.blurred, Drawing.blurred, hlibrary, haccept, hpair]

/-! ## Programs -/

/-- The pair that a new program is remembered for. -/
theorem blurred_created (pair : ShaderPair) (key : Nat) (program : Option Nat) :
    ShaderPair.blurred { pair with
        programs := Memo.remember key program pair.programs, program := program }
      = { pair.blurred with
          programs := Memo.remember key (blurredProgram program) pair.blurred.programs
          program := blurredProgram program } :=
  congrArg (fun programs => { pair.blurred with
    programs := programs, program := blurredProgram program })
    (map_remember blurredProgram key program pair.programs)

/-- **Programs are kept, made and refused alike.** -/
theorem Programmed.same {result otherResult : Except Fault Unit} {behind otherBehind : Drawing}
    (h : Programmed drawing result behind) (hother : Programmed other otherResult otherBehind)
    (hsame : other.blurred = drawing.blurred) :
    otherResult = result ∧ otherBehind.blurred = behind.blurred := by
  obtain ⟨hlibrary, haccept, hpair⟩ := same_parts hsame
  have hcompiled : other.pair.compiled = drawing.pair.compiled :=
    congrArg (fun pair => pair.compiled) hpair
  -- Whether there are texts, and whether they are known, is the same in both: of the sixteen cases
  -- only those with two alike courses are left.
  have hknown : blurredProgram (Pairs.get? (programKey other.pair.compiled) other.pair.programs).join
      = blurredProgram (Pairs.get? (programKey drawing.pair.compiled) drawing.pair.programs).join := by
    rw [hcompiled, ← join_get?_blurred, ← join_get?_blurred, hpair]
  cases h with
  | textless htexts =>
    cases hother with
    | textless _ => exact ⟨rfl, hsame⟩
    | known hne _ => exact absurd (hcompiled.trans htexts) hne
    | created hne _ _ => exact absurd (hcompiled.trans htexts) hne
    | refused hne _ _ => exact absurd (hcompiled.trans htexts) hne
  | known htexts hfound =>
    cases hother with
    | textless hnone => exact absurd (hcompiled.symm.trans hnone) htexts
    | known _ hotherFound =>
      refine ⟨rfl, blurred_congr hlibrary haccept ?_⟩
      exact congrArg (fun pair : ShaderPair => { pair with program := some 0 }) hpair
    | created _ hunknown _ =>
      rw [hfound, hunknown] at hknown
      cases hknown
    | refused _ hunknown _ =>
      rw [hfound, hunknown] at hknown
      cases hknown
  | @created handsOut htexts hunknown hcreated =>
    cases hother with
    | textless hnone => exact absurd (hcompiled.symm.trans hnone) htexts
    | known _ hotherFound =>
      rw [hotherFound, hunknown] at hknown
      cases hknown
    | @created otherHandsOut _ _ hotherCreated =>
      rw [haccept, hcompiled, hcreated] at hotherCreated
      obtain rfl := Except.ok.inj hotherCreated
      refine ⟨rfl, blurred_congr hlibrary haccept ?_⟩
      -- The new program is called by another name, if there is one.
      have hprogram : ∀ n : Nat, blurredProgram (if handsOut then some n else none)
          = if handsOut then some 0 else none := by
        intro n
        cases handsOut <;> rfl
      refine (blurred_created _ _ _).trans (Eq.trans ?_ (blurred_created _ _ _).symm)
      rw [hprogram, hprogram, hcompiled, hpair]
    | refused _ _ hrefused =>
      rw [haccept, hcompiled, hcreated] at hrefused
      cases hrefused
  | refused htexts hunknown hrefused =>
    cases hother with
    | textless hnone => exact absurd (hcompiled.symm.trans hnone) htexts
    | known _ hotherFound =>
      rw [hotherFound, hunknown] at hknown
      cases hknown
    | created _ _ hotherCreated =>
      rw [haccept, hcompiled, hrefused] at hotherCreated
      cases hotherCreated
    | refused _ _ hotherRefused =>
      rw [haccept, hcompiled, hrefused] at hotherRefused
      exact ⟨congrArg Except.error (Except.error.inj hotherRefused).symm, hsame⟩

theorem updateProgram_same (h : other.blurred = drawing.blurred) :
    SameStep (updateProgram drawing) (updateProgram other) := by
  obtain ⟨hresult, hstate⟩ :=
    (updateProgram_programmed drawing).same (updateProgram_programmed other) h
  exact ⟨hresult, hstate⟩

/-! ## Compiling -/

/-- **Sound caches answer the same.** -/
theorem result_compileTexts_same {pair otherPair : ShaderPair} {library otherLibrary : Library}
    (hpair : otherPair.blurred = pair.blurred) (hplain : otherLibrary.plain = library.plain)
    (hfree : Digest.CollisionFree keys) (hsound : Library.Sound keys library)
    (hother : Library.Sound keys otherLibrary) (hkeys : pair.requestKeys library texts ⊆ keys) :
    (compileTexts otherPair listing otherLibrary texts).result
      = (compileTexts pair listing library texts).result := by
  have hname : otherPair.name = pair.name := congrArg (fun pair => pair.name) hpair
  have hmacros : otherPair.macros = pair.macros := congrArg (fun pair => pair.macros) hpair
  rw [compileTexts_congr hname hmacros]
  induction texts generalizing library otherLibrary with
  | nil => rfl
  | cons item rest ih =>
    obtain ⟨slot, text⟩ := item
    obtain ⟨hkey, hrest⟩ := requestKeys_cons_subset hkeys
    have hotherKey : ∀ key ∈ otherLibrary.requestKey? (.text (pair.slotName slot)) text
        pair.macros.toValue, key ∈ keys := by
      have hsame : otherLibrary.plain.requestKey? (.text (pair.slotName slot)) text
          pair.macros.toValue = library.plain.requestKey? (.text (pair.slotName slot)) text
            pair.macros.toValue := by rw [hplain]
      intro key hmem
      exact hkey key (hsame ▸ hmem)
    have hstate := library.plain_state_compile (.text (pair.slotName slot)) text pair.macros.toValue
    have hotherState := otherLibrary.plain_state_compile (.text (pair.slotName slot)) text
      pair.macros.toValue
    rw [result_compileTexts_cons, result_compileTexts_cons, Library.result_compile hfree hsound hkey,
      Library.result_compile hfree hother hotherKey, hplain]
    congr 1
    funext compiled
    congr 1
    exact ih (hotherState.trans (hplain.trans hstate.symm)) (Library.sound_compile hsound hkey)
      (Library.sound_compile hother hotherKey) (requestKeys_of_plain_eq hstate rest ▸ hrest)

/-- **Compiling comes to the same.** -/
theorem compile_same (h : other.blurred = drawing.blurred) (hfree : Digest.CollisionFree keys)
    (hsound : Library.Sound keys drawing.context.library)
    (hother : Library.Sound keys other.context.library)
    (hkeys : drawing.pair.requestKeys drawing.context.library texts ⊆ keys) (why : List Reason) :
    SameStep (compile drawing listing texts why) (compile other listing texts why) := by
  obtain ⟨hlibrary, haccept, hpair⟩ := same_parts h
  cases texts with
  | nil =>
    refine ⟨rfl, blurred_congr hlibrary haccept ?_⟩
    have hmark : other.pair.blurred.markDefines other.context.library.plain
        = drawing.pair.blurred.markDefines drawing.context.library.plain := by rw [hpair, hlibrary]
    exact hmark
  | cons item rest =>
    -- The texts are compiled to the same, over libraries that stay the same but for what they remember.
    have htexts : item :: rest ≠ [] := List.cons_ne_nil _ _
    have hresult := @result_compileTexts_same keys listing (item :: rest) _ _ _ _ hpair hlibrary hfree
      hsound hother hkeys
    have hplain := (plain_state_compileTexts other.pair listing other.context.library
      (item :: rest)).trans (hlibrary.trans (plain_state_compileTexts drawing.pair listing
        drawing.context.library (item :: rest)).symm)
    cases hcompiled : (compileTexts drawing.pair listing drawing.context.library
        (item :: rest)).result with
    | error fault =>
      obtain ⟨hfault, hstate⟩ := compile_of_error drawing why htexts hcompiled
      obtain ⟨hotherFault, hotherState⟩ := compile_of_error other why htexts
        (hresult.trans hcompiled)
      refine ⟨hotherFault.trans hfault.symm, ?_⟩
      rw [hstate, hotherState]
      exact blurred_congr hplain haccept hpair
    | ok compiled =>
      -- Then both pairs are built alike, and see to their programs.
      obtain ⟨hdone, hstate⟩ := compile_of_ok drawing why htexts hcompiled
      obtain ⟨hotherDone, hotherState⟩ := compile_of_ok other why htexts (hresult.trans hcompiled)
      have hbuilt : (other.pair.built other.context.library compiled).blurred
          = (drawing.pair.built drawing.context.library compiled).blurred := by
        have hplainBuilt : other.pair.blurred.built other.context.library.plain compiled
            = drawing.pair.blurred.built drawing.context.library.plain compiled := by
          rw [hpair, hlibrary]
        rw [blurred_built, blurred_built]
        exact hplainBuilt
      have hbehind : (Drawing.mk { other.context with
            library := (compileTexts other.pair listing other.context.library (item :: rest)).state }
            (other.pair.built other.context.library compiled)).blurred
          = (Drawing.mk { drawing.context with
            library := (compileTexts drawing.pair listing drawing.context.library
              (item :: rest)).state } (drawing.pair.built drawing.context.library compiled)).blurred :=
        blurred_congr hplain haccept hbuilt
      have hprogram := updateProgram_same hbehind
      refine ⟨?_, ?_⟩
      · rw [hdone, hotherDone]
        exact hprogram.result
      · rw [hstate, hotherState]
        exact hprogram.state

/-! ## Updates -/

/-- A pair that forgets what is no longer good. -/
theorem blurred_reviewed (pair : ShaderPair) (library : Library) :
    (pair.reviewed library).blurred = pair.blurred.reviewed library.plain :=
  blurred_forgetIf pair _

theorem requestKeys_reviewed (pair : ShaderPair) (library : Library) (texts : List (Slot × Text)) :
    (pair.reviewed library).requestKeys library texts = pair.requestKeys library texts := by
  rw [reviewed_eq]
  rfl

/-- **Checking the texts comes to the same.** -/
theorem checkSources_same (h : other.blurred = drawing.blurred) (hfree : Digest.CollisionFree keys)
    (hsound : Library.Sound keys drawing.context.library)
    (hother : Library.Sound keys other.context.library)
    (hkeys : drawing.pair.requestKeys drawing.context.library texts ⊆ keys) :
    SameStep (checkSources drawing listing texts) (checkSources other listing texts) := by
  obtain ⟨hlibrary, haccept, hpair⟩ := same_parts h
  have hreviewed : (other.pair.reviewed other.context.library).blurred
      = (drawing.pair.reviewed drawing.context.library).blurred := by
    rw [blurred_reviewed, blurred_reviewed, hpair, hlibrary]
  have hchanges : other.pair.changes other.context.library texts
      = drawing.pair.changes drawing.context.library texts := by
    have hblurred : ∀ (pair : ShaderPair) (library : Library),
        pair.changes library texts = pair.blurred.changes library.plain texts := by
      intro pair library
      rw [changes, changes, ← blurred_reviewed]
      rfl
    rw [hblurred, hblurred drawing.pair, hpair, hlibrary]
  -- With the same changes both do the same: they compile, or leave all as it is, or swap texts.
  rw [checkSources_eq, checkSources_eq]
  dsimp only
  rw [hchanges]
  split
  · exact compile_same (blurred_congr hlibrary haccept hreviewed) hfree hsound hother
      (requestKeys_reviewed drawing.pair _ texts ▸ hkeys) _
  · split
    · exact ⟨rfl, blurred_congr hlibrary haccept hreviewed⟩
    · have hswap : ((other.pair.reviewed other.context.library).swap
          (drawing.pair.changes drawing.context.library texts)).blurred
          = ((drawing.pair.reviewed drawing.context.library).swap
            (drawing.pair.changes drawing.context.library texts)).blurred := by
        rw [blurred_swap, blurred_swap, hreviewed]
      have hbehind : (Drawing.mk other.context ((other.pair.reviewed other.context.library).swap
            (drawing.pair.changes drawing.context.library texts))).blurred
          = (Drawing.mk drawing.context ((drawing.pair.reviewed drawing.context.library).swap
            (drawing.pair.changes drawing.context.library texts))).blurred :=
        blurred_congr hlibrary haccept hswap
      have hprogram := updateProgram_same hbehind
      refine ⟨?_, ?_⟩
      · rw [(Step.andThen_done_note _ _).1, (Step.andThen_done_note _ _).1]
        exact hprogram.result
      · rw [(Step.andThen_done_note _ _).2, (Step.andThen_done_note _ _).2]
        exact hprogram.state

/-- A value that could be any program, if it is one. -/
def blurredValue : Value → Value
  | .program _ => .program 0
  | v => v

/-- **A frame state without the name of the program** in it. -/
def blurredState (state : List (Value × Value)) : List (Value × Value) :=
  state.map fun entry =>
    (entry.1, if entry.1 == .text "program" then blurredValue entry.2 else entry.2)

theorem blurredState_put_program (value : Value) (state : List (Value × Value)) :
    blurredState (Pairs.put (.text "program") value state)
      = Pairs.put (.text "program") (blurredValue value) (blurredState state) := by
  induction state with
  | nil => rfl
  | cons entry rest ih =>
    obtain ⟨key, found⟩ := entry
    have hcons : ∀ (v : Value) (entries : List (Value × Value)), blurredState ((key, v) :: entries)
        = (key, if key == .text "program" then blurredValue v else v) :: blurredState entries :=
      fun _ _ => rfl
    rw [Pairs.put, hcons, Pairs.put]
    by_cases hkey : (key == .text "program") = true
    · rw [if_pos hkey, if_pos hkey, hcons, if_pos hkey]
    · rw [if_neg hkey, if_neg hkey, hcons, if_neg hkey, ih]

/-- **Drawing goes on with the same,** but for the name of the program. -/
theorem blurredState_drawState (h : other.blurred = drawing.blurred) (state : List (Value × Value)) :
    blurredState (drawState other state) = blurredState (drawState drawing state) := by
  obtain ⟨hlibrary, -, hpair⟩ := same_parts h
  have hcompiled : other.pair.compiled = drawing.pair.compiled :=
    congrArg (fun pair => pair.compiled) hpair
  have hmacros : other.pair.macros = drawing.pair.macros := congrArg (fun pair => pair.macros) hpair
  have hprogram : blurredProgram other.pair.program = blurredProgram drawing.pair.program :=
    congrArg (fun pair => pair.program) hpair
  have hvalue : ∀ program, blurredValue (programValue program) = programValue (blurredProgram program) := by
    intro program
    cases program <;> rfl
  rw [drawState_eq, drawState_eq, blurredState_put_program, blurredState_put_program, hvalue, hvalue,
    hprogram, hcompiled, drawDefines, drawDefines, hmacros, Library.macros_eq_of_plain hlibrary]

/-- What follows when the texts are seen to. -/
theorem drawn_same {step otherStep : Step Drawing Unit} (h : SameStep step otherStep)
    (state : List (Value × Value)) :
    (drawn state otherStep).result.map blurredState = (drawn state step).result.map blurredState ∧
      (drawn state otherStep).state.blurred = (drawn state step).state.blurred := by
  cases hdone : step.result with
  | error fault =>
    have hother := h.result.trans hdone
    rw [drawn, drawn, Step.result_andThen_of_error hdone, Step.result_andThen_of_error hother,
      Step.state_andThen_of_error hdone, Step.state_andThen_of_error hother]
    exact ⟨rfl, h.state⟩
  | ok done =>
    have hother := h.result.trans hdone
    rw [drawn, drawn, Step.result_andThen_of_ok hdone, Step.result_andThen_of_ok hother,
      Step.state_andThen_of_ok hdone, Step.state_andThen_of_ok hother]
    exact ⟨congrArg Except.ok (blurredState_drawState h.state state), h.state⟩

/-- What an update does with a pair that has taken the defines of the frame in. -/
def framed (drawing : Drawing) (listing : Bool) (state : List (Value × Value)) :
    Step Drawing (List (Value × Value)) :=
  let reasons := drawing.pair.frameReasons drawing.context.library state
  match drawing.pair.resolveSources (.map state) with
  | .error fault => .failed fault drawing
  | .ok texts => drawn state (
      if reasons.isEmpty then checkSources drawing listing texts
      else compile drawing listing texts reasons)

theorem update_eq (drawing : Drawing) (listing : Bool) (state : List (Value × Value)) :
    update drawing listing state = ((drawing.pair.takeDefines state).within fun pair =>
      { drawing with pair := pair }).andThen fun _ drawing => framed drawing listing state := rfl

theorem framed_same (h : other.blurred = drawing.blurred) (hfree : Digest.CollisionFree keys)
    (hsound : Library.Sound keys drawing.context.library)
    (hother : Library.Sound keys other.context.library)
    (hkeys : drawing.pair.requestKeys drawing.context.library
      ((drawing.pair.resolveSources (.map state)).toOption.getD []) ⊆ keys) :
    (framed other listing state).result.map blurredState
        = (framed drawing listing state).result.map blurredState ∧
      (framed other listing state).state.blurred = (framed drawing listing state).state.blurred := by
  obtain ⟨hlibrary, -, hpair⟩ := same_parts h
  have hreasons : other.pair.frameReasons other.context.library state
      = drawing.pair.frameReasons drawing.context.library state := by
    have hblurred : other.pair.blurred.frameReasons other.context.library.plain state
        = drawing.pair.blurred.frameReasons drawing.context.library.plain state := by
      rw [hpair, hlibrary]
    exact hblurred
  have hresolve : other.pair.resolveSources (.map state)
      = drawing.pair.resolveSources (.map state) := by
    have hblurred : other.pair.blurred.resolveSources (.map state)
        = drawing.pair.blurred.resolveSources (.map state) := by rw [hpair]
    exact hblurred
  rw [framed, framed, hreasons, hresolve]
  cases hresolved : drawing.pair.resolveSources (.map state) with
  | error fault => exact ⟨rfl, h⟩
  | ok texts =>
    rw [hresolved] at hkeys
    apply drawn_same
    split
    · exact checkSources_same h hfree hsound hother hkeys
    · exact compile_same h hfree hsound hother hkeys _

/-- Which texts are digested in an update does not depend on what is blurred. -/
theorem keyTexts_same (h : other.blurred = drawing.blurred) (listing : Bool)
    (state : List (Value × Value)) :
    other.keyTexts (.update listing state) = drawing.keyTexts (.update listing state) := by
  have hblurred : ∀ drawing : Drawing, drawing.blurred.keyTexts (.update listing state)
      = drawing.keyTexts (.update listing state) := by
    intro drawing
    have htaken : (drawing.blurred.pair.takeDefines state).state
        = (drawing.pair.takeDefines state).state.blurred :=
      congrArg (fun step => step.state) (blurred_takeDefines drawing.pair state)
    rw [Drawing.keyTexts, Drawing.keyTexts, Drawing.frameTexts, Drawing.frameTexts, htaken]
    rfl
  rw [← hblurred, h, hblurred]

/-- **An update answers the same, and leaves the same,** where it does not matter what the library
remembers and how programs are called. -/
theorem update_same (h : other.blurred = drawing.blurred) (hfree : Digest.CollisionFree keys)
    (hsound : Library.Sound keys drawing.context.library)
    (hother : Library.Sound keys other.context.library)
    (hkeys : drawing.keyTexts (.update listing state) ⊆ keys) :
    (update other listing state).result.map blurredState
        = (update drawing listing state).result.map blurredState ∧
      (update other listing state).state.blurred = (update drawing listing state).state.blurred := by
  obtain ⟨hlibrary, haccept, hpair⟩ := same_parts h
  have htake : (other.pair.takeDefines state).within blurred
      = (drawing.pair.takeDefines state).within blurred := by
    rw [← blurred_takeDefines, ← blurred_takeDefines, hpair]
  have htakeResult : (other.pair.takeDefines state).result = (drawing.pair.takeDefines state).result :=
    congrArg (fun step => step.result) htake
  have htaken : (other.pair.takeDefines state).state.blurred
      = (drawing.pair.takeDefines state).state.blurred :=
    congrArg (fun step => step.state) htake
  cases hdone : (drawing.pair.takeDefines state).result with
  | error fault =>
    have hfail : ((drawing.pair.takeDefines state).within fun pair =>
        { drawing with pair := pair }).result = .error fault := hdone
    have hotherFail : ((other.pair.takeDefines state).within fun pair =>
        { other with pair := pair }).result = .error fault := htakeResult.trans hdone
    rw [update_eq, update_eq, Step.result_andThen_of_error hfail,
      Step.result_andThen_of_error hotherFail, Step.state_andThen_of_error hfail,
      Step.state_andThen_of_error hotherFail]
    exact ⟨rfl, blurred_congr hlibrary haccept htaken⟩
  | ok done =>
    have hok : ((drawing.pair.takeDefines state).within fun pair =>
        { drawing with pair := pair }).result = .ok done := hdone
    have hotherOk : ((other.pair.takeDefines state).within fun pair =>
        { other with pair := pair }).result = .ok done := htakeResult.trans hdone
    rw [update_eq, update_eq, Step.result_andThen_of_ok hok, Step.result_andThen_of_ok hotherOk,
      Step.state_andThen_of_ok hok, Step.state_andThen_of_ok hotherOk]
    exact framed_same (blurred_congr hlibrary haccept htaken) hfree hsound hother hkeys

end ShaderPair

end GlslCompose
