/-
`Proofs/DefineChanges.lean` -- each change of defines is noticed by every pair, and once.

A pair compares the revisions of two tables with those that it was compiled with. The
tables change at any time and through many hands: the library's by whoever uses the
library, the pair's own by calls and by the defines that come with its frames, also with
a frame whose update fails in the end. What has to be shown is that an unequal revision
means a change of defines since, and an equal one that there was none.

The first half is `Later`: a table whose defines are others has a greater revision, and no
pair remembers a revision that is still to come, so the difference stays until the pair
is compiled (`Onward`, `due_of_change`). The second half needs that an operation which
leaves the defines as they were does not count as a change, and that holds for one
reason only, that a mapping names each name once: otherwise a name could be set to
another value and back within one operation (`eq_of_sameDefines_define`).
-/
import GlslCompose.Proofs.CountedChanges
import GlslCompose.Proofs.SceneRun
import GlslCompose.Proofs.UpdateFailure

set_option autoImplicit false

namespace GlslCompose

/-! ## Operations that change no defines -/

/-- A mapping that names each name once. What is no mapping names nothing. -/
def Value.NamesOnce (v : Value) : Prop :=
  ∀ entries, v.entries? = some entries → (entries.map Prod.fst).Nodup

namespace MacroTable

/-- **The same defines,** whatever the revisions. -/
def SameDefines (old new : MacroTable) : Prop := ∀ name, new.get? name = old.get? name

variable {table : MacroTable}

/-- Edits of different defines that leave the defines as they were have done nothing. -/
theorem eq_of_sameDefines {edits : List Edit} {new : MacroTable}
    (hcounts : Counts defines revision edits table new) (hdistinct : (edits.map Edit.name).Nodup)
    (hsame : SameDefines table new) : new = table := by
  have hidle : Idle table.defines edits := idle_of_get?_eq hdistinct fun name => by
    rw [← hcounts.edited]
    exact hsame name
  have hrevision := hcounts.revision_eq_iff.2 hidle
  have hdefines := hcounts.tells.same hrevision
  cases table
  cases new
  exact congrArg₂ mk hdefines hrevision

/-- **Setting defines that leaves the defines as they were does not count as a change.** -/
theorem eq_of_sameDefines_define {name value : Value} (hnames : name.NamesOnce)
    (hsame : SameDefines table (table.define name value).state) :
    (table.define name value).state = table := by
  refine eq_of_sameDefines (MacroTables.counts_define_alone table name value)
    (MacroTables.nodup_settingEdits ?_ [table] 0 table) hsame
  unfold TableArgument.valueSettings
  cases hentries : name.entries? with
  | some entries =>
    rw [List.map_map]
    exact hnames entries hentries
  | none => exact List.nodup_singleton _

/-- Neither does removing one. -/
theorem eq_of_sameDefines_remove {name : Value}
    (hsame : SameDefines table (table.remove name).state) : (table.remove name).state = table :=
  eq_of_sameDefines (table.counts_remove name) (nodup_removalEdits name) hsame

end MacroTable

namespace Library

/-- An act whose mappings of defines name each name once. -/
def Act.NamesOnce : Act → Prop
  | define name _ => name.NamesOnce
  | elsewhere _ act => act.NamesOnce
  | _ => True

/-- **An act that leaves the defines as they were does not count as a change of them.** -/
theorem macros_perform {act : Act} {library : Library} (hnames : act.NamesOnce)
    (hsame : library.macros.SameDefines (act.perform library).state.macros) :
    (act.perform library).state.macros = library.macros := by
  induction act generalizing library with
  | compile name source defines =>
    exact Library.macros_eq_of_plain (plain_state_compileGiven library _ _ _)
  | get path => exact Library.macros_eq_of_plain (plain_state_get library _)
  | define name value => exact MacroTable.eq_of_sameDefines_define hnames hsame
  | undefine name => exact MacroTable.eq_of_sameDefines_remove hsame
  | use transform =>
    simp only [Act.perform, use, Composer.use, Step.state_map, Step.state_within]
    cases Composer.transform? transform <;> rfl
  | elsewhere other act ih => exact ih hnames hsame
  | _ => rfl

end Library

/-! ## An update and the defines of its frame -/

namespace ShaderPair

section Courses

variable {drawing behind : Drawing} {listing : Bool} {state : List (Value × Value)}
  {pair : ShaderPair} {texts : List (Slot × Text)} {outcome : Except Fault Bool}

/-- Behind an update the defines of a pair are those that it took in with the frame. -/
theorem Course.macros_eq (h : Course drawing listing state outcome behind) :
    behind.pair.macros = (drawing.pair.takeDefines state).state.macros := by
  cases h with
  | refused h => rfl
  | unresolved htaken h => rfl
  | textless hready hdue => rw [← hready.pair_eq]; rfl
  | broken hready htexts hdue h hleft =>
    rw [← hready.pair_eq]
    exact macros_of_left hleft
  | compiled hready htexts hdue h =>
    rw [← hready.pair_eq]
    exact macros_built _ _ _
  | kept hready hdue hkept => rw [← hready.pair_eq, reviewed_eq]
  | swapped hready hdue hswapped =>
    rw [← hready.pair_eq]
    exact macros_swap_reviewed _ _ _

theorem macros_update (drawing : Drawing) (listing : Bool) (state : List (Value × Value)) :
    (update drawing listing state).state.pair.macros
      = (drawing.pair.takeDefines state).state.macros := by
  obtain ⟨outcome, behind, hcourse, ⟨programs, program, hpair⟩, -, -⟩ :=
    update_texts drawing listing state
  rw [hpair]
  exact hcourse.macros_eq

/-- Defines of a frame that a pair has already do not count as a change. -/
theorem macros_takeDefines
    (hnames : ∀ defines, stateAt? state "defines" = some defines → defines.NamesOnce)
    (hsame : pair.macros.SameDefines (pair.takeDefines state).state.macros) :
    (pair.takeDefines state).state.macros = pair.macros := by
  unfold takeDefines at hsame ⊢
  cases hdefines : stateAt? state "defines" with
  | none => rfl
  | some defines =>
    rw [hdefines] at hsame
    dsimp only at hsame ⊢
    split
    · rename_i htrue
      rw [if_pos htrue] at hsame
      exact MacroTable.eq_of_sameDefines_define (hnames defines hdefines) hsame
    · rfl

/-- A pair with a source has texts to compile. -/
theorem Ready.texts_ne_nil (h : Ready drawing state pair texts)
    (hsources : drawing.pair.sources ≠ ⟨none, none⟩) : texts ≠ [] := by
  rintro rfl
  obtain ⟨vertex, fragment, hvertex, hfragment, hnil⟩ := resolveSources_ok h.resolved
  obtain ⟨rfl, rfl⟩ := List.append_eq_nil_iff.1 hnil.symm
  apply hsources
  rw [← h.untouched.sources]
  rcases resolveSlot_ok hvertex with ⟨hnone, -⟩ | ⟨_, _, -, -, hcons⟩
  · rcases resolveSlot_ok hfragment with ⟨hnone', -⟩ | ⟨_, _, -, -, hcons⟩
    · rcases hpair : pair.sources with ⟨vertex, fragment⟩
      rw [hpair] at hnone hnone'
      rw [show vertex = none from hnone, show fragment = none from hnone']
    · cases hcons
  · cases hcons

/-- A course either counts a compilation, or leaves the remembered revisions as they were. -/
theorem Course.counted_or_remembers (h : Course drawing listing state outcome behind)
    (hsources : drawing.pair.sources ≠ ⟨none, none⟩) :
    behind.pair.compileCount = drawing.pair.compileCount + 1 ∨
      (behind.pair.compileCount = drawing.pair.compileCount ∧
        Remembers drawing.pair behind.pair) := by
  cases h with
  | refused h =>
    exact .inr ⟨(unbuilt_takeDefines _ _).compileCount, remembers_takeDefines _ _⟩
  | unresolved htaken h =>
    exact .inr ⟨(unbuilt_takeDefines _ _).compileCount, remembers_takeDefines _ _⟩
  | textless hready hdue => exact absurd rfl (hready.texts_ne_nil hsources)
  | broken hready htexts hdue h hleft =>
    exact .inr ⟨(hready.unbuilt.trans (unbuilt_of_left hleft)).compileCount,
      hready.remembers.trans (remembers_of_left hleft)⟩
  | compiled hready htexts hdue h =>
    left
    rw [compileCount_built, hready.unbuilt.compileCount]
  | kept hready hdue hkept =>
    exact .inr ⟨(hready.unbuilt.trans (unbuilt_forgetIf _ _)).compileCount,
      hready.remembers.trans (remembers_reviewed _ _)⟩
  | swapped hready hdue hswapped =>
    refine .inr ⟨?_, (hready.remembers.trans (remembers_reviewed _ _)).trans (remembers_swap _ _)⟩
    exact (compileCount_swap_reviewed _ _ _).trans hready.unbuilt.compileCount

/-- Over a layer that refuses nothing, only a course that breaks off makes an update fail. -/
theorem course_of_failed {fault : Fault} (hwilling : drawing.context.commands.Willing)
    (h : (update drawing listing state).result = .error fault) :
    Course drawing listing state (.error fault) (update drawing listing state).state := by
  rcases update_cases drawing listing state with
    ⟨first, hcourse, hresult⟩ | ⟨-, hresult⟩ | ⟨outcome, behind, hcourse, hprogrammed, hresult⟩
  · obtain rfl := Except.error.inj (hresult.symm.trans h)
    exact hcourse
  · rw [hresult] at h
    cases h
  · cases outcome with
    | ok done => rw [hresult] at h; cases h
    | error refusal =>
      obtain ⟨-, -, haccept⟩ := hprogrammed.of_error
      obtain ⟨handsOut, hhands⟩ := hwilling behind.pair.compiled
      rw [hcourse.context.1, hhands] at haccept
      cases haccept

/-- What breaks off beyond its sources breaks off at a text. -/
theorem Course.broken_of_ready {fault : Fault}
    (h : Course drawing listing state (.error fault) behind)
    (hready : Ready drawing state pair texts) :
    (compileTexts pair listing drawing.context.library texts).result = .error fault ∧
      behind.context.library = (compileTexts pair listing drawing.context.library texts).state := by
  cases h with
  | refused h => rw [hready.taken] at h; cases h
  | unresolved htaken h => rw [← hready.pair_eq, hready.resolved] at h; cases h
  | broken hother _ _ h hleft =>
    obtain ⟨rfl, rfl⟩ := hready.unique hother
    exact ⟨h, rfl⟩

/-! ## An update that compiles, and one that rests -/

/-- **An update that compiles.** Its texts go to the library, all of them and whatever is remembered
of them. Either they are taken over and counted, or the update fails with the first fault, and then
what was built is as before. -/
structure Attempts (drawing : Drawing) (listing : Bool) (state : List (Value × Value))
    (pair : ShaderPair) (texts : List (Slot × Text)) : Prop where
  nonempty : texts ≠ []
  library : (update drawing listing state).state.context.library
    = (compileTexts pair listing drawing.context.library texts).state
  failed : ∀ fault, (compileTexts pair listing drawing.context.library texts).result = .error fault →
    (update drawing listing state).result = .error fault ∧
      SameBuild drawing.pair (update drawing listing state).state.pair
  taken : ∀ compiled,
    (compileTexts pair listing drawing.context.library texts).result = .ok compiled →
    (∃ shown, (update drawing listing state).result = .ok shown) ∧
      (update drawing listing state).state.pair.compileCount = drawing.pair.compileCount + 1 ∧
      ∀ slot text result, (slot, text, result) ∈ compiled →
        (update drawing listing state).state.pair.resolved.get slot = some text ∧
          (update drawing listing state).state.pair.compiled.get slot = result

/-- Where there is a reason to compile, and a text, an update compiles. -/
theorem attempts_of_due (hwilling : drawing.context.commands.Willing)
    (hready : Ready drawing state pair texts) (htexts : texts ≠ [])
    (hdue : pair.dueReasons drawing.context.library state texts ≠ []) :
    Attempts drawing listing state pair texts := by
  rcases update_cases drawing listing state with
    ⟨fault, hcourse, hresult⟩ | ⟨hcourse, -⟩ | ⟨outcome, behind, hcourse, hprogrammed, hresult⟩
  -- The courses that find nothing to compile are out, for they found it for the same texts.
  · obtain ⟨h, hlibrary⟩ := hcourse.broken_of_ready hready
    refine ⟨htexts, hlibrary, fun first hfirst => ?_, fun compiled hcompiled => ?_⟩
    · rw [h] at hfirst
      rw [hresult, Except.error.inj hfirst]
      exact ⟨rfl, hcourse.sameBuild⟩
    · rw [h] at hcompiled
      cases hcompiled
  · generalize (update drawing listing state).state = after at hcourse
    cases hcourse with
    | textless hother _ => exact absurd (hready.unique hother).2.symm htexts
    | kept hother hnone _ =>
      obtain ⟨rfl, rfl⟩ := hready.unique hother
      exact absurd hnone hdue
  · obtain ⟨⟨programs, program, hpair⟩, hlibrary⟩ := hprogrammed.eq
    have hok : outcome = .ok () := by
      cases outcome with
      | ok done => rfl
      | error refusal =>
        cases (course_of_failed hwilling hresult).eq_verdict.trans hcourse.eq_verdict.symm
    cases hcourse with
    | compiled hother _ _ h =>
      obtain ⟨rfl, rfl⟩ := hready.unique hother
      refine ⟨htexts, hlibrary, fun fault hfault => ?_, fun compiled hcompiled => ?_⟩
      · rw [h] at hfault
        cases hfault
      · obtain rfl := Except.ok.inj (h.symm.trans hcompiled)
        have hnodup := nodup_compiled h (nodup_of_resolveSources hready.resolved)
        rw [hpair]
        refine ⟨⟨_, by rw [hresult, hok]; rfl⟩, ?_, fun slot text result hmem => ?_⟩
        · exact (compileCount_built _ _ _).trans
            (congrArg (· + 1) hready.unbuilt.compileCount)
        · exact get_built_of_mem _ _ hnodup hmem
    | swapped hother hnone _ =>
      obtain ⟨rfl, rfl⟩ := hready.unique hother
      exact absurd hnone hdue

/-- **An update that rests.** It gets to the block; what is shared is as before to the last cached
text, and so is what was built. -/
structure Rests (drawing : Drawing) (listing : Bool) (state : List (Value × Value)) : Prop where
  drawn : ∃ shown, (update drawing listing state).result = .ok shown
  context : (update drawing listing state).state.context = drawing.context
  sameBuild : SameBuild drawing.pair (update drawing listing state).state.pair

/-- Where there is no reason to compile, and each slot holds its text, an update rests. -/
theorem rests_of_settled (hready : Ready drawing state pair texts)
    (hframe : pair.frameReasons drawing.context.library state = [])
    (hplaced : ∀ slot text, (slot, text) ∈ texts → pair.resolved.get slot = some text) :
    Rests drawing listing state := by
  have hkeep : ∀ slot text, (slot, text) ∈ texts →
      (pair.reviewed drawing.context.library).changeOf slot text = .keep := by
    intro slot text hmem
    rw [changeOf_eq_keep_iff, reviewed_eq]
    exact hplaced slot text hmem
  have hdue : pair.dueReasons drawing.context.library state texts = [] := by
    rw [dueReasons_eq_nil_iff]
    refine ⟨hframe, ?_⟩
    rintro slot text hmem ⟨reason, hreason⟩
    rw [hkeep slot text hmem] at hreason
    cases hreason
  have hstill : swappedSlots (pair.changes drawing.context.library texts) = [] := by
    rw [List.eq_nil_iff_forall_not_mem]
    intro slot hslot
    obtain ⟨text, compiled, hmem⟩ := mem_swappedSlots.1 hslot
    obtain ⟨htext, hchange⟩ := mem_changes.1 hmem
    rw [hkeep slot text htext] at hchange
    cases hchange
  have hkept : Course drawing listing state (.ok false) _ := .kept hready hdue hstill
  -- An update takes one course only, so the other courses that it could take are out.
  rcases update_cases drawing listing state with
    ⟨fault, hcourse, -⟩ | ⟨hcourse, hresult⟩ | ⟨outcome, behind, hcourse, -, -⟩
  · cases hcourse.eq_verdict.trans hkept.eq_verdict.symm
  · refine ⟨⟨_, hresult⟩, ?_, ?_⟩
    · generalize (update drawing listing state).state = after at hcourse ⊢
      cases hcourse <;> rfl
    · have hunbuilt := hcourse.unbuilt (by simp)
      exact ⟨hunbuilt.resolved, hunbuilt.compiled, hcourse.untouched.program,
        hunbuilt.compileCount⟩
  · cases hcourse.eq_verdict.trans hkept.eq_verdict.symm

end Courses

/-! ## Until the pair is compiled -/

/-- **What goes on around a pair with a source.** Its tables only move on, compilations are only
counted up, and as long as none is counted it goes on to remember what it remembered. -/
structure Onward (old new : Drawing) : Prop where
  sources : new.pair.sources = old.pair.sources
  macros : old.pair.macros.Since new.pair.macros
  library : old.context.library.Before new.context.library
  compileCount : old.pair.compileCount ≤ new.pair.compileCount
  remembers : new.pair.compileCount = old.pair.compileCount → Remembers old.pair new.pair

theorem Onward.refl (drawing : Drawing) : Onward drawing drawing :=
  ⟨rfl, .refl _, .refl _, Nat.le_refl _, fun _ => .refl _⟩

theorem Onward.trans {a b c : Drawing} (hab : Onward a b) (hbc : Onward b c) : Onward a c := by
  refine ⟨hbc.sources.trans hab.sources, hab.macros.trans hbc.macros,
    hab.library.trans hbc.library, Nat.le_trans hab.compileCount hbc.compileCount, fun h => ?_⟩
  have hfirst := hab.compileCount
  have hsecond := hbc.compileCount
  exact (hab.remembers (by omega)).trans (hbc.remembers (by omega))

theorem Quiet.onward {old new : Drawing} (h : Quiet old new) : Onward old new := by
  obtain ⟨⟨macros, hpair, hsince⟩, hlibrary⟩ := h
  refine ⟨?_, ?_, hlibrary, ?_, fun _ => ?_⟩
  · rw [hpair]
  · rw [hpair]
    exact hsince
  · exact Nat.le_of_eq (by rw [hpair])
  · rw [hpair]
    exact ⟨rfl, rfl, rfl⟩

theorem onward_update {drawing : Drawing} (hsources : drawing.pair.sources ≠ ⟨none, none⟩)
    (listing : Bool) (state : List (Value × Value)) :
    Onward drawing (update drawing listing state).state := by
  have hplain := plain_update drawing listing state
  obtain ⟨outcome, behind, hcourse, ⟨programs, program, hpair⟩, -, -⟩ :=
    update_texts drawing listing state
  -- An update either counts as a compilation or leaves what is remembered of the defines.
  refine ⟨?_, ?_, .of_plain_eq hplain, ?_, fun hcount => ?_⟩
  · rw [hpair]
    exact hcourse.untouched.sources
  · rw [hpair]
    exact hcourse.untouched.macros
  · rw [hpair]
    rcases hcourse.counted_or_remembers hsources with h | ⟨h, -⟩
    · exact Nat.le_of_lt (Nat.lt_of_succ_le (Nat.le_of_eq h.symm))
    · exact Nat.le_of_eq h.symm
  · rw [hpair] at hcount ⊢
    rcases hcourse.counted_or_remembers hsources with h | ⟨-, h⟩
    · dsimp only at hcount
      omega
    · exact ⟨h.macroRevision, h.libraryRevision, h.storeRevision⟩

/-- **Other defines are a reason to compile until the pair is compiled.** They may be its own or the
library's, and they may be back to what they were by now. -/
theorem frameReasons_of_change {old mid later : Drawing} {pair : ShaderPair}
    {state : List (Value × Value)} (hrecorded : Recorded old.pair old.context.library)
    (hmid : Onward old mid) (hlater : Onward mid later)
    (hcount : later.pair.compileCount = old.pair.compileCount)
    (hremembers : Remembers later.pair pair) (hmacros : later.pair.macros.Since pair.macros)
    (hchange : mid.pair.macros ≠ old.pair.macros ∨
      mid.context.library.macros ≠ old.context.library.macros) :
    pair.frameReasons later.context.library state ≠ [] := by
  rw [Ne, frameReasons_eq_nil_iff]
  rintro ⟨-, hown, hshared⟩
  have hsame := ((hmid.trans hlater).remembers hcount).trans hremembers
  rw [hsame.macroRevision] at hown
  rw [hsame.libraryRevision] at hshared
  -- The revision that is remembered is one of before the change, and yet it is the one of now.
  have hownLe := hrecorded.macros _ hown
  have hsharedLe := hrecorded.shared _ hshared
  rcases hchange with hother | hother
  · apply hother
    apply hmid.macros.eq_of_revision
    have hfirst := hmid.macros.le
    have hsecond := (hlater.macros.trans hmacros).le
    omega
  · apply hother
    apply hmid.library.macros.eq_of_revision
    have hfirst := hmid.library.macros.le
    have hsecond := hlater.library.macros.le
    omega

end ShaderPair

/-! ## Changes of defines in a scene -/

namespace Scene

open ShaderPair (Ready Attempts Rests Onward Remembers SameBuild)

/-- An act whose mappings of defines name each name once. -/
def Act.NamesOnce : Act → Prop
  | update _ _ state => ∀ entries defines, frameState state = .ok entries →
      ShaderPair.stateAt? entries "defines" = some defines → defines.NamesOnce
  | define _ name _ => name.NamesOnce
  | library act => act.NamesOnce
  | _ => True

/-- **An act that changes no defines** of the pair at a place, neither its own nor those of the
library. -/
structure KeepsDefines (index : Nat) (scene : Scene) (act : Act) : Prop where
  shared : scene.library.macros.SameDefines (act.perform scene).library.macros
  own : ∀ old new, scene.drawing? index = some old →
    (act.perform scene).drawing? index = some new → old.pair.macros.SameDefines new.pair.macros

/-- An update of the pair at a place that gets to its block. -/
def Draws (index : Nat) (scene : Scene) (act : Act) : Prop :=
  ∃ listing state shown, act = .update index listing state ∧
    (scene.update index listing state).result = .ok shown

/-- Something that holds of every act of a run, in the scene in which it is done. -/
def Throughout (p : Scene → Act → Prop) : Scene → List Act → Prop
  | _, [] => True
  | scene, act :: acts => p scene act ∧ Throughout p (act.perform scene) acts

/-- **The frame state of an update,** for a pair that gets beyond its sources with it: the entries,
the pair with the defines of the frame, and the texts. -/
structure Resolves (scene : Scene) (index : Nat) (state : Value) (drawing : Drawing)
    (entries : List (Value × Value)) (pair : ShaderPair) (texts : List (Slot × Text)) : Prop where
  stands : scene.drawing? index = some drawing
  frame : frameState state = .ok entries
  ready : Ready drawing entries pair texts

section Pairs

variable {scene : Scene} {index : Nat} {old : Drawing}

/-- No update concerns the library's defines. -/
theorem macros_update (scene : Scene) (index : Nat) (listing : Bool) (state : Value) :
    (scene.update index listing state).state.library.macros = scene.library.macros := by
  rw [update]
  split
  · rfl
  · rfl
  · exact Library.macros_eq_of_plain (ShaderPair.plain_update _ _ _)

/-- The library's defines, behind an act that leaves them as they were. -/
theorem macros_perform {act : Act} (hnames : act.NamesOnce)
    (hsame : scene.library.macros.SameDefines (act.perform scene).library.macros) :
    (act.perform scene).library.macros = scene.library.macros := by
  cases act with
  | add vertex fragment defines name =>
    rw [Act.perform, addPair]
    split <;> rfl
  | update other listing state => exact macros_update scene other listing state
  | define other name value =>
    rw [Act.perform, withMacros]
    split <;> rfl
  | undefine other name =>
    rw [Act.perform, withMacros]
    split <;> rfl
  | library act => exact Library.macros_perform hnames hsame
  | commands handsOut => rfl

/-- The pair's defines, behind an act that leaves them as they were. -/
theorem Seen.macros_eq {act : Act} {new : Drawing} (h : Seen index old act new)
    (hnames : act.NamesOnce) (hsame : old.pair.macros.SameDefines new.pair.macros) :
    new.pair.macros = old.pair.macros := by
  cases h with
  | updated hstate =>
    rw [ShaderPair.macros_update] at hsame ⊢
    exact ShaderPair.macros_takeDefines (fun defines => hnames _ defines hstate) hsame
  | defined name value => exact MacroTable.eq_of_sameDefines_define hnames hsame
  | undefined name => exact MacroTable.eq_of_sameDefines_remove hsame
  | shared h => rfl

theorem Seen.onward {act : Act} {new : Drawing} (h : Seen index old act new)
    (hsources : old.pair.sources ≠ ⟨none, none⟩) : Onward old new := by
  rcases h.quiet with ⟨listing, state, entries, -, -, rfl⟩ | hquiet
  · exact ShaderPair.onward_update hsources listing entries
  · exact ShaderPair.Quiet.onward hquiet

theorem onward_run (h : scene.drawing? index = some old)
    (hsources : old.pair.sources ≠ ⟨none, none⟩) (acts : List Act) :
    ∃ new, (scene.run acts).drawing? index = some new ∧ Onward old new := by
  induction acts generalizing scene old with
  | nil => exact ⟨old, h, .refl old⟩
  | cons act acts ih =>
    obtain ⟨mid, hmid, hseen⟩ := drawing?_perform h act
    have honward := hseen.onward hsources
    rw [← honward.sources] at hsources
    obtain ⟨new, hnew, hrest⟩ := ih hmid hsources
    exact ⟨new, hnew, honward.trans hrest⟩

/-- **What a pair is like after acts that change no defines, and none of which draws it.** -/
structure Waited (old new : Drawing) : Prop where
  sources : new.pair.sources = old.pair.sources
  remembers : Remembers old.pair new.pair
  sameBuild : SameBuild old.pair new.pair
  macros : new.pair.macros = old.pair.macros
  shared : new.context.library.macros = old.context.library.macros

theorem Waited.trans {a b c : Drawing} (hab : Waited a b) (hbc : Waited b c) : Waited a c :=
  ⟨hbc.sources.trans hab.sources, hab.remembers.trans hbc.remembers,
    ⟨hbc.sameBuild.resolved.trans hab.sameBuild.resolved,
      hbc.sameBuild.compiled.trans hab.sameBuild.compiled,
      hbc.sameBuild.program.trans hab.sameBuild.program,
      hbc.sameBuild.compileCount.trans hab.sameBuild.compileCount⟩,
    hbc.macros.trans hab.macros, hbc.shared.trans hab.shared⟩

theorem waited_perform {act : Act} (h : scene.drawing? index = some old)
    (hwilling : scene.context.commands.Willing) (hnames : act.NamesOnce)
    (hkeeps : KeepsDefines index scene act) (hdraws : ¬ Draws index scene act) :
    ∃ new, (act.perform scene).drawing? index = some new ∧ Waited old new := by
  obtain ⟨new, hnew, hseen⟩ := drawing?_perform h act
  have hmacros := hseen.macros_eq hnames (hkeeps.own old new h hnew)
  have hshared : new.context.library.macros = old.context.library.macros := by
    rw [(drawing?_eq_some_iff.1 hnew).2, (drawing?_eq_some_iff.1 h).2]
    exact macros_perform hnames hkeeps.shared
  refine ⟨new, hnew, ?_⟩
  rcases hseen.quiet with ⟨listing, state, entries, rfl, hstate, rfl⟩ | ⟨⟨macros, hpair, -⟩, -⟩
  · cases hresult : (ShaderPair.update old listing entries).result with
    | ok shown =>
      refine absurd ⟨listing, state, shown, rfl, ?_⟩ hdraws
      rw [update_eq h hstate, Step.result_within, hresult]
    -- A failing update has not got as far as the texts.
    | error fault =>
      rw [← (drawing?_eq_some_iff.1 h).2] at hwilling
      have hcourse := ShaderPair.course_of_failed hwilling hresult
      exact ⟨hcourse.untouched.sources, hcourse.remembers_of_error, hcourse.sameBuild, hmacros,
        hshared⟩
  · refine ⟨?_, ?_, ?_, hmacros, hshared⟩
    · rw [hpair]
    · rw [hpair]
      exact ⟨rfl, rfl, rfl⟩
    · rw [hpair]
      exact ⟨rfl, rfl, rfl, rfl⟩

theorem waited_run {acts : List Act} (h : scene.drawing? index = some old)
    (hwilling : scene.context.commands.Willing)
    (hwaits : Throughout (fun scene act => act.NamesOnce ∧ KeepsDefines index scene act ∧
      ¬ Draws index scene act) scene acts) :
    ∃ new, (scene.run acts).drawing? index = some new ∧ Waited old new := by
  induction acts generalizing scene old with
  | nil => exact ⟨old, h, rfl, .refl _, ⟨rfl, rfl, rfl, rfl⟩, rfl, rfl⟩
  | cons act acts ih =>
    obtain ⟨⟨hnames, hkeeps, hdraws⟩, hrest⟩ := hwaits
    obtain ⟨mid, hmid, hfirst⟩ := waited_perform h hwilling hnames hkeeps hdraws
    obtain ⟨new, hnew, hsecond⟩ := ih hmid (willing_perform hwilling act) hrest
    exact ⟨new, hnew, hfirst.trans hsecond⟩

end Pairs

/-! ## No change is lost -/

/-- **No change of defines is lost** to the pair at a place in a scene. -/
structure NoneLost (scene : Scene) (index : Nat) (old : Drawing) : Prop where
  /-- Something changes the defines of the pair or of the library. Whatever happens after that, each
  update of the pair that gets beyond its sources compiles, as long as no compilation is counted. -/
  changed : ∀ (change : Act) (between : List Act) (later : Drawing) (listing : Bool) (state : Value)
      (entries : List (Value × Value)) (pair : ShaderPair) (texts : List (Slot × Text)),
    ¬ KeepsDefines index scene change →
    (scene.run (change :: between)).Resolves index state later entries pair texts →
    later.pair.compileCount = old.pair.compileCount →
    Attempts later listing entries pair texts
  /-- So does an update that changes the defines of the pair itself, by those of its frame. -/
  merged : ∀ (listing : Bool) (state : Value) (entries : List (Value × Value)) (pair : ShaderPair)
      (texts : List (Slot × Text)),
    scene.Resolves index state old entries pair texts →
    ¬ old.pair.macros.SameDefines pair.macros →
    Attempts old listing entries pair texts

section Lost

variable {scene : Scene} {index : Nat} {old : Drawing}

/-- A change of defines is there in the tables. -/
theorem ne_of_not_keepsDefines {change : Act} {mid : Drawing} (h : scene.drawing? index = some old)
    (hmid : (change.perform scene).drawing? index = some mid)
    (hchange : ¬ KeepsDefines index scene change) :
    mid.pair.macros ≠ old.pair.macros ∨ mid.context.library.macros ≠ old.context.library.macros := by
  by_contra hnone
  rw [not_or, not_ne_iff, not_ne_iff] at hnone
  obtain ⟨hown, hshared⟩ := hnone
  apply hchange
  refine ⟨fun name => ?_, fun first second hfirst hsecond name => ?_⟩
  · rw [(drawing?_eq_some_iff.1 hmid).2, (drawing?_eq_some_iff.1 h).2] at hshared
    exact congrArg (MacroTable.get? · name) hshared
  · obtain rfl := Option.some.inj (h.symm.trans hfirst)
    obtain rfl := Option.some.inj (hmid.symm.trans hsecond)
    exact congrArg (MacroTable.get? · name) hown

theorem noneLost (hwilling : scene.context.commands.Willing) (hrecorded : scene.Recorded)
    (h : scene.drawing? index = some old) (hsources : old.pair.sources ≠ ⟨none, none⟩) :
    NoneLost scene index old := by
  have hrecordedOld := hrecorded index old h
  refine ⟨?_, ?_⟩
  · intro change between later listing state entries pair texts hchange hresolves hcount
    obtain ⟨mid, hmid, hseen⟩ := drawing?_perform h change
    have hfirst := hseen.onward hsources
    obtain ⟨found, hfound, hsecond⟩ := onward_run hmid (by rw [hfirst.sources]; exact hsources) between
    obtain rfl := Option.some.inj (hfound.symm.trans hresolves.stands)
    have hready := hresolves.ready
    have hwillingLater := willing_run hwilling (change :: between)
    rw [← (drawing?_eq_some_iff.1 hresolves.stands).2] at hwillingLater
    apply ShaderPair.attempts_of_due hwillingLater hready
    · apply hready.texts_ne_nil
      rw [(hfirst.trans hsecond).sources]
      exact hsources
    · rw [ShaderPair.dueReasons]
      apply List.append_ne_nil_of_left_ne_nil
      exact ShaderPair.frameReasons_of_change hrecordedOld hfirst hsecond hcount hready.remembers
        hready.untouched.macros (ne_of_not_keepsDefines h hmid hchange)
  · intro listing state entries pair texts hresolves hother
    have hready := hresolves.ready
    rw [← (drawing?_eq_some_iff.1 h).2] at hwilling
    apply ShaderPair.attempts_of_due hwilling hready (hready.texts_ne_nil hsources)
    rw [ShaderPair.dueReasons]
    apply List.append_ne_nil_of_left_ne_nil
    -- The change is the update's own, so it lies between the pair and itself with the frame's defines.
    have hmid : Onward old ⟨old.context, pair⟩ :=
      ⟨hready.untouched.sources, hready.untouched.macros, .refl _,
        Nat.le_of_eq hready.unbuilt.compileCount.symm, fun _ => hready.remembers⟩
    apply ShaderPair.frameReasons_of_change hrecordedOld hmid (.refl _)
      hready.unbuilt.compileCount (.refl _) (.refl _)
    left
    intro hsame
    exact hother fun name => congrArg (MacroTable.get? · name) hsame

end Lost

/-! ## None is acted on twice -/

/-- **No change of defines is acted on twice** by the pair at a place in a scene. An update gets to
its block. After it nothing changes the defines, and no update gets to the block; then comes an
update that resolves to the same texts, forces nothing, and brings no other defines. It rests. -/
def NoneRepeated (scene : Scene) (index : Nat) (old : Drawing) : Prop :=
  ∀ (first again : Bool) (state next : Value) (entries nextEntries : List (Value × Value))
    (pair nextPair : ShaderPair) (texts : List (Slot × Text)) (shown : List (Value × Value))
    (between : List Act) (later : Drawing),
  scene.Resolves index state old entries pair texts →
  (scene.update index first state).result = .ok shown →
  Throughout (fun scene act => act.NamesOnce ∧ KeepsDefines index scene act ∧
    ¬ Draws index scene act) (scene.update index first state).state between →
  ((scene.update index first state).state.run between).Resolves index next later nextEntries
    nextPair texts →
  ShaderPair.stateHolds nextEntries "force_compile" = false →
  (Act.update index again next).NamesOnce →
  later.pair.macros.SameDefines nextPair.macros →
  Rests later again nextEntries

theorem noneRepeated {scene : Scene} {index : Nat} {old : Drawing}
    (hwilling : scene.context.commands.Willing) (h : scene.drawing? index = some old) :
    NoneRepeated scene index old := by
  intro first again state next entries nextEntries pair nextPair texts shown between later
    hresolves hshown hwaits hnext hforce hnames hsame
  -- Behind the first update each slot holds its text, and the marked revisions are those of then.
  have hready := hresolves.ready
  have heq := update_eq h hresolves.frame first
  rw [heq, Step.result_within] at hshown
  obtain ⟨found, foundTexts, hfound, hplaced, hown, hshared⟩ := ShaderPair.settled_update hshown
  obtain ⟨rfl, rfl⟩ := hready.unique hfound
  have hbehind : (scene.update index first state).state.drawing? index
      = some (ShaderPair.update old first entries).state := by
    rw [heq, Step.state_within]
    exact drawing?_withPair h _
  obtain ⟨same, hfoundSame, hwaited⟩ :=
    waited_run hbehind (willing_perform hwilling (.update index first state)) hwaits
  obtain rfl := Option.some.inj (hfoundSame.symm.trans hnext.stands)
  -- The defines of the next frame are none that the pair has not had already.
  have hnextReady := hnext.ready
  have hnextMacros : nextPair.macros = same.pair.macros := by
    rw [hnextReady.pair_eq] at hsame ⊢
    exact ShaderPair.macros_takeDefines (fun defines => hnames _ defines hnext.frame) hsame
  apply ShaderPair.rests_of_settled hnextReady
  · rw [ShaderPair.frameReasons_eq_nil_iff]
    refine ⟨hforce, ?_, ?_⟩
    · rw [hnextReady.remembers.macroRevision, hwaited.remembers.macroRevision, hown, hnextMacros,
        hwaited.macros]
    · rw [hnextReady.remembers.libraryRevision, hwaited.remembers.libraryRevision, hshared,
        hwaited.shared]
  · intro slot text hmem
    rw [hnextReady.unbuilt.resolved, hwaited.sameBuild.resolved]
    exact hplaced slot text hmem

/-! ## The two together -/

/-- An update whose frame brings no defines changes none, whichever pair it is for. -/
theorem keepsDefines_update {scene : Scene} {index other : Nat} {listing : Bool} {state : Value}
    (h : ∀ entries, frameState state = .ok entries → ShaderPair.stateAt? entries "defines" = none) :
    KeepsDefines index scene (.update other listing state) := by
  refine ⟨fun name => ?_, fun old new hold hnew name => ?_⟩
  · exact congrArg (MacroTable.get? · name) (macros_update scene other listing state)
  · obtain ⟨found, hfound, hseen⟩ := drawing?_perform hold (.update other listing state)
    obtain rfl := Option.some.inj (hfound.symm.trans hnew)
    cases hseen with
    | updated hstate =>
      rw [ShaderPair.macros_update, ShaderPair.takeDefines, h _ hstate]
      rfl
    | shared _ => rfl

theorem namesOnce_update {index : Nat} {listing : Bool} {state : Value}
    (h : ∀ entries, frameState state = .ok entries → ShaderPair.stateAt? entries "defines" = none) :
    (Act.update index listing state).NamesOnce := by
  intro entries defines hentries hdefines
  rw [h entries hentries] at hdefines
  cases hdefines

/-- The frame state with a text for a sketch. -/
def sketchState (text : Text) : Value := .map (ShaderPair.frame text)

/-- A pair with the sources of a sketch has the text of the frame to compile. -/
theorem ready_of_sketch {drawing : Drawing}
    (h : drawing.pair.sources = ShaderPair.sketch.sources) (text : Text) :
    Ready drawing (ShaderPair.frame text) drawing.pair [(.vertex, text)] := by
  refine ⟨rfl, rfl, ?_⟩
  rw [ShaderPair.resolveSources_congr h]
  rfl

/-- Two sketches with one library are made, and each is drawn once. -/
def sketching : List Act :=
  [.add (.generated (.state "text")) .null .null (.text "first"),
    .add (.generated (.state "text")) .null .null (.text "second"),
    .update 0 false (sketchState "int a;"), .update 1 false (sketchState "int a;")]

/-- The scene behind that. -/
def twoSketches : Scene := run ⟨.around .recording, []⟩ sketching

/-- The second sketch is drawn. -/
def drawSecond : Act := .update 1 false (sketchState "int a;")

/-- A define is set for both of them. -/
def defineForBoth : Act := .library (.define (.text "A") (.text "1"))

theorem counts_twoSketches :
    (twoSketches.drawing? 0).map (fun drawing => drawing.pair.compileCount) = some 1 ∧
      ((twoSketches.run [defineForBoth, drawSecond]).drawing? 0).map
        (fun drawing => drawing.pair.compileCount) = some 1 ∧
      twoSketches.library.macros.get? "A" = none ∧
      ((defineForBoth.perform twoSketches).library.macros.get? "A").isSome = true := by
  decide +kernel

theorem results_twoSketches :
    (twoSketches.update 0 false (sketchState "int a;")).result.toOption.isSome = true ∧
      ((drawSecond.perform (twoSketches.update 0 false (sketchState "int a;")).state).update 0 false
        (.map [])).result.toOption.isNone = true := by
  decide +kernel

end Scene

end GlslCompose
