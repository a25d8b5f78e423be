/-
`Proofs/LibraryRun.lean` -- what can be done to a library, and what becomes of it.

A library is used by calling its operations in any order, and the composer at its
heart may be used by other libraries at the same time. `Library.Act` lists all of
that, `Act.perform` does it, and `answers` is what a whole sequence answers.

Two facts carry everything that is proved about such sequences. What an act answers
depends on nothing but the library without its memory, as long as what is remembered
is right; `Library.plain` is that library, without cached texts and without the count
of walks, and every act takes it along (`plain_state_perform`). And an act never takes
anything back: the store and the defines move on to later revisions and transforms are
only added, which is `Library.Before` (`before_perform`).
-/
import GlslCompose.Proofs.KeyText
import GlslCompose.Proofs.Revision

set_option autoImplicit false

namespace GlslCompose

/-! ## Composers without their count -/

namespace Composer

/-- A composer without the number of its walks, which nothing that it composes depends on. -/
def uncounted (composer : Composer) : Composer := { composer with walks := 0 }

theorem result_process (composer : Composer) (name : FileName) (source : Text) (defines : Value) :
    (composer.process name source defines).result
      = (composer.compose name.orAnonymous source defines).result := by
  unfold process
  dsimp only
  split <;> rename_i h <;> rw [h]

/-- A walk is counted, and nothing else happens to the composer. -/
theorem uncounted_state_process (composer : Composer) (name : FileName) (source : Text)
    (defines : Value) :
    (composer.process name source defines).state.uncounted = composer.uncounted := by
  unfold process
  dsimp only
  split <;> rfl

end Composer

namespace Library

/-! ## Libraries without their memory -/

/-- **A library without its memory:** the same composer, precision and version, but no cached texts
and no walks counted, and no text will ever be taken from the cache. -/
def plain (library : Library) : Library :=
  { library with
    composer := library.composer.uncounted
    cache := TextCache.empty.disable
    seenRevision := library.store.revision }

@[simp] theorem store_plain (library : Library) : library.plain.store = library.store := rfl

@[simp] theorem macros_plain (library : Library) : library.plain.macros = library.macros := rfl

theorem store_eq_of_plain {library other : Library} (h : other.plain = library.plain) :
    other.store = library.store := by
  have hplain : other.plain.store = library.plain.store := by rw [h]
  exact hplain

theorem macros_eq_of_plain {library other : Library} (h : other.plain = library.plain) :
    other.macros = library.macros := by
  have hplain : other.plain.macros = library.plain.macros := by rw [h]
  exact hplain

/-- A library whose composer is counted differently, or which remembers something else, is the same
without its memory. -/
theorem plain_eq_of_composer {library other : Library}
    (hcomposer : other.composer.uncounted = library.composer.uncounted)
    (hprecision : other.precision = library.precision) (hversion : other.version = library.version) :
    other.plain = library.plain := by
  -- The revision that is marked as seen is read off the composer as well.
  have hstore : other.store = library.store := by
    have h := congrArg Composer.store hcomposer
    exact h
  simp only [plain, hcomposer, hprecision, hversion, hstore]

theorem cacheKey_plain (library : Library) (name : FileName) (source defines : Value) :
    library.plain.cacheKey name source defines = library.cacheKey name source defines := rfl

theorem keyText_plain (library : Library) (name : FileName) (source defines : Value) :
    library.plain.keyText name source defines = library.keyText name source defines := rfl

/-- The body that a library makes anew. -/
theorem result_compileBody (library : Library) (name : FileName) (source : Text) (defines : Value) :
    (library.compileBody name source defines).result
      = (library.composer.compose name.orAnonymous (CompiledText.dropGuard source) defines).result.map
          (CompiledText.body library.precision.display library.versionText?) := by
  rw [compileBody, Step.result_map, Step.result_within, Composer.result_process]

theorem result_compileBody_plain (library : Library) (name : FileName) (source : Text)
    (defines : Value) :
    (library.plain.compileBody name source defines).result
      = (library.compileBody name source defines).result := by
  rw [result_compileBody, result_compileBody]
  rfl

/-! ## The state behind a compilation -/

theorem plain_refreshed (library : Library) : library.refreshed.plain = library.plain := by
  unfold refreshed
  split <;> rfl

theorem plain_state_compileBody (library : Library) (name : FileName) (source : Text)
    (defines : Value) :
    (library.compileBody name source defines).state.plain = library.plain := by
  refine plain_eq_of_composer ?_ rfl rfl
  exact Composer.uncounted_state_process _ _ _ _

theorem plain_state_cachedBody (library : Library) (key : Nat) (name : FileName) (source : Text)
    (defines : Value) :
    (library.cachedBody key name source defines).state.plain = library.plain := by
  unfold cachedBody
  split
  · rfl
  · rename_i cache _
    -- Whether it fails or is cached, a body that is made anew counts a walk and no more.
    have hmade : (compileBody { library with cache := cache } name source defines).state.plain
        = library.plain := plain_state_compileBody _ _ _ _
    refine Step.state_andThen_of (p := fun state : Library => state.plain = library.plain) hmade ?_
    exact fun _ _ => hmade

/-- **Compiling changes nothing but what is remembered.** -/
theorem plain_state_compile (library : Library) (name : FileName) (source : Text)
    (defines : Value) : (library.compile name source defines).state.plain = library.plain := by
  simp only [compile]
  split
  · rfl
  · split
    · exact plain_refreshed library
    · exact (plain_state_cachedBody _ _ _ _ _).trans (plain_refreshed library)

/-- The text that a library without memory compiles, which is always made anew. -/
theorem result_compile_plain (library : Library) (name : FileName) (source : Text)
    (defines : Value) :
    (library.plain.compile name source defines).result =
      if source.isEmpty then .ok none
      else (library.cacheKey name.orAnonymous (.text source) defines).bind fun _ =>
        (library.compileBody name.orAnonymous source defines).result.map fun body =>
          some (CompiledText.withMarker name.orAnonymous.written body) := by
  have hrefreshed : library.plain.refreshed = library.plain := if_neg (fun h => h rfl)
  simp only [compile]
  split
  · rfl
  · rw [hrefreshed, cacheKey_plain]
    cases library.cacheKey name.orAnonymous (.text source) defines with
    | error fault => rfl
    | ok key =>
      have hmiss : library.plain.cache.get key = (none, library.plain.cache) := rfl
      simp only [cachedBody, hmiss, Step.result_map, Step.result_andThen, Except.bind]
      rw [show { library.plain with cache := library.plain.cache } = library.plain from rfl,
        result_compileBody_plain]
      cases (library.compileBody name.orAnonymous source defines).result <;> rfl

/-! ## What is asked to be compiled -/

/-- The name and the source that are compiled when a name and a source are given. A source alone
may be given as the name. Nothing is compiled where one of the two is of the wrong kind. -/
def requested? (name source : Value) : Option (FileName × Text) :=
  match source, name with
  | .null, .text source => some (.text [], source)
  | .text source, name => (FragmentStore.nameOf name).toOption.map fun name => (name, source)
  | _, _ => none

theorem compileValue_text {library : Library} {name : Value} {file : FileName} {source : Text}
    {defines : Value} (h : FragmentStore.nameOf name = .ok file) :
    library.compileValue name (.text source) defines = library.compile file source defines := by
  unfold compileValue
  cases source with
  | nil => rfl
  | cons c source => rw [h]; rfl

theorem compileGiven_of_requested {library : Library} {name source : Value} {file : FileName}
    {text : Text} {defines : Value} (h : requested? name source = some (file, text)) :
    library.compileGiven name source defines = library.compile file text defines := by
  have hnone : FragmentStore.nameOf .null = .ok (.text []) := rfl
  unfold requested? at h
  split at h
  · obtain ⟨rfl, rfl⟩ := Prod.mk.inj (Option.some.inj h)
    exact compileValue_text hnone
  · cases hname : FragmentStore.nameOf name with
    | error fault => rw [hname] at h; cases h
    | ok file' =>
      rw [hname] at h
      obtain ⟨rfl, rfl⟩ := Prod.mk.inj (Option.some.inj h)
      exact compileValue_text hname
  · cases h

/-- **Something that a library does without a look at what it remembers,** and without changing
anything else: it may only lose what it remembers. -/
structure Steady {α : Type} (act : Library → Step Library α) (library : Library) : Prop where
  result : (act library).result = (act library.plain).result
  state : (act library).state.plain = library.plain
  entries : (act library).state.cache.entries = library.cache.entries ∨
    (act library).state.cache.entries = .empty

theorem entries_refreshed (library : Library) :
    library.refreshed.cache.entries = library.cache.entries ∨
      library.refreshed.cache.entries = .empty := by
  unfold refreshed
  split
  · exact .inr rfl
  · exact .inl rfl

theorem cacheKey_refreshed (library : Library) (name : FileName) (source defines : Value) :
    library.refreshed.cacheKey name source defines = library.cacheKey name source defines := by
  rw [← cacheKey_plain, plain_refreshed, cacheKey_plain]

theorem steady_refuseSource (library : Library) (name : FileName) (source defines : Value) :
    Steady (fun library => library.refreshed.refuseSource name source defines) library := by
  have hkey := cacheKey_refreshed library name source defines
  have hkeyPlain := cacheKey_refreshed library.plain name source defines
  rw [cacheKey_plain] at hkeyPlain
  cases h : library.cacheKey name source defines with
  | error fault =>
    rw [h] at hkey hkeyPlain
    constructor <;> simp only [refuseSource, hkey, hkeyPlain]
    · rfl
    · exact plain_refreshed library
    · exact entries_refreshed library
  | ok key =>
    rw [h] at hkey hkeyPlain
    constructor <;> simp only [refuseSource, hkey, hkeyPlain]
    · rfl
    · exact plain_refreshed library
    · simp only [withCache, Step.state_failed, TextCache.entries_get]
      exact entries_refreshed library

/-- A value that is no text, or stands under a name that is none, is refused. -/
theorem steady_compileValue {name source : Value} (defines : Value) (library : Library)
    (hbad : ∀ file text, FragmentStore.nameOf name = .ok file → source ≠ .text text) :
    Steady (fun library => library.compileValue name source defines) library := by
  by_cases htrue : source.isTrue = true
  · cases hname : FragmentStore.nameOf name with
    | error fault =>
      constructor <;>
        simp only [compileValue, htrue, hname, Bool.not_true, Bool.false_eq_true, if_false]
      · rfl
      · exact plain_refreshed library
      · exact entries_refreshed library
    | ok file =>
      have hrefuse := steady_refuseSource library file source defines
      have heq : ∀ library : Library, library.compileValue name source defines
          = library.refreshed.refuseSource file source defines := by
        intro library
        simp only [compileValue, htrue, hname, Bool.not_true, Bool.false_eq_true, if_false]
        cases source with
        | text text => exact absurd rfl (hbad file text hname)
        | _ => rfl
      exact ⟨by simp only [heq]; exact hrefuse.result, by simp only [heq]; exact hrefuse.state,
        by simp only [heq]; exact hrefuse.entries⟩
  · constructor <;> simp only [compileValue, htrue, Bool.not_false, if_true]
    · rfl
    · rfl
    · exact .inl rfl

/-- What is no request is refused. -/
theorem steady_compileGiven {name source : Value} (defines : Value) (library : Library)
    (h : requested? name source = none) :
    Steady (fun library => library.compileGiven name source defines) library := by
  cases source with
  | null =>
    refine steady_compileValue defines library fun file text _ htext => ?_
    rw [htext] at h
    cases h
  | text text =>
    refine steady_compileValue defines library fun file text' hname _ => ?_
    simp [requested?, hname, Except.toOption] at h
  | _ => exact steady_compileValue defines library fun file text _ htext => by cases htext

/-! ## Acts -/

/-- **Something that is done to a library.** Transforms may be any functions, not only those of the
stock, and fragments may come from any collection of files. What another library does that has the
same composer is an act too: `elsewhere` says what it does, whatever that library remembers and
declares itself. -/
inductive Act where
  | compile (name source defines : Value)
  | get (path : Value)
  | add (path source : Value)
  | load (loader directory extensions : Value)
  | loadFiles (files : List (FileName × Value)) (origin : FragmentOrigin) (directory : Text)
      (filter : FragmentStore.ExtensionFilter)
  | define (name value : Value)
  | undefine (name : Value)
  | use (transform : Value)
  | adopt (transform : Transform)
  | enableCache
  | disableCache
  | clearCache (counts : Bool)
  | elsewhere (other : Library) (act : Act)

/-- What an act answers. -/
inductive Answer where
  | compiled (text : Option Text)
  | changed (now : Bool)
  | done
  deriving DecidableEq, Repr

namespace Act

/-- Does an act. -/
def perform : Act → Library → Step Library Answer
  | compile name source defines, library =>
    (library.compileGiven name source defines).map .compiled
  | get path, library => (library.get path).map .compiled
  | add path source, library => (library.add path source).map fun _ => .done
  | load loader directory extensions, library =>
    (library.load loader directory extensions).map fun _ => .done
  | loadFiles files origin directory filter, library =>
    ((library.store.load files origin directory filter).within library.withStore).map fun _ => .done
  | define name value, library => (library.define name value).map .changed
  | undefine name, library => (library.undefine name).map fun _ => .done
  | use transform, library => (library.use transform).map fun _ => .done
  | adopt transform, library => .done .done (library.withComposer (library.composer.add transform))
  | enableCache, library => .done .done (library.withCache TextCache.enable)
  | disableCache, library => .done .done (library.withCache TextCache.disable)
  | clearCache counts, library => .done .done (library.withCache fun cache => cache.clear counts)
  | elsewhere other act, library =>
    let step := act.perform (other.withComposer library.composer)
    ⟨.ok .done, library.withComposer step.state.composer, step.notices⟩

end Act

/-- The compilation that an act asks for: the name, the source, and the defines. -/
def Act.request? : Act → Library → Option (FileName × Text × Value)
  | .compile name source defines, _ =>
    (requested? name source).map fun (name, source) => (name, source, defines)
  | .get (.text path), library =>
    (library.store.source? path).map fun source => (.text path, source, .null)
  | _, _ => none

/-- An act that asks for a compilation is that compilation. -/
theorem Act.perform_of_request {act : Act} {library : Library} {name : FileName} {source : Text}
    {defines : Value} (h : act.request? library = some (name, source, defines)) :
    act.perform library = (library.compile name source defines).map .compiled := by
  cases act with
  | compile givenName givenSource givenDefines =>
    simp only [request?, Option.map_eq_some_iff, Prod.exists, Prod.mk.injEq] at h
    obtain ⟨_, _, hrequested, rfl, rfl, rfl⟩ := h
    rw [perform, compileGiven_of_requested hrequested]
  | get path =>
    cases path with
    | text path =>
      simp only [request?, Option.map_eq_some_iff, Prod.mk.injEq] at h
      obtain ⟨_, hsource, rfl, rfl, rfl⟩ := h
      simp only [perform, Library.get, hsource]
    | _ => cases h
  | _ => cases h

/-! ## What acts keep -/

/-- **What no act takes back.** The store and the defines are later ones, transforms have only been
added, and what is declared stays the same. -/
structure Before (old new : Library) : Prop where
  store : old.store.Since new.store
  macros : old.macros.Since new.macros
  transforms : old.composer.transforms <+: new.composer.transforms
  precision : new.precision = old.precision
  version : new.version = old.version

namespace Before

theorem refl (library : Library) : library.Before library :=
  ⟨.refl _, .refl _, List.prefix_rfl, rfl, rfl⟩

theorem trans {a b c : Library} (hab : a.Before b) (hbc : b.Before c) : a.Before c :=
  ⟨hab.store.trans hbc.store, hab.macros.trans hbc.macros, hab.transforms.trans hbc.transforms,
    hbc.precision.trans hab.precision, hbc.version.trans hab.version⟩

/-- What is remembered plays no part. -/
theorem of_plain_eq {old new : Library} (h : new.plain = old.plain) : old.Before new := by
  have hstore : new.plain.store = old.plain.store := by rw [h]
  have hmacros : new.plain.macros = old.plain.macros := by rw [h]
  have htransforms : new.plain.composer.transforms = old.plain.composer.transforms := by rw [h]
  have hprecision : new.plain.precision = old.plain.precision := by rw [h]
  have hversion : new.plain.version = old.plain.version := by rw [h]
  rw [store_plain, store_plain] at hstore
  rw [macros_plain, macros_plain] at hmacros
  exact ⟨hstore ▸ .refl _, hmacros ▸ .refl _, htransforms ▸ List.prefix_rfl, hprecision, hversion⟩

end Before

/-- Where nothing is asked to be compiled, a get or a compile has no effect either. -/
theorem plain_state_compileGiven (library : Library) (name source defines : Value) :
    (library.compileGiven name source defines).state.plain = library.plain := by
  cases h : requested? name source with
  | none => exact (steady_compileGiven defines library h).state
  | some request =>
    rw [compileGiven_of_requested h]
    exact plain_state_compile _ _ _ _

theorem plain_state_get (library : Library) (path : Value) :
    (library.get path).state.plain = library.plain := by
  unfold get
  split
  · split
    · exact plain_state_compile _ _ _ _
    · rfl
  · rfl

theorem before_withStore {library : Library} {store : FragmentStore}
    (h : library.store.Since store) : library.Before (library.withStore store) :=
  ⟨h, .refl _, List.prefix_rfl, rfl, rfl⟩

theorem before_use (library : Library) (transform : Value) :
    library.Before (library.use transform).state := by
  simp only [use, Composer.use, Step.state_within]
  cases Composer.transform? transform with
  | none => exact .refl library
  | some t => exact ⟨.refl _, .refl _, List.prefix_append _ _, rfl, rfl⟩

/-- **No act takes anything back.** -/
theorem before_perform (act : Act) (library : Library) :
    library.Before (act.perform library).state := by
  induction act generalizing library with
  | compile name source defines => exact .of_plain_eq (plain_state_compileGiven _ _ _ _)
  | get path => exact .of_plain_eq (plain_state_get _ _)
  | add path source => exact before_withStore (FragmentStore.since_add _ _ _)
  | load loader directory extensions =>
    exact before_withStore (FragmentStore.since_loadValue _ _ _ _)
  | loadFiles files origin directory filter =>
    exact before_withStore (FragmentStore.since_load _ _ _ _ _)
  | define name value =>
    exact ⟨.refl _, MacroTable.since_define _ _ _, List.prefix_rfl, rfl, rfl⟩
  | undefine name => exact ⟨.refl _, MacroTable.since_remove _ _, List.prefix_rfl, rfl, rfl⟩
  | use transform => exact before_use library transform
  | adopt transform => exact ⟨.refl _, .refl _, List.prefix_append _ _, rfl, rfl⟩
  | enableCache => exact ⟨.refl _, .refl _, List.prefix_rfl, rfl, rfl⟩
  | disableCache => exact ⟨.refl _, .refl _, List.prefix_rfl, rfl, rfl⟩
  | clearCache counts => exact ⟨.refl _, .refl _, List.prefix_rfl, rfl, rfl⟩
  | elsewhere other act ih =>
    -- The other library has the same composer, and nothing but the composer comes back from it.
    have hother := ih (other.withComposer library.composer)
    exact ⟨hother.store, hother.macros, hother.transforms, rfl, rfl⟩

/-- **Acts take the library without its memory along.** -/
theorem plain_state_perform (act : Act) (library : Library) :
    (act.perform library).state.plain = (act.perform library.plain).state.plain := by
  induction act generalizing library with
  | compile name source defines =>
    exact (plain_state_compileGiven library _ _ _).trans
      (plain_state_compileGiven library.plain _ _ _).symm
  | get path => exact (plain_state_get library _).trans (plain_state_get library.plain _).symm
  | use transform =>
    simp only [Act.perform, use, Composer.use, Step.state_map, Step.state_within]
    cases Composer.transform? transform <;> rfl
  | elsewhere other act ih =>
    have hplain : (other.withComposer library.composer).plain
        = (other.withComposer library.plain.composer).plain := rfl
    have hother := ih (other.withComposer library.composer)
    rw [hplain, ← ih (other.withComposer library.plain.composer)] at hother
    refine plain_eq_of_composer ?_ rfl rfl
    exact congrArg composer hother
  | _ => rfl

/-! ## Runs -/

/-- What a library answers to some acts, one after the other. -/
def answers : Library → List Act → List (Except Fault Answer)
  | _, [] => []
  | library, act :: acts =>
    let step := act.perform library
    step.result :: answers step.state acts

/-- The text that is digested for the key of a compilation, if it comes to that. -/
def requestKey? (library : Library) (name : FileName) (source : Text) (defines : Value) :
    Option Text :=
  if source.isEmpty then none
  else (library.keyText name.orAnonymous (.text source) defines).toOption

/-- The text that is digested for the key when an act is done. -/
def Act.keyText? (act : Act) (library : Library) : Option Text :=
  (act.request? library).bind fun (name, source, defines) => library.requestKey? name source defines

/-- The texts that are digested for keys when some acts are done one after the other. -/
def keyTexts : Library → List Act → List Text
  | _, [] => []
  | library, act :: acts =>
    (act.keyText? library).toList ++ keyTexts (act.perform library).state acts

end Library

end GlslCompose
