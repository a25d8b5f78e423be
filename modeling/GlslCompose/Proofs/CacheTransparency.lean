/-
`Proofs/CacheTransparency.lean` -- a library with a cache answers what it would answer
without one.

Every cached body is vouched for by a state that the library has been in: some
compilation back then had this key, and gave this body (`Vouched`). The state has gone
on since, and the cached body is still right for a reason that is spread over three
places. The key tells the revision of the store and the number of transforms, and since
nothing is ever taken back (`Before`) the same revision means the same store and the
same number means the same transforms. The key tells the source and the active
defines. And it tells of the name no more than the directory, which is all that a
composition that succeeds depends on (`Expansion.ofSource_ok_of_root_eq`), although
the name decides where a circle of includes is noticed.

That everything in the cache is vouched for is what every act keeps (`sound_perform`).
Two libraries that are the same but for what they remember, and remember nothing
wrong, therefore answer the same to any sequence of acts (`answers_eq_of_plain_eq`).
-/
import GlslCompose.Proofs.IncludeGraph
import GlslCompose.Proofs.LibraryRun

set_option autoImplicit false

namespace GlslCompose

/-! ## What a composed text depends on -/

theorem FileName.orAnonymous_orAnonymous (name : FileName) :
    name.orAnonymous.orAnonymous = name.orAnonymous := by
  unfold orAnonymous
  split
  · rfl
  · rfl

namespace Composer

/-- **A text that was composed once is composed again** by any composer with the same store and the
same transforms, under any name in the same directory, if the active defines are the same. -/
theorem compose_ok_of_agree {composer other : Composer} {name otherName : FileName}
    {source body : Text} {defines otherDefines : Value}
    (hstore : other.store = composer.store) (htransforms : other.transforms = composer.transforms)
    (hroot : otherName.root = name.root)
    (hactive : other.macros.active otherDefines = composer.macros.active defines)
    (h : (composer.compose name source defines).result = .ok body) :
    (other.compose otherName source otherDefines).result = .ok body := by
  simp only [compose, Logged.result_andThen, hstore, htransforms, hactive] at h ⊢
  cases hexpanded : (Expansion.ofSource composer.store name source).result with
  | error fault => rw [hexpanded] at h; cases h
  | ok text =>
    rw [hexpanded] at h
    rw [Expansion.ofSource_ok_of_root_eq hexpanded hroot]
    exact h

/-- Of what was composed, the active defines have texts as names. -/
theorem textNames_of_compose_ok {composer : Composer} {name : FileName} {source body : Text}
    {defines : Value} (h : (composer.compose name source defines).result = .ok body) :
    ∃ active, composer.macros.active defines = .ok active ∧ active.TextNames := by
  simp only [compose, Logged.result_andThen, bind, Except.bind] at h
  cases hexpanded : (Expansion.ofSource composer.store name source).result with
  | error fault => rw [hexpanded] at h; cases h
  | ok text =>
    simp only [hexpanded] at h
    cases hactive : composer.macros.active defines with
    | error fault => rw [hactive] at h; cases h
    | ok active =>
      simp only [hactive] at h
      cases hinjected : Prologue.injectDefines text active.toValue with
      | error fault => rw [hinjected] at h; cases h
      | ok injected => exact ⟨active, rfl, Prologue.textNames_of_injectDefines_ok hinjected⟩

end Composer

namespace Library

/-! ## Cached bodies -/

/-- **A body that was once compiled under a key,** by a library that has only gone on since then.
The text that was digested for the key is one of a given list. -/
def Vouched (texts : List Text) (library : Library) (key : Nat) (body : Text) : Prop :=
  ∃ (past : Library) (name : FileName) (source : Text) (defines : Value) (text : Text),
    past.keyText name.orAnonymous (.text source) defines = .ok text ∧ text ∈ texts ∧
      Digest.ofText text = key ∧
      (past.compileBody name.orAnonymous source defines).result = .ok body ∧ past.Before library

/-- **Everything in the cache of a library is vouched for.** -/
def Sound (texts : List Text) (library : Library) : Prop :=
  ∀ key body, library.cache.entries.get? key = some body → Vouched texts library key body

variable {texts : List Text}

theorem Vouched.mono {library new : Library} {key : Nat} {body : Text}
    (h : Vouched texts library key body) (hbefore : library.Before new) :
    Vouched texts new key body := by
  obtain ⟨past, name, source, defines, text, hkey, hmem, hdigest, hbody, hpast⟩ := h
  exact ⟨past, name, source, defines, text, hkey, hmem, hdigest, hbody, hpast.trans hbefore⟩

/-- An empty cache holds nothing that is wrong. -/
theorem sound_of_entries_empty {library : Library} (h : library.cache.entries = .empty) :
    Sound texts library := by
  intro key body hentry
  rw [h] at hentry
  cases hentry

/-- A library that has gone on, with no more in its cache, is still sound. -/
theorem Sound.of_before {library new : Library} (h : Sound texts library)
    (hbefore : library.Before new)
    (hentries : new.cache.entries = library.cache.entries ∨ new.cache.entries = .empty) :
    Sound texts new := by
  rcases hentries with hentries | hentries
  · intro key body hentry
    rw [hentries] at hentry
    exact (h key body hentry).mono hbefore
  · exact sound_of_entries_empty hentries

/-- **A body that is vouched for is the one that would be made anew,** wherever its key comes up
again, as long as the digests of the key texts do not collide. -/
theorem Vouched.result_compileBody {library : Library} {name : FileName} {source text body : Text}
    {defines : Value} (hfree : Digest.CollisionFree texts)
    (hkey : library.keyText name.orAnonymous (.text source) defines = .ok text)
    (hmem : text ∈ texts) (h : Vouched texts library (Digest.ofText text) body) :
    (library.compileBody name.orAnonymous source defines).result = .ok body := by
  obtain ⟨past, pastName, pastSource, pastDefines, pastText, hpastKey, hpastMem, hdigest, hbody,
    hbefore⟩ := h
  obtain rfl : pastText = text := hfree _ hpastMem _ hmem hdigest
  rw [Library.result_compileBody, FileName.orAnonymous_orAnonymous] at hbody ⊢
  cases hcomposed : (past.composer.compose pastName.orAnonymous (CompiledText.dropGuard pastSource)
      pastDefines).result with
  | error fault => rw [hcomposed] at hbody; cases hbody
  | ok composed =>
    rw [hcomposed] at hbody
    obtain ⟨active, hactive, hnames⟩ := Composer.textNames_of_compose_ok hcomposed
    cases hnow : library.macros.active defines with
    | error fault =>
      simp only [keyText, hnow, bind, Except.bind] at hkey
      cases hkey
    | ok nowActive =>
      -- The two key texts are the same, so they tell the same of everything that they tell.
      obtain ⟨rfl, hroot, rfl, hrevision, hcount⟩ := keyText_inj hpastKey hkey hactive hnow hnames
      -- The same revision is the same store, and as many transforms are the same transforms.
      have hstore : library.store = past.store := hbefore.store.eq_of_revision hrevision.symm
      have htransforms : library.composer.transforms = past.composer.transforms :=
        (hbefore.transforms.eq_of_length hcount).symm
      have hagain := Composer.compose_ok_of_agree hstore htransforms hroot.symm
        (hnow.trans hactive.symm) hcomposed
      rw [hagain, hbefore.precision, versionText?, hbefore.version]
      exact hbody

/-! ## Compiling with a cache -/

theorem before_refreshed (library : Library) : library.Before library.refreshed :=
  .of_plain_eq (plain_refreshed library)

theorem keyText_refreshed (library : Library) (name : FileName) (source defines : Value) :
    library.refreshed.keyText name source defines = library.keyText name source defines := by
  rw [← keyText_plain, plain_refreshed, keyText_plain]

theorem result_compileBody_refreshed (library : Library) (name : FileName) (source : Text)
    (defines : Value) :
    (library.refreshed.compileBody name source defines).result
      = (library.compileBody name source defines).result := by
  rw [← result_compileBody_plain, plain_refreshed, result_compileBody_plain]

theorem Sound.refreshed {library : Library} (h : Sound texts library) :
    Sound texts library.refreshed :=
  h.of_before (before_refreshed library) (entries_refreshed library)

/-- A body comes from the cache or is made anew, and that makes no difference. -/
theorem result_cachedBody {library : Library} {name : FileName} {source text : Text}
    {defines : Value} (hfree : Digest.CollisionFree texts) (h : Sound texts library)
    (hkey : library.keyText name.orAnonymous (.text source) defines = .ok text)
    (hmem : text ∈ texts) :
    (library.cachedBody (Digest.ofText text) name.orAnonymous source defines).result
      = (library.compileBody name.orAnonymous source defines).result := by
  have hget := library.cache.fst_get (Digest.ofText text)
  unfold cachedBody
  split
  · rename_i body cache hhit
    rw [hhit] at hget
    split at hget
    · have hvouched := h _ body hget.symm
      rw [hvouched.result_compileBody hfree hkey hmem]
      rfl
    · cases hget
  · rename_i cache hmiss
    rw [Step.result_andThen, Library.result_compileBody, Library.result_compileBody]
    cases (library.composer.compose name.orAnonymous.orAnonymous (CompiledText.dropGuard source)
      defines).result <;> rfl

/-- What is put into the cache is vouched for by the library that puts it there. -/
theorem sound_cachedBody {library : Library} {name : FileName} {source text : Text}
    {defines : Value} (h : Sound texts library)
    (hkey : library.keyText name.orAnonymous (.text source) defines = .ok text)
    (hmem : text ∈ texts) :
    Sound texts (library.cachedBody (Digest.ofText text) name.orAnonymous source defines).state := by
  have hbefore : library.Before
      (library.cachedBody (Digest.ofText text) name.orAnonymous source defines).state :=
    .of_plain_eq (plain_state_cachedBody _ _ _ _ _)
  have hget := library.cache.entries_get (Digest.ofText text)
  revert hbefore
  unfold cachedBody
  split
  · rename_i body cache hhit
    rw [hhit] at hget
    exact fun hbefore => h.of_before hbefore (.inl hget)
  · rename_i cache hmiss
    rw [hmiss] at hget
    intro hbefore
    cases hbody : (compileBody { library with cache := cache } name.orAnonymous source
        defines).result with
    | error fault =>
      rw [Step.state_andThen_of_error hbody] at hbefore ⊢
      exact h.of_before hbefore (.inl hget)
    | ok body =>
      rw [Step.state_andThen_of_ok hbody] at hbefore ⊢
      intro key entry hentry
      have hset := cache.get?_entries_set (Digest.ofText text) key body
      rw [hget] at hset
      have hentry' : (cache.set (Digest.ofText text) body).entries.get? key = some entry := hentry
      rw [hset] at hentry'
      split at hentry'
      · rename_i hsame
        subst hsame
        cases hold : library.cache.entries.get? (Digest.ofText text) with
        | some old =>
          -- An entry that is there stays; this happens when the cache is switched off.
          rw [hold] at hentry'
          obtain rfl := Option.some.inj hentry'
          exact (h _ old hold).mono hbefore
        | none =>
          rw [hold] at hentry'
          obtain rfl := Option.some.inj hentry'
          refine ⟨library, name, source, defines, text, hkey, hmem, rfl, ?_, hbefore⟩
          rw [Library.result_compileBody] at hbody ⊢
          exact hbody
      · exact (h key entry hentry').mono hbefore

/-- **Compiling with a sound cache answers what compiling without one does.** -/
theorem result_compile {library : Library} {name : FileName} {source : Text} {defines : Value}
    (hfree : Digest.CollisionFree texts) (h : Sound texts library)
    (hkey : ∀ text ∈ library.requestKey? name source defines, text ∈ texts) :
    (library.compile name source defines).result
      = (library.plain.compile name source defines).result := by
  rw [result_compile_plain]
  simp only [compile]
  split
  · rfl
  · rename_i hsource
    rw [cacheKey_refreshed]
    have htext := cacheKey_eq library name.orAnonymous (.text source) defines
    cases hk : library.keyText name.orAnonymous (.text source) defines with
    | error fault =>
      rw [hk] at htext
      rw [htext]
      rfl
    | ok text =>
      rw [hk] at htext
      have hmem : text ∈ texts := hkey text (by simp [requestKey?, hsource, hk, Except.toOption])
      rw [htext]
      simp only [Except.map, Step.result_map, Except.bind]
      rw [result_cachedBody hfree h.refreshed (by rw [keyText_refreshed, hk]) hmem,
        result_compileBody_refreshed]

theorem sound_compile {library : Library} {name : FileName} {source : Text} {defines : Value}
    (h : Sound texts library)
    (hkey : ∀ text ∈ library.requestKey? name source defines, text ∈ texts) :
    Sound texts (library.compile name source defines).state := by
  simp only [compile]
  split
  · exact h
  · rename_i hsource
    rw [cacheKey_refreshed]
    have htext := cacheKey_eq library name.orAnonymous (.text source) defines
    cases hk : library.keyText name.orAnonymous (.text source) defines with
    | error fault =>
      rw [hk] at htext
      rw [htext]
      exact h.refreshed
    | ok text =>
      rw [hk] at htext
      have hmem : text ∈ texts := hkey text (by simp [requestKey?, hsource, hk, Except.toOption])
      rw [htext]
      exact sound_cachedBody h.refreshed (by rw [keyText_refreshed, hk]) hmem

/-! ## Acts with a cache -/

/-- What an act that asks for no compilation answers, and what it leaves in the cache. -/
theorem steady_perform {act : Act} {library : Library} (h : act.request? library = none) :
    (act.perform library).result = (act.perform library.plain).result ∧
      ((act.perform library).state.cache.entries = library.cache.entries ∨
        (act.perform library).state.cache.entries = .empty) := by
  cases act with
  | compile name source defines =>
    have hnone : requested? name source = none := by
      simpa [Act.request?] using h
    have hsteady := steady_compileGiven defines library hnone
    exact ⟨congrArg (Except.map Answer.compiled) hsteady.result, hsteady.entries⟩
  | get path =>
    cases path with
    | text path =>
      have hnone : library.store.source? path = none := by
        simpa [Act.request?] using h
      simp only [Act.perform, Library.get, store_plain, hnone]
      exact ⟨rfl, .inl rfl⟩
    | _ => exact ⟨rfl, .inl rfl⟩
  | use transform =>
    simp only [Act.perform, use, Composer.use]
    cases Composer.transform? transform <;> exact ⟨rfl, .inl rfl⟩
  | clearCache counts =>
    refine ⟨rfl, .inr ?_⟩
    cases counts <;> rfl
  | _ => exact ⟨rfl, .inl rfl⟩

theorem request?_plain (act : Act) (library : Library) :
    act.request? library.plain = act.request? library := by
  cases act with
  | get path => cases path <;> rfl
  | _ => rfl

theorem keyText?_plain (act : Act) (library : Library) :
    act.keyText? library.plain = act.keyText? library := by
  rw [Act.keyText?, request?_plain]
  rfl

/-- **An act answers the same with a sound cache as without one.** -/
theorem result_perform {act : Act} {library : Library} (hfree : Digest.CollisionFree texts)
    (h : Sound texts library) (hkey : ∀ text ∈ act.keyText? library, text ∈ texts) :
    (act.perform library).result = (act.perform library.plain).result := by
  cases hrequest : act.request? library with
  | none => exact (steady_perform hrequest).1
  | some request =>
    obtain ⟨name, source, defines⟩ := request
    rw [Act.keyText?, hrequest] at hkey
    rw [Act.perform_of_request hrequest,
      Act.perform_of_request ((request?_plain act library).trans hrequest), Step.result_map,
      Step.result_map, result_compile hfree h hkey]

/-- **Acts keep the cache sound.** -/
theorem sound_perform {act : Act} {library : Library} (h : Sound texts library)
    (hkey : ∀ text ∈ act.keyText? library, text ∈ texts) :
    Sound texts (act.perform library).state := by
  cases hrequest : act.request? library with
  | none => exact h.of_before (before_perform act library) (steady_perform hrequest).2
  | some request =>
    obtain ⟨name, source, defines⟩ := request
    rw [Act.keyText?, hrequest] at hkey
    rw [Act.perform_of_request hrequest]
    exact sound_compile h hkey

/-! ## Runs with and without a cache -/

/-- The same act, with the cache never switched on. -/
def Act.muted : Act → Act
  | .enableCache => .disableCache
  | act => act

/-- **Two ways to do an act that differ in the cache only.** -/
structure Act.Alike (act other : Act) : Prop where
  result : ∀ library : Library, (other.perform library).result = (act.perform library).result
  state : ∀ library : Library,
    (other.perform library).state.plain = (act.perform library).state.plain
  keyText? : ∀ library : Library, other.keyText? library = act.keyText? library

theorem Act.Alike.refl (act : Act) : act.Alike act := ⟨fun _ => rfl, fun _ => rfl, fun _ => rfl⟩

theorem Act.alike_muted (act : Act) : act.Alike act.muted := by
  cases act with
  | enableCache => exact ⟨fun _ => rfl, fun _ => rfl, fun _ => rfl⟩
  | _ => exact .refl _

/-- **Libraries that are the same but for what they remember answer the same,** to any acts that
are the same but for the cache. -/
theorem answers_eq_of_plain_eq {library other : Library} {acts : List Act} {f : Act → Act}
    (hf : ∀ act : Act, act.Alike (f act)) (hfree : Digest.CollisionFree texts)
    (hkeys : ∀ text ∈ library.keyTexts acts, text ∈ texts) (h : Sound texts library)
    (hother : Sound texts other) (hplain : other.plain = library.plain) :
    library.answers acts = other.answers (acts.map f) := by
  induction acts generalizing library other with
  | nil => rfl
  | cons act acts ih =>
    simp only [keyTexts, List.mem_append, Option.mem_toList] at hkeys
    have hkey : ∀ text ∈ act.keyText? library, text ∈ texts := fun text ht => hkeys text (.inl ht)
    -- Both libraries ask for the same keys, since keys do not depend on what is remembered.
    have hkeyOther : ∀ text ∈ (f act).keyText? other, text ∈ texts := by
      rw [(hf act).keyText?, ← keyText?_plain, hplain, keyText?_plain]
      exact hkey
    have hresult : (act.perform library).result = ((f act).perform other).result := by
      rw [result_perform hfree h hkey, result_perform hfree hother hkeyOther, hplain,
        (hf act).result]
    -- Behind the act they are again the same but for what they remember.
    have hstate : ((f act).perform other).state.plain = (act.perform library).state.plain := by
      rw [plain_state_perform (f act) other, hplain, (hf act).state, ← plain_state_perform]
    simp only [answers, List.map_cons, hresult]
    refine congrArg (_ :: ·) ?_
    exact ih (fun text ht => hkeys text (.inr ht)) (sound_perform h hkey)
      (sound_perform hother hkeyOther) hstate

theorem entries_of_make {options : Options} {library : Library} (h : make options = .ok library) :
    library.cache.entries = .empty := by
  simp only [make, bind, Except.bind, pure, Except.pure] at h
  cases hcomposer : startComposer options with
  | error fault => rw [hcomposer] at h; cases h
  | ok composer =>
    simp only [hcomposer] at h
    cases hstore : startStore options composer.store with
    | error fault => rw [hstore] at h; cases h
    | ok store =>
      simp only [hstore] at h
      rw [← Except.ok.inj h]
      rfl

/-- **A cache makes no difference.** Whatever is done to a new library, it answers what it would
answer with its cache switched off, be it that nothing switches it on again or that the same acts
are done. Composers that are shared, and transforms that are any functions, are no exception. -/
theorem answers_eq_answers_disable {options : Options} {library : Library} {acts : List Act}
    (hmake : make options = .ok library) (hfree : Digest.CollisionFree (library.keyTexts acts)) :
    library.answers acts = (library.withCache TextCache.disable).answers (acts.map Act.muted) ∧
      library.answers acts = (library.withCache TextCache.disable).answers acts := by
  have hempty := entries_of_make hmake
  have hsound : Sound (library.keyTexts acts) library := sound_of_entries_empty hempty
  have hother : Sound (library.keyTexts acts) (library.withCache TextCache.disable) :=
    sound_of_entries_empty hempty
  refine ⟨answers_eq_of_plain_eq Act.alike_muted hfree (fun _ h => h) hsound hother rfl, ?_⟩
  have hsame := answers_eq_of_plain_eq (f := id) Act.Alike.refl hfree (fun _ h => h) hsound hother
    rfl
  rw [List.map_id] at hsame
  exact hsame

/-- A library that compiles one source before a fragment is added, and then under two names, of
which the second finds the body of the first. -/
theorem answers_eq_answers_disable_of_two_names :
    let options : Options := { bundled := false, fragments := .map [(.text "a/c", .text "int c;")] }
    let acts : List Act := [
      .compile (.text "a/v") (.text "#include c\n") .null,
      .add (.text "a/d") (.text "int d;"),
      .compile (.text "a/v") (.text "#include c\n") .null,
      .compile (.text "a/f") (.text "#include c\n") .null]
    ∃ library, make options = .ok library ∧ Digest.CollisionFree (library.keyTexts acts) ∧
      library.answers acts = (library.withCache TextCache.disable).answers (acts.map Act.muted) ∧
      library.answers acts = (library.withCache TextCache.disable).answers acts := by
  intro options acts
  obtain ⟨library, hmake, hfree⟩ : ∃ library, make options = .ok library ∧
      Digest.CollisionFree (library.keyTexts acts) := ⟨_, rfl, by decide +kernel +revert⟩
  exact ⟨library, hmake, hfree, answers_eq_answers_disable hmake hfree⟩

end Library

end GlslCompose
