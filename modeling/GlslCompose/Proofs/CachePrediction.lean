/-
`Proofs/CachePrediction.lean` -- whether a text will come from the cache, and for how long it
goes on doing so.

To ask whether a text is cached and to compile it are two looks into the same cache, and
they could come apart: compiling first empties the cache where the store has moved on since
it was filled, asking does not. They agree because of what stands in a cache. Each key was
made at a revision of the store, the one that the library has marked as seen
(`Dated`), and that is part of the text that was digested for the key. So where the store
has moved on the key asked for is none of them, and the answer is no before the cache is
emptied as well as behind it (`has_refreshed`).

What an act does to all this is said once (`memoryStep_perform`). From there on it is easy to
follow a single text: it stays in the cache until the cache is cleared or the store gets
another revision, which is when a text is registered that is not in place
(`recalls_perform`).
-/
import GlslCompose.Proofs.CacheTransparency
import GlslCompose.Proofs.Registrations

set_option autoImplicit false

namespace GlslCompose

namespace TextCache

variable {κ ν : Type} [DecidableEq κ]

/-- A cache without its counts. They decide nothing. -/
def uncounted (cache : TextCache κ ν) : TextCache κ ν := { cache with hits := 0, misses := 0 }

/-- A cache whose entries are gone. -/
def emptied (cache : TextCache κ ν) : TextCache κ ν := { cache with entries := .empty }

theorem has_uncounted (cache : TextCache κ ν) (key : κ) : cache.uncounted.has key = cache.has key := rfl

theorem has_emptied (cache : TextCache κ ν) (key : κ) : cache.emptied.has key = false :=
  Bool.and_false _

theorem uncounted_get (cache : TextCache κ ν) (key : κ) :
    (cache.get key).2.uncounted = cache.uncounted := by
  unfold get
  split
  · split <;> rfl
  · rfl

theorem uncounted_set (cache : TextCache κ ν) (key : κ) (entry : ν) :
    (cache.set key entry).uncounted = cache.uncounted.set key entry := by
  unfold set
  have hentries : cache.uncounted.entries = cache.entries := rfl
  rw [hentries]
  split <;> rfl

omit [DecidableEq κ] in
theorem uncounted_clear (cache : TextCache κ ν) (counts : Bool) :
    (cache.clear counts).uncounted = cache.uncounted.emptied := by
  cases counts <;> rfl

/-- A cache has a key exactly if it answers it. -/
theorem isSome_get (cache : TextCache κ ν) (key : κ) : (cache.get key).1.isSome = cache.has key := by
  rw [fst_get, has, OrderedMap.has]
  cases cache.enabled <;> rfl

/-- A cache that took an entry in has its key, if it is switched on, and every key that it had. -/
theorem has_set (cache : TextCache κ ν) (key other : κ) (entry : ν) :
    (cache.set key entry).has other = (cache.enabled && decide (key = other) || cache.has other) := by
  have henabled : (cache.set key entry).enabled = cache.enabled := by
    unfold set
    split <;> rfl
  rw [has, OrderedMap.has, get?_entries_set, henabled, has, OrderedMap.has]
  by_cases h : key = other
  · cases cache.enabled <;> simp [h]
  · simp [h]

end TextCache

namespace Library

/-! ## What a library remembers -/

/-- **What a library remembers of texts that it compiled:** its cache, but for the counts, and the
revision of the store for which the cached texts are good. -/
structure Memory where
  cache : TextCache Nat Text
  revision : Nat

def memory (library : Library) : Memory := ⟨library.cache.uncounted, library.seenRevision⟩

theorem seenRevision_refreshed (library : Library) :
    library.refreshed.seenRevision = library.store.revision := by
  unfold refreshed
  split
  · rfl
  · rename_i hseen
    exact (Decidable.not_not.1 hseen).symm

theorem composer_refreshed (library : Library) : library.refreshed.composer = library.composer := by
  unfold refreshed
  split <;> rfl

/-- A library whose store has not moved on remembers what it did. -/
theorem refreshed_of_seen {library : Library} (h : library.seenRevision = library.store.revision) :
    library.refreshed = library := if_neg (Decidable.not_not.2 h.symm)

/-- A library whose store has moved on remembers nothing. -/
theorem memory_refreshed_of_not_seen {library : Library}
    (h : library.seenRevision ≠ library.store.revision) :
    library.refreshed.memory = ⟨library.memory.cache.emptied, library.store.revision⟩ := by
  rw [refreshed, if_pos (Ne.symm h), memory, TextCache.uncounted_clear]
  rfl

/-! ## What compiling does to it -/

theorem walks_compileBody {library : Library} {name : FileName} {source body : Text} {defines : Value}
    (h : (library.compileBody name source defines).result = .ok body) :
    (library.compileBody name source defines).state.composer.walks = library.composer.walks + 1 := by
  rw [result_compileBody] at h
  simp only [compileBody, Step.state_map, Step.state_within, withComposer, Composer.process]
  split
  · rename_i hcomposed
    rw [hcomposed] at h
    cases h
  · rfl

section Compile

variable {library : Library} {name : FileName} {source : Text} {defines : Value} {key : Nat}

/-- A source with a key is looked for in a cache that is up to date. -/
theorem compile_of_key (hsource : source ≠ [])
    (hkey : library.cacheKey name.orAnonymous (.text source) defines = .ok key) :
    library.compile name source defines =
      (library.refreshed.cachedBody key name.orAnonymous source defines).map fun body =>
        some (CompiledText.withMarker name.orAnonymous.written body) := by
  simp only [compile]
  rw [if_neg (by simpa using hsource), cacheKey_refreshed, hkey]

/-- A source without a key is not compiled. -/
theorem compile_of_keyless (hsource : source ≠ []) {fault : Fault}
    (hkey : library.cacheKey name.orAnonymous (.text source) defines = .error fault) :
    library.compile name source defines = .failed fault library.refreshed := by
  simp only [compile]
  rw [if_neg (by simpa using hsource), cacheKey_refreshed, hkey]

/-- **What becomes of a compilation with a key.** Its text is found in the cache, or else it is made
anew, and that may fail. -/
inductive Compilation (library : Library) (name : FileName) (source : Text) (defines : Value)
    (key : Nat) : Prop
  | found {text : Text} (known : library.refreshed.cache.has key = true)
      (result : (library.compile name source defines).result = .ok (some text))
      (walks : (library.compile name source defines).state.composer.walks = library.composer.walks)
      (memory : (library.compile name source defines).state.memory = library.refreshed.memory)
  | made {body : Text} (unknown : library.refreshed.cache.has key = false)
      (isMade : (library.compileBody name.orAnonymous source defines).result = .ok body)
      (result : (library.compile name source defines).result
        = .ok (some (CompiledText.withMarker name.orAnonymous.written body)))
      (walks : (library.compile name source defines).state.composer.walks
        = library.composer.walks + 1)
      (memory : (library.compile name source defines).state.memory
        = ⟨library.refreshed.memory.cache.set key body, library.store.revision⟩)
  | failed {fault : Fault} (unknown : library.refreshed.cache.has key = false)
      (result : (library.compile name source defines).result = .error fault)
      (memory : (library.compile name source defines).state.memory = library.refreshed.memory)

theorem compilation (hsource : source ≠ [])
    (hkey : library.cacheKey name.orAnonymous (.text source) defines = .ok key) :
    Compilation library name source defines key := by
  have hcompile := compile_of_key hsource hkey
  have hhas := library.refreshed.cache.isSome_get key
  have hcounts := library.refreshed.cache.uncounted_get key
  unfold cachedBody at hcompile
  cases hget : library.refreshed.cache.get key with
  | mk body? cache =>
    rw [hget] at hcompile hhas hcounts
    cases body? with
    | some body =>
      refine .found hhas.symm (by rw [hcompile]; rfl) ?_ ?_
      · rw [hcompile]
        exact congrArg Composer.walks (composer_refreshed library)
      · rw [hcompile]
        exact congrArg (Memory.mk · _) hcounts
    | none =>
      -- The body is made by a library that counts one miss more, which makes no difference to it.
      have hbody : (compileBody { library.refreshed with cache := cache } name.orAnonymous source
          defines).result = (library.compileBody name.orAnonymous source defines).result := by
        rw [result_compileBody, ← result_compileBody_refreshed library,
          result_compileBody library.refreshed]
        rfl
      cases hmade : (library.compileBody name.orAnonymous source defines).result with
      | error fault =>
        rw [hmade] at hbody
        have hresult : (library.compile name source defines).result = .error fault := by
          rw [hcompile, Step.result_map, Step.result_andThen_of_error hbody]
          rfl
        refine .failed hhas.symm hresult ?_
        rw [hcompile, Step.state_map, Step.state_andThen_of_error hbody]
        exact congrArg (Memory.mk · _) hcounts
      | ok body =>
        rw [hmade] at hbody
        refine .made hhas.symm hmade ?_ ?_ ?_
        · rw [hcompile, Step.result_map, Step.result_andThen_of_ok hbody]
          rfl
        · rw [hcompile, Step.state_map, Step.state_andThen_of_ok hbody]
          have hwalks := walks_compileBody hbody
          rw [composer_refreshed] at hwalks
          exact hwalks
        · rw [hcompile, Step.state_map, Step.state_andThen_of_ok hbody]
          have hset := TextCache.uncounted_set cache key body
          rw [show cache.uncounted = library.refreshed.memory.cache from hcounts] at hset
          exact congr (congrArg Memory.mk hset) (seenRevision_refreshed library)

end Compile

theorem memory_refuseSource (library : Library) (name : FileName) (source defines : Value) :
    (library.refuseSource name source defines).state.memory = library.memory := by
  unfold refuseSource
  cases library.cacheKey name source defines with
  | error fault => rfl
  | ok key => exact congrArg (Memory.mk · _) (TextCache.uncounted_get _ _)

/-- Where a value is no text, or stands under a name that is none, no more happens to what is
remembered than that it may be brought up to date. -/
theorem memory_compileValue {name source : Value} (defines : Value) (library : Library)
    (hbad : ∀ file text, FragmentStore.nameOf name = .ok file → source ≠ .text text) :
    (library.compileValue name source defines).state.memory = library.memory ∨
      (library.compileValue name source defines).state.memory = library.refreshed.memory := by
  unfold compileValue
  split
  · exact .inl rfl
  · cases hname : FragmentStore.nameOf name with
    | error fault => exact .inr rfl
    | ok file =>
      cases source with
      | text text => exact absurd rfl (hbad file text hname)
      | _ => exact .inr (memory_refuseSource _ _ _ _)

/-- What is no request is refused. -/
theorem memory_compileGiven {name source : Value} (defines : Value) (library : Library)
    (h : requested? name source = none) :
    (library.compileGiven name source defines).state.memory = library.memory ∨
      (library.compileGiven name source defines).state.memory = library.refreshed.memory := by
  cases source with
  | null =>
    refine memory_compileValue defines library fun file text _ htext => ?_
    rw [htext] at h
    cases h
  | text text =>
    refine memory_compileValue defines library fun file text' hname _ => ?_
    simp [requested?, hname, Except.toOption] at h
  | _ => exact memory_compileValue defines library fun file text _ htext => by cases htext

/-! ## What acts do to it -/

/-- **What an act does to what is remembered.** -/
inductive MemoryStep (library : Library) (act : Act) (new : Library) : Prop
  | kept (memory : new.memory = library.memory)
  | refreshed (memory : new.memory = library.refreshed.memory)
  | switched (on : Bool) (isSwitch : act = if on then .enableCache else .disableCache)
      (memory : new.memory = ⟨{ library.memory.cache with enabled := on }, library.seenRevision⟩)
  | cleared (counts : Bool) (isClear : act = .clearCache counts)
      (memory : new.memory = ⟨library.memory.cache.emptied, library.seenRevision⟩)
  | filled {name : FileName} {source : Text} {defines : Value} {key : Nat} {body : Text}
      (request : act.request? library = some (name, source, defines)) (hsource : source ≠ [])
      (hkey : library.cacheKey name.orAnonymous (.text source) defines = .ok key)
      (isMade : (library.compileBody name.orAnonymous source defines).result = .ok body)
      (memory : new.memory = ⟨library.refreshed.memory.cache.set key body, library.store.revision⟩)

theorem memoryStep_perform (act : Act) (library : Library) :
    MemoryStep library act (act.perform library).state := by
  -- Only an act that asks for a text to be compiled can fill the memory.
  cases hrequest : act.request? library with
  | some request =>
    obtain ⟨name, source, defines⟩ := request
    rw [Act.perform_of_request hrequest, Step.state_map]
    by_cases hsource : source = []
    · subst hsource
      exact .kept rfl
    · cases hkey : library.cacheKey name.orAnonymous (.text source) defines with
      | error fault =>
        rw [compile_of_keyless hsource hkey]
        exact .refreshed rfl
      | ok key =>
        cases compilation hsource hkey with
        | found _ _ _ memory => exact .refreshed memory
        | failed _ _ memory => exact .refreshed memory
        | made _ isMade _ _ memory => exact .filled hrequest hsource hkey isMade memory
  | none =>
    cases act with
    | compile name source defines =>
      have hnone : requested? name source = none := by
        simpa [Act.request?] using hrequest
      rcases memory_compileGiven defines library hnone with h | h
      · exact .kept h
      · exact .refreshed h
    | get path =>
      cases path with
      | text path =>
        have hnone : library.store.source? path = none := by
          simpa [Act.request?] using hrequest
        simp only [Act.perform, Library.get, hnone]
        exact .kept rfl
      | _ => exact .kept rfl
    | use transform =>
      simp only [Act.perform, use, Composer.use]
      cases Composer.transform? transform <;> exact .kept rfl
    | enableCache => exact .switched true rfl rfl
    | disableCache => exact .switched false rfl rfl
    | clearCache counts =>
      exact .cleared counts rfl (congrArg (Memory.mk · _) (TextCache.uncounted_clear _ _))
    | _ => exact .kept rfl

/-! ## Cached texts and their revision -/

/-- **Every key in a memory was made at the revision that is marked as seen,** from one of a given list
of texts, and by a library that could compile its source: the names of the defines in it are
texts. -/
def Dated (texts : List Text) (memory : Memory) : Prop :=
  ∀ key, (memory.cache.entries.get? key).isSome →
    ∃ (past : Library) (name : FileName) (source : Text) (defines : Value) (active : ActiveDefines)
      (text : Text),
      past.keyText name (.text source) defines = .ok text ∧ text ∈ texts ∧
        Digest.ofText text = key ∧ past.macros.active defines = .ok active ∧ active.TextNames ∧
        past.store.revision = memory.revision

section Dated

variable {texts : List Text} {library : Library}

theorem dated_emptied (cache : TextCache Nat Text) (revision : Nat) :
    Dated texts ⟨cache.emptied, revision⟩ := nofun

theorem Dated.refreshed (h : Dated texts library.memory) : Dated texts library.refreshed.memory := by
  by_cases hseen : library.seenRevision = library.store.revision
  · rw [refreshed_of_seen hseen]
    exact h
  · rw [memory_refreshed_of_not_seen hseen]
    exact dated_emptied _ _

/-- **Acts keep it so.** A text is put into a cache that is up to date, so its key was made at the
revision that is marked as seen by then. -/
theorem dated_perform {act : Act} (h : Dated texts library.memory)
    (hkey : ∀ text ∈ act.keyText? library, text ∈ texts) :
    Dated texts (act.perform library).state.memory := by
  cases memoryStep_perform act library with
  | kept memory => rw [memory]; exact h
  | refreshed memory => rw [memory]; exact h.refreshed
  | switched on _ memory => rw [memory]; exact h
  | cleared counts _ memory => rw [memory]; exact dated_emptied _ _
  | @filled name source defines made body request hsource hmade isMade memory =>
    -- The new entry was made just now, from active defines that are texts.
    rw [memory]
    intro key hentry
    rw [TextCache.get?_entries_set] at hentry
    split at hentry
    · rename_i hsame
      subst hsame
      rw [cacheKey_eq] at hmade
      cases htext : library.keyText name.orAnonymous (.text source) defines with
      | error fault => rw [htext] at hmade; cases hmade
      | ok text =>
        rw [htext] at hmade
        have hmem : text ∈ texts := by
          refine hkey text ?_
          simp [Act.keyText?, request, requestKey?, hsource, htext, Except.toOption]
        rw [result_compileBody] at isMade
        cases hcomposed : (library.composer.compose name.orAnonymous.orAnonymous
            (CompiledText.dropGuard source) defines).result with
        | error fault => rw [hcomposed] at isMade; cases isMade
        | ok composed =>
          obtain ⟨active, hactive, hnames⟩ := Composer.textNames_of_compose_ok hcomposed
          exact ⟨library, name.orAnonymous, source, defines, active, text, htext, hmem,
            Except.ok.inj hmade, hactive, hnames, rfl⟩
    · have hold := h.refreshed key hentry
      rw [show library.refreshed.memory.revision = library.store.revision from
        seenRevision_refreshed library] at hold
      exact hold

/-- **Bringing the cache up to date does not change whether a text is cached.** Where something is
dropped, it was cached at another revision than the one that the key tells. -/
theorem has_refreshed {name : FileName} {source text : Text} {defines : Value}
    (hfree : Digest.CollisionFree texts) (h : Dated texts library.memory)
    (hkey : library.keyText name (.text source) defines = .ok text) (hmem : text ∈ texts) :
    library.refreshed.cache.has (Digest.ofText text) = library.cache.has (Digest.ofText text) := by
  by_cases hseen : library.seenRevision = library.store.revision
  · rw [refreshed_of_seen hseen]
  · have hgone := congrArg Memory.cache (memory_refreshed_of_not_seen hseen)
    have hnone : library.refreshed.cache.has (Digest.ofText text) = false := by
      rw [← TextCache.has_uncounted, show library.refreshed.cache.uncounted = _ from hgone,
        TextCache.has_emptied]
    rw [hnone, Eq.comm, ← Bool.not_eq_true]
    intro hhas
    rw [TextCache.has, Bool.and_eq_true] at hhas
    obtain ⟨past, pastName, pastSource, pastDefines, active, pastText, hpastKey, hpastMem, hdigest,
      hactive, hnames, hrevision⟩ := h (Digest.ofText text) hhas.2
    obtain rfl : pastText = text := hfree _ hpastMem _ hmem hdigest
    cases hnow : library.macros.active defines with
    | error fault =>
      simp only [keyText, hnow, bind, Except.bind] at hkey
      cases hkey
    | ok nowActive =>
      obtain ⟨-, -, -, hsame, -⟩ := keyText_inj hpastKey hkey hactive hnow hnames
      exact hseen (hrevision.symm.trans hsame)

end Dated

/-! ## Asking and compiling -/

/-- **A text is compiled without a walk:** its body comes from the cache. -/
def CompilesUnwalked (library : Library) (name : Value) (source : Text) (defines : Value) : Prop :=
  ∃ text, (library.compileGiven name (.text source) defines).result = .ok (some text) ∧
    (library.compileGiven name (.text source) defines).state.composer.walks = library.composer.walks

section Predict

variable {texts : List Text} {library : Library} {name defines : Value} {file : FileName}
  {source : Text} {key : Nat}

theorem keyText_orAnonymous (library : Library) (file : FileName) (source defines : Value) :
    library.keyText file.orAnonymous source defines = library.keyText file source defines := by
  simp only [keyText, keyValue, FileName.root_orAnonymous]

theorem compileGiven_of_nameOf (hname : FragmentStore.nameOf name = .ok file) (source : Text)
    (defines : Value) :
    library.compileGiven name (.text source) defines = library.compile file source defines :=
  compileGiven_of_requested (by rw [requested?, hname]; rfl)

/-- A source that gave a text is not empty, and stands under a name. -/
theorem of_compileGiven_ok {text : Text}
    (h : (library.compileGiven name (.text source) defines).result = .ok (some text)) :
    source ≠ [] ∧ ∃ file, FragmentStore.nameOf name = .ok file := by
  cases source with
  | nil => cases h
  | cons c source =>
    refine ⟨List.cons_ne_nil c source, ?_⟩
    cases hname : FragmentStore.nameOf name with
    | error fault =>
      simp only [compileGiven, compileValue, hname] at h
      cases h
    | ok file => exact ⟨file, rfl⟩

/-- With its key known, a text is compiled without a walk exactly if a cache that is up to date has
the key. -/
theorem compilesUnwalked_iff (hname : FragmentStore.nameOf name = .ok file) (hsource : source ≠ [])
    (hkey : library.cacheKey file.orAnonymous (.text source) defines = .ok key) :
    library.CompilesUnwalked name source defines ↔ library.refreshed.cache.has key = true := by
  rw [CompilesUnwalked, compileGiven_of_nameOf hname]
  cases compilation hsource hkey with
  | found known result walks _ => exact ⟨fun _ => known, fun _ => ⟨_, result, walks⟩⟩
  | made unknown _ _ walks _ =>
    rw [unknown, walks]
    exact ⟨fun ⟨_, _, hwalks⟩ => absurd hwalks (by omega), nofun⟩
  | failed unknown result _ =>
    rw [unknown, result]
    exact ⟨fun ⟨_, hresult, _⟩ => (nomatch hresult), nofun⟩

/-- **To ask whether a text is cached predicts whether it is compiled without a walk.** -/
theorem isCached_iff_of_dated (hfree : Digest.CollisionFree texts) (h : Dated texts library.memory)
    (hsource : source ≠ [])
    (hkey : ∀ text ∈ (Act.compile name (.text source) defines).keyText? library, text ∈ texts) :
    library.isCached (.text source) name defines = .ok true ↔
      library.CompilesUnwalked name source defines := by
  rw [isCached, keyFor]
  cases hname : FragmentStore.nameOf name with
  | error fault =>
    -- Under what is no name nothing is cached, and nothing is compiled.
    refine ⟨nofun, fun ⟨text, hresult, _⟩ => ?_⟩
    obtain ⟨file, hfile⟩ := (of_compileGiven_ok hresult).2
    rw [hname] at hfile
    cases hfile
  | ok file =>
    have hcacheKey := cacheKey_eq library file.orAnonymous (.text source) defines
    have hcacheKey' := cacheKey_eq library file (.text source) defines
    have horAnonymous := keyText_orAnonymous library file (.text source) defines
    cases htext : library.keyText file (.text source) defines with
    | error fault =>
      -- Nor is there anything without a key.
      rw [horAnonymous, htext] at hcacheKey
      rw [htext] at hcacheKey'
      simp only [bind, Except.bind, hcacheKey', Except.map]
      refine ⟨nofun, fun ⟨text, hresult, _⟩ => ?_⟩
      rw [compileGiven_of_nameOf hname, compile_of_keyless hsource hcacheKey] at hresult
      cases hresult
    | ok text =>
      rw [horAnonymous, htext] at hcacheKey
      rw [htext] at hcacheKey'
      have hmem : text ∈ texts := by
        refine hkey text ?_
        simp [Act.keyText?, Act.request?, requested?, hname, requestKey?, hsource, horAnonymous, htext,
          Except.toOption]
      simp only [bind, Except.bind, hcacheKey', Except.map]
      rw [compilesUnwalked_iff hname hsource hcacheKey, has_refreshed hfree h htext hmem]
      exact ⟨Except.ok.inj, congrArg Except.ok⟩

end Predict

/-! ## Runs -/

/-- A library after some acts, one after the other. -/
def after (library : Library) (acts : List Act) : Library :=
  acts.foldl (fun library act => (act.perform library).state) library

theorem keyTexts_append (library : Library) (acts more : List Act) :
    library.keyTexts (acts ++ more) = library.keyTexts acts ++ (library.after acts).keyTexts more := by
  induction acts generalizing library with
  | nil => rfl
  | cons act acts ih =>
    rw [List.cons_append, keyTexts, keyTexts, ih, List.append_assoc]
    rfl

theorem dated_after {texts : List Text} {library : Library} {acts : List Act}
    (h : Dated texts library.memory) (hkeys : ∀ text ∈ library.keyTexts acts, text ∈ texts) :
    Dated texts (library.after acts).memory := by
  induction acts generalizing library with
  | nil => exact h
  | cons act acts ih =>
    simp only [keyTexts, List.mem_append, Option.mem_toList] at hkeys
    exact ih (dated_perform h fun text ht => hkeys text (.inl ht)) fun text ht => hkeys text (.inr ht)

/-! ## How long a text is remembered -/

/-- An act leaves the cache switched on if it was, and does not clear it. -/
def Act.keepsCache : Act → Bool
  | disableCache | clearCache _ => false
  | _ => true

/-- **A library recalls a key:** it stands in the cache, and the cache is up to date. -/
structure Recalls (library : Library) (key : Nat) : Prop where
  has : library.cache.has key = true
  seen : library.seenRevision = library.store.revision

section Recall

variable {library : Library} {key : Nat} {file : FileName} {source : Text} {defines : Value}

/-- A text that was compiled is recalled, if the cache is switched on. -/
theorem recalls_compile (hsource : source ≠ []) (henabled : library.cache.enabled = true)
    (hkey : library.cacheKey file.orAnonymous (.text source) defines = .ok key) {text : Text}
    (h : (library.compile file source defines).result = .ok (some text)) :
    (library.compile file source defines).state.Recalls key := by
  have hstore := store_eq_of_plain (plain_state_compile library file source defines)
  have hon : library.refreshed.memory.cache.enabled = true := by
    rw [← henabled, memory, refreshed]
    split <;> rfl
  -- The body was found in the cache or put there, and either way the cache is up to date.
  cases compilation hsource hkey with
  | found known _ _ memory =>
    refine ⟨?_, ?_⟩
    · rw [← TextCache.has_uncounted]
      exact (congrArg (fun memory => memory.cache.has key) memory).trans known
    · rw [hstore]
      exact (congrArg Memory.revision memory).trans (seenRevision_refreshed library)
  | made _ _ _ _ memory =>
    refine ⟨?_, ?_⟩
    · rw [← TextCache.has_uncounted]
      refine (congrArg (fun memory => memory.cache.has key) memory).trans ?_
      rw [TextCache.has_set, hon]
      simp
    · rw [hstore]
      exact congrArg Memory.revision memory
  | failed _ result _ => rw [result] at h; cases h

/-- **What is recalled stays recalled** while the cache is kept and only texts are registered that are
in place. -/
theorem recalls_perform {act : Act} (h : library.Recalls key) (hkeeps : act.keepsCache = true)
    (hplace : ∀ entry ∈ act.registered, library.store.InPlace entry) :
    (act.perform library).state.Recalls key := by
  have hstore : (act.perform library).state.store = library.store := by
    rw [store_perform, FragmentStore.insertAll_of_inPlace hplace]
  have hrefreshed := refreshed_of_seen h.seen
  -- It is enough to know what is remembered, since the store is the same.
  suffices hmemory : (act.perform library).state.memory.cache.has key = true ∧
      (act.perform library).state.memory.revision = library.store.revision by
    refine ⟨hmemory.1, ?_⟩
    rw [hstore]
    exact hmemory.2
  cases memoryStep_perform act library with
  | kept memory => rw [memory]; exact ⟨h.has, h.seen⟩
  | refreshed memory => rw [memory, hrefreshed]; exact ⟨h.has, h.seen⟩
  | switched on isSwitch memory =>
    cases on with
    | false => rw [isSwitch] at hkeeps; cases hkeeps
    | true =>
      rw [memory]
      have hhas := h.has
      rw [TextCache.has, Bool.and_eq_true] at hhas
      exact ⟨hhas.2, h.seen⟩
  | cleared counts isClear _ => rw [isClear] at hkeeps; cases hkeeps
  | filled _ _ _ _ memory =>
    rw [memory, hrefreshed]
    refine ⟨?_, rfl⟩
    rw [TextCache.has_set]
    have hhas : library.memory.cache.has key = true := h.has
    rw [hhas, Bool.or_true]

theorem recalls_after {acts : List Act} (h : library.Recalls key)
    (hkeeps : ∀ act ∈ acts, act.keepsCache = true)
    (hplace : ∀ act ∈ acts, ∀ entry ∈ act.registered, library.store.InPlace entry) :
    (library.after acts).Recalls key ∧ (library.after acts).store = library.store := by
  induction acts generalizing library with
  | nil => exact ⟨h, rfl⟩
  | cons act acts ih =>
    rw [List.forall_mem_cons] at hkeeps hplace
    have hstore : (act.perform library).state.store = library.store := by
      rw [store_perform, FragmentStore.insertAll_of_inPlace hplace.1]
    have hrest := ih (recalls_perform h hkeeps.1 hplace.1) hkeeps.2 (by rw [hstore]; exact hplace.2)
    rw [hstore] at hrest
    exact hrest

end Recall

theorem before_after (library : Library) (acts : List Act) : library.Before (library.after acts) := by
  induction acts generalizing library with
  | nil => exact .refl library
  | cons act acts ih => exact (before_perform act library).trans (ih _)

/-- The key of a text is the same wherever everything is the same that it is made from. -/
theorem cacheKey_congr {library other : Library} {file otherFile : FileName} (source : Value)
    {defines : Value} (hroot : otherFile.root = file.root) (hstore : other.store = library.store)
    (hactive : other.macros.active defines = library.macros.active defines)
    (htransforms : other.composer.transforms = library.composer.transforms)
    (hprecision : other.precision = library.precision) (hversion : other.version = library.version) :
    other.cacheKey otherFile source defines = library.cacheKey file source defines := by
  simp only [cacheKey, keyValue, hroot, hstore, hactive, htransforms, hprecision, hversion]

/-- **No text is walked twice.** What was compiled with the cache switched on is compiled without a
walk, under every name in the same directory, while the cache is kept and only texts are registered
that are in place, and where the active defines and the transforms are what they were. -/
theorem compilesUnwalked_after {library : Library} {name again defines : Value} {source text : Text}
    {later : List Act} (henabled : library.cache.enabled = true)
    (h : (library.compileGiven name (.text source) defines).result = .ok (some text))
    (hkeeps : ∀ act ∈ later, act.keepsCache = true)
    (hplace : ∀ act ∈ later, ∀ entry ∈ act.registered, library.store.InPlace entry)
    (hactive : ((library.compileGiven name (.text source) defines).state.after later).macros.active
      defines = library.macros.active defines)
    (htransforms : ((library.compileGiven name (.text source) defines).state.after
      later).composer.transforms = library.composer.transforms)
    (hroot : (FragmentStore.nameOf again).map FileName.root
      = (FragmentStore.nameOf name).map FileName.root) :
    ((library.compileGiven name (.text source) defines).state.after later).CompilesUnwalked again
      source defines := by
  obtain ⟨hsource, file, hname⟩ := of_compileGiven_ok h
  rw [compileGiven_of_nameOf hname] at h hactive htransforms ⊢
  rw [hname] at hroot
  cases hagain : FragmentStore.nameOf again with
  | error fault => rw [hagain] at hroot; cases hroot
  | ok other =>
    rw [hagain] at hroot
    cases hkey : library.cacheKey file.orAnonymous (.text source) defines with
    | error fault => rw [compile_of_keyless hsource hkey] at h; cases h
    | ok key =>
      have hcompiled := Before.of_plain_eq (plain_state_compile library file source defines)
      have hcompiledStore := store_eq_of_plain (plain_state_compile library file source defines)
      have hbefore := hcompiled.trans (before_after _ later)
      obtain ⟨hrecalls, hstore⟩ := recalls_after (recalls_compile hsource henabled hkey h) hkeeps
        (by rw [hcompiledStore]; exact hplace)
      have hsameRoot : other.orAnonymous.root = file.orAnonymous.root := by
        rw [FileName.root_orAnonymous, FileName.root_orAnonymous]
        exact Except.ok.inj hroot
      have hsame := cacheKey_congr (.text source) hsameRoot (hstore.trans hcompiledStore) hactive
        htransforms hbefore.precision hbefore.version
      refine (compilesUnwalked_iff hagain hsource (hsame.trans hkey)).2 ?_
      rw [refreshed_of_seen hrecalls.seen]
      exact hrecalls.has

/-- **What is said of a text before it is compiled comes true, and no text is walked twice.** Whatever
was done to a new library, a text is said to be cached exactly if it would be compiled without a
walk. And once it was compiled it is compiled without a walk, under every name in the same
directory, while the cache is kept and only texts are registered that are in place, and where the
active defines and the transforms are what they were. -/
theorem isCached_predicts_compile {options : Options} {made : Library} {acts : List Act}
    (hmake : make options = .ok made) :
    (∀ (name : Value) (source : Text) (defines : Value), source ≠ [] →
      Digest.CollisionFree (made.keyTexts (acts ++ [.compile name (.text source) defines])) →
      ((made.after acts).isCached (.text source) name defines = .ok true ↔
        (made.after acts).CompilesUnwalked name source defines)) ∧
    ∀ (name again : Value) (source text : Text) (defines : Value) (later : List Act),
      let compiled := ((made.after acts).compileGiven name (.text source) defines).state
      let now := compiled.after later
      (made.after acts).cache.enabled = true →
      ((made.after acts).compileGiven name (.text source) defines).result = .ok (some text) →
      (∀ act ∈ later, act.keepsCache = true) →
      (∀ act ∈ later, ∀ entry ∈ act.registered, (made.after acts).store.InPlace entry) →
      now.macros.active defines = (made.after acts).macros.active defines →
      now.composer.transforms = (made.after acts).composer.transforms →
      (FragmentStore.nameOf again).map FileName.root
        = (FragmentStore.nameOf name).map FileName.root →
      now.CompilesUnwalked again source defines := by
  refine ⟨fun name source defines hsource hfree => ?_, ?_⟩
  · have hmade : Dated (made.keyTexts (acts ++ [.compile name (.text source) defines])) made.memory := by
      intro key hentry
      rw [show made.memory.cache.entries = .empty from entries_of_make hmake] at hentry
      cases hentry
    rw [keyTexts_append] at hfree hmade
    have hdated := dated_after hmade fun text ht => List.mem_append.2 (.inl ht)
    refine isCached_iff_of_dated hfree hdated hsource fun text ht => List.mem_append.2 (.inr ?_)
    rw [keyTexts, keyTexts, List.append_nil]
    exact Option.mem_toList.2 ht
  · intro name again source text defines later compiled now henabled h hkeeps hplace hactive
      htransforms hroot
    exact compilesUnwalked_after henabled h hkeeps hplace hactive htransforms hroot

/-- A source whose fragment is registered again with the text that it has, and whose define is set to
the value that it has, is compiled without a walk under another name in its directory. -/
theorem isCached_predicts_compile_of_fragment_again :
    let source : Text := "#include <a>\n"
    let acts : List Act := [.add (.text "a") (.text "float a;"), .define (.text "N") (.int 1)]
    let later : List Act := [.add (.map [(.text "/a", .text "float a;")]) .null,
      .define (.text "N") (.text "1")]
    ∃ made, make { bundled := false } = .ok made ∧
      Digest.CollisionFree (made.keyTexts (acts ++ [.compile (.text "x") (.text source) .null])) ∧
      ((made.after acts).isCached (.text source) (.text "x") .null = .ok true ↔
        (made.after acts).CompilesUnwalked (.text "x") source .null) ∧
      (((made.after acts).compileGiven (.text "x") (.text source) .null).state.after
        later).CompilesUnwalked (.text "y") source .null := by
  intro source acts later
  -- What has to be known of the library is evaluated, all at once.
  obtain ⟨made, hmake, hfree, henabled, hcompiled, hplace, hrevision, hlength⟩ :
      ∃ made, make { bundled := false } = .ok made ∧
        Digest.CollisionFree (made.keyTexts (acts ++ [.compile (.text "x") (.text source) .null])) ∧
        (made.after acts).cache.enabled = true ∧
        ((made.after acts).compileGiven (.text "x") (.text source) .null).result.toOption
          = some (some "precision mediump float;\n// x\n#define N 1\nfloat a;\n".toList) ∧
        (∀ act ∈ later, ∀ entry ∈ act.registered, (made.after acts).store.InPlace entry) ∧
        (((made.after acts).compileGiven (.text "x") (.text source) .null).state.after
          later).macros.revision = (made.after acts).macros.revision ∧
        (made.after acts).composer.transforms.length = (((made.after acts).compileGiven (.text "x")
          (.text source) .null).state.after later).composer.transforms.length :=
    ⟨_, rfl, by decide +kernel +revert⟩
  obtain ⟨hpredicts, hremembers⟩ := @isCached_predicts_compile _ made acts hmake
  refine ⟨made, hmake, hfree, hpredicts _ _ _ (by decide) hfree, ?_⟩
  have hbefore := (Before.of_plain_eq (plain_state_compileGiven (made.after acts) (.text "x")
    (.text source) .null)).trans (before_after _ later)
  have hmacros := hbefore.macros.eq_of_revision hrevision
  have htransforms := (hbefore.transforms.eq_of_length hlength).symm
  exact hremembers _ _ _ _ _ later henabled (ok_of_toOption hcompiled) (by decide) hplace
    (congrArg (MacroTable.active · .null) hmacros) htransforms rfl

/-- A library whose store has moved on compiles no text without a walk. -/
theorem not_compilesUnwalked_of_not_seen {library : Library} {name defines : Value} {source : Text}
    (h : library.seenRevision ≠ library.store.revision) :
    ¬ library.CompilesUnwalked name source defines := by
  rintro ⟨text, hresult, hwalks⟩
  obtain ⟨hsource, file, hname⟩ := of_compileGiven_ok hresult
  cases hkey : library.cacheKey file.orAnonymous (.text source) defines with
  | error fault =>
    rw [compileGiven_of_nameOf hname, compile_of_keyless hsource hkey] at hresult
    cases hresult
  | ok key =>
    have hhas := (compilesUnwalked_iff hname hsource hkey).1 ⟨text, hresult, hwalks⟩
    have hgone := congrArg Memory.cache (memory_refreshed_of_not_seen h)
    rw [← TextCache.has_uncounted, show library.refreshed.cache.uncounted = _ from hgone,
      TextCache.has_emptied] at hhas
    cases hhas

/-- A new library without fragments and defines. -/
def bareLibrary : Library := ⟨⟨.empty, .empty, [], 0⟩, .text defaultPrecision, .null, .empty, 0⟩

/-- **The content of a store does not tell whether a text is walked again.** Two texts with one path
that are registered once more leave the store with the content that it had, but it was changed twice,
and the cache that was switched on and never cleared is of no use. Nor is a text that was put into
the cache by hand, where the store has moved on since. -/
theorem not_compilesUnwalked_of_same_content :
    let add : Act := .add (.map [(.text "a", .text "float b;"), (.text "/a", .text "float a;")]) .null
    let compile : Act := .compile (.text "x") (.text "int c;") .null
    let compiled := bareLibrary.after [add, compile]
    let now := bareLibrary.after [add, compile, add]
    make { bundled := false } = .ok bareLibrary ∧
    (bareLibrary.after [add]).cache.enabled = true ∧
    ((bareLibrary.after [add]).compileGiven (.text "x") (.text "int c;") .null).result
      = .ok (some "precision mediump float;\n// x\nint c;\n".toList) ∧
    now.store.fragments = compiled.store.fragments ∧
    now.macros = compiled.macros ∧ now.composer.transforms = compiled.composer.transforms ∧
    ¬ now.CompilesUnwalked (.text "x") "int c;" .null ∧
    ∃ key, now.cacheKey (.text "x") (.text "int c;") .null = .ok key ∧
      (now.withCache (·.set key "float x;")).isCached (.text "int c;") (.text "x") .null = .ok true ∧
      ¬ (now.withCache (·.set key "float x;")).CompilesUnwalked (.text "x") "int c;" .null := by
  intro add compile compiled now
  have hcompiled : ((bareLibrary.after [add]).compileGiven (.text "x") (.text "int c;") .null).result
      = .ok (some "precision mediump float;\n// x\nint c;\n".toList) := by
    apply ok_of_toOption
    decide +kernel
  have hfragments : now.store.fragments = compiled.store.fragments :=
    OrderedMap.ext (by decide +kernel)
  have hseen : now.seenRevision ≠ now.store.revision := by decide +kernel
  have hkey : (now.cacheKey (.text "x") (.text "int c;") .null).toOption.isSome := by decide +kernel
  have henabled : now.cache.enabled = true := by decide +kernel
  have hadd : ∀ library : Library, (add.perform library).state.macros = library.macros ∧
      (add.perform library).state.composer.transforms = library.composer.transforms :=
    fun _ => ⟨rfl, rfl⟩
  refine ⟨rfl, rfl, hcompiled, hfragments, (hadd compiled).1, (hadd compiled).2,
    not_compilesUnwalked_of_not_seen hseen, ?_⟩
  cases hnow : now.cacheKey (.text "x") (.text "int c;") .null with
  | error fault => rw [hnow] at hkey; cases hkey
  | ok key =>
    refine ⟨key, rfl, ?_, not_compilesUnwalked_of_not_seen hseen⟩
    have hcached : (now.withCache (·.set key "float x;")).isCached (.text "int c;") (.text "x") .null
        = (now.cacheKey (.text "x") (.text "int c;") .null).map (now.cache.set key "float x;").has := rfl
    rw [hcached, hnow]
    exact congrArg Except.ok (by rw [TextCache.has_set, henabled, Bool.true_and]; simp)

end Library

end GlslCompose
