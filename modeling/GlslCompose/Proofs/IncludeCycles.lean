/-
`Proofs/IncludeCycles.lean` -- the walk over includes ends, and it faults on cycles alone.

A fragment may include any other, so nothing that the walk is given gets smaller when it
enters one. What it has instead is the list of open paths: each is that of a stored
fragment and none is there twice, so there are never more of them than fragments
(`ofTextWithin_size`). That is said by a second walk, which knows nothing of what is
stored but gives up where too many fragments would be open: with the size of the store as
its bound it is the same walk, whatever it would answer on giving up.

That the open paths bound the walk does not say that refusing one of them is right. It
is, in both directions, and both are facts about the graph of includes. A path that is
refused was open, so its own fragment led to it (`reaches_of_cyclic`); and where a
fragment leads to itself the walk cannot succeed (`not_reaches_self` in
`Proofs/IncludeGraph`), hence must have failed, for which an include that cannot be
followed is the only other reason. A fragment that is included twice, or on two ways, is
none.
-/
import GlslCompose.Proofs.IncludeGraph
import GlslCompose.Proofs.LibraryRun
import Mathlib.Data.List.Perm.Subperm

set_option autoImplicit false

namespace GlslCompose

/-- The path that a problem is about, where the include asks for one. -/
def IncludeProblem.path? : IncludeProblem → Option Text
  | .notFound path | .cyclic path => some path
  | _ => none

namespace Expansion

/-! ## How many fragments are open -/

/-- **Paths that can be open at once.** Each is that of a stored fragment, and none is there
twice. -/
structure OpenPaths (store : FragmentStore) (opened : List Text) : Prop where
  nodup : opened.Nodup
  stored : ∀ path ∈ opened, (store.source? path).isSome

section Open

variable {store : FragmentStore} {opened : List Text}

theorem OpenPaths.push (h : OpenPaths store opened) {path fragment : Text}
    (hs : store.source? path = some fragment) (ho : path ∉ opened) :
    OpenPaths store (path :: opened) := by
  refine ⟨List.nodup_cons.2 ⟨ho, h.nodup⟩, ?_⟩
  intro p hp
  rcases List.mem_cons.1 hp with rfl | hp
  · rw [hs]
    rfl
  · exact h.stored p hp

/-- There are no more open paths than fragments. -/
theorem OpenPaths.length_le (h : OpenPaths store opened) : opened.length ≤ store.size := by
  have hsub : opened ⊆ store.fragments.keys := by
    intro path hpath
    exact (store.fragments.isSome_get?_iff path).1 (h.stored path hpath)
  have hle := (List.Nodup.subperm h.nodup hsub).length_le
  rw [OrderedMap.keys, Pairs.keys, List.length_map] at hle
  exact hle

/-- The name of a source counts as open only if it is that of a fragment. -/
theorem openPaths_openedBy (store : FragmentStore) (name : FileName) (source : Text) :
    OpenPaths store (openedBy store name source) := by
  have hnil : OpenPaths store [] := ⟨List.nodup_nil, fun _ hpath => nomatch hpath⟩
  cases name with
  | bytes name => exact hnil
  | text name =>
    rw [openedBy]
    split
    · rename_i hs
      exact hnil.push hs List.not_mem_nil
    · exact hnil

end Open

/-- **The walk with a bound.** It goes like the walk of `ofText`, but answers `giveUp` for a file
where more than `bound` fragments are open. Nothing but the bound makes it end. -/
def ofTextWithin (giveUp : Logged (List Token)) (bound : Nat) (store : FragmentStore)
    (opened : List Text) (above : List IncludeFrame) (file : FileName) (text : Text) :
    Logged (List Token) :=
  if _h : opened.length ≤ bound then
    ofTokens (fun frame path =>
      match store.source? path with
      | none => .failed (.badInclude (.notFound path) (frame :: above))
      | some fragment =>
        if path ∈ opened then .failed (.badInclude (.cyclic path) (frame :: above))
        else
          (ofTextWithin giveUp bound store (path :: opened) (frame :: above) (.text path)
            fragment).note (.including path file))
      file file.root above (fileTokens text)
  else giveUp
  termination_by bound + 1 - opened.length

/-- The text of a named source, where at most `bound` fragments may be open at once. -/
def ofSourceWithin (giveUp : Logged (List Token)) (bound : Nat) (store : FragmentStore)
    (name : FileName) (source : Text) : Logged Text :=
  (ofTextWithin giveUp bound store (openedBy store name source) [] name source).map Token.toText

/-- **A walk never has more fragments open than are stored.** With their number as the bound it never
gives up.

The induction is on how many paths are still closed, as for every fact about the walk. -/
theorem ofTextWithin_size {store : FragmentStore} {opened : List Text} {above : List IncludeFrame}
    {file : FileName} {text : Text} (giveUp : Logged (List Token)) (h : OpenPaths store opened) :
    ofTextWithin giveUp store.size store opened above file text
      = ofText store opened above file text := by
  induction hn : (closedPaths store opened).length using Nat.strongRecOn
    generalizing opened above file text with
  | ind n ih =>
    rw [ofTextWithin, dif_pos h.length_le, ofText_eq]
    congr 1
    funext frame path
    simp only [splice, List.contains_iff_mem]
    cases hs : store.source? path with
    | none => rfl
    | some fragment =>
      by_cases ho : path ∈ opened
      · simp only [if_pos ho, Option.elim]
      · simp only [if_neg ho, Option.elim]
        rw [ih _ (hn ▸ length_closedPaths_lt hs ho) (h.push hs ho) rfl]

theorem ofSourceWithin_size (giveUp : Logged (List Token)) (store : FragmentStore) (name : FileName)
    (source : Text) :
    ofSourceWithin giveUp store.size store name source = ofSource store name source := by
  rw [ofSourceWithin, ofSource, ofTextWithin_size giveUp (openPaths_openedBy store name source)]

/-- Two fragments that include a third. -/
def diamondStore : FragmentStore :=
  ((FragmentStore.empty.insert "light/base" "vec3 base;").insert "light/left"
    "#include \"base\"").insert "light/right" "float r;\n#include <light/base>"

/-- The bound is felt: with less than what is needed the walk gives up. -/
example : (ofSourceWithin (.failed .unimplemented) 1 diamondStore (.text "main")
    "#include <light/left>").result.toOption = none := by decide +kernel

/-! ## Includes that can be followed -/

/-- The path of an include that asks for one. -/
def Fate.path? : Fate → Option Text
  | .fetched path => some path
  | _ => none

theorem Fate.path?_eq_some_iff {what : Fate} {path : Text} :
    what.path? = some path ↔ what = .fetched path := by
  cases what <;> simp [path?]

/-- **Every include of a text can be followed:** it is well formed, and a fragment is stored at the
path that it asks for. -/
def Resolved (store : FragmentStore) (root : FileName) (text : Text) : Prop :=
  ∀ token ∈ fileTokens text, isInclude token = true →
    ((fate root token).path?.bind store.source?).isSome = true

instance (store : FragmentStore) (root : FileName) (text : Text) :
    Decidable (Resolved store root text) :=
  inferInstanceAs (Decidable (∀ token ∈ fileTokens text, isInclude token = true →
    ((fate root token).path?.bind store.source?).isSome = true))

/-- Such a text asks for stored fragments only. -/
theorem Resolved.fate_cases {store : FragmentStore} {root : FileName} {text : Text}
    (h : Resolved store root text) {token : Token} (hmem : token ∈ fileTokens text) :
    fate root token = .dropped ∨ (∃ kept, fate root token = .kept kept) ∨
      ∃ path fragment, fate root token = .fetched path ∧ store.source? path = some fragment := by
  cases hinclude : isInclude token with
  | false =>
    rcases fate_of_not_isInclude root hinclude with hfate | hfate
    · exact .inl hfate
    · exact .inr (.inl hfate)
  | true =>
    obtain ⟨fragment, hfragment⟩ := Option.isSome_iff_exists.1 (h token hmem hinclude)
    obtain ⟨path, hpath, hs⟩ := Option.bind_eq_some_iff.1 hfragment
    exact .inr (.inr ⟨path, fragment, Fate.path?_eq_some_iff.1 hpath, hs⟩)

/-- Every include of a text can be followed, and every include of the fragments reached from it. -/
structure AllResolved (store : FragmentStore) (root : FileName) (text : Text) : Prop where
  here : Resolved store root text
  below : ∀ path fragment, Reaches store root text path → store.source? path = some fragment →
    Resolved store (FileName.text path).root fragment

/-- Where a text asks for a fragment, the includes of the fragment can be followed as well. -/
theorem AllResolved.fetched {store : FragmentStore} {root : FileName} {text : Text}
    (h : AllResolved store root text) {token : Token} {path fragment : Text}
    (hmem : token ∈ fileTokens text) (hfate : fate root token = .fetched path)
    (hs : store.source? path = some fragment) :
    AllResolved store (FileName.text path).root fragment :=
  ⟨h.below path fragment (.direct hmem hfate hs) hs,
    fun p g hreach => h.below p g (.through hmem hfate hs hreach)⟩

/-! ## Where a walk fails -/

/-- **A walk over tokens fails at one of them:** at an include that cannot be read or followed, or in
what was to be spliced in. -/
theorem exists_fault {splice : IncludeFrame → Text → Logged (List Token)} {file root : FileName}
    {above : List IncludeFrame} {tokens : List Token} {fault : Fault}
    (h : (ofTokens splice file root above tokens).result = .error fault) :
    ∃ token ∈ tokens,
      (∃ path, fate root token = .fetched path ∧
        (splice ⟨file, token.line⟩ path).result = .error fault) ∨
      (∃ problem, fate root token = .malformed problem ∧
        fault = .badInclude problem (⟨file, token.line⟩ :: above)) ∨
      fate root token = .unresolved fault := by
  induction tokens with
  | nil => cases h
  | cons token rest ih =>
    -- Either the fault is that of the first token, or the rest has it.
    have hlater := fun hrest => (ih hrest).imp fun _ => And.imp_left (List.mem_cons_of_mem token)
    rw [ofTokens_cons] at h
    cases hf : fate root token with
    | dropped => simp only [hf] at h; exact hlater h
    | kept kept =>
      simp only [hf, Logged.result_map] at h
      cases hr : (ofTokens splice file root above rest).result with
      | ok out => rw [hr] at h; cases h
      | error other => rw [hr] at h; cases h; exact hlater hr
    | fetched path =>
      simp only [hf, Logged.result_andThen, Logged.result_map] at h
      cases hs : (splice ⟨file, token.line⟩ path).result with
      | error other =>
        rw [hs] at h
        cases h
        exact ⟨token, List.mem_cons_self, .inl ⟨path, hf, hs⟩⟩
      | ok inner =>
        cases hr : (ofTokens splice file root above rest).result with
        | ok out => rw [hs, hr] at h; cases h
        | error other => rw [hs, hr] at h; cases h; exact hlater hr
    | malformed problem =>
      simp only [hf] at h
      cases h
      exact ⟨token, List.mem_cons_self, .inr (.inl ⟨problem, hf, rfl⟩)⟩
    | unresolved other =>
      simp only [hf] at h
      cases h
      exact ⟨token, List.mem_cons_self, .inr (.inr hf)⟩

section Walk

variable {store : FragmentStore} {opened : List Text} {above : List IncludeFrame}
  {file : FileName} {text path : Text} {fault : Fault}

/-- A path cannot be spliced in if nothing is stored there, if it is open, or if the walk of its
fragment fails. -/
theorem splice_error_cases {frame : IncludeFrame}
    (h : (splice store opened above file frame path).result = .error fault) :
    (store.source? path = none ∧ fault = .badInclude (.notFound path) (frame :: above)) ∨
    ∃ fragment, store.source? path = some fragment ∧
      ((path ∈ opened ∧ fault = .badInclude (.cyclic path) (frame :: above)) ∨
        (path ∉ opened ∧ (ofText store (path :: opened) (frame :: above) (.text path)
          fragment).result = .error fault)) := by
  unfold splice at h
  cases hs : store.source? path with
  | none =>
    rw [hs] at h
    cases h
    exact .inl ⟨rfl, rfl⟩
  | some fragment =>
    rw [hs] at h
    refine .inr ⟨fragment, rfl, ?_⟩
    by_cases ho : path ∈ opened
    · simp only [Option.elim, List.contains_iff_mem, if_pos ho] at h
      cases h
      exact .inl ⟨ho, rfl⟩
    · simp only [Option.elim, List.contains_iff_mem, if_neg ho] at h
      exact .inr ⟨ho, h⟩

/-- An argument that cannot be read says nothing of a path. -/
theorem path?_of_includeTarget {argument : Text} {problem : IncludeProblem}
    (h : Directive.includeTarget argument = .error problem) : problem.path? = none := by
  cases argument with
  | nil => cases h; rfl
  | cons opening rest =>
    simp only [Directive.includeTarget] at h
    cases hclosing : Directive.closing? opening with
    | none => simp only [hclosing] at h; cases h; rfl
    | some expected =>
      cases hlast : rest.getLast? with
      | none => simp only [hclosing, hlast] at h; cases h; rfl
      | some last =>
        simp only [hclosing, hlast] at h
        split at h
        · cases h; rfl
        · split at h
          · cases h; rfl
          · split at h <;> cases h

theorem path?_of_malformed {root : FileName} {token : Token} {problem : IncludeProblem}
    (h : fate root token = .malformed problem) : problem.path? = none := by
  rw [fate_of_isInclude (isInclude_of_fate root (by simp [h]) (by simp [h]))] at h
  split at h
  · rename_i problem' hproblem
    cases h
    exact path?_of_includeTarget hproblem
  · split at h <;> cases h

/-- A path that cannot be found is another fault than a bad include. -/
theorem resolve_ne_badInclude {target : Directive.IncludeTarget} {root : FileName}
    {problem : IncludeProblem} {trace : List IncludeFrame} :
    target.resolve root ≠ .error (.badInclude problem trace) := by
  intro h
  cases target with
  | fromRoot path => cases h
  | fromFile path => cases root <;> cases h

theorem fate_ne_badInclude {root : FileName} {token : Token} {problem : IncludeProblem}
    {trace : List IncludeFrame} : fate root token ≠ .unresolved (.badInclude problem trace) := by
  intro h
  rw [fate_of_isInclude (isInclude_of_fate root (by simp [h]) (by simp [h]))] at h
  split at h
  · cases h
  · split at h
    · rename_i hfault
      cases h
      exact resolve_ne_badInclude hfault
    · cases h

/-- **A path that is refused is one that leads to itself,** or was open when the walk started. In
either case it is reached.

The induction is on how many paths are still closed. -/
theorem reaches_of_cyclic {trace : List IncludeFrame}
    (h : (ofText store opened above file text).result = .error (.badInclude (.cyclic path) trace)) :
    Reaches store file.root text path ∧
      (path ∈ opened ∨ ∃ fragment, store.source? path = some fragment ∧
        Reaches store (FileName.text path).root fragment path) := by
  induction hn : (closedPaths store opened).length using Nat.strongRecOn
    generalizing opened above file text with
  | ind n ih =>
    rw [ofText_eq] at h
    obtain ⟨token, hmem, hfault⟩ := exists_fault h
    rcases hfault with ⟨mid, hfate, hsplice⟩ | ⟨problem, hfate, hfault⟩ | hfate
    · rcases splice_error_cases hsplice with ⟨-, hfault⟩ | ⟨fragment, hs, hfault | ⟨ho, hwalk⟩⟩
      · cases hfault
      · obtain ⟨ho, hfault⟩ := hfault
        cases hfault
        exact ⟨.direct hmem hfate hs, .inl ho⟩
      · obtain ⟨hreach, hwhy⟩ := ih _ (hn ▸ length_closedPaths_lt hs ho) hwalk rfl
        refine ⟨.through hmem hfate hs hreach, ?_⟩
        rcases hwhy with hopen | hself
        · rcases List.mem_cons.1 hopen with rfl | hopen
          -- The path of the very fragment that was entered here: it has just led to itself.
          · exact .inr ⟨fragment, hs, hreach⟩
          · exact .inl hopen
        · exact .inr hself
    · cases hfault
      cases path?_of_malformed hfate
    · exact absurd hfate fate_ne_badInclude

/-- **Where every include can be followed, nothing but a cycle makes a walk fail.** -/
theorem cyclic_of_error (h : (ofText store opened above file text).result = .error fault)
    (hall : AllResolved store file.root text) :
    ∃ path trace, fault = .badInclude (.cyclic path) trace := by
  induction hn : (closedPaths store opened).length using Nat.strongRecOn
    generalizing opened above file text with
  | ind n ih =>
    rw [ofText_eq] at h
    obtain ⟨token, hmem, hfault⟩ := exists_fault h
    rcases hall.here.fate_cases hmem with hdropped | ⟨kept, hkept⟩ | ⟨path, fragment, hfate, hs⟩
    · simp [hdropped] at hfault
    · simp [hkept] at hfault
    · simp only [hfate, Fate.fetched.injEq, reduceCtorEq, false_and, exists_false, or_false,
        exists_eq_left'] at hfault
      rcases splice_error_cases hfault with ⟨hnone, -⟩ | ⟨fragment', hs', hopen | ⟨ho, hwalk⟩⟩
      · rw [hs] at hnone
        cases hnone
      · exact ⟨path, _, hopen.2⟩
      · exact ih _ (hn ▸ length_closedPaths_lt hs' ho) hwalk (hall.fetched hmem hfate hs') rfl

end Walk

/-! ## Cycles -/

/-- The fragment at a path leads to itself: by including itself, or by including a fragment that
leads to it. -/
def LeadsBack (store : FragmentStore) (path : Text) : Prop :=
  ∃ fragment, store.source? path = some fragment ∧
    Reaches store (FileName.text path).root fragment path

/-- **A text reaches a cycle of includes:** a fragment that leads to itself. -/
def ReachesCycle (store : FragmentStore) (root : FileName) (text : Text) : Prop :=
  ∃ path, Reaches store root text path ∧ LeadsBack store path

section Source

variable {store : FragmentStore} {name : FileName} {source : Text}

/-- The path that is refused is reached, and its fragment leads to itself. -/
theorem leadsBack_of_cyclic {path : Text} {trace : List IncludeFrame}
    (h : (ofSource store name source).result = .error (.badInclude (.cyclic path) trace)) :
    Reaches store name.root source path ∧ LeadsBack store path := by
  rw [ofSource, Logged.result_map] at h
  cases hwalk : (ofText store (openedBy store name source) [] name source).result with
  | ok out => rw [hwalk] at h; cases h
  | error fault =>
    rw [hwalk] at h
    cases h
    obtain ⟨hreach, hopen | hback⟩ := reaches_of_cyclic hwalk
    · refine ⟨hreach, ?_⟩
      obtain ⟨rfl, hs⟩ := of_mem_openedBy hopen
      exact ⟨source, hs, hreach⟩
    · exact ⟨hreach, hback⟩

/-- **The walk of a source faults on a cycle exactly where it reaches one,** provided that every
include can be followed. Otherwise it succeeds. -/
theorem ofSource_cyclic_iff (hall : AllResolved store name.root source) :
    ((∃ path trace, (ofSource store name source).result
        = .error (.badInclude (.cyclic path) trace)) ↔ ReachesCycle store name.root source) ∧
      (¬ ReachesCycle store name.root source →
        ∃ text, (ofSource store name source).result = .ok text) := by
  have hcycle : (∃ path trace, (ofSource store name source).result
      = .error (.badInclude (.cyclic path) trace)) → ReachesCycle store name.root source := by
    rintro ⟨path, trace, h⟩
    exact ⟨path, leadsBack_of_cyclic h⟩
  cases hwalk : (ofText store (openedBy store name source) [] name source).result with
  | ok out =>
    have hsource : (ofSource store name source).result = .ok (Token.toText out) := by
      rw [ofSource, Logged.result_map, hwalk]
      rfl
    refine ⟨⟨hcycle, ?_⟩, fun _ => ⟨_, hsource⟩⟩
    rintro ⟨path, hreach, fragment, hs, hback⟩
    exact absurd hback (not_reaches_self hwalk hreach hs)
  | error fault =>
    obtain ⟨path, trace, rfl⟩ := cyclic_of_error hwalk hall
    have hsource : (ofSource store name source).result = .error (.badInclude (.cyclic path) trace) := by
      rw [ofSource, Logged.result_map, hwalk]
      rfl
    exact ⟨⟨hcycle, fun _ => ⟨path, trace, hsource⟩⟩,
      fun hnone => absurd (hcycle ⟨path, trace, hsource⟩) hnone⟩

end Source

end Expansion

/-! ## Composing -/

/-- A table takes in every define whose name is a text. -/
theorem MacroTable.defineEntries_ok (table : MacroTable) (changed : Bool)
    (pairs : List (Text × Text)) :
    ∃ now, (table.defineEntries changed
      (pairs.map fun pair => (.text pair.1, .text pair.2))).result = .ok now := by
  induction pairs generalizing table changed with
  | nil => exact ⟨changed, rfl⟩
  | cons pair pairs ih =>
    rw [List.map_cons, defineEntries, Step.result_andThen]
    exact ih (table.set pair.1 pair.2).1 (changed || (table.set pair.1 pair.2).2)

/-- Defines with texts as names can be written into every text. -/
theorem Prologue.injectDefines_ok {active : ActiveDefines} (h : active.TextNames) (source : Text) :
    ∃ out, injectDefines source active.toValue = .ok out := by
  obtain ⟨pairs, rfl⟩ := h
  have hvalue : ActiveDefines.toValue (pairs.map fun pair => (.text pair.1, pair.2))
      = .map (pairs.map fun pair => (.text pair.1, .text pair.2)) := by
    rw [ActiveDefines.toValue, List.map_map]
    rfl
  rw [injectDefines, hvalue]
  split
  · rename_i htrue
    obtain ⟨now, hnow⟩ := MacroTable.empty.defineEntries_ok false pairs
    rw [MacroTable.ofValue, if_pos htrue]
    simp only [MacroTable.define, Value.entries?, hnow]
    exact ⟨_, rfl⟩
  · exact ⟨source, rfl⟩

namespace Composer

open Expansion

/-- What the walk collected is composed, where there are no transforms and the defines are valid. -/
theorem compose_ok_of_ofSource {composer : Composer} {name : FileName} {source text : Text}
    {defines : Value} (htransforms : composer.transforms = [])
    (hdefines : ∃ active, composer.macros.active defines = .ok active ∧ active.TextNames)
    (h : (ofSource composer.store name source).result = .ok text) :
    ∃ out, (composer.compose name source defines).result = .ok out := by
  obtain ⟨active, hactive, hnames⟩ := hdefines
  obtain ⟨injected, hinjected⟩ := Prologue.injectDefines_ok hnames text
  simp only [compose, Logged.result_andThen, h, hactive, htransforms, bind, Except.bind, hinjected]
  exact ⟨_, rfl⟩

/-- **The walk ends, and finds exactly the cycles.** For every store, name and source it never has
more fragments open than are stored: with that number as a bound it never gives up. And where every
include can be followed, the defines are valid and there are no transforms, composing faults on a
cycle if and only if the source reaches one, and gives a text if it reaches none. -/
theorem process_cyclic_iff (composer : Composer) (name : FileName) (source : Text) :
    (∀ giveUp, ofSourceWithin giveUp composer.store.size composer.store name.orAnonymous source
      = ofSource composer.store name.orAnonymous source) ∧
    ∀ defines, composer.transforms = [] →
      (∃ active, composer.macros.active defines = .ok active ∧ active.TextNames) →
      AllResolved composer.store name.root source →
      ((∃ path trace, (composer.process name source defines).result
          = .error (.badInclude (.cyclic path) trace)) ↔
        ReachesCycle composer.store name.root source) ∧
      (¬ ReachesCycle composer.store name.root source →
        ∃ text, (composer.process name source defines).result = .ok text) := by
  refine ⟨fun giveUp => ofSourceWithin_size giveUp _ _ _, ?_⟩
  intro defines htransforms hdefines hall
  rw [← FileName.root_orAnonymous] at hall ⊢
  rw [result_process]
  obtain ⟨hiff, hok⟩ := ofSource_cyclic_iff hall
  cases hwalk : (ofSource composer.store name.orAnonymous source).result with
  | ok text =>
    obtain ⟨out, hout⟩ := compose_ok_of_ofSource htransforms hdefines hwalk
    rw [← hiff, hout, hwalk]
    exact ⟨by simp, fun _ => ⟨out, rfl⟩⟩
  | error fault =>
    have hcompose : (composer.compose name.orAnonymous source defines).result = .error fault := by
      rw [compose, Logged.result_andThen, hwalk]
      rfl
    rw [hcompose]
    rw [hwalk] at hiff hok
    refine ⟨hiff, fun hnone => ?_⟩
    obtain ⟨text, htext⟩ := hok hnone
    cases htext

/-- Two fragments that include each other. -/
def ringStore : FragmentStore :=
  (FragmentStore.empty.insert "light/sun" "#include \"moon\"").insert "light/moon"
    "float m;\n#include \"./sun\" // again"

/-- Two fragments that include each other make a cycle, and two that include a third do not, also if
they are included twice. -/
theorem process_cyclic_iff_of_ring_and_diamond :
    (∃ path trace, (process ⟨ringStore, .empty, [], 0⟩ (.text "main")
      "#include <light/moon>" .null).result = .error (.badInclude (.cyclic path) trace)) ∧
    ReachesCycle ringStore (FileName.text "main").root "#include <light/moon>" ∧
    ¬ ReachesCycle diamondStore (FileName.text "main").root
      "#include <light/left>\n#include <light/right>\n#include <light/left>" := by
  have hringStored : ∀ path fragment, ringStore.source? path = some fragment →
      Resolved ringStore (FileName.text path).root fragment :=
    FragmentStore.forall_source?_insert (by decide +kernel)
      (FragmentStore.forall_source?_insert (by decide +kernel) fun _ _ hs => nomatch hs)
  have hdiamondStored : ∀ path fragment, diamondStore.source? path = some fragment →
      Resolved diamondStore (FileName.text path).root fragment :=
    FragmentStore.forall_source?_insert (by decide +kernel)
      (FragmentStore.forall_source?_insert (by decide +kernel)
        (FragmentStore.forall_source?_insert (by decide +kernel) fun _ _ hs => nomatch hs))
  have hring : AllResolved ringStore (FileName.text "main").root "#include <light/moon>" :=
    ⟨by decide +kernel, fun path fragment _ => hringStored path fragment⟩
  have hdiamond : AllResolved diamondStore (FileName.text "main").root
      "#include <light/left>\n#include <light/right>\n#include <light/left>" :=
    ⟨by decide +kernel, fun path fragment _ => hdiamondStored path fragment⟩
  have hdefines : ∃ active, MacroTable.empty.active .null = .ok active ∧ active.TextNames :=
    ⟨[], rfl, [], rfl⟩
  obtain ⟨hringIff, hringOk⟩ := (process_cyclic_iff ⟨ringStore, .empty, [], 0⟩ (.text "main")
    "#include <light/moon>").2 .null rfl hdefines hring
  obtain ⟨hdiamondIff, -⟩ := (process_cyclic_iff ⟨diamondStore, .empty, [], 0⟩ (.text "main")
    "#include <light/left>\n#include <light/right>\n#include <light/left>").2 .null rfl hdefines
    hdiamond
  have hringFails : (process ⟨ringStore, .empty, [], 0⟩ (.text "main")
      "#include <light/moon>" .null).result.toOption = none := by decide +kernel
  have hdiamondHolds : (process ⟨diamondStore, .empty, [], 0⟩ (.text "main")
      "#include <light/left>\n#include <light/right>\n#include <light/left>"
      .null).result.toOption.isSome = true := by decide +kernel
  have hcycle : ReachesCycle ringStore (FileName.text "main").root "#include <light/moon>" := by
    refine Classical.byContradiction fun hnone => ?_
    obtain ⟨text, htext⟩ := hringOk hnone
    rw [htext] at hringFails
    cases hringFails
  refine ⟨hringIff.2 hcycle, hcycle, fun hcycle => ?_⟩
  obtain ⟨path, trace, hfault⟩ := hdiamondIff.2 hcycle
  rw [hfault] at hdiamondHolds
  cases hdiamondHolds

end Composer

end GlslCompose
