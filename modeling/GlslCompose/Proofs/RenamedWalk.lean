/-
`Proofs/RenamedWalk.lean` -- what a walk comes to under another name in the same directory.

The name of a source takes part in its walk in two ways: it stands in the chain of every
fault, and it may count as open. The second is what has to be thought about. A source that
is the fragment of its own name is refused where it is included again; under another name
it is entered once more at that place, and the walk goes on one level further down with
other paths open. `Proofs/IncludeGraph` shows that this cannot matter to a walk that
succeeds. Here the walk may fail, and then it is over before most of the graph was seen,
so reachability says nothing.

What is compared instead is a third walk, which keeps no record of what is open and goes to
a given depth (`outcomeAt`). Say that an outcome is definite if it is not a cycle. Going
deeper never changes a definite outcome (`outcomeAt_of_le`), so each text that has one has
it from some first depth on, and an include asks for a text whose first depth is smaller.
Hence a path with a greater first depth is never asked for, and may as well be open
(`result_ofText_of_outcomeAt`). The name of a source is such a path, because the fragment of
that name is the source: its first depth is that of the source itself.
-/
import GlslCompose.Proofs.IncludeCycles
import Mathlib.Data.Nat.Find

set_option autoImplicit false

namespace GlslCompose

/-! ## Faults that tell the same -/

/-- **Two faults that tell the same,** but for the chain of includes that led to them and for the path
at which a cycle was noticed. -/
inductive Fault.Alike : Fault → Fault → Prop
  | same (fault : Fault) : Alike fault fault
  | atInclude (problem : IncludeProblem) (trace trace' : List IncludeFrame) :
      Alike (.badInclude problem trace) (.badInclude problem trace')
  | atCycle (path path' : Text) (trace trace' : List IncludeFrame) :
      Alike (.badInclude (.cyclic path) trace) (.badInclude (.cyclic path') trace')

/-- **Two outcomes that are the same,** but for what faults that tell the same may differ in. -/
inductive SameOutcome {α : Type} : Except Fault α → Except Fault α → Prop
  | ok (a : α) : SameOutcome (.ok a) (.ok a)
  | error {fault fault' : Fault} (h : fault.Alike fault') :
      SameOutcome (.error fault) (.error fault')

theorem Fault.Alike.symm {fault fault' : Fault} (h : fault.Alike fault') : fault'.Alike fault := by
  cases h with
  | same => exact .same _
  | atInclude problem trace trace' => exact .atInclude problem trace' trace
  | atCycle path path' trace trace' => exact .atCycle path' path trace' trace

theorem Fault.Alike.trans {a b c : Fault} (hab : a.Alike b) (hbc : b.Alike c) : a.Alike c := by
  cases hab with
  | same => exact hbc
  | atInclude problem trace trace' =>
    cases hbc with
    | same => exact .atInclude problem trace trace'
    | atInclude _ _ trace'' => exact .atInclude problem trace trace''
    | atCycle path path'' _ trace'' => exact .atCycle path path'' trace trace''
  | atCycle path path' trace trace' =>
    cases hbc with
    | same => exact .atCycle path path' trace trace'
    | atInclude _ _ trace'' => exact .atCycle path path' trace trace''
    | atCycle _ path'' _ trace'' => exact .atCycle path path'' trace trace''

namespace SameOutcome

variable {α β : Type} {x y z : Except Fault α}

theorem refl (x : Except Fault α) : SameOutcome x x := by
  cases x with
  | ok a => exact .ok a
  | error fault => exact .error (.same fault)

theorem symm (h : SameOutcome x y) : SameOutcome y x := by
  cases h with
  | ok a => exact .ok a
  | error h => exact .error h.symm

theorem trans (hxy : SameOutcome x y) (hyz : SameOutcome y z) : SameOutcome x z := by
  cases hxy with
  | ok a => exact hyz
  | error h =>
    cases hyz with
    | error h' => exact .error (h.trans h')

theorem bind_congr {f g : α → Except Fault β} (h : SameOutcome x y)
    (hnext : ∀ a, x = .ok a → SameOutcome (f a) (g a)) : SameOutcome (x.bind f) (y.bind g) := by
  cases h with
  | ok a => exact hnext a rfl
  | error h => exact .error h

/-- What is done with the results afterwards does not make a difference. -/
theorem bind (h : SameOutcome x y) (f : α → Except Fault β) : SameOutcome (x.bind f) (y.bind f) :=
  h.bind_congr fun _ _ => .refl _

theorem map (h : SameOutcome x y) (f : α → β) : SameOutcome (x.map f) (y.map f) := by
  cases h with
  | ok a => exact .ok _
  | error h => exact .error h

end SameOutcome

namespace Expansion

/-! ## Definite outcomes -/

/-- **An outcome that is not a cycle.** -/
def Definite {α : Type} (x : Except Fault α) : Prop :=
  ∀ path trace, x ≠ .error (.badInclude (.cyclic path) trace)

theorem definite_ok {α : Type} (a : α) : Definite (.ok a : Except Fault α) := nofun

theorem not_definite_cyclic {α : Type} (path : Text) (trace : List IncludeFrame) :
    ¬ Definite (.error (.badInclude (.cyclic path) trace) : Except Fault α) :=
  fun h => h path trace rfl

/-- A first step that ends in a cycle is the end of all steps. -/
theorem Definite.of_bind {α β : Type} {x : Except Fault α} {f : α → Except Fault β}
    (h : Definite (x.bind f)) : Definite x := by
  rintro path trace rfl
  exact h path trace rfl

theorem Definite.of_map {α β : Type} {x : Except Fault α} {f : α → β} (h : Definite (x.map f)) :
    Definite x := by
  rintro path trace rfl
  exact h path trace rfl

/-- Outcomes that are not definite are all the same. -/
theorem sameOutcome_of_not_definite {α : Type} {x y : Except Fault α} (hx : ¬ Definite x)
    (hy : ¬ Definite y) : SameOutcome x y := by
  have hcycle : ∀ {z : Except Fault α}, ¬ Definite z →
      ∃ path trace, z = .error (.badInclude (.cyclic path) trace) := by
    intro z hz
    simpa [Definite] using hz
  obtain ⟨path, trace, rfl⟩ := hcycle hx
  obtain ⟨path', trace', rfl⟩ := hcycle hy
  exact .error (.atCycle path path' trace trace')

theorem Definite.of_sameOutcome {α : Type} {x y : Except Fault α} (h : Definite x)
    (hsame : SameOutcome x y) : Definite y := by
  cases hsame with
  | ok a => exact definite_ok a
  | error halike =>
    rintro path trace heq
    cases heq
    cases halike with
    | same => exact h path trace rfl
    | atInclude _ trace' _ => exact h path trace' rfl
    | atCycle path' _ trace' _ => exact h path' trace' rfl

/-- **A walk over tokens with a definite outcome** comes to the same with another way to splice paths
in, under another name and from another chain, if each path that has a definite outcome comes to the
same.

Behind the first token that fails nothing is asked for, so the paths that would be asked for there
need not come to the same, and may lead into a cycle. -/
theorem sameOutcome_ofTokens {splice splice' : IncludeFrame → Text → Logged (List Token)}
    {file file' root : FileName} {above above' : List IncludeFrame} {tokens : List Token}
    (hsplice : ∀ line path, Definite (splice ⟨file, line⟩ path).result →
      SameOutcome (splice ⟨file, line⟩ path).result (splice' ⟨file', line⟩ path).result)
    (h : Definite (ofTokens splice file root above tokens).result) :
    SameOutcome (ofTokens splice file root above tokens).result
      (ofTokens splice' file' root above' tokens).result := by
  induction tokens with
  | nil => exact .ok []
  | cons token rest ih =>
    rw [ofTokens_cons] at h
    rw [ofTokens_cons, ofTokens_cons]
    cases hfate : fate root token with
    | dropped =>
      rw [hfate] at h
      exact ih h
    | kept kept =>
      simp only [hfate, Logged.result_map] at h ⊢
      exact (ih h.of_map).map _
    | malformed problem => exact .error (.atInclude problem _ _)
    | unresolved fault => exact .error (.same fault)
    | fetched path =>
      simp only [hfate, Logged.result_andThen, Logged.result_map] at h ⊢
      refine (hsplice token.line path h.of_bind).bind_congr fun inner hinner => ?_
      -- What is spliced in is the same, so the rest is walked in both, and its outcome is definite.
      rw [hinner] at h
      exact (ih (Definite.of_map h)).map _

/-! ## The walk to a depth -/

/-- A path spliced in by a way to enter its fragment, if there is one. -/
def spliceBy (store : FragmentStore) (enter : Text → Text → Except Fault (List Token))
    (path : Text) : Logged (List Token) :=
  (store.source? path).elim (.failed (.badInclude (.notFound path) []))
    fun fragment => ⟨enter path fragment, []⟩

/-- **What a text comes to at a depth.** Nothing is known of what is open, and no fragment is entered
below the depth: what is asked for there counts as a cycle. -/
def outcomeAt (store : FragmentStore) : Nat → FileName → Text → Except Fault (List Token)
  | 0, root, text =>
    (ofTokens (fun _ => spliceBy store fun path _ => .error (.badInclude (.cyclic path) []))
      root root [] (fileTokens text)).result
  | depth + 1, root, text =>
    (ofTokens (fun _ => spliceBy store fun path fragment =>
      outcomeAt store depth (FileName.text path).root fragment) root root [] (fileTokens text)).result

section Depth

variable {store : FragmentStore} {root : FileName} {text : Text}

/-- A fragment that may be entered by two ways comes to the same if the ways do. -/
theorem sameOutcome_spliceBy {enter enter' : Text → Text → Except Fault (List Token)} {path : Text}
    (h : ∀ fragment, store.source? path = some fragment → Definite (enter path fragment) →
      SameOutcome (enter path fragment) (enter' path fragment))
    (hdefinite : Definite (spliceBy store enter path).result) :
    SameOutcome (spliceBy store enter path).result (spliceBy store enter' path).result := by
  unfold spliceBy at hdefinite ⊢
  cases hs : store.source? path with
  | none => exact .refl _
  | some fragment =>
    rw [hs] at hdefinite
    exact h fragment hs hdefinite

/-- **Going deeper does not change a definite outcome.** -/
theorem outcomeAt_succ {depth : Nat} (h : Definite (outcomeAt store depth root text)) :
    SameOutcome (outcomeAt store depth root text) (outcomeAt store (depth + 1) root text) := by
  induction depth generalizing root text with
  | zero =>
    refine sameOutcome_ofTokens (fun _ path => sameOutcome_spliceBy fun fragment _ hcycle => ?_) h
    exact absurd hcycle (not_definite_cyclic path [])
  | succ depth ih =>
    exact sameOutcome_ofTokens (fun _ path => sameOutcome_spliceBy fun fragment _ hinner => ih hinner) h

/-- A definite outcome at any depth is found at any deeper one. -/
theorem outcomeAt_of_le {depth deeper : Nat} (hle : depth ≤ deeper)
    (h : Definite (outcomeAt store depth root text)) :
    SameOutcome (outcomeAt store depth root text) (outcomeAt store deeper root text) := by
  induction hle with
  | refl => exact .refl _
  | step _ ih => exact ih.trans (outcomeAt_succ (h.of_sameOutcome ih))

/-- A text with a definite outcome has one from some first depth on. -/
theorem exists_first_depth {depth : Nat} (h : Definite (outcomeAt store depth root text)) :
    ∃ first ≤ depth, Definite (outcomeAt store first root text) ∧
      ∀ before < first, ¬ Definite (outcomeAt store before root text) := by
  classical
  have hexists : ∃ depth, Definite (outcomeAt store depth root text) := ⟨depth, h⟩
  exact ⟨Nat.find hexists, Nat.find_min' hexists h, Nat.find_spec hexists,
    fun _ hlt => Nat.find_min hexists hlt⟩

end Depth

/-! ## The walk and the walk to a depth -/

section Walk

variable {store : FragmentStore} {opened : List Text} {above : List IncludeFrame}
  {file : FileName} {text : Text} {enter : Text → Text → Except Fault (List Token)}

/-- What a walk with a definite outcome comes to is what its text comes to where each fragment that can
be entered comes to the same. -/
theorem spliceBy_of_ofText (h : Definite (ofText store opened above file text).result)
    (henter : ∀ path fragment, store.source? path = some fragment → path ∉ opened →
      ∀ above', Definite (ofText store (path :: opened) above' (.text path) fragment).result →
        SameOutcome (ofText store (path :: opened) above' (.text path) fragment).result
          (enter path fragment)) :
    SameOutcome (ofText store opened above file text).result
      (ofTokens (fun _ => spliceBy store enter) file.root file.root [] (fileTokens text)).result := by
  rw [ofText_eq] at h ⊢
  refine sameOutcome_ofTokens (fun line path hdefinite => ?_) h
  cases hs : store.source? path with
  | none =>
    simp only [splice, spliceBy, hs, Option.elim]
    exact .error (.atInclude _ _ _)
  | some fragment =>
    by_cases ho : path ∈ opened
    · simp only [splice, hs, Option.elim, List.contains_iff_mem, if_pos ho] at hdefinite
      exact absurd hdefinite (not_definite_cyclic path _)
    · simp only [splice, spliceBy, hs, Option.elim, List.contains_iff_mem, if_neg ho,
        Logged.result_note] at hdefinite ⊢
      exact henter path fragment hs ho _ hdefinite

/-- Conversely, a definite outcome of a text is that of its walk, where no fragment that has one is open
and each comes to the same. -/
theorem ofText_of_spliceBy
    (h : Definite (ofTokens (fun _ => spliceBy store enter) file.root file.root []
      (fileTokens text)).result)
    (henter : ∀ path fragment, store.source? path = some fragment → Definite (enter path fragment) →
      path ∉ opened ∧ ∀ above', SameOutcome (enter path fragment)
        (ofText store (path :: opened) above' (.text path) fragment).result) :
    SameOutcome
      (ofTokens (fun _ => spliceBy store enter) file.root file.root [] (fileTokens text)).result
      (ofText store opened above file text).result := by
  rw [ofText_eq]
  refine sameOutcome_ofTokens (fun line path hdefinite => ?_) h
  cases hs : store.source? path with
  | none =>
    simp only [splice, spliceBy, hs, Option.elim]
    exact .error (.atInclude _ _ _)
  | some fragment =>
    simp only [spliceBy, hs, Option.elim] at hdefinite
    obtain ⟨ho, hsame⟩ := henter path fragment hs hdefinite
    simp only [splice, spliceBy, hs, Option.elim, List.contains_iff_mem, if_neg ho, Logged.result_note]
    exact hsame _

/-- **A definite outcome of a walk is found at a depth,** that of how many paths were closed when it
started.

The induction is on that number, since it is what each fragment entered makes smaller. -/
theorem outcomeAt_of_ofText (h : Definite (ofText store opened above file text).result) :
    SameOutcome (ofText store opened above file text).result
      (outcomeAt store (closedPaths store opened).length file.root text) := by
  induction hn : (closedPaths store opened).length using Nat.strongRecOn
    generalizing opened above file text with
  | ind n ih =>
    cases n with
    | zero =>
      -- A fragment that can be entered has a path that is closed, and there is none.
      refine spliceBy_of_ofText h fun path fragment hs ho => ?_
      have hlt := length_closedPaths_lt hs ho
      omega
    | succ depth =>
      refine spliceBy_of_ofText h fun path fragment hs ho above' hdefinite => ?_
      have hlt : (closedPaths store (path :: opened)).length < depth + 1 :=
        hn ▸ length_closedPaths_lt hs ho
      have hinner := ih _ hlt hdefinite rfl
      exact hinner.trans (outcomeAt_of_le (by omega) (hdefinite.of_sameOutcome hinner))

/-- **Paths may be open that have no definite outcome before a text has one.** They do not show in its
walk.

The induction is on a depth at which the text has a definite outcome. A fragment that is entered
is walked from its own first depth, which is smaller: at that depth the condition holds of its path,
and it goes on holding of the paths that were open before. -/
theorem ofText_of_outcomeAt {depth : Nat} (h : Definite (outcomeAt store depth file.root text))
    (hopened : ∀ path ∈ opened, ∀ fragment, store.source? path = some fragment →
      ∀ before < depth, ¬ Definite (outcomeAt store before (FileName.text path).root fragment)) :
    SameOutcome (outcomeAt store depth file.root text)
      (ofText store opened above file text).result := by
  induction depth using Nat.strongRecOn generalizing opened above file text with
  | ind depth ih =>
    cases depth with
    | zero =>
      refine ofText_of_spliceBy h fun path fragment _ hcycle => ?_
      exact absurd hcycle (not_definite_cyclic path [])
    | succ depth =>
      refine ofText_of_spliceBy h fun path fragment hs hdefinite => ⟨fun hmem => ?_, fun above' => ?_⟩
      · exact hopened path hmem fragment hs depth (Nat.lt_succ_self depth) hdefinite
      · obtain ⟨first, hle, hfirst, hbefore⟩ := exists_first_depth hdefinite
        have hinner : ∀ p ∈ path :: opened, ∀ q, store.source? p = some q → ∀ before < first,
            ¬ Definite (outcomeAt store before (FileName.text p).root q) := by
          intro p hp q hq before hlt
          rcases List.mem_cons.1 hp with rfl | hp
          · rw [hs] at hq
            cases hq
            exact hbefore before hlt
          · exact hopened p hp q hq before (by omega)
        exact (outcomeAt_of_le hle hfirst).symm.trans (ih first (by omega) hfirst hinner)

end Walk

/-! ## The name of a source -/

section Name

variable {store : FragmentStore} {name name' : FileName} {source : Text}

/-- The walk of a source comes to what the source comes to at its first depth. -/
theorem ofText_openedBy_of_first_depth {depth : Nat}
    (h : Definite (outcomeAt store depth name.root source))
    (hfirst : ∀ before < depth, ¬ Definite (outcomeAt store before name.root source)) :
    SameOutcome (outcomeAt store depth name.root source)
      (ofText store (openedBy store name source) [] name source).result := by
  refine ofText_of_outcomeAt h fun path hpath fragment hs => ?_
  obtain ⟨rfl, hsource⟩ := of_mem_openedBy hpath
  rw [hsource] at hs
  cases hs
  exact hfirst

/-- **A source comes to the same under every name in one directory.** -/
theorem sameOutcome_ofSource (hroot : name'.root = name.root) :
    SameOutcome (ofSource store name source).result (ofSource store name' source).result := by
  rw [ofSource, ofSource, Logged.result_map, Logged.result_map]
  refine SameOutcome.map ?_ _
  by_cases hdepth : ∃ depth, Definite (outcomeAt store depth name.root source)
  · obtain ⟨depth, hdefinite⟩ := hdepth
    obtain ⟨first, -, hfirst, hbefore⟩ := exists_first_depth hdefinite
    have hname := ofText_openedBy_of_first_depth hfirst hbefore
    rw [← hroot] at hfirst hbefore
    have hname' := ofText_openedBy_of_first_depth hfirst hbefore
    rw [hroot] at hname'
    exact hname.symm.trans hname'
  · -- At no depth is there anything but a cycle, so both walks end in one.
    have hcyclic : ∀ file : FileName, file.root = name.root →
        ¬ Definite (ofText store (openedBy store file source) [] file source).result := by
      intro file hfile hwalk
      have hfound := hwalk.of_sameOutcome (outcomeAt_of_ofText hwalk)
      rw [hfile] at hfound
      exact hdepth ⟨_, hfound⟩
    exact sameOutcome_of_not_definite (hcyclic name rfl) (hcyclic name' hroot)

end Name

end Expansion

namespace Composer

open Expansion

variable {name name' : FileName}

/-- **What a name has to do with the outcome is its directory.** Under every two names in one directory
a source is composed to the same text, or fails with the same fault. Different can only be the
chain of includes in it, and where it is a cycle, the path at which it was noticed. -/
theorem process_sameOutcome (composer : Composer) (source : Text) (defines : Value)
    (hroot : name'.root = name.root) :
    SameOutcome (composer.process name source defines).result
      (composer.process name' source defines).result := by
  have hwalk : SameOutcome (ofSource composer.store name.orAnonymous source).result
      (ofSource composer.store name'.orAnonymous source).result := by
    refine sameOutcome_ofSource ?_
    rw [FileName.root_orAnonymous, FileName.root_orAnonymous, hroot]
  rw [result_process, result_process, compose, compose, Logged.result_andThen, Logged.result_andThen]
  exact hwalk.bind _

/-- Two fragments that include each other are a cycle under both names, and it is noticed at the one that
the source is, or else at the one that it includes. -/
theorem process_sameOutcome_of_ring :
    (FileName.text "light/sun").root = (FileName.text "light/star").root ∧
    SameOutcome (process ⟨ringStore, .empty, [], 0⟩ (.text "light/star") "#include \"moon\"" .null).result
      (process ⟨ringStore, .empty, [], 0⟩ (.text "light/sun") "#include \"moon\"" .null).result := by
  have hroot : (FileName.text "light/sun").root = (FileName.text "light/star").root := by decide
  exact ⟨hroot, process_sameOutcome _ _ _ hroot⟩

end Composer

end GlslCompose
