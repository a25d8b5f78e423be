/-
`Proofs/Registrations.lean` -- the fragments that an operation registers, one by one.

A store is written to in three ways: with a path and a text, with a mapping that may be
nested, and with the files of a collection. Each of them goes through what it is given and
ends at the first thing that is no text, and what came before stays registered. So what
matters is one list: the leaves in the order in which they are come to, with nothing in
place of a leaf that ends it (`Leaves`). The store afterwards is the one before with the
texts registered that stand in front of the first such place (`Registers`).

This is the level at which a store notices a change. To register a text at a path that
holds it is none, so a store stays as it was, revision included, if every text is already
in place when its turn comes; and if only one is not, the revision is another one
(`insertAll_revision_iff`), also where a later text of the same operation puts back what was there.
-/
import GlslCompose.Proofs.EntryEdits
import GlslCompose.Proofs.LibraryRun

set_option autoImplicit false

namespace GlslCompose

namespace FragmentStore

/-- The leaves that an operation comes to: a path with its text, or nothing in place of a leaf that
cannot be registered. -/
abbrev Leaves := List (Option (Text × Text))

/-- The texts that are registered: those in front of the first leaf that cannot be. -/
def Leaves.registered : Leaves → List (Text × Text)
  | [] => []
  | none :: _ => []
  | some entry :: rest => entry :: registered rest

/-- Whether every leaf can be registered. -/
def Leaves.allTexts (leaves : Leaves) : Bool := leaves.all Option.isSome

/-- The store with texts registered at their paths, one after the other. -/
def insertAll (store : FragmentStore) (entries : List (Text × Text)) : FragmentStore :=
  entries.foldl (fun store entry => store.insert entry.1 entry.2) store

theorem insertAll_append (store : FragmentStore) (entries more : List (Text × Text)) :
    store.insertAll (entries ++ more) = (store.insertAll entries).insertAll more := List.foldl_append

namespace Leaves

theorem registered_append_of_allTexts {leaves : Leaves} (h : leaves.allTexts = true) (more : Leaves) :
    registered (leaves ++ more) = registered leaves ++ registered more := by
  induction leaves with
  | nil => rfl
  | cons leaf leaves ih =>
    cases leaf with
    | none => simp [allTexts] at h
    | some entry =>
      simp only [allTexts, List.all_cons, Bool.and_eq_true] at h
      exact congrArg (entry :: ·) (ih h.2)

theorem registered_append_of_not_allTexts {leaves : Leaves} (h : leaves.allTexts = false)
    (more : Leaves) : registered (leaves ++ more) = registered leaves := by
  induction leaves with
  | nil => cases h
  | cons leaf leaves ih =>
    cases leaf with
    | none => rfl
    | some entry =>
      simp only [allTexts, List.all_cons, Option.isSome_some, Bool.true_and] at h
      exact congrArg (entry :: ·) (ih h)

theorem registered_map_some (entries : List (Text × Text)) :
    registered (entries.map some) = entries := by
  induction entries with
  | nil => rfl
  | cons entry entries ih => exact congrArg (entry :: ·) ih

theorem allTexts_append (leaves more : Leaves) :
    allTexts (leaves ++ more) = (leaves.allTexts && more.allTexts) := List.all_append

theorem allTexts_map_some (entries : List (Text × Text)) : allTexts (entries.map some) = true := by
  simp [allTexts]

end Leaves

/-! ## What operations register -/

/-- **A step registers some leaves.** It leaves the store with their texts registered, and it fails
exactly if one of them cannot be. -/
structure Registers {α : Type} (leaves : Leaves) (store : FragmentStore)
    (step : Step FragmentStore α) : Prop where
  state : step.state = store.insertAll leaves.registered
  result : step.result.isOk = leaves.allTexts

namespace Registers

variable {α β : Type} {leaves more : Leaves} {store : FragmentStore}

theorem done (a : α) (store : FragmentStore) : Registers [] store (.done a store) := ⟨rfl, rfl⟩

theorem failed (fault : Fault) (more : Leaves) (store : FragmentStore) :
    Registers (none :: more) store (.failed fault store : Step FragmentStore α) := ⟨rfl, rfl⟩

/-- One step after another registers the leaves of both. -/
theorem andThen {step : Step FragmentStore α} {f : α → FragmentStore → Step FragmentStore β}
    (h : Registers leaves store step)
    (hf : ∀ a, Registers more step.state (f a step.state)) :
    Registers (leaves ++ more) store (step.andThen f) := by
  cases hresult : step.result with
  | error fault =>
    have hall : leaves.allTexts = false := by
      rw [← h.result, hresult]
      rfl
    refine ⟨?_, ?_⟩
    · rw [Step.state_andThen_of_error hresult, h.state, Leaves.registered_append_of_not_allTexts hall]
    · rw [Step.result_andThen_of_error hresult, Leaves.allTexts_append, hall]
      rfl
  | ok a =>
    have hall : leaves.allTexts = true := by
      rw [← h.result, hresult]
      rfl
    refine ⟨?_, ?_⟩
    · rw [Step.state_andThen_of_ok hresult, (hf a).state, h.state,
        Leaves.registered_append_of_allTexts hall, insertAll_append]
    · rw [Step.result_andThen_of_ok hresult, (hf a).result, Leaves.allTexts_append, hall, Bool.true_and]

end Registers

mutual

/-- The leaves of a mapping, whose keys continue the components in `above`. -/
def entryLeaves (above : List Text) : List (Value × Value) → Leaves
  | [] => []
  | (key, value) :: rest => leavesAt (above ++ [key.display]) value ++ entryLeaves above rest

/-- The leaves of what a mapping holds at a key, the components of the path being known. -/
def leavesAt (components : List Text) : Value → Leaves
  | .text source => [some (List.intercalate ['/'] components, source)]
  | .map entries => entryLeaves components entries
  | .table entries _ =>
    (entries.map fun (key, source) => (List.intercalate ['/'] (components ++ [key]), source)).map some
  | _ => [none]

end

/-- The leaves of what is added. -/
def addedLeaves (path source : Value) : Leaves :=
  match path, source with
  | .text path, .text source => [some (path, source)]
  | .map entries, .null => entryLeaves [] entries
  | .table entries _, .null => entries.map some
  | _, _ => [none]

/-- The leaves of the files of a collection: those that have a wanted extension, up to the first of
which that cannot be told. -/
def fileLeaves (directory : Text) (filter : ExtensionFilter) : List (FileName × Value) → Leaves
  | [] => []
  | (name, source) :: rest =>
    match filter.accepts name.splitExtension.2 with
    | .error _ => [none]
    | .ok false => fileLeaves directory filter rest
    | .ok true =>
      addedLeaves (.text (directory ++ '/' :: name.splitExtension.1.written)) source
        ++ fileLeaves directory filter rest

/-- The leaves of a map from names to sources that is loaded. -/
def loadedLeaves (loader directory extensions : Value) : Leaves :=
  match loader with
  | .map entries =>
    let wanted := if entries.isEmpty then .ok .all else ExtensionFilter.ofValue extensions
    match namedSources entries, wanted with
    | .ok files, .ok filter => fileLeaves directory.display filter (sortedFiles files)
    | .error _, _ => [none]
    | _, .error _ => [none]
  | _ => [none]

/-- Texts that are registered one after the other are all leaves. -/
theorem registers_foldl (entries : List (Text × Text)) (store : FragmentStore) :
    Registers (entries.map some) store (Step.done () (store.insertAll entries)) :=
  ⟨by rw [Leaves.registered_map_some]; rfl, by rw [Leaves.allTexts_map_some]; rfl⟩

mutual

theorem registers_insertEntries (store : FragmentStore) (above : List Text)
    (entries : List (Value × Value)) :
    Registers (entryLeaves above entries) store (insertEntries store above entries) := by
  match entries with
  | [] => exact .done () store
  | (key, value) :: rest =>
    rw [entryLeaves, insertEntries]
    exact (registers_insertLeaf store (above ++ [key.display]) value).andThen
      fun _ => registers_insertEntries _ above rest

theorem registers_insertLeaf (store : FragmentStore) (components : List Text) (value : Value) :
    Registers (leavesAt components value) store (insertLeaf store components value) := by
  match value with
  | .text source =>
    rw [leavesAt, insertLeaf]
    exact registers_foldl [(List.intercalate ['/'] components, source)] store
  | .map entries =>
    rw [leavesAt, insertLeaf]
    exact registers_insertEntries store components entries
  | .table entries _ =>
    rw [leavesAt, insertLeaf]
    have h := registers_foldl
      (entries.map fun (key, source) => (List.intercalate ['/'] (components ++ [key]), source)) store
    rw [insertAll, List.foldl_map] at h
    exact h
  | .null | .bool _ | .int _ | .float _ | .bytes _ | .list _ | .function _ | .literal _
  | .generated _ | .template _ _ | .bareSource | .program _ =>
    simp only [leavesAt, insertLeaf]
    exact .failed _ [] store

end

theorem registers_add (store : FragmentStore) (path source : Value) :
    Registers (addedLeaves path source) store (store.add path source) := by
  unfold addedLeaves
  split
  · exact registers_foldl [_] store
  · exact registers_insertEntries store [] _
  · exact registers_foldl _ store
  · rename_i htext hmap htable
    have hrefused : store.add path source = .failed (.badFragment path) store := by
      unfold add
      split
      · exact (htext _ _ rfl rfl).elim
      · exact (hmap _ rfl rfl).elim
      · exact (htable _ _ rfl rfl).elim
      · rfl
    rw [hrefused]
    exact .failed _ [] store

theorem registers_loadFiles (store : FragmentStore) (directory : Text) (filter : ExtensionFilter)
    (count : Nat) (files : List (FileName × Value)) :
    Registers (fileLeaves directory filter files) store
      (loadFiles store directory filter count files) := by
  induction files generalizing store count with
  | nil => exact .done count store
  | cons file rest ih =>
    obtain ⟨name, source⟩ := file
    simp only [fileLeaves, loadFiles]
    cases filter.accepts name.splitExtension.2 with
    | error fault => exact .failed _ [] store
    | ok wanted =>
      cases wanted with
      | false => exact ih store count
      | true => exact (registers_add store _ source).andThen fun _ => ih _ _

theorem registers_load (store : FragmentStore) (files : List (FileName × Value))
    (origin : FragmentOrigin) (directory : Text) (filter : ExtensionFilter) :
    Registers (fileLeaves directory filter (sortedFiles files)) store
      (store.load files origin directory filter) := by
  have h : Registers (fileLeaves directory filter (sortedFiles files) ++ []) store
      (store.load files origin directory filter) :=
    (registers_loadFiles store directory filter 0 (sortedFiles files)).andThen fun _ => ⟨rfl, rfl⟩
  rw [List.append_nil] at h
  exact h

theorem registers_loadValue (store : FragmentStore) (loader directory extensions : Value) :
    Registers (loadedLeaves loader directory extensions) store
      (store.loadValue loader directory extensions) := by
  unfold loadedLeaves
  split
  · rename_i entries
    dsimp only [loadValue]
    cases namedSources entries with
    | error fault => exact .failed _ [] store
    | ok files =>
      cases (if entries.isEmpty then .ok .all else ExtensionFilter.ofValue extensions) with
      | error fault => exact .failed _ [] store
      | ok filter => exact registers_load store _ _ _ _
  · rename_i hmap
    have hrefused : store.loadValue loader directory extensions = .failed (.badLoader loader) store := by
      unfold loadValue
      split
      · exact (hmap _ rfl).elim
      · rfl
    rw [hrefused]
    exact .failed _ [] store

/-! ## Texts that are in place -/

/-- A text that its path already holds. -/
def InPlace (store : FragmentStore) (entry : Text × Text) : Prop :=
  store.source? (Path.collapse entry.1) = some entry.2

instance (store : FragmentStore) (entry : Text × Text) : Decidable (store.InPlace entry) :=
  inferInstanceAs (Decidable (_ = _))

theorem since_insertAll (store : FragmentStore) (entries : List (Text × Text)) :
    store.Since (store.insertAll entries) :=
  since_foldl_insert Prod.fst Prod.snd entries store

/-- The edit that registers a text at a path. -/
def placing (entry : Text × Text) : Edit := .put (Path.collapse entry.1) entry.2

theorem changes_placing_iff {store : FragmentStore} {entry : Text × Text} :
    (placing entry).Changes store.fragments ↔ ¬ store.InPlace entry := Iff.rfl

/-- Texts that are registered are edits, and the revision counts those that change something. -/
theorem counts_insertAll (store : FragmentStore) (entries : List (Text × Text)) :
    Counts fragments revision (entries.map placing) store (store.insertAll entries) := by
  induction entries generalizing store with
  | nil => exact .refl store
  | cons entry entries ih =>
    have hfirst : Counts fragments revision [placing entry] store (store.insert entry.1 entry.2) := by
      refine .single (fun hidle => if_pos (Decidable.not_not.1 hidle)) fun hchanges => ?_
      have hother : store.source? (Path.collapse entry.1) ≠ some entry.2 := hchanges
      rw [insert, if_neg hother]
      exact ⟨rfl, rfl⟩
    exact hfirst.append (ih _)

/-- **The revision is the same exactly if all texts are in place,** and then so is the store. One text
that is not leaves another revision, whatever is registered behind it. -/
theorem insertAll_revision_iff {store : FragmentStore} {entries : List (Text × Text)} :
    (store.insertAll entries).revision = store.revision ↔ ∀ entry ∈ entries, store.InPlace entry := by
  rw [(counts_insertAll store entries).revision_eq_iff, idle_iff, List.forall_mem_map]
  exact forall₂_congr fun entry _ => by rw [changes_placing_iff, Decidable.not_not]

theorem insertAll_of_inPlace {store : FragmentStore} {entries : List (Text × Text)}
    (h : ∀ entry ∈ entries, store.InPlace entry) : store.insertAll entries = store :=
  (since_insertAll store entries).eq_of_revision (insertAll_revision_iff.2 h)

end FragmentStore

namespace Library

/-! ## What acts register -/

/-- The leaves that an act comes to. -/
def Act.leaves : Act → FragmentStore.Leaves
  | add path source => FragmentStore.addedLeaves path source
  | load loader directory extensions => FragmentStore.loadedLeaves loader directory extensions
  | loadFiles files _ directory filter =>
    FragmentStore.fileLeaves directory filter (FragmentStore.sortedFiles files)
  | elsewhere _ act => act.leaves
  | _ => []

/-- The texts that an act registers, in order, with their paths. -/
def Act.registered (act : Act) : List (Text × Text) := act.leaves.registered

/-- **What an act does to the store** is to register its texts. -/
theorem store_perform (act : Act) (library : Library) :
    (act.perform library).state.store = library.store.insertAll act.registered := by
  induction act generalizing library with
  | compile name source defines => exact store_eq_of_plain (plain_state_compileGiven _ _ _ _)
  | get path => exact store_eq_of_plain (plain_state_get _ _)
  | add path source => exact (FragmentStore.registers_add _ _ _).state
  | load loader directory extensions => exact (FragmentStore.registers_loadValue _ _ _ _).state
  | loadFiles files origin directory filter => exact (FragmentStore.registers_load _ _ _ _ _).state
  | use transform =>
    simp only [Act.perform, use, Composer.use, Step.state_map, Step.state_within]
    cases Composer.transform? transform <;> rfl
  | elsewhere other act ih => exact ih (other.withComposer library.composer)
  | _ => rfl

end Library

end GlslCompose
