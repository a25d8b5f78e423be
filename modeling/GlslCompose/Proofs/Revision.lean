/-
`Proofs/Revision.lean` -- what the revisions of stores and of tables of defines tell.

Both count their changes, and a reader that remembers a revision later asks whether
it is still the same. That is worth something only if an equal revision means equal
content, after any operation and also after one that failed half way. So the
relation to follow is `Later`: a thing is as it was, or its revision has grown. It is
reflexive and transitive, every operation moves along it, and of two states that
stand in it and agree in their revisions it says that they are the same.

The work is in the operations that go through a whole mapping, because each of them
may stop at any entry. For those the relation is carried along the recursion, and
`Step.state_andThen_of` does away with the question where the recursion stopped.
-/
import GlslCompose.FragmentStore.Bundled
import GlslCompose.MacroTable

set_option autoImplicit false

namespace GlslCompose

/-- **A later state of something that counts its changes.** It is the same state, or the count has
grown. -/
def Later {σ : Type} (revision : σ → Nat) (old new : σ) : Prop :=
  new = old ∨ revision old < revision new

namespace Later

variable {σ : Type} {revision : σ → Nat} {a b c : σ}

theorem refl (a : σ) : Later revision a a := .inl rfl

theorem trans (hab : Later revision a b) (hbc : Later revision b c) : Later revision a c := by
  rcases hab with rfl | hab
  · exact hbc
  · rcases hbc with rfl | hbc
    · exact .inr hab
    · exact .inr (Nat.lt_trans hab hbc)

/-- The count never falls. -/
theorem le (h : Later revision a b) : revision a ≤ revision b := by
  rcases h with rfl | h
  · exact Nat.le_refl _
  · exact Nat.le_of_lt h

/-- **The revision identifies the content.** -/
theorem eq_of_revision (h : Later revision a b) (he : revision b = revision a) : b = a := by
  rcases h with h | h
  · exact h
  · omega

end Later

/-! ## Stores -/

namespace FragmentStore

/-- A later state of a store. -/
abbrev Since (old new : FragmentStore) : Prop := Later FragmentStore.revision old new

theorem since_insert (store : FragmentStore) (path source : Text) :
    store.Since (store.insert path source) := by
  simp only [insert]
  split
  · exact .refl store
  · exact .inr (Nat.lt_succ_self _)

/-- Texts registered one after the other, wherever the paths come from. -/
theorem since_foldl_insert {α : Type} (path source : α → Text) (items : List α)
    (store : FragmentStore) :
    store.Since (items.foldl (fun store a => store.insert (path a) (source a)) store) := by
  induction items generalizing store with
  | nil => exact .refl store
  | cons a items ih => exact (since_insert store _ _).trans (ih _)

mutual

theorem since_insertEntries (store : FragmentStore) (above : List Text)
    (entries : List (Value × Value)) :
    store.Since (insertEntries store above entries).state := by
  match entries with
  | [] => exact .refl store
  | (key, value) :: rest =>
    rw [insertEntries]
    -- The entries behind the first are only reached if that one did not fail; it is later both ways.
    have hleaf := since_insertLeaf store (above ++ [key.display]) value
    exact Step.state_andThen_of hleaf fun _ _ => hleaf.trans (since_insertEntries _ above rest)

theorem since_insertLeaf (store : FragmentStore) (components : List Text) (value : Value) :
    store.Since (insertLeaf store components value).state := by
  match value with
  | .text source => rw [insertLeaf]; exact since_insert store _ _
  | .map entries => rw [insertLeaf]; exact since_insertEntries store components entries
  | .table entries _ =>
    rw [insertLeaf]
    exact since_foldl_insert
      (fun entry : Text × Text => List.intercalate ['/'] (components ++ [entry.1])) Prod.snd
      entries store
  | .null | .bool _ | .int _ | .float _ | .bytes _ | .list _ | .function _ | .literal _
  | .generated _ | .template _ _ | .bareSource | .program _ =>
    simp only [insertLeaf, Step.state_failed]
    exact .refl store

end

theorem since_add (store : FragmentStore) (path source : Value) :
    store.Since (store.add path source).state := by
  unfold add
  split
  · exact since_insert store _ _
  · exact since_insertEntries store [] _
  · exact since_foldl_insert (fun entry : Text × Text => entry.1) Prod.snd _ store
  · exact .refl store

theorem since_loadFiles (store : FragmentStore) (directory : Text) (filter : ExtensionFilter)
    (count : Nat) (files : List (FileName × Value)) :
    store.Since (loadFiles store directory filter count files).state := by
  induction files generalizing store count with
  | nil => exact .refl store
  | cons file rest ih =>
    obtain ⟨name, source⟩ := file
    simp only [loadFiles]
    split
    · exact .refl store
    · exact ih store count
    · have hadd := since_add store (.text (directory ++ '/' :: name.splitExtension.1.written)) source
      exact Step.state_andThen_of hadd fun _ _ => hadd.trans (ih _ _)

theorem since_load (store : FragmentStore) (files : List (FileName × Value))
    (origin : FragmentOrigin) (directory : Text) (filter : ExtensionFilter) :
    store.Since (store.load files origin directory filter).state := by
  have hfiles := since_loadFiles store directory filter 0 (sortedFiles files)
  exact Step.state_andThen_of hfiles fun _ _ => hfiles

theorem since_loadValue (store : FragmentStore) (loader directory extensions : Value) :
    store.Since (store.loadValue loader directory extensions).state := by
  unfold loadValue
  split
  · simp only
    split
    · exact since_load store _ _ _ _
    · exact .refl store
    · exact .refl store
  · exact .refl store

end FragmentStore

/-! ## Tables of defines -/

namespace MacroTable

/-- A later state of a table. -/
abbrev Since (old new : MacroTable) : Prop := Later MacroTable.revision old new

theorem since_set (table : MacroTable) (name value : Text) :
    table.Since (table.set name value).1 := by
  unfold set
  split
  · exact .inl rfl
  · exact .inr (Nat.lt_succ_self _)

theorem since_defineOne (table : MacroTable) (name value : Value) :
    table.Since (table.defineOne name value).state := by
  unfold defineOne
  split
  · split
    · exact .refl table
    · exact since_set table _ _
  · exact .refl table

theorem since_defineEntries (table : MacroTable) (changed : Bool) (entries : List (Value × Value)) :
    table.Since (table.defineEntries changed entries).state := by
  induction entries generalizing table changed with
  | nil => exact .refl table
  | cons entry rest ih =>
    obtain ⟨name, value⟩ := entry
    -- Where an entry is refused, the ones before it stay.
    have hone := since_defineOne table name value
    exact Step.state_andThen_of hone fun _ _ => hone.trans (ih _ _)

theorem since_define (table : MacroTable) (name value : Value) :
    table.Since (table.define name value).state := by
  unfold define
  split
  · exact since_defineEntries table false _
  · exact since_defineOne table name value

theorem since_undefine (table : MacroTable) (name : Text) : table.Since (table.undefine name) := by
  unfold undefine
  split
  · exact .inr (Nat.lt_succ_self _)
  · exact .inl rfl

theorem since_remove (table : MacroTable) (name : Value) :
    table.Since (table.remove name).state := by
  unfold remove
  split
  · exact since_undefine table _
  · split
    · exact .refl table
    · exact .refl table

end MacroTable

end GlslCompose
