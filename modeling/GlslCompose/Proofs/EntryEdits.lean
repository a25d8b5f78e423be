/-
`Proofs/EntryEdits.lean` -- edits of single entries, and counting those that change something.

A store and a table of defines are both a map from texts to texts with a count of its
changes. Whatever an operation is called with, what it comes down to is a list of edits:
a name is given a text, or is taken away, one after the other. An edit changes its entry if
the entry has another text afterwards than before, or has come or gone (`Edit.Changes`), and
an edit that does not leaves the whole map as it is, its order included
(`Edit.on_of_not_changes`).

`Counts` says of two states that some edits lead from the one to the other and that the count
has grown by the number of those that changed their entry when their turn came. It is put
together edit by edit (`Counts.append`). What a reader wants to know follows from it once and
for all (`Counts.tells`): the count never falls, it is the same exactly if no edit changed
anything, and then the map is the same.
-/
import GlslCompose.OrderedMap
import GlslCompose.Text.Basic

set_option autoImplicit false

namespace GlslCompose

/-! ## Writing what is there already -/

namespace Pairs

variable {κ ν : Type} [BEq κ]

theorem put_of_get? {key : κ} {value : ν} {pairs : List (κ × ν)} (h : get? key pairs = some value) :
    put key value pairs = pairs := by
  induction pairs with
  | nil => cases h
  | cons pair rest ih =>
    obtain ⟨k, v⟩ := pair
    rw [get?] at h
    rw [put]
    split
    · rename_i hkey
      rw [if_pos hkey] at h
      rw [Option.some.inj h]
    · rename_i hkey
      rw [if_neg hkey] at h
      rw [ih h]

theorem drop_of_get?_none {key : κ} {pairs : List (κ × ν)} (h : get? key pairs = none) :
    drop key pairs = pairs := by
  induction pairs with
  | nil => rfl
  | cons pair rest ih =>
    obtain ⟨k, v⟩ := pair
    rw [get?] at h
    split at h
    · cases h
    · rename_i hkey
      rw [drop, List.filter_cons_of_pos (by simpa using hkey)]
      exact congrArg (List.cons _) (ih h)

end Pairs

namespace OrderedMap

variable {κ ν : Type} [DecidableEq κ]

theorem insert_of_get? {m : OrderedMap κ ν} {key : κ} {value : ν} (h : m.get? key = some value) :
    m.insert key value = m := ext (Pairs.put_of_get? h)

theorem erase_of_get?_none {m : OrderedMap κ ν} {key : κ} (h : m.get? key = none) :
    m.erase key = m := ext (Pairs.drop_of_get?_none h)

end OrderedMap

/-! ## Edits -/

/-- **One entry is written:** a name is given a text, or is taken away. -/
inductive Edit where
  | put (name value : Text)
  | drop (name : Text)
  deriving DecidableEq, Repr

namespace Edit

/-- The name whose entry is written. -/
def name : Edit → Text
  | put name _ => name
  | drop name => name

/-- What the entry has afterwards. -/
def value? : Edit → Option Text
  | put _ value => some value
  | drop _ => none

/-- Entries with an edit made. -/
def on (edit : Edit) (entries : OrderedMap Text Text) : OrderedMap Text Text :=
  match edit with
  | put name value => entries.insert name value
  | drop name => entries.erase name

/-- **Whether an edit changes its entry:** it has another text afterwards, or it has come or gone. -/
def Changes (edit : Edit) (entries : OrderedMap Text Text) : Prop :=
  entries.get? edit.name ≠ edit.value?

instance (edit : Edit) (entries : OrderedMap Text Text) : Decidable (edit.Changes entries) :=
  inferInstanceAs (Decidable (_ ≠ _))

/-- An edit writes its entry and leaves the others alone. -/
theorem get?_on (edit : Edit) (entries : OrderedMap Text Text) (other : Text) :
    (edit.on entries).get? other = if edit.name = other then edit.value? else entries.get? other := by
  cases edit with
  | put name value => exact OrderedMap.get?_insert entries name other value
  | drop name => exact OrderedMap.get?_erase entries name other

/-- **An edit that does not change its entry changes nothing.** -/
theorem on_of_not_changes {edit : Edit} {entries : OrderedMap Text Text}
    (h : ¬ edit.Changes entries) : edit.on entries = entries := by
  rw [Changes, Decidable.not_not] at h
  cases edit with
  | put name value => exact OrderedMap.insert_of_get? h
  | drop name => exact OrderedMap.erase_of_get?_none h

end Edit

/-- Entries with edits made one after the other. -/
def editAll (entries : OrderedMap Text Text) (edits : List Edit) : OrderedMap Text Text :=
  edits.foldl (fun entries edit => edit.on entries) entries

/-- **No edit changes its entry** when its turn comes. -/
def Idle (entries : OrderedMap Text Text) : List Edit → Prop
  | [] => True
  | edit :: edits => ¬ edit.Changes entries ∧ Idle (edit.on entries) edits

/-- The number of edits that change their entry when their turn comes. -/
def alterations (entries : OrderedMap Text Text) : List Edit → Nat
  | [] => 0
  | edit :: edits =>
    (if edit.Changes entries then 1 else 0) + alterations (edit.on entries) edits

theorem editAll_append (entries : OrderedMap Text Text) (edits more : List Edit) :
    editAll entries (edits ++ more) = editAll (editAll entries edits) more := List.foldl_append

theorem alterations_append (entries : OrderedMap Text Text) (edits more : List Edit) :
    alterations entries (edits ++ more)
      = alterations entries edits + alterations (editAll entries edits) more := by
  induction edits generalizing entries with
  | nil => exact (Nat.zero_add _).symm
  | cons edit edits ih =>
    rw [List.cons_append, alterations, alterations, ih, Nat.add_assoc]
    rfl

theorem alterations_eq_zero_iff {entries : OrderedMap Text Text} {edits : List Edit} :
    alterations entries edits = 0 ↔ Idle entries edits := by
  induction edits generalizing entries with
  | nil => exact iff_of_true rfl trivial
  | cons edit edits ih =>
    rw [alterations, Nat.add_eq_zero_iff, ih, Idle]
    exact and_congr_left' (by simp)

/-- Edits that change nothing when their turn comes would change nothing at the start, and the other way
round. -/
theorem idle_iff {entries : OrderedMap Text Text} {edits : List Edit} :
    Idle entries edits ↔ ∀ edit ∈ edits, ¬ edit.Changes entries := by
  induction edits generalizing entries with
  | nil => exact iff_of_true trivial nofun
  | cons edit edits ih =>
    rw [Idle, List.forall_mem_cons]
    refine and_congr_right fun h => ?_
    rw [Edit.on_of_not_changes h, ih]

theorem editAll_of_idle {entries : OrderedMap Text Text} {edits : List Edit} (h : Idle entries edits) :
    editAll entries edits = entries := by
  induction edits generalizing entries with
  | nil => rfl
  | cons edit edits ih =>
    have hsame := Edit.on_of_not_changes h.1
    exact (ih h.2).trans hsame

theorem get?_editAll_of_notMem {edits : List Edit} {name : Text} (h : name ∉ edits.map Edit.name)
    (entries : OrderedMap Text Text) : (editAll entries edits).get? name = entries.get? name := by
  induction edits generalizing entries with
  | nil => rfl
  | cons edit edits ih =>
    rw [List.map_cons, List.mem_cons, not_or] at h
    exact (ih h.2 _).trans (by rw [Edit.get?_on, if_neg (Ne.symm h.1)])

theorem get?_editAll_of_mem {edits : List Edit} (hdistinct : (edits.map Edit.name).Nodup) {edit : Edit}
    (h : edit ∈ edits) (entries : OrderedMap Text Text) :
    (editAll entries edits).get? edit.name = edit.value? := by
  induction edits generalizing entries with
  | nil => cases h
  | cons first edits ih =>
    rw [List.map_cons, List.nodup_cons] at hdistinct
    rcases List.mem_cons.1 h with rfl | hmem
    · exact (get?_editAll_of_notMem hdistinct.1 _).trans (by rw [Edit.get?_on, if_pos rfl])
    · exact ih hdistinct.2 hmem _

/-- **Edits of different entries that leave every entry as it was have changed none.** Where one entry is
written twice the second edit may put back what was there. -/
theorem idle_of_get?_eq {edits : List Edit} (hdistinct : (edits.map Edit.name).Nodup)
    {entries : OrderedMap Text Text}
    (h : ∀ name, (editAll entries edits).get? name = entries.get? name) : Idle entries edits := by
  refine idle_iff.2 fun edit hmem hchanges => hchanges ?_
  rw [← h edit.name, get?_editAll_of_mem hdistinct hmem entries]

theorem editAll_eq_iff {edits : List Edit} (hdistinct : (edits.map Edit.name).Nodup)
    (entries : OrderedMap Text Text) : editAll entries edits = entries ↔ Idle entries edits :=
  ⟨fun h => idle_of_get?_eq hdistinct fun _ => by rw [h], editAll_of_idle⟩

/-! ## Counting -/

section Counting

variable {σ : Type} {entries : σ → OrderedMap Text Text} {revision : σ → Nat} {old mid new : σ}
  {edits more : List Edit}

/-- **Some edits lead from one state to another,** and the revision has grown by the number of those that
changed their entry. -/
structure Counts (entries : σ → OrderedMap Text Text) (revision : σ → Nat) (edits : List Edit)
    (old new : σ) : Prop where
  edited : entries new = editAll (entries old) edits
  counted : revision new = revision old + alterations (entries old) edits

theorem Counts.refl (state : σ) : Counts entries revision [] state state := ⟨rfl, rfl⟩

/-- One edit, which leaves the state as it is or is counted. -/
theorem Counts.single {edit : Edit} (hidle : ¬ edit.Changes (entries old) → new = old)
    (hchanges : edit.Changes (entries old) →
      entries new = edit.on (entries old) ∧ revision new = revision old + 1) :
    Counts entries revision [edit] old new := by
  by_cases h : edit.Changes (entries old)
  · exact ⟨(hchanges h).1, by rw [(hchanges h).2, alterations, if_pos h]; rfl⟩
  · rw [hidle h]
    exact ⟨(Edit.on_of_not_changes h).symm, by rw [alterations, if_neg h]; rfl⟩

theorem Counts.append (h : Counts entries revision edits old mid)
    (hmore : Counts entries revision more mid new) :
    Counts entries revision (edits ++ more) old new := by
  refine ⟨?_, ?_⟩
  · rw [hmore.edited, h.edited, editAll_append]
  · rw [hmore.counted, h.counted, h.edited, alterations_append, Nat.add_assoc]

/-- **What a revision tells** of a state and a later one, some edits having been made in between. -/
structure Tells (entries : σ → OrderedMap Text Text) (revision : σ → Nat) (edits : List Edit)
    (old new : σ) : Prop where
  /-- The later entries are what the edits make of the earlier ones. -/
  edited : entries new = editAll (entries old) edits
  /-- The revision never falls. -/
  le : revision old ≤ revision new
  /-- The revision is the same exactly if no edit changed its entry. -/
  same_iff : revision new = revision old ↔ Idle (entries old) edits
  /-- With the same revision the entries are the same, and so is their order. -/
  same : revision new = revision old → entries new = entries old

theorem Counts.revision_eq_iff (h : Counts entries revision edits old new) :
    revision new = revision old ↔ Idle (entries old) edits := by
  rw [h.counted, ← alterations_eq_zero_iff]
  omega

/-- **A revision that counts changes tells of them.** -/
theorem Counts.tells (h : Counts entries revision edits old new) :
    Tells entries revision edits old new where
  edited := h.edited
  le := h.counted ▸ Nat.le_add_right _ _
  same_iff := h.revision_eq_iff
  same heq := by rw [h.edited, editAll_of_idle (h.revision_eq_iff.1 heq)]

end Counting

end GlslCompose
