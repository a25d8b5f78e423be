/-
`Proofs/CountedChanges.lean` -- a revision identifies the content, whatever was called in
between.

Whoever keeps something that was made of a store or of a table of defines remembers the
revision and later compares it. For that to be as good as comparing the content, every call
has to count each change of an entry and nothing else, and that also if it fails half way:
a mapping is gone through entry by entry, and what was written before the fault stays
written. So for every call it is said which edits it makes (`MacroTables.Call.edits`,
`FragmentStore.Call.edits`), up to where it fails, and shown that they are counted
(`counts_perform`). A run of calls makes the edits of all of them.

Tables may be values in one another, and in themselves. What such a value stands for is
looked at when its turn comes, so the edits of a call depend on the tables as the edits
before have left them.
-/
import GlslCompose.MacroTables
import GlslCompose.Proofs.Registrations
import Mathlib.Data.List.Nodup

set_option autoImplicit false

namespace GlslCompose

/-! ## One table -/

namespace MacroTable

theorem counts_set (table : MacroTable) (name value : Text) :
    Counts defines revision [.put name value] table (table.set name value).1 := by
  refine .single (fun hidle => ?_) fun hchanges => ?_
  · have hsame : table.get? name = some value := Decidable.not_not.1 hidle
    rw [set, if_pos hsame]
  · have hother : table.get? name ≠ some value := hchanges
    rw [set, if_neg hother]
    exact ⟨rfl, rfl⟩

theorem set_changes_iff (table : MacroTable) (name value : Text) :
    (table.set name value).2 = true ↔ (Edit.put name value).Changes table.defines := by
  rw [set]
  split
  · rename_i hsame
    exact iff_of_false Bool.false_ne_true (not_not_intro hsame)
  · rename_i hother
    exact iff_of_true rfl hother

theorem counts_undefine (table : MacroTable) (name : Text) :
    Counts defines revision [.drop name] table (table.undefine name) := by
  refine .single (fun hidle => ?_) fun hchanges => ?_
  · have hnone : table.get? name = none := Decidable.not_not.1 hidle
    rw [undefine, if_neg (by simp [hnone])]
  · have hsome : (table.get? name).isSome = true := Option.isSome_iff_ne_none.2 hchanges
    rw [undefine, if_pos hsome]
    exact ⟨rfl, rfl⟩

/-- The edit that removing what a value names comes down to, if it is a name at all. -/
def removalEdits : Value → List Edit
  | .text name => [.drop name]
  | _ => []

theorem counts_remove (table : MacroTable) (name : Value) :
    Counts defines revision (removalEdits name) table (table.remove name).state := by
  unfold remove
  split
  · exact counts_undefine table _
  · rename_i hname
    have hnone : removalEdits name = [] := by
      unfold removalEdits
      split
      · exact (hname _ rfl).elim
      · rfl
    rw [hnone]
    split
    · exact .refl table
    · exact .refl table

theorem nodup_removalEdits (name : Value) : ((removalEdits name).map Edit.name).Nodup := by
  unfold removalEdits
  split
  · exact List.nodup_singleton _
  · exact List.nodup_nil

end MacroTable

/-! ## Tables side by side -/

namespace TableArgument

/-- The names that a value names, each with what it is set to: for a mapping what stands there, else
the argument. -/
def valueSettings (argument : TableArgument) (name : Value) : List (Value × TableArgument) :=
  match name.entries? with
  | some entries => entries.map fun (name, v) => (name, value v)
  | none => [(name, argument)]

/-- **What a call sets,** one name after the other. -/
def settings (tables : MacroTables) (name argument : TableArgument) :
    List (Value × TableArgument) :=
  match name with
  | map entries => entries
  | name => argument.valueSettings (name.seen tables)

end TableArgument

namespace MacroTables

/-- **The edits of names that are set one after the other** in a table that stands at a place among
others. A value of nothing sets nothing, and a name that is no text ends it. -/
def settingEdits (tables : MacroTables) (place : Nat) (table : MacroTable) :
    List (Value × TableArgument) → List Edit
  | [] => []
  | (.text name, argument) :: rest =>
    match macroValue? (argument.seen (tables.set place table)) with
    | none => settingEdits tables place table rest
    | some value => .put name value :: settingEdits tables place (table.set name value).1 rest
  | _ :: _ => []

/-- Whether every name that is set is a text. -/
def Nameable (settings : List (Value × TableArgument)) : Prop :=
  ∀ setting ∈ settings, ∃ name, setting.1 = .text name

theorem counts_defineEntries (tables : MacroTables) (place : Nat) (table : MacroTable) (changed : Bool)
    (settings : List (Value × TableArgument)) :
    Counts MacroTable.defines MacroTable.revision (settingEdits tables place table settings) table
      (defineEntries tables place table changed settings).state := by
  induction settings generalizing table changed with
  | nil => exact .refl table
  | cons setting rest ih =>
    obtain ⟨name, argument⟩ := setting
    cases name with
    | text name =>
      simp only [defineEntries, settingEdits, MacroTable.defineOne]
      cases macroValue? (argument.seen (tables.set place table)) with
      | none => exact ih table _
      | some value => exact (table.counts_set name value).append (ih _ _)
    | _ => exact .refl table

/-- Setting names succeeds where all of them are texts, and tells whether an entry was changed. -/
theorem result_defineEntries {settings : List (Value × TableArgument)} (h : Nameable settings)
    (tables : MacroTables) (place : Nat) (table : MacroTable) (changed : Bool) :
    ∃ now, (defineEntries tables place table changed settings).result = .ok now ∧
      (now = true ↔ changed = true ∨
        ¬ Idle table.defines (settingEdits tables place table settings)) := by
  induction settings generalizing table changed with
  | nil => exact ⟨changed, rfl, by simp [settingEdits, Idle]⟩
  | cons setting rest ih =>
    obtain ⟨name, argument⟩ := setting
    obtain ⟨⟨name, rfl⟩, hrest⟩ := List.forall_mem_cons.1 h
    simp only [defineEntries, settingEdits, MacroTable.defineOne]
    cases macroValue? (argument.seen (tables.set place table)) with
    | none =>
      obtain ⟨now, hresult, hnow⟩ := ih hrest table (changed || false)
      exact ⟨now, hresult, by rwa [Bool.or_false] at hnow⟩
    | some value =>
      obtain ⟨now, hresult, hnow⟩ := ih hrest (table.set name value).1
        (changed || (table.set name value).2)
      have hedited : (table.set name value).1.defines = (Edit.put name value).on table.defines :=
        (table.counts_set name value).edited
      refine ⟨now, hresult, hnow.trans ?_⟩
      rw [Bool.or_eq_true, table.set_changes_iff, hedited, Idle, or_assoc, not_and_or, not_not]

/-- A name that is no text is refused. -/
theorem error_defineEntries {settings : List (Value × TableArgument)} (h : ¬ Nameable settings)
    (tables : MacroTables) (place : Nat) (table : MacroTable) (changed : Bool) :
    ∃ fault, (defineEntries tables place table changed settings).result = .error fault := by
  induction settings generalizing table changed with
  | nil => exact (h nofun).elim
  | cons setting rest ih =>
    obtain ⟨name, argument⟩ := setting
    cases name with
    | text name =>
      have hrest : ¬ Nameable rest := fun hrest => h (List.forall_mem_cons.2 ⟨⟨name, rfl⟩, hrest⟩)
      simp only [defineEntries, MacroTable.defineOne]
      cases macroValue? (argument.seen (tables.set place table)) with
      | none => exact ih hrest table _
      | some value => exact ih hrest _ _
    | _ => exact ⟨_, rfl⟩

/-- The names of the edits are among the names that are set. -/
theorem names_settingEdits (tables : MacroTables) (place : Nat) (table : MacroTable)
    (settings : List (Value × TableArgument)) :
    ((settingEdits tables place table settings).map fun edit => Value.text edit.name).Sublist
      (settings.map Prod.fst) := by
  induction settings generalizing table with
  | nil => exact .slnil
  | cons setting rest ih =>
    obtain ⟨name, argument⟩ := setting
    cases name with
    | text name =>
      rw [settingEdits]
      cases macroValue? (argument.seen (tables.set place table)) with
      | none => exact (ih table).cons _
      | some value => exact (ih _).cons_cons _
    | _ => exact List.nil_sublist _

theorem nodup_settingEdits {settings : List (Value × TableArgument)}
    (h : (settings.map Prod.fst).Nodup) (tables : MacroTables) (place : Nat) (table : MacroTable) :
    ((settingEdits tables place table settings).map Edit.name).Nodup := by
  refine List.Nodup.of_map Value.text ?_
  rw [List.map_map]
  exact h.sublist (names_settingEdits tables place table settings)

/-- What is set by a value is set one name after the other, as what is set by a mapping is. -/
theorem define_valueSettings {tables : MacroTables} {place : Nat} {table : MacroTable}
    (h : tables[place]? = some table) (name : Value) (argument : TableArgument) :
    let step := defineEntries tables place table false (argument.valueSettings name)
    (table.define name (argument.seen tables)).result = step.result ∧
      (table.define name (argument.seen tables)).state = step.state := by
  unfold MacroTable.define TableArgument.valueSettings
  cases name.entries? with
  | some entries =>
    dsimp only
    rw [defineEntries_value]
    exact ⟨rfl, rfl⟩
  | none =>
    obtain ⟨hplace, rfl⟩ := List.getElem?_eq_some_iff.1 h
    dsimp only [defineEntries]
    rw [List.set_getElem_self, Step.andThen]
    cases (tables[place].defineOne name (argument.seen tables)).result with
    | error fault => exact ⟨rfl, rfl⟩
    | ok now => exact ⟨rfl, rfl⟩

/-- What a table that stands alone is told to set is counted. -/
theorem counts_define_alone (table : MacroTable) (name value : Value) :
    Counts MacroTable.defines MacroTable.revision
      (settingEdits [table] 0 table ((TableArgument.value value).valueSettings name)) table
      (table.define name value).state := by
  have hplace : ([table] : MacroTables)[0]? = some table := rfl
  have hstate := (define_valueSettings hplace name (.value value)).2
  rw [TableArgument.seen_value] at hstate
  rw [hstate]
  exact counts_defineEntries [table] 0 table false _

/-- **A call sets one name after the other,** whatever it is called with. -/
theorem define_settings {tables : MacroTables} {place : Nat} {table : MacroTable}
    (h : tables[place]? = some table) (name argument : TableArgument) :
    let step := defineEntries tables place table false (TableArgument.settings tables name argument)
    (define tables place name argument).result = step.result ∧
      (define tables place name argument).state = tables.set place step.state := by
  have hvalue := define_valueSettings h (name.seen tables) argument
  unfold define
  rw [h]
  cases name with
  | map entries => exact ⟨rfl, rfl⟩
  | _ => exact ⟨hvalue.1, congrArg (tables.set place ·) hvalue.2⟩

/-! ## Calls -/

/-- **A call that may change a table:** at a place names are set, or one is removed. -/
inductive Call where
  | define (place : Nat) (name argument : TableArgument)
  | undefine (place : Nat) (name : Value)

namespace Call

/-- The place of the table that is written to. -/
def place : Call → Nat
  | define place _ _ => place
  | undefine place _ => place

/-- The tables behind a call, whether it failed or not. -/
def perform (tables : MacroTables) : Call → MacroTables
  | define place name argument => (MacroTables.define tables place name argument).state
  | undefine place name =>
    match tables[place]? with
    | some table => tables.set place (table.remove name).state
    | none => tables

/-- The edits that a call makes in its own table. -/
def ownEdits (tables : MacroTables) (table : MacroTable) : Call → List Edit
  | define place name argument =>
    settingEdits tables place table (TableArgument.settings tables name argument)
  | undefine _ name => MacroTable.removalEdits name

/-- **The edits that a call makes** in the table at a place. -/
def edits (call : Call) (tables : MacroTables) (place : Nat) (table : MacroTable) : List Edit :=
  if call.place = place then call.ownEdits tables table else []

/-- A call writes to its own table, and what it writes is counted. -/
theorem perform_eq {tables : MacroTables} {call : Call} {table : MacroTable}
    (h : tables[call.place]? = some table) :
    ∃ new, call.perform tables = tables.set call.place new ∧
      Counts MacroTable.defines MacroTable.revision (call.ownEdits tables table) table new := by
  cases call with
  | define place name argument =>
    exact ⟨_, (define_settings h name argument).2, counts_defineEntries tables place table false _⟩
  | undefine place name =>
    refine ⟨_, ?_, table.counts_remove name⟩
    have hplace : tables[place]? = some table := h
    rw [perform, hplace]
    rfl

theorem perform_of_none {tables : MacroTables} {call : Call} (h : tables[call.place]? = none) :
    call.perform tables = tables := by
  cases call with
  | define place name argument =>
    have hplace : tables[place]? = none := h
    rw [perform, MacroTables.define, hplace]
    rfl
  | undefine place name =>
    have hplace : tables[place]? = none := h
    rw [perform, hplace]

/-- **Every change that a call makes is counted,** and nothing else is. -/
theorem counts_perform {tables : MacroTables} {place : Nat} {table : MacroTable}
    (h : tables[place]? = some table) (call : Call) :
    ∃ new, (call.perform tables)[place]? = some new ∧
      Counts MacroTable.defines MacroTable.revision (call.edits tables place table) table new := by
  rw [edits]
  split
  · rename_i hplace
    subst hplace
    obtain ⟨new, hperform, hcounts⟩ := perform_eq h
    refine ⟨new, ?_, hcounts⟩
    rw [hperform, List.getElem?_set_self (List.getElem?_eq_some_iff.1 h).1]
  · rename_i hplace
    refine ⟨table, ?_, .refl table⟩
    cases hother : tables[call.place]? with
    | none => rw [perform_of_none hother, h]
    | some other =>
      obtain ⟨new, hperform, -⟩ := perform_eq hother
      rw [hperform, List.getElem?_set_ne hplace, h]

end Call

/-- The tables behind some calls. -/
def after (tables : MacroTables) (calls : List Call) : MacroTables :=
  calls.foldl (fun tables call => call.perform tables) tables

/-- **The edits that calls make** in the table at a place. -/
def edits (tables : MacroTables) (place : Nat) : List Call → List Edit
  | [] => []
  | call :: calls =>
    (match tables[place]? with
      | some table => call.edits tables place table
      | none => []) ++ edits (call.perform tables) place calls

/-- A run of calls counts what each of them changes. -/
theorem counts_after {tables : MacroTables} {place : Nat} {old : MacroTable}
    (h : tables[place]? = some old) (calls : List Call) :
    ∃ new, (tables.after calls)[place]? = some new ∧
      Counts MacroTable.defines MacroTable.revision (tables.edits place calls) old new := by
  induction calls generalizing tables old with
  | nil => exact ⟨old, h, .refl old⟩
  | cons call calls ih =>
    obtain ⟨mid, hmid, hcall⟩ := call.counts_perform h
    obtain ⟨new, hnew, hcalls⟩ := ih hmid
    refine ⟨new, hnew, ?_⟩
    rw [edits, h]
    exact hcall.append hcalls

theorem after_append (tables : MacroTables) (calls more : List Call) :
    tables.after (calls ++ more) = (tables.after calls).after more := List.foldl_append

/-- **What the answer of a call tells** that sets names in a table. -/
structure Answered (tables : MacroTables) (place : Nat) (table : MacroTable)
    (name argument : TableArgument) (changed : Bool) (new : MacroTable) : Prop where
  result : (define tables place name argument).result = .ok changed
  state : (define tables place name argument).state[place]? = some new
  /-- The answer is that the table was changed exactly if one of the edits changed an entry. -/
  changed_iff : changed = true ↔
    ¬ Idle table.defines (settingEdits tables place table (TableArgument.settings tables name argument))
  /-- Where each name is named once, that is exactly if the table holds something else than before. -/
  ne_iff : ((TableArgument.settings tables name argument).map Prod.fst).Nodup →
    (changed = true ↔ new.defines ≠ table.defines)

theorem answered {tables : MacroTables} {place : Nat} {table : MacroTable}
    (h : tables[place]? = some table) {name argument : TableArgument}
    (hnames : Nameable (TableArgument.settings tables name argument)) :
    ∃ changed new, Answered tables place table name argument changed new := by
  obtain ⟨hresult, hstate⟩ := define_settings h name argument
  obtain ⟨changed, hchanged, hiff⟩ := result_defineEntries hnames tables place table false
  simp only [Bool.false_eq_true, false_or] at hiff
  have hcounts := counts_defineEntries tables place table false
    (TableArgument.settings tables name argument)
  have hplace : place < tables.length := (List.getElem?_eq_some_iff.1 h).1
  refine ⟨changed, _, hresult.trans hchanged, hstate ▸ List.getElem?_set_self hplace, hiff,
    fun hdistinct => ?_⟩
  rw [hiff, hcounts.edited, Ne, editAll_eq_iff (nodup_settingEdits hdistinct tables place table)]

end MacroTables

/-! ## Stores -/

namespace FragmentStore

/-- **A call that may change a store:** something is added, or files are loaded, from a map or from
another collection. -/
inductive Call where
  | add (path source : Value)
  | load (loader directory extensions : Value)
  | loadFiles (files : List (FileName × Value)) (origin : FragmentOrigin) (directory : Text)
    (filter : ExtensionFilter)

namespace Call

/-- The store behind a call, whether it failed or not. -/
def perform (store : FragmentStore) : Call → FragmentStore
  | add path source => (store.add path source).state
  | load loader directory extensions => (store.loadValue loader directory extensions).state
  | loadFiles files origin directory filter => (store.load files origin directory filter).state

/-- The leaves that a call comes to. -/
def leaves : Call → Leaves
  | add path source => addedLeaves path source
  | load loader directory extensions => loadedLeaves loader directory extensions
  | loadFiles files _ directory filter => fileLeaves directory filter (sortedFiles files)

/-- **The edits that a call makes.** -/
def edits (call : Call) : List Edit := call.leaves.registered.map placing

/-- **Every change that a call makes is counted,** and nothing else is. -/
theorem counts_perform (store : FragmentStore) (call : Call) :
    Counts fragments revision call.edits store (call.perform store) := by
  have hstate : call.perform store = store.insertAll call.leaves.registered := by
    cases call with
    | add path source => exact (registers_add store path source).state
    | load loader directory extensions =>
      exact (registers_loadValue store loader directory extensions).state
    | loadFiles files origin directory filter =>
      exact (registers_load store files origin directory filter).state
  rw [hstate]
  exact counts_insertAll store _

end Call

/-- The store behind some calls. -/
def after (store : FragmentStore) (calls : List Call) : FragmentStore :=
  calls.foldl (fun store call => call.perform store) store

theorem after_append (store : FragmentStore) (calls more : List Call) :
    store.after (calls ++ more) = (store.after calls).after more := List.foldl_append

/-- A run of calls counts what each of them changes. -/
theorem counts_after (store : FragmentStore) (calls : List Call) :
    Counts fragments revision (calls.flatMap Call.edits) store (store.after calls) := by
  induction calls generalizing store with
  | nil => exact .refl store
  | cons call calls ih => exact (call.counts_perform store).append (ih _)

end FragmentStore

/-! ## What revisions tell -/

/-- **A revision identifies the content.** Whatever is called on some tables, or on a store, and
whether it fails half way or not: of two moments, one behind some calls and one behind some more, the
revision tells exactly whether an entry was changed in between. And setting names in a table
says whether that changed it; it fails if one of the names is no text, and only then. -/
theorem revision_tells :
    (∀ (tables : MacroTables) (earlier between : List MacroTables.Call) (place : Nat)
        (old : MacroTable), (tables.after earlier)[place]? = some old →
      ∃ new, (tables.after (earlier ++ between))[place]? = some new ∧
        Tells MacroTable.defines MacroTable.revision ((tables.after earlier).edits place between)
          old new) ∧
    (∀ (store : FragmentStore) (earlier between : List FragmentStore.Call),
      Tells FragmentStore.fragments FragmentStore.revision
        (between.flatMap FragmentStore.Call.edits) (store.after earlier)
        (store.after (earlier ++ between))) ∧
    ∀ (tables : MacroTables) (place : Nat) (table : MacroTable) (name argument : TableArgument),
      tables[place]? = some table →
      (MacroTables.Nameable (TableArgument.settings tables name argument) →
        ∃ changed new, MacroTables.Answered tables place table name argument changed new) ∧
      (¬ MacroTables.Nameable (TableArgument.settings tables name argument) →
        ∃ fault, (tables.define place name argument).result = .error fault) := by
  refine ⟨fun tables earlier between place old h => ?_, fun store earlier between => ?_,
    fun tables place table name argument h => ⟨MacroTables.answered h, fun hnames => ?_⟩⟩
  · rw [tables.after_append]
    obtain ⟨new, hnew, hcounts⟩ := MacroTables.counts_after h between
    exact ⟨new, hnew, hcounts.tells⟩
  · rw [store.after_append]
    exact ((store.after earlier).counts_after between).tells
  · obtain ⟨fault, hfault⟩ := MacroTables.error_defineEntries hnames tables place table false
    exact ⟨fault, (MacroTables.define_settings h name argument).1.trans hfault⟩

namespace MacroTables

/-- A define is set. -/
def setFirst : Call := .define 0 (.value (.text "A")) (.value (.bool true))

/-- The names of a mapping that sets a define to the table that it is handed to, then one that is set
already, and then comes to a name that is no text. -/
def brokenNames : TableArgument :=
  .map [(.text "B", .table 0), (.text "A", .value (.bool true)), (.int 1, .value .null)]

/-- The mapping without that name. -/
def soundNames : TableArgument := .map [(.text "B", .table 0), (.text "A", .value (.bool true))]

/-- A mapping that fails half way, and then the first define is removed. -/
def breakAndRemove : List Call :=
  [.define 0 brokenNames (.value .null), .undefine 0 (.text "A")]

theorem revisions_of_brokenNames :
    (after [.empty] [setFirst])[0]?.map MacroTable.revision = some 1 ∧
      (after [.empty] (setFirst :: breakAndRemove))[0]?.map MacroTable.revision = some 3 := by
  decide +kernel

theorem nameable_soundNames : Nameable (TableArgument.settings [.empty] soundNames (.value .null)) := by
  rintro setting hmem
  rcases List.mem_pair.1 hmem with rfl | rfl
  · exact ⟨"B", rfl⟩
  · exact ⟨"A", rfl⟩

theorem nodup_soundNames :
    ((TableArgument.settings [.empty] soundNames (.value .null)).map Prod.fst).Nodup := by
  simp [TableArgument.settings, soundNames]

theorem answer_of_soundNames :
    (define [.empty] 0 soundNames (.value .null)).result.toOption = some true := by
  decide +kernel

theorem not_nameable_brokenNames :
    ¬ Nameable (TableArgument.settings [.empty] brokenNames (.value .null)) := by
  intro h
  obtain ⟨name, hname⟩ := h (.int 1, .value .null) (by simp [TableArgument.settings, brokenNames])
  cases hname

end MacroTables

/-- A mapping that fails half way has changed the table, and so has removing what was set before it. The
mapping without the name that is at fault says that it changed the table. -/
theorem revision_tells_of_brokenNames :
    (∃ old new, (MacroTables.after [.empty] [MacroTables.setFirst])[0]? = some old ∧
      (MacroTables.after [.empty] (MacroTables.setFirst :: MacroTables.breakAndRemove))[0]? = some new ∧
      Tells MacroTable.defines MacroTable.revision
        ((MacroTables.after [.empty] [MacroTables.setFirst]).edits 0 MacroTables.breakAndRemove)
        old new ∧ old.revision = 1 ∧ new.revision = 3) ∧
    (∃ new, MacroTables.Answered [.empty] 0 .empty MacroTables.soundNames (.value .null) true new ∧
      new.defines ≠ .empty) ∧
    ∃ fault, (MacroTables.define [.empty] 0 MacroTables.brokenNames (.value .null)).result
      = .error fault := by
  obtain ⟨htables, -, hdefine⟩ := revision_tells
  refine ⟨?_, ?_, (hdefine [.empty] 0 .empty _ _ rfl).2 MacroTables.not_nameable_brokenNames⟩
  · obtain ⟨hfirst, hlast⟩ := MacroTables.revisions_of_brokenNames
    obtain ⟨old, hold, hone⟩ := Option.map_eq_some_iff.1 hfirst
    obtain ⟨new, hnew, hthree⟩ := Option.map_eq_some_iff.1 hlast
    obtain ⟨found, hfound, htells⟩ :=
      htables [.empty] [MacroTables.setFirst] MacroTables.breakAndRemove 0 old hold
    obtain rfl := Option.some.inj (hfound.symm.trans hnew)
    exact ⟨old, found, hold, hnew, htells, hone, hthree⟩
  · obtain ⟨changed, new, hanswered⟩ :=
      (hdefine [.empty] 0 .empty _ _ rfl).1 MacroTables.nameable_soundNames
    have hresult := ok_of_toOption MacroTables.answer_of_soundNames
    obtain rfl := Except.ok.inj (hanswered.result.symm.trans hresult)
    exact ⟨new, hanswered, (hanswered.ne_iff MacroTables.nodup_soundNames).1 rfl⟩

end GlslCompose
