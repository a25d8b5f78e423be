/-
`MacroTable.lean` -- defines: names of macros with their values, and how defines of
different origin are laid over each other.

A table counts its changes. Setting a name to the value that it has is no change,
and neither is removing a name that is not there, so a reader that remembers the
revision it last acted on sees every change once, no matter how many readers
share the table.
-/
import GlslCompose.Callable
import GlslCompose.Notice

set_option autoImplicit false

namespace GlslCompose

/-- The text that a define's value has in the source. True and false become one and zero; a value
of nothing means that there is no define. -/
def macroValue? : Value → Option Text
  | .bool b => some (if b then "1" else "0")
  | .null => none
  | v => some v.display

/-- The defines that a text is compiled with, in order. The names are not checked before they are
written into the text. -/
abbrev ActiveDefines := List (Value × Text)

/-- A table of defines. -/
structure MacroTable where
  defines : OrderedMap Text Text
  revision : Nat

namespace MacroTable

/-- The table without defines. -/
def empty : MacroTable := ⟨.empty, 0⟩

instance : Inhabited MacroTable := ⟨empty⟩

/-- The value of a name. -/
def get? (table : MacroTable) (name : Text) : Option Text := table.defines.get? name

/-- The defines of a table as pairs, in order. -/
def toList (table : MacroTable) : List (Text × Text) := table.defines.pairs

/-- A table as a value. -/
def toValue (table : MacroTable) : Value := .table table.toList table.revision

/-! ## Changing -/

/-- The table with a name set to a text, and whether that changed it. -/
def set (table : MacroTable) (name value : Text) : MacroTable × Bool :=
  if table.get? name = some value then (table, false)
  else (⟨table.defines.insert name value, table.revision + 1⟩, true)

/-- Setting a name gives it the value, and leaves the other names alone. -/
theorem get?_set (table : MacroTable) (name other value : Text) :
    (table.set name value).1.get? other = if name = other then some value else table.get? other := by
  unfold set
  split
  · rename_i h
    by_cases ho : name = other
    · subst ho; simpa using h
    · simp [ho]
  · exact OrderedMap.get?_insert table.defines name other value

/-- Sets one name to a value. -/
def defineOne (table : MacroTable) (name value : Value) : Step MacroTable Bool :=
  match name with
  | .text name =>
    match macroValue? value with
    | none => .done false table
    | some value =>
      let (table, changed) := table.set name value
      .done changed table
  | name => .failed (.defineNotText name) table

/-- Sets names one after the other, and tells whether any of them changed the table. What was set
before a fault stays set. -/
def defineEntries (table : MacroTable) (changed : Bool) :
    List (Value × Value) → Step MacroTable Bool
  | [] => .done changed table
  | (name, value) :: rest =>
    (table.defineOne name value).andThen fun now table => defineEntries table (changed || now) rest

/-- Sets a name to a value, or every name in a mapping. -/
def define (table : MacroTable) (name value : Value) : Step MacroTable Bool :=
  match name.entries? with
  | some entries => table.defineEntries false entries
  | none => table.defineOne name value

/-- The table without a name. -/
def undefine (table : MacroTable) (name : Text) : MacroTable :=
  if (table.get? name).isSome then ⟨table.defines.erase name, table.revision + 1⟩ else table

/-- Removing a name takes its value, and leaves the other names alone. -/
theorem get?_undefine (table : MacroTable) (name other : Text) :
    (table.undefine name).get? other = if name = other then none else table.get? other := by
  unfold undefine
  split
  · exact OrderedMap.get?_erase table.defines name other
  · rename_i h
    by_cases ho : name = other
    · subst ho; simpa using h
    · simp [ho]

/-- Removes the name that a value is, if it can be one at all. In a table without defines nothing is
looked for, so any value will do there. -/
def remove (table : MacroTable) (name : Value) : Step MacroTable Unit :=
  match name with
  | .text name => .done () (table.undefine name)
  | name =>
    if table.toList.isEmpty then .done () table
    else .ofExcept (name.asKey.map fun _ => ()) table

/-- The value of the name that a value is, if it can be one at all. -/
def lookUp (table : MacroTable) (name : Value) : Except Fault (Option Text) :=
  match name with
  | .text name => .ok (table.get? name)
  | name => name.asKey.map fun _ => none

/-- A new table with the defines of a value. A value that counts as false has none. -/
def ofValue (defines : Value) : Except Fault MacroTable :=
  if defines.isTrue then
    let step := empty.define defines (.bool true)
    step.result.map fun _ => step.state
  else .ok empty

/-- A new table with the same defines. Its revision is as if they had been set one by one. -/
def copy (table : MacroTable) : MacroTable := ⟨table.defines, table.defines.size⟩

/-! ## Writing the defines -/

/-- The line that defines a name. -/
def defineLine (name value : Text) : Text := "#define " ++ name ++ " " ++ value ++ "\n"

/-- The defines of a table as directives, one to a line. -/
def prologue (table : MacroTable) : Text :=
  table.toList.flatMap fun (name, value) => defineLine name value

/-! ## Laying defines over each other -/

/-- The defines of a table, with those of a list of entries over them. -/
def overlay (table : MacroTable) (entries : List (Value × Value)) : ActiveDefines :=
  entries.foldl (fun active (name, value) =>
    match macroValue? value with
    | some value => Pairs.put name value active
    | none => active) (table.toList.map fun (name, value) => (.text name, value))

/-- The defines of a table, with those of a value over them. A value that counts as false adds
nothing. -/
def active (table : MacroTable) (defines : Value) : Except Fault ActiveDefines :=
  if defines.isTrue then
    match defines.entries? with
    | some entries => .ok (table.overlay entries)
    | none => .error (.noSuchMember defines.kind "items")
  else .ok (table.overlay [])

end MacroTable

namespace ActiveDefines

/-- Active defines as a value. -/
def toValue (active : ActiveDefines) : Value :=
  .map (active.map fun (name, value) => (name, .text value))

end ActiveDefines

end GlslCompose
