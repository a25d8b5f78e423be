/-
`MacroTables.lean` -- several tables of defines side by side, which can be written
into one another.

What is handed to a table may mention tables, the one it is handed to among them.
A table that is mentioned is looked at when it is written down and not before: as
names are set one after the other, each value sees what the values before it have
done. So an argument names tables by their place, and is turned into a value once
its turn has come.
-/
import GlslCompose.MacroTable

set_option autoImplicit false

namespace GlslCompose

/-- Tables, each known by its place. -/
abbrev MacroTables := List MacroTable

/-- An argument that may mention tables by their places. -/
inductive TableArgument where
  | value (v : Value)
  | table (place : Nat)
  | list (items : List TableArgument)
  | map (entries : List (Value × TableArgument))

namespace TableArgument

instance : Inhabited TableArgument := ⟨value .null⟩

mutual

/-- An argument as the value that it is while the tables are as given. A place without a table stands
for nothing. -/
def seen (tables : MacroTables) : TableArgument → Value
  | value v => v
  | table place =>
    match tables[place]? with
    | some macros => macros.toValue
    | none => .null
  | list items => .list (seenItems tables items)
  | map entries => .map (seenEntries tables entries)

/-- The items of a list as the values that they are. -/
def seenItems (tables : MacroTables) : List TableArgument → List Value
  | [] => []
  | item :: items => seen tables item :: seenItems tables items

/-- The entries of a map with the values that they have. -/
def seenEntries (tables : MacroTables) : List (Value × TableArgument) → List (Value × Value)
  | [] => []
  | (key, argument) :: entries => (key, seen tables argument) :: seenEntries tables entries

end

/-- What mentions no table is the same whatever the tables are. -/
@[simp] theorem seen_value (tables : MacroTables) (v : Value) : seen tables (value v) = v := by
  simp [seen]

end TableArgument

namespace MacroTables

/-- Sets names in a table that stands at a place among others, and tells whether any of them changed
it. -/
def defineEntries (tables : MacroTables) (place : Nat) (table : MacroTable) (changed : Bool) :
    List (Value × TableArgument) → Step MacroTable Bool
  | [] => .done changed table
  | (name, argument) :: rest =>
    (table.defineOne name (argument.seen (tables.set place table))).andThen fun now table =>
      defineEntries tables place table (changed || now) rest

/-- Sets a name in the table at a place, or every name in a mapping. -/
def define (tables : MacroTables) (place : Nat) (name argument : TableArgument) :
    Step MacroTables Bool :=
  match tables[place]? with
  | none => .failed .noSuchIndex tables
  | some table =>
    let step :=
      match name with
      | .map entries => defineEntries tables place table false entries
      | name => table.define (name.seen tables) (argument.seen tables)
    step.within (tables.set place ·)

/-- Where no value mentions a table, names are set as in a table that stands alone. -/
theorem defineEntries_value (tables : MacroTables) (place : Nat) (table : MacroTable)
    (changed : Bool) (entries : List (Value × Value)) :
    defineEntries tables place table changed (entries.map fun (name, v) => (name, .value v))
      = table.defineEntries changed entries := by
  induction entries generalizing table changed with
  | nil => rfl
  | cons entry rest ih =>
    obtain ⟨name, v⟩ := entry
    simp only [List.map_cons, defineEntries, MacroTable.defineEntries, TableArgument.seen_value]
    congr 1
    funext now table
    exact ih table (changed || now)

end MacroTables

end GlslCompose
