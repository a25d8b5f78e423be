/-
`Value/Basic.lean` -- the values that define tables, frame states, templates and
cache keys are made of.

A frame state belongs to the program that draws, so what it holds cannot be known
beforehand; the same goes for what is handed in as a define, a fragment or a
shader source. `Value` is that open-ended data: numbers, texts, lists, maps, and
the few kinds of object that this library itself hands out. Functions handed in
are limited to a small stock (`Callable`), so that a value is first-order data;
the parts of the library that call functions take arbitrary ones.

This file also settles when two values are the same key, which values can be keys
at all, and which count as true.
-/
import GlslCompose.Number.Binary64
import GlslCompose.OrderedMap

set_option autoImplicit false

namespace GlslCompose

mutual

/-- A value. -/
inductive Value where
  | null
  | bool (b : Bool)
  | int (n : Int)
  | float (x : Binary64)
  | text (s : Text)
  | bytes (bs : List UInt8)
  | list (items : List Value)
  /-- A map, in the order of its keys. -/
  | map (entries : List (Value × Value))
  /-- A table of defines, with the number of changes it has seen. -/
  | table (entries : List (Text × Text)) (revision : Nat)
  | function (f : Callable)
  /-- A source of fixed text. -/
  | literal (text : Text)
  /-- A source whose text a function produces. -/
  | generated (f : Callable)
  /-- A source that is rendered, with the variables given to it. -/
  | template (text : Text) (vars : List (Text × Value))
  /-- A source that leaves open how its text comes about. -/
  | bareSource
  /-- A program, by the order in which programs were made. -/
  | program (index : Nat)

/-- A function from the stock: of a frame state where a source calls it, of a text where a
transform does. -/
inductive Callable where
  /-- Always the same value. -/
  | const (v : Value)
  /-- The value of the state at a key. -/
  | state (key : Text)
  /-- Texts, and values of the state by their keys, written one after the other. -/
  | concat (parts : List (Text ⊕ Text))
  /-- Fails if the value at the key is true, and otherwise goes on with another function. -/
  | failIf (key message : Text) (otherwise : Callable)
  | replace (old new : Text)
  | append (text : Text)
  | prepend (text : Text)
  | fail (message : Text)
  /-- Fails because what it should give cannot be made. -/
  | refuse (message : Text)

end

namespace Value

instance : Inhabited Value := ⟨null⟩

instance : Inhabited Callable := ⟨.const null⟩

instance : Coe Text Value := ⟨text⟩

/-! ## Kinds -/

/-- The kinds of values, and of the things that only a template knows. -/
inductive Kind where
  | null
  | bool
  | int
  | float
  | text
  | bytes
  | list
  | map
  | table
  | function
  | literal
  | generated
  | template
  | bareSource
  | program
  /-- An item of a loop, together with the loop. -/
  | pair
  /-- A loop of a template, seen from inside. -/
  | loop
  /-- A template, seen from inside. -/
  | inside
  /-- A helper of every template that makes something new. -/
  | maker
  /-- A helper of every template that only answers. -/
  | answerer
  /-- What stands at a name of a template whose own thing has been pushed aside by nothing. -/
  | missing
  deriving DecidableEq, Repr

/-- What a kind is called in diagnostics. -/
def Kind.name : Kind → Text
  | null => "NoneType"
  | bool => "bool"
  | int => "int"
  | float => "float"
  | text => "str"
  | bytes => "bytes"
  | list => "list"
  | map => "dict"
  | table => "DefineTable"
  | function => "Func"
  | literal => "Literal"
  | generated => "Generated"
  | template => "Template"
  | bareSource => "Source"
  | program => "Program"
  | pair => "tuple"
  | loop => "LoopContext"
  | inside => "TemplateReference"
  | maker => "type"
  | answerer => "function"
  | missing => "MissingType"

/-- The kind of a value. -/
def kind : Value → Kind
  | null => .null
  | bool _ => .bool
  | int _ => .int
  | float _ => .float
  | text _ => .text
  | bytes _ => .bytes
  | list _ => .list
  | map _ => .map
  | table .. => .table
  | function _ => .function
  | literal _ => .literal
  | generated _ => .generated
  | template .. => .template
  | bareSource => .bareSource
  | program _ => .program

/-- The entries of a value that maps keys to values. -/
def entries? : Value → Option (List (Value × Value))
  | map entries => some entries
  | table entries _ => some (entries.map fun (k, v) => (text k, text v))
  | _ => none

/-- Whether a value may be a key. What can change, or holds something that can, may not. -/
def isKey : Value → Bool
  | list _ | map _ | table .. => false
  | _ => true

/-- Whether a value counts as true: everything does, except nothing, zero and the empty. -/
def isTrue : Value → Bool
  | null => false
  | bool b => b
  | int n => n != 0
  | float x => !x.isZero
  | text s => !s.isEmpty
  | bytes bs => !bs.isEmpty
  | list items => !items.isEmpty
  | map entries => !entries.isEmpty
  | table entries _ => !entries.isEmpty
  | _ => true

/-! ## Numbers, equality and order -/

/-- The exact value of a number, as an integer over a power of two. A truth value counts as one
or zero. -/
def dyadic? : Value → Option (Int × Nat)
  | bool b => some (if b then 1 else 0, 0)
  | int n => some (n, 0)
  | float x => x.dyadic?
  | _ => none

/-- Whether two values are the same as keys. Numbers are compared by what they are worth, whatever
their kind; texts and bytes by their content. Maps, lists and objects are never the same, because
they are no keys, or are told apart by their identity. -/
def same (v w : Value) : Bool :=
  match v, w with
  | text s, text t => s == t
  | bytes s, bytes t => s == t
  | null, null => true
  | float (.infinite s), float (.infinite t) => s == t
  | v, w =>
    match v.dyadic?, w.dyadic? with
    | some (a, i), some (b, j) => a * Nat.pow 2 j == b * Nat.pow 2 i
    | _, _ => false

instance : BEq Value := ⟨same⟩

@[simp] theorem text_beq_text (s t : Text) : (text s == text t) = (s == t) := rfl

/-- Whether one number is greater than another. No number compares with what is not a number. -/
def numberGreater? : Value → Value → Option Bool
  | float .nan, w => (rank? w).map fun _ => false
  | v, float .nan => (rank? v).map fun _ => false
  | v, w => do
    let i ← rank? v
    let j ← rank? w
    if i = j then
      match v.dyadic?, w.dyadic? with
      | some (a, k), some (b, l) => some (b * Nat.pow 2 k < a * Nat.pow 2 l)
      | _, _ => some false
    else some (j < i)
where
  /-- Where a number stands: below all finite ones, among them, or above. -/
  rank? : Value → Option Int
    | float (.infinite negative) => some (if negative then -1 else 1)
    | float _ | int _ | bool _ => some 0
    | _ => none

/-- Whether one value is greater than another, where the two can be compared. -/
def greater? : Value → Value → Option Bool
  | text s, text t => some (!Text.le s t)
  | bytes s, bytes t => some (decide (t < s))
  | v, w => numberGreater? v w

end Value

end GlslCompose
