/-
`Callable.lean` -- what the functions of the stock do.

A source calls its function with the frame state, a transform with the text. A
function that meets the other kind of argument fails the way the operation it
needs fails on that kind.
-/
import GlslCompose.Fault

set_option autoImplicit false

namespace GlslCompose

namespace Value

/-- The item of a value at a key that is a text. -/
def item (v : Value) (key : Text) : Except Fault Value :=
  match v.entries? with
  | some entries =>
    match Pairs.get? (text key) entries with
    | some found => .ok found
    | none => .error (.missingKey (text key))
  | none => .error (.noItems v.kind)

/-- A value with `new` for every occurrence of `old`. -/
def replaced (old new : Text) : Value → Except Fault Value
  | text s => .ok (text (Text.replaceAll old new s))
  | bytes _ => .error .bytesRequired
  | v => .error (.noSuchMember v.kind "replace")

/-- A value that is to be a key. -/
def asKey (v : Value) : Except Fault Value :=
  if v.isKey then .ok v else .error (.unhashable v.kind)

/-- What a value gives when it is asked for items one by one. -/
def items : Value → Except Fault (List Value)
  | text s => .ok (s.map fun c => text [c])
  | bytes bs => .ok (bs.map fun b => int b.toNat)
  | list items => .ok items
  | v =>
    match v.entries? with
    | some entries => .ok (entries.map Prod.fst)
    | none => .error (.notIterable v.kind)

end Value

namespace Callable

/-- The text of one part of a concatenation. -/
def partText (x : Value) : Text ⊕ Text → Except Fault Text
  | .inl s => .ok s
  | .inr key => (x.item key).map Value.display

/-- The value of a function at an argument. -/
def apply : Callable → Value → Except Fault Value
  | const v, _ => .ok v
  | state key, x => x.item key
  | concat parts, x => (parts.mapM (partText x)).map fun texts => .text texts.flatten
  | failIf key message otherwise, x =>
    match x.entries? with
    | none => .error (.noSuchMember x.kind "get")
    | some entries =>
      match Pairs.get? (.text key) entries with
      | some v => if v.isTrue then .error (.raised message) else otherwise.apply x
      | none => otherwise.apply x
  | replace old new, x => x.replaced old new
  | append s, x =>
    match x with
    | .text t => .ok (.text (t ++ s))
    | x => .error (.badConcatenation x.kind .text)
  | prepend s, x =>
    match x with
    | .text t => .ok (.text (s ++ t))
    | x => .error (.badConcatenation .text x.kind)
  | fail message, _ => .error (.raised message)
  | refuse message, _ => .error (.refused message)

/-- A function that gives what was to be made, once it is called. If it could not be made, each call
fails the way that the making failed. -/
def giving : Except Fault Value → Callable
  | .ok v => const v
  | .error (.raised message) => fail message
  | .error fault => refuse fault.message

end Callable

end GlslCompose
