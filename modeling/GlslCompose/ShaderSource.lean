/-
`ShaderSource.lean` -- where the text of a shader comes from.

A source is fixed text, a function of the frame state, or a template that is
rendered with the frame state. The values in the state win over the variables
that a template was given.
-/
import GlslCompose.Template.Nesting
import GlslCompose.Template.Render

set_option autoImplicit false

namespace GlslCompose

/-- A source of shader text. -/
inductive ShaderSource where
  | literal (text : Text)
  | generated (produce : Value → Except Fault Value)
  | template (text : Text) (nodes : List Template.Node) (vars : List (Text × Value))
  /-- A source that leaves open how its text comes about. -/
  | bare

namespace ShaderSource

/-- How a source is named in diagnostics. -/
def shown : ShaderSource → Text
  | literal text => Value.sourceText .literal text
  | generated _ => "<Generated by <func>>"
  | template text .. => Value.sourceText .template text
  | bare => "<Source>"

/-- The source that a value is, if it is one at all. No value stands for no source. -/
def ofValue : Value → Except Fault (Option ShaderSource)
  | .null => .ok none
  | .text s => .ok (some (literal s))
  | .literal s => .ok (some (literal s))
  | .function f => .ok (some (generated f.apply))
  | .generated f => .ok (some (generated f.apply))
  | .template s vars =>
    match Template.ofText? s with
    | some nodes => .ok (some (template s nodes vars))
    | none => .error .malformedTemplate
  | .bareSource => .ok (some bare)
  | v => .error (.notASource v)

/-- The value of a literal source of something. -/
def literalOf : Value → Except Fault Value
  | .text s => .ok (.literal s)
  | v => .error (.literalNotText v)

/-- The value of a source whose text something produces. -/
def generatedOf : Value → Except Fault Value
  | .function f => .ok (.generated f)
  | v => .error (.generatorNotCallable v)

/-- The value of a template with variables. Two names of variables are taken. -/
def templateOf (text : Text) (vars : List (Text × Value)) : Except Fault Value :=
  match vars.find? fun (name, _) => name == "self".toList || name == "text".toList with
  | some (name, _) => .error (.reservedName .making name)
  | none => .ok (.template text (Pairs.overlay [] vars))

/-- The two items of an entry that is given as a sequence, at its place among the entries. -/
def pairOf (index : Nat) (v : Value) : Except Fault (Value × Value) :=
  match v.items with
  | .error _ => .error (.notASequence index)
  | .ok [key, value] => key.asKey.map fun key => (key, value)
  | .ok items => .error (.notAPair index items.length)

/-- Entries given as sequences, from a place on. -/
def pairsFrom (index : Nat) : List Value → Except Fault (List (Value × Value))
  | [] => .ok []
  | v :: vs => do
    let pair ← pairOf index v
    let pairs ← pairsFrom (index + 1) vs
    return pair :: pairs

/-- The entries of a frame state: those of a map, or pairs in a sequence. -/
def stateEntries (state : Value) : Except Fault (List (Value × Value)) :=
  match state.entries? with
  | some entries => .ok entries
  | none => do
    let items ← state.items
    let pairs ← pairsFrom 0 items
    return Pairs.overlay [] pairs

/-- The variables of a template with those of a frame state over them. -/
def overlaid (vars : List (Text × Value)) (state : List (Value × Value)) : List (Value × Value) :=
  Pairs.overlay (vars.map fun (name, v) => (.text name, v)) state

/-- **The text of a source for a frame state.** -/
def resolve (source : ShaderSource) (state : Value) : Except Fault Text :=
  match source with
  | literal text => .ok text
  | generated produce =>
    match produce state with
    | .error fault => .error fault
    | .ok (.text text) => .ok text
    | .ok v => .error (.generatedNotText v.kind)
  | template _ nodes vars =>
    match stateEntries state with
    | .error fault => .error fault
    | .ok entries => Template.apply nodes (overlaid vars entries)
  | bare => .error .unimplemented

end ShaderSource

end GlslCompose
