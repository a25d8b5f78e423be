/-
`Composer.lean` -- from a source to composed text: includes spliced in, defines in
front, and the transforms applied that were added to the composer.

A composer holds what every text is composed with: the store of fragments, the
table of defines, and the transforms in the order in which they were added. It
also counts the walks that it completed, so that one can see what was not walked.
-/
import GlslCompose.Expansion
import GlslCompose.Prologue

set_option autoImplicit false

namespace GlslCompose

/-- A transform takes the text and gives a new one, or nothing if it leaves the text as it is. Its
answer is handed on as it comes, whatever it may be. -/
abbrev Transform := Value → Except Fault Value

/-- What texts are composed with. -/
structure Composer where
  store : FragmentStore
  macros : MacroTable
  transforms : List Transform
  /-- The number of completed walks. -/
  walks : Nat

namespace Composer

instance : Inhabited Composer := ⟨⟨.empty, .empty, [], 0⟩⟩

/-! ## Setting up -/

/-- The transform that a value is. -/
def transform? : Value → Option Transform
  | .function f => some f.apply
  | _ => none

/-- The composer with a transform behind the others. -/
def add (composer : Composer) (transform : Transform) : Composer :=
  { composer with transforms := composer.transforms ++ [transform] }

/-- Adds the transform that a value is. -/
def use (composer : Composer) (transform : Value) : Step Composer Unit :=
  match transform? transform with
  | some t => .done () (composer.add t)
  | none => .failed (.transformNotCallable transform) composer

/-- Adds the transforms in a list, up to the first value that is none. -/
def useAll (composer : Composer) : List Value → Step Composer Unit
  | [] => .done () composer
  | t :: ts => (composer.use t).andThen fun _ composer => useAll composer ts

/-- Adds the transforms that a value gives when it is asked for items one by one. -/
def useItems (composer : Composer) (transforms : Value) : Step Composer Unit :=
  match transforms.items with
  | .ok items => composer.useAll items
  | .error fault => .failed fault composer

/-- Sets defines in the table of the composer. -/
def define (composer : Composer) (name value : Value) : Step Composer Bool :=
  let step := composer.macros.define name value
  step.within fun macros => { composer with macros := macros }

/-- Removes a define from the table of the composer. -/
def undefine (composer : Composer) (name : Value) : Step Composer Unit :=
  let step := composer.macros.remove name
  step.within fun macros => { composer with macros := macros }

/-- The composer with another store. -/
def withStore (composer : Composer) (store : FragmentStore) : Composer :=
  { composer with store := store }

/-- A composer around a store. -/
def make (store : FragmentStore) (defines transforms : Value) : Except Fault Composer :=
  match MacroTable.ofValue defines with
  | .error fault => .error fault
  | .ok macros =>
    let step := useItems ⟨store, macros, [], 0⟩ transforms
    step.result.map fun _ => step.state

/-! ## Composing -/

/-- The line that some tools leave in the text that they produce. -/
def toolMarker : Text := "#define GLSLIFY 1\n"

/-- The answer of the transforms, applied one after the other. -/
def transformed : List Transform → Value → Except Fault Value
  | [], v => .ok v
  | t :: ts, v =>
    match t v with
    | .error fault => .error fault
    | .ok .null => transformed ts v
    | .ok w => transformed ts w

/-- The text that the transforms left, without the marks of tools. -/
def cleaned : Value → Except Fault Text
  | .text s => .ok (Text.replaceAll toolMarker [] s)
  | .bytes _ => .error .bytesRequired
  | v => .error (.noSuchMember v.kind "replace")

/-- The composed text of a source, without the count. -/
def compose (composer : Composer) (name : FileName) (source : Text) (defines : Value) :
    Logged Text :=
  (Expansion.ofSource composer.store name source).andThen fun text =>
    -- the walk comes first: where an include and the defines are both at fault, the include is told
    ⟨do
      let active ← composer.macros.active defines
      let text ← Prologue.injectDefines text active.toValue
      let answer ← transformed composer.transforms (.text text)
      cleaned answer, []⟩

/-- Composes the text of a source. A source without a name is anonymous. -/
def process (composer : Composer) (name : FileName) (source : Text) (defines : Value) :
    Step Composer Text :=
  let composed := composer.compose name.orAnonymous source defines
  match composed.result with
  | .error fault => ⟨.error fault, composer, composed.notices⟩
  | .ok text => ⟨.ok text, { composer with walks := composer.walks + 1 }, composed.notices⟩

/-- Why a value is no name for a source. Where there is neither a fragment of the name nor a source,
the two agree and the name counts as open, so it would have to be a key first. -/
def nameFault (name source : Value) (fault : Fault) : Fault :=
  match source, name.asKey with
  | .null, .error unhashable => unhashable
  | _, _ => fault

/-- Composes the text that a value is written as, under the name that another value is. -/
def processValue (composer : Composer) (name source defines : Value) : Step Composer Text :=
  match FragmentStore.nameOf name with
  | .error fault => .failed (nameFault name source fault) composer
  | .ok name => composer.process name source.display defines

end Composer

end GlslCompose
