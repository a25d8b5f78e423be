/-
`Scene.lean` -- a draw context and the shader pairs in it.

Nothing is global: the library and the layer that makes programs belong to the
context, and every pair of the scene is drawn with that one. Drawing brings a pair
up to date and then calls a block with the frame state; what the block does is its
own affair, but whether it gave up is part of the outcome.
-/
import GlslCompose.ShaderPair

set_option autoImplicit false

namespace GlslCompose

/-- A draw context with its shader pairs, in the order in which they were made. -/
structure Scene where
  context : DrawContext
  pairs : List ShaderPair

namespace Scene

/-- A scene without shaders. What is handed in as the layer that makes programs may turn out to be
none. -/
def make (commands : Option CommandLayer) (options : Library.Options) : Except Fault Scene :=
  match commands with
  | none => .error .noProgramMaker
  | some commands => (Library.make options).map fun library => ⟨⟨library, commands⟩, []⟩

/-- The library of a scene. -/
def library (scene : Scene) : Library := scene.context.library

/-- The scene with another library. -/
def withLibrary (scene : Scene) (library : Library) : Scene :=
  { scene with context := { scene.context with library := library } }

/-- The scene with another pair at a place. -/
def withPair (scene : Scene) (index : Nat) (pair : ShaderPair) : Scene :=
  { scene with pairs := scene.pairs.set index pair }

/-- Makes a new pair, and answers its place. -/
def addPair (scene : Scene) (vertex fragment defines name : Value) : Step Scene Nat :=
  match ShaderPair.make vertex fragment defines name with
  | .error fault => .failed fault scene
  | .ok pair => .done scene.pairs.length { scene with pairs := scene.pairs ++ [pair] }

/-- Does something to the defines of the pair at a place. -/
def withMacros {α : Type} (scene : Scene) (index : Nat)
    (act : MacroTable → Step MacroTable α) : Step Scene α :=
  match scene.pairs[index]? with
  | none => .failed .noSuchIndex scene
  | some pair =>
    (act pair.macros).within fun macros => scene.withPair index { pair with macros := macros }

/-- The texts of the program at a place. -/
def program? (scene : Scene) (index : Nat) : Option ProgramTexts :=
  scene.context.commands.programs[index]?

/-! ## Drawing -/

/-- The entries of a frame state. Nothing, or anything that counts as false, is a state without
entries. -/
def frameState (state : Value) : Except Fault (List (Value × Value)) :=
  if state.isTrue then ShaderSource.stateEntries state else .ok []

/-- Brings the pair at a place up to date, and answers the state that drawing goes on with. -/
def update (scene : Scene) (index : Nat) (listing : Bool) (state : Value) :
    Step Scene (List (Value × Value)) :=
  match scene.pairs[index]?, frameState state with
  | none, _ => .failed .noSuchIndex scene
  | _, .error fault => .failed fault scene
  | some pair, .ok entries =>
    (ShaderPair.update ⟨scene.context, pair⟩ listing entries).within fun drawing =>
      Scene.withPair { scene with context := drawing.context } index drawing.pair

/-- **The outcome of drawing:** of the whole, and the states that the block was called with. -/
structure Drawn where
  step : Step Scene Unit
  calls : List (List (Value × Value))

/-- Draws with the pair at a place: brings it up to date, then calls the block. -/
def draw (scene : Scene) (index : Nat) (listing : Bool) (state : Value)
    (block : List (Value × Value) → Except Fault Unit) : Drawn :=
  let step := scene.update index listing state
  match step.result with
  | .error fault => ⟨⟨.error fault, step.state, step.notices⟩, []⟩
  | .ok entries => ⟨⟨block entries, step.state, step.notices⟩, [entries]⟩

end Scene

end GlslCompose
