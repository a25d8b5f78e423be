/-
`ShaderPair.lean` -- a vertex and a fragment shader that are drawn together, compiled
when they must be.

Each frame the pair is brought up to date before anything is drawn with it. It is
compiled anew when that is forced, when the defines of the pair or of the library
have changed since it was last compiled, when a source has not been compiled at
all, or when the text of a source has changed and was not compiled before. Going
back to a text that was compiled before costs no compilation: the pair remembers
what it compiled lately, and the programs that were made of it.
-/
import GlslCompose.Library
import GlslCompose.Listing
import GlslCompose.Memo
import GlslCompose.ShaderSource

set_option autoImplicit false

namespace GlslCompose

/-! ## Slots -/

/-- The two shaders of a pair. -/
inductive Slot where
  | vertex
  | fragment
  deriving DecidableEq, Repr

/-- The name of a slot. -/
def Slot.name : Slot → Text
  | vertex => "vertex"
  | fragment => "fragment"

/-- Something for each of the two shaders. -/
structure Slots (α : Type) where
  vertex : α
  fragment : α
  deriving DecidableEq, Repr

namespace Slots

variable {α : Type}

/-- What is there for a slot. -/
def get (slots : Slots α) : Slot → α
  | .vertex => slots.vertex
  | .fragment => slots.fragment

/-- Another thing for a slot. -/
def set (slots : Slots α) (slot : Slot) (a : α) : Slots α :=
  match slot with
  | .vertex => { slots with vertex := a }
  | .fragment => { slots with fragment := a }

@[simp] theorem get_set_self (slots : Slots α) (slot : Slot) (a : α) :
    (slots.set slot a).get slot = a := by
  cases slot <;> rfl

theorem get_set_of_ne (slots : Slots α) {slot other : Slot} (a : α) (h : slot ≠ other) :
    (slots.set slot a).get other = slots.get other := by
  cases slot <;> cases other <;> simp_all [get, set]

end Slots

/-! ## Programs -/

/-- The compiled texts that a program is made of. Either of them may be missing. -/
abbrev ProgramTexts := Slots (Option Text)

/-- **The layer that makes programs.** `accept` tells for a pair of texts whether the layer hands
out a program for them, hands out nothing, or refuses; `programs` are the pairs it has taken so
far, and a program is named by its place among them. -/
structure CommandLayer where
  accept : ProgramTexts → Except Fault Bool
  programs : List ProgramTexts

namespace CommandLayer

/-- A layer that hands out a program for every pair. -/
def recording : CommandLayer := ⟨fun _ => .ok true, []⟩

/-- A layer that takes every pair and hands out nothing. -/
def silent : CommandLayer := ⟨fun _ => .ok false, []⟩

/-- A layer that leaves open how programs are made. -/
def bare : CommandLayer := ⟨fun _ => .error .unimplemented, []⟩

/-- The program that a layer makes of a pair of texts, and the layer behind that. -/
def create (layer : CommandLayer) (texts : ProgramTexts) :
    Except Fault (Option Nat × CommandLayer) :=
  match layer.accept texts with
  | .error fault => .error fault
  | .ok handsOut =>
    .ok (if handsOut then some layer.programs.length else none,
      { layer with programs := layer.programs ++ [texts] })

end CommandLayer

/-- What all shaders of one scene share. -/
structure DrawContext where
  library : Library
  commands : CommandLayer

/-! ## The pair -/

/-- A vertex and a fragment shader. -/
structure ShaderPair where
  name : Value
  sources : Slots (Option ShaderSource)
  /-- The defines of this pair, over those of the library. -/
  macros : MacroTable
  /-- The texts that the current program was built from. -/
  resolved : Slots (Option Text)
  /-- What they were compiled to. -/
  compiled : ProgramTexts
  /-- Compiled texts by slot and digest of the text. -/
  memo : List ((Slot × Nat) × Option Text)
  /-- The revision of the store for which the memo is good. -/
  storeRevision : Option Nat
  /-- Programs by the digest of their texts. -/
  programs : List (Nat × Option Nat)
  program : Option Nat
  /-- The revisions of the defines that the pair was compiled with: its own, and the library's. -/
  macroRevision : Option Nat
  libraryRevision : Option Nat
  compileCount : Nat

/-- Why a pair is compiled. -/
inductive Reason where
  | create
  | defines
  | force
  | source
  deriving DecidableEq, Repr

/-- The name of a reason. -/
def Reason.name : Reason → Text
  | create => "create"
  | defines => "defines"
  | force => "force"
  | source => "source"

/-- The names of some reasons, each once and in the order of the alphabet. -/
def Reason.names (reasons : List Reason) : List Text :=
  ([create, defines, force, source].filter fun reason => reasons.contains reason).map name

/-- The names of some slots, in the order of the alphabet. -/
def Slot.names (slots : List Slot) : List Text :=
  ([fragment, vertex].filter fun slot => slots.contains slot).map name

/-- A pair while it is drawn: the pair and what it shares with others. -/
structure Drawing where
  context : DrawContext
  pair : ShaderPair

namespace ShaderPair

/-- A new pair. A pair without a name is anonymous. -/
def make (vertex fragment defines name : Value) : Except Fault ShaderPair := do
  let vertex ← ShaderSource.ofValue vertex
  let fragment ← ShaderSource.ofValue fragment
  let macros ← MacroTable.ofValue defines
  return {
    name := if name.isTrue then name else FileName.anonymous.toValue
    sources := ⟨vertex, fragment⟩
    macros := macros
    resolved := ⟨none, none⟩
    compiled := ⟨none, none⟩
    memo := []
    storeRevision := none
    programs := []
    program := none
    macroRevision := none
    libraryRevision := none
    compileCount := 0 }

/-- Whether the pair has a program. -/
def isCompiled (pair : ShaderPair) : Bool := pair.program.isSome

/-- The name under which the shader of a slot is compiled. -/
def slotName (pair : ShaderPair) (slot : Slot) : Text := pair.name.display ++ " (" ++ slot.name ++ ")"

/-- The key under which the memo keeps what a text was compiled to. -/
def memoKey (slot : Slot) (text : Text) : Slot × Nat := (slot, Digest.ofText text)

/-- The JSON text of a compiled text, or of none. -/
def jsonOf : Option Text → Text
  | some text => Value.jsonText text
  | none => "null"

/-- The key under which the program of two compiled texts is kept. -/
def programKey (texts : ProgramTexts) : Nat :=
  Digest.ofText (Value.jsonGroup '[' ']' [jsonOf texts.vertex, jsonOf texts.fragment])

/-! ## Resolving the sources -/

/-- The text of the source of a slot, if there is a source. -/
def resolveSlot (pair : ShaderPair) (slot : Slot) (state : Value) :
    Except Fault (List (Slot × Text)) :=
  match pair.sources.get slot with
  | none => .ok []
  | some source => (source.resolve state).map fun text => [(slot, text)]

/-- The texts of the sources for a frame state. -/
def resolveSources (pair : ShaderPair) (state : Value) : Except Fault (List (Slot × Text)) := do
  let vertex ← pair.resolveSlot .vertex state
  let fragment ← pair.resolveSlot .fragment state
  return vertex ++ fragment

/-! ## The program -/

/-- Sees to it that the pair has the program of its compiled texts. Only a pair of texts that has
no program here is registered. Without any text the program stays as it is. -/
def updateProgram (drawing : Drawing) : Step Drawing Unit :=
  let pair := drawing.pair
  let texts := pair.compiled
  if texts.vertex.isNone && texts.fragment.isNone then .done () drawing
  else
    let key := programKey texts
    match (Pairs.get? key pair.programs).join with
    | some program => .done () { drawing with pair := { pair with program := some program } }
    | none =>
      match drawing.context.commands.create texts with
      | .error fault => .failed fault drawing
      | .ok (program, commands) =>
        .done () {
          context := { drawing.context with commands := commands }
          pair := { pair with
            programs := Memo.remember key program pair.programs
            program := program } }

/-! ## Compiling -/

/-- The compiled forms of some texts. When an include in one of them fails, its numbered source is
printed if that is wanted. -/
def compileTexts (pair : ShaderPair) (listing : Bool) (library : Library) :
    List (Slot × Text) → Step Library (List (Slot × Text × Option Text))
  | [] => .done [] library
  | (slot, text) :: rest =>
    let step := library.compile (.text (pair.slotName slot)) text pair.macros.toValue
    -- only a bad include has a place in the text, so for other faults nothing is printed
    match step.result with
    | .error (.badInclude problem trace) =>
      let step : Step Library (List (Slot × Text × Option Text)) :=
        ⟨.error (.badInclude problem trace), step.state, step.notices⟩
      if listing then step.note (.listing (Listing.ofText text)) else step
    | _ =>
      step.andThen fun compiled library =>
        (compileTexts pair listing library rest).map ((slot, text, compiled) :: ·)

/-- The pair with a text and its compiled form in their slot. -/
def put (pair : ShaderPair) (slot : Slot) (text : Text) (compiled : Option Text) : ShaderPair :=
  { pair with
    resolved := pair.resolved.set slot (some text)
    compiled := pair.compiled.set slot compiled }

/-- The pair with texts and their compiled forms in their slots, and remembered. -/
def commit (pair : ShaderPair) : List (Slot × Text × Option Text) → ShaderPair
  | [] => pair
  | (slot, text, compiled) :: rest =>
    let pair := pair.put slot text compiled
    commit { pair with memo := Memo.remember (memoKey slot text) compiled pair.memo } rest

/-- The pair marked as compiled with the defines as they are now. -/
def markDefines (pair : ShaderPair) (library : Library) : ShaderPair :=
  { pair with
    macroRevision := some pair.macros.revision
    libraryRevision := some library.macros.revision }

/-- Whether the defines are others than those the pair was compiled with. -/
def definesChanged (pair : ShaderPair) (library : Library) : Bool :=
  some pair.macros.revision != pair.macroRevision ||
    some library.macros.revision != pair.libraryRevision

/-- The pair without its memo, if what it remembers is no longer good. -/
def forgetIf (pair : ShaderPair) (stale : Bool) : ShaderPair :=
  if stale then { pair with memo := [] } else pair

/-- Compiles the texts of all slots, and only then takes the results over. -/
def compile (drawing : Drawing) (listing : Bool) (texts : List (Slot × Text))
    (reasons : List Reason) : Step Drawing Unit :=
  let pair := drawing.pair
  let library := drawing.context.library
  if texts.isEmpty then .done () { drawing with pair := pair.markDefines library }
  else
    let changed := pair.definesChanged library
    let step := compileTexts pair listing library texts
    let step := step.within fun library =>
      { drawing with context := { drawing.context with library := library } }
    step.andThen fun compiled drawing =>
      let library := drawing.context.library
      -- the memo goes before the results come, which are good for the defines and store of now
      let pair := pair.forgetIf (changed || some library.store.revision != pair.storeRevision)
      let pair := (pair.commit compiled).markDefines library
      let pair := { pair with
        storeRevision := some library.store.revision
        compileCount := pair.compileCount + 1 }
      (updateProgram { drawing with pair := pair }).andThen fun _ drawing =>
        (Step.done () drawing).note (.updated pair.name.shown (Reason.names reasons))

/-! ## Looking for changed texts -/

/-- What has to be done about the text of a slot. -/
inductive Change where
  | keep
  | compileFor (reason : Reason)
  | swapTo (compiled : Option Text)
  deriving DecidableEq, Repr

/-- What has to be done about the text that a slot has now. -/
def changeOf (pair : ShaderPair) (slot : Slot) (text : Text) : Change :=
  match pair.resolved.get slot with
  | none => .compileFor .create
  | some old =>
    if text = old then .keep
    else
      match Pairs.get? (memoKey slot text) pair.memo with
      | some compiled => .swapTo compiled
      | none => .compileFor .source

/-- The reasons to compile among some changes. -/
def reasonsOf (changes : List Change) : List Reason :=
  changes.filterMap fun
    | .compileFor reason => some reason
    | _ => none

/-- The pair with the slots changed that are only swapped. -/
def swap (pair : ShaderPair) : List (Slot × Text × Change) → ShaderPair
  | [] => pair
  | (slot, text, .swapTo compiled) :: rest => swap (pair.put slot text compiled) rest
  | _ :: rest => swap pair rest

/-- The slots that are only swapped. -/
def swappedSlots (changes : List (Slot × Text × Change)) : List Slot :=
  changes.filterMap fun
    | (slot, _, .swapTo _) => some slot
    | _ => none

/-- Compiles if some text needs it; goes back to remembered texts if that is enough. -/
def checkSources (drawing : Drawing) (listing : Bool) (texts : List (Slot × Text)) :
    Step Drawing Unit :=
  let library := drawing.context.library
  let pair := drawing.pair.forgetIf (some library.store.revision != drawing.pair.storeRevision)
  let drawing := { drawing with pair := pair }
  let changes := texts.map fun (slot, text) => (slot, text, pair.changeOf slot text)
  let reasons := reasonsOf (changes.map fun change => change.2.2)
  -- one text that needs it is enough for all of them to be compiled
  if !reasons.isEmpty then compile drawing listing texts reasons
  else
    let swapped := swappedSlots changes
    if swapped.isEmpty then .done () drawing
    else
      (updateProgram { drawing with pair := pair.swap changes }).andThen fun _ drawing =>
        (Step.done () drawing).note (.swapped pair.name.shown (Slot.names swapped))

/-! ## A frame -/

/-- The value at a name in a frame state. -/
def stateAt? (state : List (Value × Value)) (name : Text) : Option Value :=
  Pairs.get? (.text name) state

/-- Whether the value at a name in a frame state is there and counts as true. -/
def stateHolds (state : List (Value × Value)) (name : Text) : Bool :=
  (stateAt? state name).any Value.isTrue

/-- Sets the defines that come with a frame state in the table of the pair. -/
def takeDefines (pair : ShaderPair) (state : List (Value × Value)) : Step ShaderPair Unit :=
  match stateAt? state "defines" with
  | some defines =>
    if defines.isTrue then
      ((pair.macros.define defines (.bool true)).within fun macros =>
        { pair with macros := macros }).map fun _ => ()
    else .done () pair
  | none => .done () pair

/-- The reasons to compile that do not depend on the texts. -/
def frameReasons (pair : ShaderPair) (library : Library) (state : List (Value × Value)) :
    List Reason :=
  let forced := if stateHolds state "force_compile" then [Reason.force] else []
  let changed :=
    if pair.macroRevision.isNone then [Reason.create]
    else if pair.definesChanged library then [Reason.defines]
    else []
  forced ++ changed

/-- A text, or nothing, as a value. -/
def textValue : Option Text → Value
  | some s => .text s
  | none => .null

/-- The frame state that drawing goes on with: the given one, with the compiled texts, the defines
and the program set in it. -/
def drawState (drawing : Drawing) (state : List (Value × Value)) : List (Value × Value) :=
  let pair := drawing.pair
  let defines := drawing.context.library.macros.overlay
    (pair.macros.toList.map fun (name, value) => (.text name, .text value))
  let state := Pairs.put (.text "vertex_shader") (textValue pair.compiled.vertex) state
  let state := Pairs.put (.text "fragment_shader") (textValue pair.compiled.fragment) state
  let state := Pairs.put (.text "defines") defines.toValue state
  let program := match pair.program with
    | some index => .program index
    | none => .null
  Pairs.put (.text "program") program state

/-- **Brings the pair up to date for a frame,** and answers the state that drawing goes on with. -/
def update (drawing : Drawing) (listing : Bool) (state : List (Value × Value)) :
    Step Drawing (List (Value × Value)) :=
  let taken := (drawing.pair.takeDefines state).within fun pair =>
    { drawing with pair := pair }
  taken.andThen fun _ drawing =>
    let reasons := drawing.pair.frameReasons drawing.context.library state
    match drawing.pair.resolveSources (.map state) with
    | .error fault => .failed fault drawing
    | .ok texts =>
      let step :=
        if reasons.isEmpty then checkSources drawing listing texts
        else compile drawing listing texts reasons
      step.andThen fun _ drawing => .done (drawState drawing state) drawing

end ShaderPair

end GlslCompose
