/-
`Template/Nesting.lean` -- the parts of a template, built from its pieces.

The pieces are gone through from the last to the first, so that a statement's end
is met before its start and each branch is complete when its condition comes.
-/
import GlslCompose.Template.Basic
import GlslCompose.Template.Piece

set_option autoImplicit false

namespace GlslCompose.Template

/-! ## Conditions -/

/-- What may come next in a condition. -/
inductive Expected where
  /-- A test, which `not` may open. -/
  | test
  /-- An operand, whatever its name. -/
  | operand
  /-- Something that compares or joins what came before. -/
  | joint
  deriving DecidableEq, Repr

/-- Words with those that join or turn conditions told apart from other names. At the start of a test
`not` turns what follows. Behind a comparing word or a sign it is an operand, as any other name is
wherever an operand is still to come. Behind an operand, `and` and `or` join. -/
def marked (expected : Expected) : List Word → List Word
  | [] => []
  | w :: ws =>
    if expected = .joint then
      if w = .name "and" then .both :: marked .test ws
      else if w = .name "or" then .either :: marked .test ws
      else w :: marked (if w = .equal || w = .greater then .operand else .joint) ws
    else if expected = .test && w = .name "not" then .negation :: marked .test ws
    else w :: marked (if w = .plus || w = .minus then .operand else .joint) ws

/-- The words up to each occurrence of a word. -/
def splitAtWord (sep : Word) : List Word → List (List Word)
  | [] => [[]]
  | w :: ws =>
    if w = sep then [] :: splitAtWord sep ws
    else match splitAtWord sep ws with
      | [] => [[w]]
      | g :: gs => (w :: g) :: gs

/-- What a name stands for: a constant, or a variable. -/
def operandOfName (name : Text) : Operand :=
  if name = "true" || name = "True" then .bool true
  else if name = "false" || name = "False" then .bool false
  else if name = "none" || name = "None" then .null
  else .name name

/-- The whole number that some words spell, which may have signs. -/
def integer? : List Word → Option Int
  | .plus :: ws => integer? ws
  | .minus :: ws => (integer? ws).map (- ·)
  | [.int n] => some n
  | _ => none

/-- The string that some strings spell one behind the other. -/
def joinedPoints? : List Word → Option (List Nat)
  | [] => some []
  | .text points :: ws => (joinedPoints? ws).map (points ++ ·)
  | _ => none

/-- The operand that some words spell. -/
def operand? (ws : List Word) : Option Operand :=
  match ws with
  | [.name name] => some (operandOfName name)
  | .text points :: rest => (joinedPoints? rest).map fun more => .text (points ++ more)
  | ws => (integer? ws).map .int

/-- What compares two operands. -/
def comparing? : Word → Option (Operand → Operand → Test)
  | .equal => some .equal
  | .greater => some .greater
  | _ => none

/-- Words cut at what compares: those before it, and each comparing word with those behind it. -/
def compared : List Word → List Word × List ((Operand → Operand → Test) × List Word)
  | [] => ([], [])
  | w :: ws =>
    let (first, others) := compared ws
    match comparing? w with
    | some compare => ([], (compare, first) :: others)
    | none => (w :: first, others)

/-- Comparisons in a row, where each operand is compared with the next one. -/
def chain? (x : Operand) : List ((Operand → Operand → Test) × List Word) → Option Test
  | [] => none
  | [(compare, ws)] => (operand? ws).map (compare x)
  | (compare, ws) :: others => do
    let y ← operand? ws
    let more ← chain? y others
    return .both (compare x y) more

/-- A comparison, or the truth of an operand. -/
def comparison? (ws : List Word) : Option Test :=
  match compared ws with
  | (first, []) => (operand? first).map .holds
  | (first, others) => do chain? (← operand? first) others

/-- A comparison behind any number of negations. -/
def negated? : List Word → Option Test
  | [] => none
  | w :: ws =>
    if w = .negation then (negated? ws).map .negation else comparison? (w :: ws)

/-- Tests joined from the left. -/
def joined? (join : Test → Test → Test) : List (Option Test) → Option Test
  | [] => none
  | t :: ts => ts.foldl (fun t u => do return join (← t) (← u)) t

/-- The condition that some words spell. -/
def test? (ws : List Word) : Option Test :=
  joined? .either ((splitAtWord .either (marked .test ws)).map fun group =>
    joined? .both ((splitAtWord .both group).map negated?))

/-- The operand that is written, or gone through, where some words stand. What `not` opens is no
operand. -/
def subject? (ws : List Word) : Option Operand := operand? (marked .test ws)

/-! ## Nesting -/

/-- **A statement whose start has not been met yet.** `body` holds what stands between the last
mark met and the end of its branch, `otherwise` the branches behind that one if there are any. -/
structure Unfinished where
  isLoop : Bool
  body : List Node
  otherwise : Option (List Node)

/-- The statements around a place, the innermost first, and what follows the place in the
outermost text. -/
structure Nesting where
  inner : List Unfinished
  outer : List Node

/-- A node before everything that was met. -/
def Nesting.cons (node : Node) : Nesting → Nesting
  | ⟨[], outer⟩ => ⟨[], node :: outer⟩
  | ⟨u :: us, outer⟩ => ⟨{ u with body := node :: u.body } :: us, outer⟩

/-- The words of a statement that starts a branch, which may end in a colon. -/
def withoutColon (ws : List Word) : List Word :=
  if ws.getLast? = some .colon then ws.dropLast else ws

/-- The name of a loop's items. A constant is no name, the loop itself is called `loop`, and `in` ends
the names. -/
def itemName? (name : Text) : Option Text :=
  if operandOfName name = .name name && name != "loop".toList && name != "in".toList then some name
  else none

/-- What a loop goes through. Behind `in`, the word `recursive` belongs to the loop. -/
def source? (ws : List Word) : Option Operand :=
  if ws = [.name "recursive"] then none else subject? ws

/-- A statement with the branch that it starts, `nesting` being what follows the whole of it. What
comes behind another branch cannot be the last one, and a loop has no branch with a condition. -/
def Unfinished.start? (u : Unfinished) (ws : List Word) (nesting : Nesting) : Option Nesting :=
  let others := u.otherwise.getD []
  match withoutColon ws with
  | [.name keyword] =>
    if keyword = "else" && u.otherwise.isNone then
      some ⟨⟨u.isLoop, [], some u.body⟩ :: nesting.inner, nesting.outer⟩
    else none
  | .name keyword :: args =>
    if keyword = "elif" && !u.isLoop then
      (test? args).map fun test =>
        ⟨⟨u.isLoop, [], some [.choice test u.body others]⟩ :: nesting.inner, nesting.outer⟩
    else if keyword = "if" && !u.isLoop then
      (test? args).map fun test => nesting.cons (.choice test u.body others)
    else if keyword = "for" && u.isLoop then
      match args with
      | .name item :: .name within :: source =>
        if within = "in" then do
          let item ← itemName? item
          let source ← source? source
          return nesting.cons (.loop item source u.body others)
        else none
      | _ => none
    else none
  | _ => none

/-- A statement before everything that was met. -/
def Nesting.statement? (ws : List Word) (nesting : Nesting) : Option Nesting :=
  if ws = [.name "endif"] then some ⟨⟨false, [], none⟩ :: nesting.inner, nesting.outer⟩
  else if ws = [.name "endfor"] then some ⟨⟨true, [], none⟩ :: nesting.inner, nesting.outer⟩
  else
    match nesting.inner with
    | [] => none
    | u :: us => u.start? ws ⟨us, nesting.outer⟩

/-- A piece before everything that was met. -/
def Nesting.piece? (piece : Piece) (nesting : Nesting) : Option Nesting :=
  match piece with
  | .text s => some (nesting.cons (.text s))
  | .comment | .trim => some nesting
  | .value ws => (subject? ws).map fun x => nesting.cons (.value x)
  | .statement ws => nesting.statement? ws

/-- The parts that some pieces make up. -/
def nodes? (pieces : List Piece) : Option (List Node) :=
  match pieces.foldrM Nesting.piece? ⟨[], []⟩ with
  | some ⟨[], outer⟩ => some outer
  | _ => none

/-- The parts of the template that a text is. -/
def ofText? (s : Text) : Option (List Node) := (pieces? s).bind nodes?

end GlslCompose.Template
