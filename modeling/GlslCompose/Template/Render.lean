/-
`Template/Render.lean` -- the text of a template for given variables.

A name may stand for nothing, and that does no harm where it is mentioned in a
branch that is not taken. A variable hides a helper of the same name, and inside a
loop the loop's name hides both (see `Template/Scope`).
-/
import GlslCompose.Template.Scope

set_option autoImplicit false

namespace GlslCompose.Template

/-! ## Conditions -/

/-- What an operand stands for. -/
def Operand.eval (scope : Scope) : Operand → Except Fault Subject
  | .name n => scope.get n
  | .int n => .ok (.value (.int n))
  | .text points => .ok (.ofPoints points)
  | .bool b => .ok (.value (.bool b))
  | .null => .ok (.value .null)

/-- Whether a condition is met. -/
def Test.eval (scope : Scope) : Test → Except Fault Bool
  | holds x => (x.eval scope).map Subject.isTrue
  | equal x y => do
    let v ← x.eval scope
    let w ← y.eval scope
    return v.same w
  | greater x y => do
    let v ← x.eval scope
    let w ← y.eval scope
    v.greater w
  | negation t => (t.eval scope).map not
  | both t u =>
    match t.eval scope with
    | .ok true => u.eval scope
    | answer => answer
  | either t u =>
    match t.eval scope with
    | .ok false => u.eval scope
    | answer => answer

/-! ## Rendering -/

/-- The text that a loop writes from here on, for at most so many items, and the loops once it has
ended. -/
def goThrough (depth : Nat) (body : Subject → Loops → Except Fault (Text × Loops)) :
    Nat → Loops → Except Fault (Text × Loops)
  | 0, loops => .ok ([], loops)
  | n + 1, loops =>
    match loops.next? depth with
    | none => .ok ([], loops)
    | some (item, loops) =>
      match body item loops with
      | .error fault => .error fault
      | .ok (s, loops) => (goThrough depth body n loops).map fun (t, loops) => (s ++ t, loops)

/-- What each way through a loop is given: the item, and the loop itself if something inside mentions
it. -/
def givenTo (item : Text) (mentioned : Bool) (x loop : Subject) : List (Text × Subject) :=
  if mentioned then [(item, x), ("loop", loop)] else [(item, x)]

mutual

/-- The text of a part of a template, and how far the loops around it have come behind it. -/
def renderNode (scope : Scope) (loops : Loops) : Node → Except Fault (Text × Loops)
  | .text s => .ok (s, loops)
  | .value x => (x.eval scope).map fun x => (x.written loops, loops)
  | .choice test yes no =>
    match test.eval scope with
    | .error fault => .error fault
    | .ok true => renderFrom scope loops yes
    | .ok false => renderFrom scope loops no
  | .loop item source body otherwise =>
    match (source.eval scope).bind (Subject.start loops) with
    | .error fault => .error fault
    | .ok progress =>
      let depth := loops.length
      if (Loops.next? depth (progress :: loops)).isNone then
        renderFrom (scope.enter (scope.plan [] (namesOf otherwise)) []) loops otherwise
      else
        let mentioned := (usesFirst? "loop" body).isSome
        let given (x : Subject) := givenTo item mentioned x (.loop depth)
        let plan := scope.plan ((given .missing).map Prod.fst) (namesOf body)
        (goThrough depth (fun x loops => renderFrom (scope.enter plan (given x)) loops body)
          progress.length (progress :: loops)).map fun (s, loops) => (s, loops.tail)

/-- The text of the parts of a template, one after the other. -/
def renderFrom (scope : Scope) (loops : Loops) : List Node → Except Fault (Text × Loops)
  | [] => .ok ([], loops)
  | node :: nodes =>
    match renderNode scope loops node with
    | .error fault => .error fault
    | .ok (s, loops) => (renderFrom scope loops nodes).map fun (t, loops) => (s ++ t, loops)

end

/-- The text of a template for its variables. The template itself has a name as long as no loop
takes it first. -/
def render (vars : List (Text × Subject)) (nodes : List Node) : Except Fault Text :=
  let outer : Scope := ⟨vars ++ Subject.helpers, []⟩
  let given := if usesFirst? "self" nodes = some true then [("self".toList, Subject.template)] else []
  let scope := outer.enter (outer.plan (given.map Prod.fst) (namesOf nodes)) given
  (renderFrom scope [] nodes).map Prod.fst

/-! ## Variables -/

/-- The variables in a map, whose keys must all be texts. -/
def bindings : List (Value × Value) → Except Fault (List (Text × Subject))
  | [] => .ok []
  | (.text name, v) :: rest => (bindings rest).map ((name, .value v) :: ·)
  | _ => .error .nameNotText

/-- The text of a template for the variables in a map. Two names belong to the renderer. -/
def apply (nodes : List Node) (vars : List (Value × Value)) : Except Fault Text := do
  let vars ← bindings vars
  if Pairs.has "template".toList vars then
    .error (.reservedName .composing "template")
  else if Pairs.has "self".toList vars then
    .error (.reservedName .rendering "self")
  else render vars nodes

end GlslCompose.Template
