/-
`Value/Sorted.lean` -- putting values in order when some of them may have none.

Two values of kinds that do not compare are a fault as soon as they meet, and the
number that is none comes neither before nor after any other. So the answer hangs
on which values meet, and the method is part of it: the run that stands in order
at the front is kept, or turned round if it falls, and every further value is put
in its place by halving.
-/
import GlslCompose.Fault

set_option autoImplicit false

namespace GlslCompose.Value

/-- Whether one value comes before another. -/
def before (v w : Value) : Except Fault Bool :=
  match w.greater? v with
  | some b => .ok b
  | none => .error (.incomparable .less v.kind w.kind)

/-- The number of values that carry a run on behind its last value `v`. A run either falls with
every step or with none. -/
def runLength (falling : Bool) (v : Value) : List Value → Except Fault Nat
  | [] => .ok 0
  | w :: rest => do
    let falls ← w.before v
    if falls = falling then return (← runLength falling w rest) + 1 else return 0

/-- The place of a value among sorted ones, which is known to be from `low` to `high`. -/
def placeFrom (v : Value) (sorted : List Value) (low high : Nat) : Except Fault Nat :=
  if low < high then
    let middle := low + (high - low) / 2
    match sorted[middle]? with
    | none => .ok low
    | some w =>
      match v.before w with
      | .error fault => .error fault
      | .ok true => placeFrom v sorted low middle
      | .ok false => placeFrom v sorted (middle + 1) high
  else .ok low
  termination_by high - low
  decreasing_by all_goals omega

/-- Sorted values with another one in its place, behind those that it is not before. -/
def insertSorted (sorted : List Value) (v : Value) : Except Fault (List Value) := do
  let place ← placeFrom v sorted 0 sorted.length
  return sorted.take place ++ v :: sorted.drop place

/-- Values in order. -/
def sorted : List Value → Except Fault (List Value)
  | [] => .ok []
  | [v] => .ok [v]
  | v :: w :: rest => do
    let falling ← w.before v
    let length := (← runLength falling w rest) + 2
    let run := (v :: w :: rest).take length
    ((v :: w :: rest).drop length).foldlM insertSorted (if falling then run.reverse else run)

end GlslCompose.Value
