/-
`Template/Scope.lean` -- which thing a name in a template stands for.

The template is a scope, and so is each way through a loop. A scope has the names
that are given to it, as a loop gives its item, and those that are mentioned in it
and known in no scope around it. The latter stand for variables, or for helpers
where there is no variable of that name, or for nothing.

Within a scope a name is a place, and names that spell the same share one. The last
of them that is mentioned fills it for all. So a given name can lose its thing to a
name that stands for nothing; what is left at its place is a mark that says so.
-/
import GlslCompose.Template.Basic
import GlslCompose.Template.Subject
import GlslCompose.Text.Decomposed

set_option autoImplicit false

namespace GlslCompose.Template

/-! ## Mentions -/

/-- The name that an operand is. -/
def Operand.names : Operand → List Text
  | .name n => [n]
  | _ => []

/-- The names in a condition. -/
def Test.names : Test → List Text
  | holds x => x.names
  | equal x y | greater x y => x.names ++ y.names
  | negation t => t.names
  | both t u | either t u => t.names ++ u.names

mutual

/-- The names that a part of a template mentions in the scope it stands in. What is inside a loop
stands in the scope of that loop. -/
def Node.names : Node → List Text
  | .text _ => []
  | .value x => x.names
  | .choice test yes no => test.names ++ namesOf yes ++ namesOf no
  | .loop _ source _ _ => source.names

/-- The names that parts of a template mention in the scope they stand in. -/
def namesOf : List Node → List Text
  | [] => []
  | node :: nodes => node.names ++ namesOf nodes

end

mutual

/-- Whether the first mention of a name in a part of a template uses what it stands for. The other
way to mention it is to give its items to it, as a loop does with its name. -/
def uses? (name : Text) : Node → Option Bool
  | .text _ => none
  | .value x => if x.names.contains name then some true else none
  | .choice test yes no =>
    if test.names.contains name then some true else (usesFirst? name yes).or (usesFirst? name no)
  | .loop item source body otherwise =>
    if item = name then some false
    else if source.names.contains name then some true
    else (usesFirst? name body).or (usesFirst? name otherwise)

/-- Whether the first mention of a name in the parts of a template uses what it stands for. -/
def usesFirst? (name : Text) : List Node → Option Bool
  | [] => none
  | node :: nodes => (uses? name node).or (usesFirst? name nodes)

end

/-! ## Scopes -/

/-- **The scopes around a place.** `globals` holds what names stand for outside of all loops, and
`known` what stands at the names of the scopes, those of the inner scopes first. -/
structure Scope where
  globals : List (Text × Subject)
  known : List (Text × Option Subject)

namespace Scope

/-- What a name stands for. -/
def get (scope : Scope) (name : Text) : Except Fault Subject :=
  match Pairs.get? name scope.known with
  | some (some x) => .ok x
  | _ => .error (.undefinedName name)

/-- **The names of a scope that is to be entered.** Each name comes with the one that fills its
place, and `found` holds what the mentioned names stand for. -/
structure Plan where
  places : List (Text × Text)
  found : List (Text × Option Subject)

/-- Names with what they spell. -/
def spelled (names : List Text) : List (List Nat × Text) :=
  names.map fun name => (Text.decomposed name, name)

/-- The last name that spells the same as another one. -/
def filler (spelled : List (List Nat × Text)) (spelling : List Nat) (name : Text) : Text :=
  match (spelled.filter fun (other, _) => other == spelling).getLast? with
  | some (_, last) => last
  | none => name

/-- The plan of a scope inside others, from the names that will be given to it and the names that
are mentioned in it. -/
def plan (scope : Scope) (given mentioned : List Text) : Plan :=
  let new := (mentioned.filter fun name =>
    !given.contains name && !Pairs.has name scope.known).eraseDups
  let all := spelled (given ++ new)
  ⟨all.map fun (spelling, name) => (name, filler all spelling name),
    new.map fun name => (name, Pairs.get? name scope.globals)⟩

/-- The scopes inside of a scope that is entered. -/
def enter (scope : Scope) (plan : Plan) (given : List (Text × Subject)) : Scope :=
  let known := plan.places.map fun (name, filler) =>
    let x := match Pairs.get? filler given with
      | some x => some x
      | none => (Pairs.get? filler plan.found).getD none
    (name, if Pairs.has name given then some (x.getD .missing) else x)
  { scope with known := known ++ scope.known }

/-- A name that is alone in spelling what it spells fills its own place. -/
theorem filler_eq_self {names : List Text} {name : Text}
    (h : ∀ other ∈ names, Text.alike other name = true → other = name) :
    filler (spelled names) (Text.decomposed name) name = name := by
  unfold filler
  split
  · rename_i spelling last hl
    have hm := List.mem_filter.1 (List.mem_of_getLast? hl)
    simp only [spelled, List.mem_map, Prod.mk.injEq] at hm
    obtain ⟨⟨other, ho, rfl, rfl⟩, hs⟩ := hm
    exact h other ho hs
  · rfl

end Scope

end GlslCompose.Template
