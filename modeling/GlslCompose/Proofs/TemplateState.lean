/-
`Proofs/TemplateState.lean` -- the frame state reaches a template, unless it holds a name that is
taken.

A frame state is laid over the variables of a template, so it is looked into first. All of them
then go through two calls by their names, and each call has a parameter of its own that is in
the way: `template` and `self`. A variable of one of these names, be it in the state or among
the variables, is not the variable of that name and does not just get lost; rendering does not
start. Without such a name the text is the rendering in the environment that looks into the
state, then into the variables, then for a helper (`resolve_template`).
-/
import GlslCompose.Proofs.TemplateEnvironment
import GlslCompose.ShaderSource

set_option autoImplicit false

namespace GlslCompose

namespace ShaderSource

open Template (Environment FaultsIn Node SpelledApart Subject bindings mentionsOf render rendering)

/-! ## Variables and frame states -/

/-- Entries with texts as their keys. -/
def named (entries : List (Text × Value)) : List (Value × Value) :=
  entries.map fun (name, v) => (.text name, v)

/-- Entries as what names stand for. -/
def subjects (entries : List (Text × Value)) : List (Text × Subject) :=
  entries.map fun (name, v) => (name, .value v)

theorem overlaid_named (vars state : List (Text × Value)) :
    overlaid vars (named state) = named (Pairs.overlay vars state) :=
  Pairs.overlay_renamed (f := Value.text) (fun _ _ => rfl) vars state

theorem bindings_named (entries : List (Text × Value)) :
    bindings (named entries) = .ok (subjects entries) := by
  induction entries with
  | nil => rfl
  | cons entry rest ih =>
    obtain ⟨name, v⟩ := entry
    rw [named, List.map_cons, bindings, show rest.map (fun (name, v) => (Value.text name, v)) = named rest from rfl,
      ih]
    rfl

/-- The names that belong to the renderer: the parameters of the two calls that the variables go through. -/
def taken : List Text := ["template", "self"]

/-- The text of a template for a state is its text for the variables with the state over them, unless one of
those has a name that is taken. -/
theorem resolve_template_eq {state : Value} {entries : List (Text × Value)}
    (hstate : stateEntries state = .ok (named entries)) (text : Text) (nodes : List Node)
    (vars : List (Text × Value)) :
    (template text nodes vars).resolve state =
      if Pairs.has (String.toList "template") (subjects (Pairs.overlay vars entries)) = true
        then .error (.reservedName .composing "template")
      else if Pairs.has (String.toList "self") (subjects (Pairs.overlay vars entries)) = true
        then .error (.reservedName .rendering "self")
      else render (subjects (Pairs.overlay vars entries)) nodes := by
  rw [resolve, hstate]
  dsimp only
  rw [overlaid_named, Template.apply, bindings_named]
  rfl

/-- **The environment of a template in a frame state:** the state, and the variables behind it. -/
def environment (vars state : List (Text × Value)) (nodes : List Node) : Environment :=
  .ofVariables (fun name => ((Pairs.get? name state).or (Pairs.get? name vars)).map Subject.value) nodes

section Resolve

variable {vars entries : List (Text × Value)} (hkeys : (Pairs.keys entries).Nodup)

include hkeys

theorem get?_subjects (name : Text) : Pairs.get? name (subjects (Pairs.overlay vars entries))
    = ((Pairs.get? name entries).or (Pairs.get? name vars)).map Subject.value := by
  rw [subjects, Pairs.get?_map, Pairs.get?_overlay hkeys]

theorem ofVariables_overlay (nodes : List Node) :
    Environment.ofVariables (Pairs.get? · (subjects (Pairs.overlay vars entries))) nodes
      = environment vars entries nodes := by
  rw [environment]
  exact congrArg (Environment.ofVariables · nodes) (funext (get?_subjects hkeys))

/-- A name is among the variables exactly if it is in the state or was given to the template. -/
theorem has_subjects_iff (name : Text) :
    Pairs.has name (subjects (Pairs.overlay vars entries)) = true ↔
      name ∈ Pairs.keys entries ∨ name ∈ Pairs.keys vars := by
  rw [Pairs.has, get?_subjects hkeys, Option.isSome_map, Option.isSome_or, Bool.or_eq_true,
    Option.isSome_iff_ne_none, Option.isSome_iff_ne_none, ne_eq, ne_eq, Pairs.get?_eq_none_iff,
    Pairs.get?_eq_none_iff, Decidable.not_not, Decidable.not_not]

/-- Where no name is taken, all that is left is to render the template. -/
theorem resolve_eq_render {state : Value} (hstate : stateEntries state = .ok (named entries)) (text : Text)
    (nodes : List Node) (hfree : ∀ name ∈ taken, name ∉ Pairs.keys entries ∧ name ∉ Pairs.keys vars) :
    (template text nodes vars).resolve state = render (subjects (Pairs.overlay vars entries)) nodes := by
  have habsent : ∀ name ∈ taken, ¬ Pairs.has name (subjects (Pairs.overlay vars entries)) = true :=
    fun name hname hhas => ((has_subjects_iff hkeys name).1 hhas).elim (hfree name hname).1 (hfree name hname).2
  rw [resolve_template_eq hstate, if_neg (habsent _ List.mem_cons_self),
    if_neg (habsent _ (List.mem_cons_of_mem _ List.mem_cons_self))]

end Resolve

/-- A template that writes each light in a state, with its size. -/
def lightText : Text := "{$ for l in lights $}{{ l }} {{ size }};{$ endfor $}"

/-- The parts of that template. -/
def lightNodes : List Node :=
  [.loop "l" (.name "lights") [.value (.name "l"), .text " ", .value (.name "size"), .text ";"] []]

/-- The state that has its lights, and another size. -/
def lightState : List (Text × Value) := [("lights", .list [.text "sun", .text "lamp"]), ("size", .text "2")]

/-- A state with a name that is taken. -/
def takenState : List (Text × Value) := [("a", .text "1"), ("template", .text "b")]

end ShaderSource

end GlslCompose
