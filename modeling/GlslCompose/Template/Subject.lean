/-
`Template/Subject.lean` -- what the names in a template stand for.

Most names stand for a value. A few stand for what only a template knows: the
helpers that every template has, the template itself, and the loop around a place.
A string that is written in a template may be no text, if it holds halves of
surrogate pairs; it can be compared with texts all the same.

A loop can be written, and it can be gone through in its turn. It then gives the
items that it has not come to yet, each together with the loop, and none of them
is left for it afterwards.
-/
import GlslCompose.Callable
import GlslCompose.Text.Escaped

set_option autoImplicit false

namespace GlslCompose.Template

/-- What a name in a template stands for. -/
inductive Subject where
  | value (v : Value)
  /-- A string that is no text, by its code points. -/
  | halves (points : List Nat)
  /-- A thing that belongs to every template. -/
  | own (kind : Value.Kind) (written : Text)
  /-- A loop, by the number of loops around it. -/
  | loop (depth : Nat)
  /-- An item of a loop, together with that loop. -/
  | paired (item : Subject) (depth : Nat)
  /-- The mark of a place where nothing stands. -/
  | missing

/-! ## Loops in progress -/

/-- Where a loop takes its items from: those that it was given, or those of a loop around it. -/
inductive Supply where
  | items (rest : List Subject)
  | loop (depth : Nat)

/-- **How far a loop has come.** The number of its items so far, the number of items of what it goes
through, and where the next ones come from. -/
structure Progress where
  index : Nat
  length : Nat
  supply : Supply

/-- The loops around a place, the innermost first. -/
abbrev Loops := List Progress

namespace Loops

/-- The loop at a depth. -/
def at? (depth : Nat) : Loops → Option Progress
  | [] => none
  | progress :: outer => if outer.length = depth then some progress else at? depth outer

/-- The next item of the loop at a depth, and the loops once that item is taken. -/
def next? (depth : Nat) : Loops → Option (Subject × Loops)
  | [] => none
  | progress :: outer =>
    if outer.length = depth then
      match progress.supply with
      | .items [] => none
      | .items (item :: rest) => some (item, ⟨progress.index + 1, progress.length, .items rest⟩ :: outer)
      | .loop other =>
        (next? other outer).map fun (item, outer) =>
          (.paired item other, { progress with index := progress.index + 1 } :: outer)
    else (next? depth outer).map fun (item, outer) => (item, progress :: outer)

/-- How the loop at a depth is written. -/
def written (loops : Loops) (depth : Nat) : Text :=
  match loops.at? depth with
  | some progress =>
    "<LoopContext " ++ Text.ofNat progress.index ++ "/" ++ Text.ofNat progress.length ++ ">"
  | none => []

theorem length_of_next? {depth : Nat} {loops rest : Loops} {item : Subject}
    (h : loops.next? depth = some (item, rest)) : rest.length = loops.length := by
  induction loops generalizing depth rest item with
  | nil => simp [next?] at h
  | cons progress outer ih =>
    unfold next? at h
    split at h
    · split at h
      · simp at h
      · simp at h; obtain ⟨_, rfl⟩ := h; rfl
      · simp only [Option.map_eq_some_iff, Prod.exists, Prod.mk.injEq] at h
        obtain ⟨_, _, hn, _, rfl⟩ := h
        simp [ih hn]
    · simp only [Option.map_eq_some_iff, Prod.exists, Prod.mk.injEq] at h
      obtain ⟨_, _, hn, _, rfl⟩ := h
      simp [ih hn]

end Loops

/-! ## What can be done with a subject -/

namespace Subject

/-- What a string stands for, by its code points. -/
def ofPoints (points : List Nat) : Subject :=
  match Text.ofPoints? points with
  | some s => value (.text s)
  | none => halves points

/-- A string that is a text stands for that text. -/
@[simp] theorem ofPoints_toPoints (s : Text) : ofPoints (Text.toPoints s) = value (.text s) := by
  simp [ofPoints]

/-- The code points of a subject that is a string. -/
def points? : Subject → Option (List Nat)
  | value (.text s) => some (Text.toPoints s)
  | halves points => some points
  | _ => none

/-- The kind of a subject. -/
def kind : Subject → Value.Kind
  | value v => v.kind
  | halves _ => .text
  | own kind _ => kind
  | loop _ => .loop
  | paired .. => .pair
  | missing => .missing

/-- Whether a subject counts as true. Loops, and what belongs to the template, always do. -/
def isTrue : Subject → Bool
  | value v => v.isTrue
  | _ => true

/-- Whether two subjects are the same. -/
def same : Subject → Subject → Bool
  | value v, value w => v.same w
  | own _ s, own _ t => s == t
  | halves s, halves t => s == t
  | loop depth, loop other => depth == other
  | missing, missing => true
  | _, _ => false

/-- Whether one subject is greater than another. -/
def greater (x y : Subject) : Except Fault Bool :=
  match x, y with
  | value v, value w =>
    match v.greater? w with
    | some b => .ok b
    | none => .error (.incomparable .greater v.kind w.kind)
  | x, y =>
    match x.points?, y.points? with
    | some s, some t => .ok (decide (t < s))
    | _, _ => .error (.incomparable .greater x.kind y.kind)

/-- How a subject is shown inside another one. -/
def shown (loops : Loops) : Subject → Text
  | value v => v.shown
  | halves points => "'" ++ points.flatMap shownPoint ++ "'"
  | own _ written => written
  | loop depth => loops.written depth
  | paired item depth => "(" ++ item.shown loops ++ ", " ++ loops.written depth ++ ")"
  | missing => "missing"
where
  /-- A code point inside a string. A half of a pair is shown by its number. -/
  shownPoint (n : Nat) : Text :=
    if n.isValidChar then [Char.ofNat n] else "\\u" ++ Text.hex 4 n

/-- How a subject is written into the text of a template. -/
def written (loops : Loops) : Subject → Text
  | value v => v.display
  | x => x.shown loops

/-- A loop through a subject that has not come to any item yet. The template answers like a thing
that looks its items up one by one, and has none. -/
def start (loops : Loops) : Subject → Except Fault Progress
  | value v => v.items.map fun items => ⟨0, items.length, .items (items.map value)⟩
  | own .inside _ => .error (.missingKey (.int 0))
  | halves points => .ok ⟨0, points.length, .items (points.map fun n => ofPoints [n])⟩
  | own kind _ => .error (.notIterable kind)
  | missing => .error (.notIterable .missing)
  | loop depth => .ok ⟨0, ((loops.at? depth).map Progress.length).getD 0, .loop depth⟩
  | paired item depth => .ok ⟨0, 2, .items [item, loop depth]⟩

/-- The helpers of every template, by name. -/
def helpers : List (Text × Subject) := [
  ("range", own .maker "<class 'range'>"),
  ("dict", own .maker "<class 'dict'>"),
  ("lipsum", own .answerer "<function generate_lorem_ipsum>"),
  ("cycler", own .maker "<class 'jinja2.utils.Cycler'>"),
  ("joiner", own .maker "<class 'jinja2.utils.Joiner'>"),
  ("namespace", own .maker "<class 'jinja2.utils.Namespace'>")]

/-- The template that a name is used in, seen from inside. -/
def template : Subject := own .inside "<TemplateReference None>"

end Subject

end GlslCompose.Template
