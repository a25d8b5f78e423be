/-
`Path.lean` -- slash-delimited paths as texts: joining, cutting at the extension,
simplifying, and the directory and last component of a path.

These are the POSIX rules. A path that starts with a slash replaces what it is
joined to; a file name's leading dots never start an extension; simplifying
drops empty and `.` components, lets `..` take back the component before it, and
leaves two leading slashes alone, since POSIX lets a system give them a meaning.
-/
import GlslCompose.Text.Basic

set_option autoImplicit false

namespace GlslCompose.Path

/-! ## Joining -/

/-- The second path as seen from the first. -/
def join (base path : Text) : Text :=
  if Text.startsWith ['/'] path then path
  else if base.isEmpty || base.getLast? == some '/' then base ++ path
  else base ++ '/' :: path

/-! ## The last component -/

/-- A path cut behind its last slash. -/
def cutName (path : Text) : Text × Text :=
  match Text.cutLast? '/' path with
  | some (before, name) => (before ++ ['/'], name)
  | none => ([], path)

/-- The directory of a path: what stands before the last component, without the slashes at its
end unless it is nothing but slashes. -/
def directory (path : Text) : Text :=
  let head := (cutName path).1
  if head.all (· == '/') then head else Text.trimEnd (· == '/') head

/-- The last component of a path, which is empty behind a slash at the end. -/
def name (path : Text) : Text := (cutName path).2

/-- A path cut before its extension: the last dot of the last component and what follows it. A
component that has only dots before that dot has no extension. -/
def splitExtension (path : Text) : Text × Text :=
  let (head, last) := cutName path
  match Text.cutLast? '.' last with
  | none => (path, [])
  | some (stem, ext) =>
    if stem.all (· == '.') then (path, []) else (head ++ stem, '.' :: ext)

/-! ## Simplifying -/

/-- The number of slashes that stand for the root at the start of a path. -/
def rootSlashes (path : Text) : Nat :=
  if Text.startsWith "///" path then 1
  else if Text.startsWith "//" path then 2
  else if Text.startsWith "/" path then 1
  else 0

/-- One component after those in `stack`, the last one first. Above the root of a path that
starts there, `..` leads nowhere; in any other path it is kept. -/
def step (rooted : Bool) (stack : List Text) (part : Text) : List Text :=
  if part = [] || part = "." then stack
  else if part = ".." then
    match stack with
    | [] => if rooted then [] else [part]
    | last :: rest => if last = ".." then part :: stack else rest
  else part :: stack

/-- The shortest path that names the same place, as far as the text alone can tell. -/
def simplify (path : Text) : Text :=
  let slashes := rootSlashes path
  let parts := ((Text.pieces '/' path).foldl (step (0 < slashes)) []).reverse
  let simple := List.replicate slashes '/' ++ List.intercalate ['/'] parts
  if simple.isEmpty then "." else simple

/-- A path with single slashes and none in front. -/
def collapse : Text → Text
  | [] => []
  | '/' :: s => collapse s
  | c :: s => c :: inner s
where
  /-- What follows a character other than a slash: a run of slashes is written as one. -/
  inner : Text → Text
    | [] => []
    | '/' :: '/' :: s => inner ('/' :: s)
    | c :: s => c :: inner s

end GlslCompose.Path
