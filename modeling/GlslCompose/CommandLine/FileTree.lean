/-
`CommandLine/FileTree.lean` -- the files below the working directory, as data.

A tree is given by its files; the directories are those that files lie in. A place
in it is a list of components, which starts with a slash if it is absolute, and
with `..` for each level that it lies above the working directory. Paths are
followed component by component: `.` and empty components stay, `..` goes back to
the directory before, and only directories can be gone through.
-/
import GlslCompose.OrderedMap
import GlslCompose.Text.Basic

set_option autoImplicit false

namespace GlslCompose.CommandLine

/-- Files with their content, by the components of their paths. -/
structure FileTree where
  files : List (List Text × List UInt8)

namespace FileTree

/-- The place where following a path begins. -/
def start (path : Text) : List Text := if Text.startsWith "/" path then [['/']] else []

/-- The directory before a place. There is none before the root, and only unnamed ones before the
working directory. -/
def parent (place : List Text) : List Text :=
  match place.getLast? with
  | none => [['.', '.']]
  | some last =>
    if last = ['/'] then place
    else if last = ['.', '.'] then place ++ [['.', '.']]
    else place.dropLast

/-- The place that a component leads to, whatever is there. -/
def next (place : List Text) (part : Text) : List Text :=
  if part.isEmpty || part = ['.'] then place
  else if part = ['.', '.'] then parent place
  else place ++ [part]

/-- The place that a path names. -/
def place (path : Text) : List Text := (Text.pieces '/' path).foldl next (start path)

/-- The tree of files with the given paths and contents. Of two files with one path the later one
counts. -/
def ofFiles (files : List (Text × List UInt8)) : FileTree :=
  ⟨Pairs.overlay [] (files.map fun (path, content) => (place path, content))⟩

/-- Whether some file lies below a directory. -/
def isDirectory (tree : FileTree) (place : List Text) : Bool :=
  place.isEmpty || tree.files.any fun (path, _) => place.isPrefixOf path && place != path

/-- What a path leads to. -/
inductive Found where
  | file (content : List UInt8)
  | directory (place : List Text)
  | missing
  /-- The path goes through a file. -/
  | blocked
  deriving DecidableEq, Repr

/-- What the components of a path lead to from a directory. -/
def follow (tree : FileTree) (place : List Text) : List Text → Found
  | [] => .directory place
  | part :: rest =>
    let there := next place part
    if part.isEmpty || part = ['.'] || part = ['.', '.'] || tree.isDirectory there then
      follow tree there rest
    else
      match Pairs.get? there tree.files with
      | some content => if rest.isEmpty then .file content else .blocked
      | none => .missing

/-- What a path leads to. The empty path leads nowhere. -/
def find (tree : FileTree) (path : Text) : Found :=
  if path.isEmpty then .missing else tree.follow (start path) (Text.pieces '/' path)

/-- The files below the directory that a path leads to, by their paths from there. A path that
leads to no directory has none. -/
def below (tree : FileTree) (path : Text) : List (Text × List UInt8) :=
  match tree.find path with
  | .directory place =>
    tree.files.filterMap fun (file, content) =>
      if place.isPrefixOf file && place != file then
        some (List.intercalate ['/'] (file.drop place.length), content)
      else none
  | _ => []

end FileTree

end GlslCompose.CommandLine
