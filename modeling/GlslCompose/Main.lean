/-
`Main.lean` -- the program: reads the files that the command line names, runs it, and
prints the outcome.

Only what the arguments name is read: the shader file, and the `.glsl` files below
the include directories. Everything else is decided by `CommandLine.run`.
-/
import GlslCompose.CommandLine.Run

set_option autoImplicit false

namespace GlslCompose.Program

/-- The names of the `.glsl` files below a directory, each as a path that starts with the
directory as it was given. Depth is bounded, so that links in a circle do no harm. -/
def glslFiles : (depth : Nat) → String → IO (List String)
  | 0, _ => pure []
  | depth + 1, directory => do
    let entries ← try (do let path ← IO.FS.realPath directory; path.readDir) catch _ => pure #[]
    let mut found : List String := []
    for entry in entries do
      let path := directory ++ "/" ++ entry.fileName
      if ← entry.path.isDir then
        found := found ++ (← glslFiles depth path)
      else if entry.fileName.endsWith ".glsl" then
        found := found ++ [path]
    return found

/-- The content of a file, if there is one that can be read. -/
def content? (path : String) : IO (List (Text × List UInt8)) := do
  try
    let bytes ← IO.FS.readBinFile path
    return [(path.toList, bytes.toList)]
  catch _ => return []

/-- The files that some arguments name. -/
def namedFiles (words : List Text) : IO (List (Text × List UInt8)) :=
  match CommandLine.parse (CommandLine.normalWords words) with
  | .arguments arguments => do
    let mut files : List (Text × List UInt8) := []
    for directory in arguments.includeDirs do
      for path in ← glslFiles 64 (String.ofList directory) do
        files := files ++ (← content? path)
    for file in arguments.file.toList do
      files := files ++ (← content? (String.ofList file))
    return files
  | _ => pure []

end GlslCompose.Program

open GlslCompose in
/-- Runs the command line on the files that it names. -/
def main (words : List String) : IO UInt32 := do
  let words := words.map String.toList
  let files ← Program.namedFiles words
  match CommandLine.run (CommandLine.FileTree.ofFiles files) words with
  | .ok (.finished status output errors) =>
    IO.print (String.ofList output)
    IO.eprint (String.ofList errors)
    return UInt32.ofNat status
  | .ok (.refused status) =>
    if status = 0 then IO.print (String.ofList CommandLine.helpText)
    else IO.eprint (String.ofList CommandLine.helpText)
    return UInt32.ofNat status
  | .error fault =>
    IO.eprintln (String.ofList fault.message)
    return 1
