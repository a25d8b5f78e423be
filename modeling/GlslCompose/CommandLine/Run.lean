/-
`CommandLine/Run.lean` -- what the command line does.

The commands show the help, the version, or the paths of the bundled fragments, or
compile a file. Compiling registers the `.glsl` files below the include
directories, sets the defines, and prints the compiled text. A failing include is
reported and ends in status 1; what the caller got wrong ends in status 2.
-/
import GlslCompose.CommandLine.Arguments
import GlslCompose.CommandLine.FileTree
import GlslCompose.Library
import GlslCompose.Text.LowerCase

set_option autoImplicit false

namespace GlslCompose.CommandLine

/-- How a run ends. -/
inductive Outcome where
  | finished (status : Nat) (output errors : Text)
  /-- The words of the command line make no sense, or they ask for help by an option. -/
  | refused (status : Nat)
  deriving DecidableEq, Repr

/-- The name and version of the program. -/
def versionText : Text := "shaderlib v0.1.0"

/-- How the program is called. -/
def helpText : Text := List.flatten [
  "usage: shaderlib [-h] [--name NAME] [-D NAME[=VALUE]] [-I INCLUDE_DIR]\n",
  "                 [--precision PRECISION]\n",
  "                 command [file]\n",
  "\n",
  "The (very basic) shaderlib CLI\n",
  "\n",
  "positional arguments:\n",
  "  command               The command to run: 'help', 'version', 'list' or 'compile'\n",
  "  file                  The glsl file to compile\n",
  "\n",
  "options:\n",
  "  -h, --help            show this help message and exit\n",
  "  --name NAME           The shader name\n",
  "  -D NAME[=VALUE], --define NAME[=VALUE]\n",
  "                        Add a define (can be repeated)\n",
  "  -I INCLUDE_DIR, --include-dir INCLUDE_DIR\n",
  "                        A directory with extra glsl fragments (can be repeated)\n",
  "  --precision PRECISION\n",
  "                        The float precision to declare\n"]

/-- A define as it is given on the command line: its name, and its value behind an equals sign. A
name alone is defined as true. -/
def parseDefine (given : Text) : Text × Value :=
  match Text.cutFirst? '=' given with
  | some (name, value) => (Text.strip name, .text value)
  | none => (Text.strip given, .bool true)

/-- The defines that are given on the command line, later ones over earlier ones. -/
def parseDefines : List (Option Text) → Except Fault (List (Value × Value))
  | [] => .ok []
  | none :: _ => .error (.noSuchMember .list "partition")
  | some given :: rest =>
    let (name, value) := parseDefine given
    (parseDefines rest).map ((.text name, value) :: ·)

/-- A file as text. -/
def readText (content : List UInt8) : Except Fault Text :=
  (Text.decode content).mapError .notUtf8

/-- Files as named sources, with unified line breaks. -/
def readSources : List (FileName × List UInt8) → Except Fault (List (FileName × Value))
  | [] => .ok []
  | (name, content) :: rest => do
    let text ← readText content
    let sources ← readSources rest
    return (name, .text (Text.unifyBreaks text)) :: sources

/-- The library with the fragments below a directory. -/
def loadDirectory (tree : FileTree) (library : Library) (directory : Text) :
    Except Fault Library := do
  let files := (tree.below directory).map fun (name, content) => (FileName.text name, content)
  let sources ← readSources ((FragmentStore.sortedFiles files).filter fun (name, _) =>
    name.splitExtension.2 == .text ".glsl")
  let step := library.store.load sources .directory [] (.among [.text ".glsl"])
  step.result
  return library.withStore step.state

/-- The library with the fragments below some directories. -/
def loadDirectories (tree : FileTree) (library : Library) : List Text → Except Fault Library
  | [] => .ok library
  | directory :: rest => do
    let library ← loadDirectory tree library directory
    loadDirectories tree library rest

/-- The content of the file at a path. -/
def readFile (tree : FileTree) (path : Text) : Except Fault (List UInt8) :=
  match tree.find path with
  | .file content => .ok content
  | .directory _ => .error (.isDirectory path)
  | .missing => .error (.fileNotFound path)
  | .blocked => .error (.notADirectory path)

/-- Compiles a file and prints the result. -/
def compileFile (tree : FileTree) (arguments : Arguments) (file : Text) : Except Fault Outcome := do
  let library ← Library.make { precision := .text (arguments.precision.getD []) }
  let library ← loadDirectories tree library arguments.includeDirs
  let defines ← parseDefines arguments.defines
  let step := library.define (.map (Pairs.overlay [] defines)) (.bool true)
  let _ ← step.result
  let source ← (readFile tree file).bind readText
  let name := match arguments.name with
    | some (c :: name) => c :: name
    | _ => Path.name file
  match (step.state.compile (.text name) source .null).result with
  | .ok text => return .finished 0 (text.getD []) []
  | .error (.badInclude problem trace) =>
    return .finished 1 [] ((Fault.badInclude problem trace).message ++ "\n")
  | .error fault => .error fault

/-- The bundled paths, one to a line. -/
def bundledPaths : Except Fault Text := do
  let library ← Library.make {}
  return library.store.paths.flatMap fun path => path ++ "\n"

/-- Does what the arguments ask for. -/
def perform (tree : FileTree) (arguments : Arguments) : Except Fault Outcome :=
  let command := Text.lowerCase (arguments.command.getD [])
  if command = "help" then .ok (.finished 0 helpText [])
  else if command = "version" then .ok (.finished 0 (versionText ++ "\n") [])
  else if command = "list" then bundledPaths.map fun paths => .finished 0 paths []
  else if command = "compile" then
    match arguments.file with
    | some (c :: file) => compileFile tree arguments (c :: file)
    | _ => .ok (.finished 2 [] "The compile command needs a file.\n")
  else .ok (.finished 2 ("Invalid command '" ++ command ++ "'\n") [])

/-- The words that stand for those given: without any, help is asked for. -/
def normalWords (words : List Text) : List Text :=
  if words.isEmpty then ["help"]
  else if words = [("--version" : Text)] then ["version"]
  else words

/-- What a command line does. -/
def run (tree : FileTree) (words : List Text) : Except Fault Outcome :=
  match parse (normalWords words) with
  | .refused => .ok (.refused 2)
  | .help => .ok (.refused 0)
  | .arguments arguments => perform tree arguments

end GlslCompose.CommandLine
