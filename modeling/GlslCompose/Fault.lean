/-
`Fault.lean` -- everything that can go wrong, by cause.

A fault says what was found and where; the words for it are in one place,
`Fault.message`. Faults of an `#include` also carry the chain of directives that
led to the failing one, innermost first, and their message ends in that chain.
-/
import GlslCompose.FileName
import GlslCompose.Value.Json
import GlslCompose.Text.Utf8

set_option autoImplicit false

namespace GlslCompose

/-! ## Includes -/

/-- **A place in the chain of includes.** The file whose text holds the directive, and the line on
which the directive starts. -/
structure IncludeFrame where
  path : FileName
  line : Int
  deriving DecidableEq, Repr

/-- What is wrong with an include directive. -/
inductive IncludeProblem where
  /-- The directive has no argument. -/
  | noArgument
  /-- The argument starts with neither delimiter. -/
  | badOpening (found : Char)
  /-- The argument is nothing but its opening delimiter. -/
  | noClosing (opening expected : Char)
  /-- The argument ends in something else than the delimiter it needs. -/
  | badClosing (found expected : Char)
  /-- There is nothing but white space between the delimiters. -/
  | emptyPath (argument : Text)
  /-- No fragment is stored at the path. -/
  | notFound (path : Text)
  /-- The fragment at the path is already open. -/
  | cyclic (path : Text)
  deriving DecidableEq, Repr

/-- The words for what is wrong with an include directive. -/
def IncludeProblem.message : IncludeProblem → Text
  | noArgument => "Unexpected end of #include. Expecting '<' or '\x22'."
  | badOpening found => "Unexpected token '" ++ (found :: "'. Expecting '<' or '\x22'.")
  | noClosing _ expected => "Unexpected end of #include. Expecting '" ++ (expected :: "'.")
  | badClosing found expected =>
    "Unexpected token '" ++ (found :: "'. Expecting '") ++ (expected :: "'.")
  | emptyPath _ => "Empty #include path."
  | notFound path => "glsl lib " ++ Text.quoted path ++ " not found."
  | cyclic path => "glsl lib " ++ Text.quoted path ++ " includes itself."

/-- The chain of includes as lines of a trace. -/
def traceText (trace : List IncludeFrame) : Text :=
  trace.flatMap fun frame => "\n\tat (glsl) " ++ frame.path.written ++ ":" ++ Text.ofInt frame.line

/-! ## Faults -/

/-- A comparison of two values by their order. -/
inductive Comparison where
  | less
  | greater
  deriving DecidableEq, Repr

/-- The operator of a comparison. -/
def Comparison.symbol : Comparison → Text
  | less => "<"
  | greater => ">"

/-- What is done with the variables of a template: it is made with them, or its text is composed
of the template and them, or they are put into the text. -/
inductive TemplateStage where
  | making
  | composing
  | rendering
  deriving DecidableEq, Repr

/-- What a stage is called in diagnostics. -/
def TemplateStage.name : TemplateStage → Text
  | making => "Template.__init__"
  | composing => "apply_templating"
  | rendering => "Template.render"

/-- Why a call failed. -/
inductive Fault where
  /-- An include cannot be resolved. -/
  | badInclude (problem : IncludeProblem) (trace : List IncludeFrame)
  /-- A fragment was registered with something else than a path and a text, or a mapping. -/
  | badFragment (path : Value)
  /-- A leaf of a mapping of fragments is no text. -/
  | fragmentNotText (path : Text) (leaf : Value)
  /-- Fragments were to be loaded from something else than a map. -/
  | badLoader (loader : Value)
  | defineNotText (name : Value)
  | transformNotCallable (transform : Value)
  | literalNotText (content : Value)
  /-- Something was to be compiled that is no text. -/
  | sourceNotText (kind : Value.Kind)
  | generatorNotCallable (generator : Value)
  /-- A function that should produce shader text gave something else. -/
  | generatedNotText (kind : Value.Kind)
  | notASource (value : Value)
  /-- The command layer cannot make programs. -/
  | noProgramMaker
  /-- A template uses a name that stands for nothing. -/
  | undefinedName (name : Text)
  /-- A template variable has a name that is needed otherwise. -/
  | reservedName (stage : TemplateStage) (name : Text)
  /-- A template variable has a name that is no text. -/
  | nameNotText
  /-- The variables of a template were given as something that maps no names to values. -/
  | variablesNotMapped (kind : Value.Kind)
  /-- A template is not well formed. -/
  | malformedTemplate
  | unhashable (kind : Value.Kind)
  | notJson (problem : Value.JsonProblem)
  | missingKey (key : Value)
  /-- Two values are compared that have no order. -/
  | incomparable (order : Comparison) (left right : Value.Kind)
  | notIterable (kind : Value.Kind)
  /-- Something was looked for in a value that holds nothing. -/
  | notAContainer (kind : Value.Kind)
  | notAPath (kind : Value.Kind)
  /-- A path was to be seen from something that is no path. -/
  | notARoot (kind : Value.Kind)
  /-- A path is given as bytes where the rest of it is text. -/
  | mixedPath
  /-- An item of a list that should be an entry of a map is no pair. -/
  | notAPair (index length : Nat)
  | notASequence (index : Nat)
  /-- A value is asked for something that its kind does not offer. -/
  | noSuchMember (kind : Value.Kind) (member : Text)
  /-- A value is asked for the item at a key, and its kind has none. -/
  | noItems (kind : Value.Kind)
  | badConcatenation (left right : Value.Kind)
  /-- Bytes were to be searched or changed by means of a text. -/
  | bytesRequired
  /-- A text was to be searched for something else than a text. -/
  | textRequired (kind : Value.Kind)
  /-- There is nothing at a place in a list. -/
  | noSuchIndex
  /-- A function handed in, or a block that draws, gave up. -/
  | raised (message : Text)
  /-- A function handed in could not make what it should give. -/
  | refused (message : Text)
  /-- Something that was left open is needed. -/
  | unimplemented
  | fileNotFound (path : Text)
  | isDirectory (path : Text)
  | notADirectory (path : Text)
  | notUtf8 (fault : Text.Utf8Fault)

namespace Fault

/-- The words for two values that cannot be written one after the other. -/
def concatenationText : Value.Kind → Value.Kind → Text
  | .text, right => "can only concatenate str (not \x22" ++ right.name ++ "\x22) to str"
  | .list, right => "can only concatenate list (not \x22" ++ right.name ++ "\x22) to list"
  | .bytes, right => "can't concat " ++ right.name ++ " to bytes"
  | left, right =>
    "unsupported operand type(s) for +: '" ++ left.name ++ "' and '" ++ right.name ++ "'"

/-- The words for a value that has no items by key. -/
def noItemsText : Value.Kind → Text
  | .text => "string indices must be integers, not 'str'"
  | .list => "list indices must be integers or slices, not str"
  | .bytes => "byte indices must be integers or slices, not str"
  | kind => "'" ++ kind.name ++ "' object is not subscriptable"

/-- The words for a value that JSON cannot hold. -/
def jsonText : Value.JsonProblem → Text
  | .value kind => "Object of type " ++ kind.name ++ " is not JSON serializable"
  | .key kind => "keys must be str, int, float, bool or None, not " ++ kind.name

/-- The words for a fault. -/
def message : Fault → Text
  | badInclude problem trace => problem.message ++ traceText trace
  | badFragment path =>
    "add() needs a path and source string, or a mapping. Not " ++ path.shown
  | fragmentNotText path leaf =>
    "Fragment " ++ Text.quoted path ++ " must be a str, not " ++ leaf.shown
  | badLoader loader =>
    "The given glsl loader must be a jinja2.BaseLoader or dict. Not " ++ loader.shown
  | defineNotText name => "Define name must be a str, not " ++ name.shown
  | transformNotCallable transform => "Middleware must be callable, not " ++ transform.shown
  | sourceNotText kind => "expected string or bytes-like object, got '" ++ kind.name ++ "'"
  | literalNotText content => "Literal source must be a str, not " ++ content.shown
  | generatorNotCallable generator => "Generated source needs a callable, not " ++ generator.shown
  | generatedNotText kind => "Shader source function <func> returned " ++ kind.name ++ ", not str."
  | notASource value => "Shader source must be a str or callable, not " ++ value.shown
  | noProgramMaker => "The command layer must have a create_program() method."
  | undefinedName name => "Cannot compose shader: " ++ Text.quoted name ++ " is undefined"
  | reservedName stage name =>
    stage.name ++ "() got multiple values for argument '" ++ name ++ "'"
  | nameNotText => "keywords must be strings"
  | variablesNotMapped kind =>
    "shaderlib.core.templating.apply_templating() argument after ** must be a mapping, not " ++
      kind.name
  | malformedTemplate => "malformed template"
  | unhashable kind => "unhashable type: '" ++ kind.name ++ "'"
  | notJson problem => jsonText problem
  | missingKey key => key.shown
  | incomparable order left right =>
    "'" ++ order.symbol ++ "' not supported between instances of '" ++ left.name ++ "' and '" ++
      right.name ++ "'"
  | notIterable kind => "'" ++ kind.name ++ "' object is not iterable"
  | notAContainer kind => "argument of type '" ++ kind.name ++ "' is not iterable"
  | notAPath kind => "expected str, bytes or os.PathLike object, not " ++ kind.name
  | notARoot kind =>
    "join() argument must be str, bytes, or os.PathLike object, not '" ++ kind.name ++ "'"
  | mixedPath => "Can't mix strings and bytes in path components"
  | notAPair index length =>
    "dictionary update sequence element #" ++ Text.ofNat index ++ " has length " ++
      Text.ofNat length ++ "; 2 is required"
  | notASequence index =>
    "cannot convert dictionary update sequence element #" ++ Text.ofNat index ++ " to a sequence"
  | noSuchMember kind member => "'" ++ kind.name ++ "' object has no attribute '" ++ member ++ "'"
  | noItems kind => noItemsText kind
  | badConcatenation left right => concatenationText left right
  | bytesRequired => "a bytes-like object is required, not 'str'"
  | textRequired kind => "'in <string>' requires string as left operand, not " ++ kind.name
  | noSuchIndex => "list index out of range"
  | raised message => message
  | refused message => message
  | unimplemented => []
  | fileNotFound path => "[Errno 2] No such file or directory: " ++ Text.quoted path
  | isDirectory path => "[Errno 21] Is a directory: " ++ Text.quoted path
  | notADirectory path => "[Errno 20] Not a directory: " ++ Text.quoted path
  | notUtf8 fault => fault.message

end Fault

/-- What a computation gives, told by its value alone. -/
theorem ok_of_toOption {α : Type} {result : Except Fault α} {a : α}
    (h : result.toOption = some a) : result = .ok a := by
  cases result with
  | ok b => rw [Option.some.inj h]
  | error fault => cases h

end GlslCompose
