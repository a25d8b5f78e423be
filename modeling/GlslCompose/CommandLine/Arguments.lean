/-
`CommandLine/Arguments.lean` -- the arguments of the command line.

Words that start with a dash are options, except a lone dash, negative numbers,
words with a blank in them that are no option, and everything behind `--`. A long
option may be cut short as long as it stays unambiguous. A value is the next word,
or stands behind an equals sign, or directly behind the letter of a short option.

The command and the file come from the first words that are no options. They must
stand together: what follows a later option is too much.
-/
import GlslCompose.Text.Blank
import GlslCompose.Text.Word

set_option autoImplicit false

namespace GlslCompose.CommandLine

/-! ## Options -/

/-- The options. -/
inductive OptionKind where
  | help
  | name
  | define
  | includeDir
  | precision
  deriving DecidableEq, Repr

/-- How the options are spelled. -/
def spellings : List (Text × OptionKind) := [
  ("-h", .help), ("--help", .help), ("--name", .name), ("-D", .define), ("--define", .define),
  ("-I", .includeDir), ("--include-dir", .includeDir), ("--precision", .precision)]

/-- The option with a spelling. -/
def spelled? (word : Text) : Option OptionKind :=
  (spellings.find? fun (spelling, _) => spelling == word).map Prod.snd

/-- What a word is. -/
inductive WordKind where
  | plain
  /-- The first `--`. -/
  | separator
  /-- An option, spelled by a letter or not, with a value in the same word or not. -/
  | option (kind : OptionKind) (byLetter : Bool) (value : Option Text)
  /-- Something that looks like an option but is none. -/
  | unknown
  deriving DecidableEq, Repr

/-- The options that a word may stand for when it is not spelled out. -/
def candidates (word : Text) : List WordKind :=
  if Text.startsWith "--" word then
    let (lead, value) := match Text.cutFirst? '=' word with
      | some (lead, value) => (lead, some value)
      | none => (word, none)
    (spellings.filter fun (spelling, _) => Text.startsWith lead spelling).map
      fun (_, kind) => .option kind false value
  else
    (spellings.filter fun (spelling, _) => spelling == word.take 2).map
      fun (_, kind) => .option kind true (some (word.drop 2))

/-- Whether a word is a negative number in digits, with a point at most. -/
def isNegativeNumber (word : Text) : Bool :=
  match word with
  | '-' :: s =>
    let s := if s.getLast? == some '\n' then s.dropLast else s
    let digits := s.takeWhile Text.isDecimalDigit
    match s.dropWhile Text.isDecimalDigit with
    | [] => !digits.isEmpty
    | '.' :: fraction => !fraction.isEmpty && fraction.all Text.isDecimalDigit
    | _ => false
  | _ => false

/-- An option that is spelled out before an equals sign. -/
def spelledWithValue? (word : Text) : Option WordKind :=
  match Text.cutFirst? '=' word with
  | some (spelling, value) =>
    (spelled? spelling).map fun kind => .option kind (!Text.startsWith "--" spelling) (some value)
  | none => none

/-- What a word is, as long as there was no `--`. An ambiguous option is nothing at all. -/
def wordKind? (word : Text) : Option WordKind :=
  match word with
  | '-' :: _ :: _ =>
    match spelled? word with
    | some kind => some (.option kind (!Text.startsWith "--" word) none)
    | none =>
      match spelledWithValue? word with
      | some found => some found
      | none =>
        match candidates word with
        | _ :: _ :: _ => none
        | [found] => some found
        | [] =>
          if isNegativeNumber word || word.contains ' ' then some .plain else some .unknown
  | _ => some .plain

/-- The words with what they are. -/
def wordKinds? : List Text → Option (List (WordKind × Text))
  | [] => some []
  | word :: rest =>
    if word = "--" then
      some ((.separator, word) :: rest.map fun word => (.plain, word))
    else do
      let kind ← wordKind? word
      let kinds ← wordKinds? rest
      return (kind, word) :: kinds

/-! ## Arguments -/

/-- **What the command line asks for.** A value may be missing although its option is there, which
is so when it was `--`. -/
structure Arguments where
  command : Option Text := none
  file : Option Text := none
  name : Option Text := none
  defines : List (Option Text) := []
  includeDirs : List Text := []
  precision : Option Text := none
  /-- Whether the first words that are no options have been met. -/
  placed : Bool := false
  /-- Whether there was a word that has no place. -/
  excess : Bool := false
  deriving Repr

/-- The arguments with an option taken into account. -/
def Arguments.take (arguments : Arguments) (kind : OptionKind) (value : Text) : Arguments :=
  let given := if value = "--" then none else some value
  match kind with
  | .help => arguments
  | .name => { arguments with name := given }
  | .define => { arguments with defines := arguments.defines ++ [given] }
  | .includeDir => { arguments with includeDirs := arguments.includeDirs ++ given.toList }
  | .precision => { arguments with precision := given }

/-- The arguments with a run of words that are no options taken into account. -/
def Arguments.place (arguments : Arguments) (words : List (WordKind × Text)) : Arguments :=
  let plain := (words.filter fun (kind, _) => kind == .plain).map Prod.snd
  match arguments.placed, plain with
  | false, command :: file =>
    { arguments with
      placed := true
      command := some command
      file := file.head?.filter (· != "--".toList)
      excess := arguments.excess || 1 < file.length }
  | _, _ => { arguments with excess := arguments.excess || !words.isEmpty }

/-- What becomes of a command line. -/
inductive Parsed where
  | arguments (arguments : Arguments)
  | help
  | refused
  deriving Repr

/-- What becomes of letters behind `-h`: each must be an option. The last one may need the next
word as its value. -/
def lettersAfterHelp (next : Option WordKind) : Text → Parsed
  | [] => .help
  | c :: rest =>
    match spelled? ['-', c] with
    | none => .refused
    | some .help => lettersAfterHelp next rest
    | some _ => if rest.isEmpty && next != some .plain then .refused else .help

/-- Whether a word is no option. -/
def isPlace (word : WordKind × Text) : Bool := word.1 == .plain || word.1 == .separator

/-- Takes the words one after the other, and runs of words that are no options as a whole. -/
def takeWords (arguments : Arguments) (words : List (WordKind × Text)) : Parsed :=
  match words with
  | [] =>
    if arguments.command.isNone || arguments.excess then .refused else .arguments arguments
  | (.unknown, _) :: rest => takeWords { arguments with excess := true } rest
  | (.option .help byLetter value, _) :: rest =>
    match value with
    | none => .help
    | some letters =>
      if byLetter && !letters.isEmpty then lettersAfterHelp (rest.head?.map Prod.fst) letters
      else .refused
  | (.option kind _ (some value), _) :: rest => takeWords (arguments.take kind value) rest
  | (.option kind _ none, _) :: (.plain, value) :: rest =>
    takeWords (arguments.take kind value) rest
  | (.option _ _ none, _) :: _ => .refused
  | word :: rest =>
    takeWords (arguments.place (word :: rest.takeWhile isPlace)) (rest.dropWhile isPlace)
  termination_by words.length
  decreasing_by
    all_goals simp only [List.length_cons]
    all_goals first
      | omega
      | (have h := congrArg List.length (List.takeWhile_append_dropWhile (p := isPlace) (l := rest))
         simp only [List.length_append] at h
         omega)

/-- What becomes of the words of a command line. -/
def parse (words : List Text) : Parsed :=
  match wordKinds? words with
  | none => .refused
  | some kinds => takeWords {} kinds

end GlslCompose.CommandLine
