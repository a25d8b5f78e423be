/-
`FileName.lean` -- names of files, and what can be read off them.

A name is a text, or it is bytes, as on a system that does not say how its names
are encoded. What is read off a name is of the kind that the name is: slashes and
dots mean the same in both, and bytes are looked at as if each were a character.
The two kinds do not mix, so nothing that is a text can be found from a directory
whose name is bytes.
-/
import GlslCompose.Path
import GlslCompose.Value.Display

set_option autoImplicit false

namespace GlslCompose

/-- The name of a file. -/
inductive FileName where
  | text (name : Text)
  | bytes (name : List UInt8)
  deriving DecidableEq, Repr

namespace FileName

instance : Coe Text FileName := ⟨text⟩

instance : Inhabited FileName := ⟨text []⟩

/-! ## Characters -/

/-- The characters of a name, where bytes stand for the characters with their numbers. -/
def chars : FileName → Text
  | text name => name
  | bytes name => name.map fun b => Char.ofNat b.toNat

/-- A part of a name, by its characters. It is of the same kind as the name. -/
def part (name : FileName) (chars : Text) : FileName :=
  match name with
  | text _ => text chars
  | bytes _ => bytes (chars.map fun c => UInt8.ofNat c.toNat)

/-- Whether a name is empty. -/
def isEmpty (name : FileName) : Bool := name.chars.isEmpty

/-- The order of names of one kind. -/
def le (a b : FileName) : Bool := Text.le a.chars b.chars

/-! ## Parts -/

/-- The directory of a name, as it is written in the name. -/
def directory (name : FileName) : FileName := name.part (Path.directory name.chars)

/-- A name cut before its extension. -/
def splitExtension (name : FileName) : FileName × FileName :=
  let (stem, ext) := Path.splitExtension name.chars
  (name.part stem, name.part ext)

@[simp] theorem directory_text (name : Text) : directory (text name) = text (Path.directory name) :=
  rfl

@[simp] theorem splitExtension_text (name : Text) :
    splitExtension (text name)
      = (text (Path.splitExtension name).1, text (Path.splitExtension name).2) := rfl

/-- The name of a file that was given none. -/
def anonymous : FileName := text "<anonymous>"

/-- The name, or the one for a file that was given none. -/
def orAnonymous (name : FileName) : FileName := if name.isEmpty then anonymous else name

/-- The directory that the includes in a file are relative to. A file without a name stands in the
root. -/
def root (name : FileName) : FileName :=
  if name.isEmpty || name = anonymous then text "/"
  else if name.directory.isEmpty then text "/"
  else name.directory

/-- The directory of a source without a name is that of the anonymous source. -/
theorem root_orAnonymous (name : FileName) : name.orAnonymous.root = name.root := by
  unfold orAnonymous
  split
  · rename_i hempty
    have hanonymous : anonymous.root = .text "/" := by decide
    rw [hanonymous, root, hempty]
    rfl
  · rfl

/-! ## Names as values -/

/-- A name as a value. -/
def toValue : FileName → Value
  | text name => .text name
  | bytes name => .bytes name

/-- The name that a value is. -/
def ofValue? : Value → Option FileName
  | .text name => some (text name)
  | .bytes name => some (bytes name)
  | _ => none

@[simp] theorem ofValue?_toValue (name : FileName) : ofValue? name.toValue = some name := by
  cases name <;> rfl

/-- How a name is written into a text. -/
def written (name : FileName) : Text := name.toValue.display

/-- How a name is shown in a diagnostic. -/
def shown (name : FileName) : Text := name.toValue.shown

@[simp] theorem written_text (name : Text) : written (text name) = name := rfl

@[simp] theorem shown_text (name : Text) : shown (text name) = Text.quoted name := rfl

end FileName

end GlslCompose
