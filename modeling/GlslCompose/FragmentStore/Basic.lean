/-
`FragmentStore/Basic.lean` -- the named fragments of shader text.

A store is a map from slash-delimited paths without extension to texts. It only
grows: a fragment can be given a new text, never taken away. `revision` counts the
changes, and giving a fragment the text that it already has is none; whoever
remembers a revision can tell whether the store has changed since.
-/
import GlslCompose.Callable
import GlslCompose.Notice
import GlslCompose.Path
import GlslCompose.Value.Sorted

set_option autoImplicit false

namespace GlslCompose

/-- A store of fragments. -/
structure FragmentStore where
  fragments : OrderedMap Text Text
  revision : Nat

namespace FragmentStore

/-- The store without fragments. -/
def empty : FragmentStore := ⟨.empty, 0⟩

instance : Inhabited FragmentStore := ⟨empty⟩

/-! ## Looking up -/

/-- The text of the fragment at a path. -/
def source? (store : FragmentStore) (path : Text) : Option Text := store.fragments.get? path

/-- Whether a value is the path of a fragment. -/
def has (store : FragmentStore) (path : Value) : Except Fault Bool :=
  match path with
  | .text path => .ok (store.source? path).isSome
  | path => path.asKey.map fun _ => false

/-- The paths of a store, in the order of code points. -/
def paths (store : FragmentStore) : List Text := store.fragments.keys.mergeSort Text.le

/-- The number of fragments. -/
def size (store : FragmentStore) : Nat := store.fragments.size

/-- The path that names a place as seen from a directory: from the root of the store, without
extension, and without any part that leads nowhere. -/
def resolve (path root : Text) : Text :=
  let base := Path.join "/" root
  Path.collapse (Path.simplify (Path.join base (Path.splitExtension path).1))

/-- The path for values that should be paths. The directory is looked at first. -/
def resolveValue (path root : Value) : Except Fault Text :=
  match root, path with
  | .text root, .text path => .ok (resolve path root)
  | .text _, .bytes _ => .error .mixedPath
  | .text _, path => .error (.notAPath path.kind)
  | .bytes _, _ => .error .mixedPath
  | root, _ => .error (.notARoot root.kind)

/-- The name of a file that a value is. What counts as false is no name, and has none. -/
def nameOf (v : Value) : Except Fault FileName :=
  match FileName.ofValue? v with
  | some name => .ok name
  | none => if v.isTrue then .error (.notAPath v.kind) else .ok (.text [])

/-! ## Registering -/

/-- The store with a text at a path. -/
def insert (store : FragmentStore) (path source : Text) : FragmentStore :=
  let path := Path.collapse path
  if store.source? path = some source then store
  else ⟨store.fragments.insert path source, store.revision + 1⟩

/-- Registering gives a path its text, and leaves the other paths alone. -/
theorem source?_insert (store : FragmentStore) (path source other : Text) :
    (store.insert path source).source? other
      = if Path.collapse path = other then some source else store.source? other := by
  unfold insert
  by_cases h : store.source? (Path.collapse path) = some source
  · by_cases ho : Path.collapse path = other
    · subst ho; simp [h]
    · simp [h, ho]
  · simp only [h, if_false]
    exact OrderedMap.get?_insert store.fragments (Path.collapse path) other source

/-- What holds of the text that is registered, and of every fragment that was there, holds of every
fragment. -/
theorem forall_source?_insert {p : Text → Text → Prop} {store : FragmentStore} {path source : Text}
    (hnew : p (Path.collapse path) source)
    (hold : ∀ other fragment, store.source? other = some fragment → p other fragment) :
    ∀ other fragment, (store.insert path source).source? other = some fragment →
      p other fragment := by
  intro other fragment hs
  rw [source?_insert] at hs
  split at hs
  · rename_i hother
    obtain rfl := hother
    obtain rfl := Option.some.inj hs
    exact hnew
  · exact hold other fragment hs

mutual

/-- Registers everything in a mapping, whose keys continue the components in `above`. Mappings
inside it are gone through where they stand. A leaf that is no text ends it; what came before
stays registered. -/
def insertEntries (store : FragmentStore) (above : List Text) :
    List (Value × Value) → Step FragmentStore Unit
  | [] => .done () store
  | (key, value) :: rest =>
    (insertLeaf store (above ++ [key.display]) value).andThen fun _ store =>
      insertEntries store above rest

/-- Registers what a mapping holds at a key, the components of the path being known. -/
def insertLeaf (store : FragmentStore) (components : List Text) : Value → Step FragmentStore Unit
  | .text source => .done () (store.insert (List.intercalate ['/'] components) source)
  | .map entries => insertEntries store components entries
  | .table entries _ =>
    .done () (entries.foldl
      (fun store (key, source) =>
        store.insert (List.intercalate ['/'] (components ++ [key])) source) store)
  | leaf => .failed (.fragmentNotText (List.intercalate ['/'] components) leaf) store

end

/-- Registers a text at a path, or everything in a mapping, which may be nested. -/
def add (store : FragmentStore) (path : Value) (source : Value) : Step FragmentStore Unit :=
  match path, source with
  | .text path, .text source => .done () (store.insert path source)
  | .map entries, .null => insertEntries store [] entries
  | .table entries _, .null =>
    .done () (entries.foldl (fun store (key, source) => store.insert key source) store)
  | path, _ => .failed (.badFragment path) store

/-! ## Loading -/

/-- Which extensions are wanted: any, those in a list, or those that occur in a text or in bytes. -/
inductive ExtensionFilter where
  | all
  | among (extensions : List FileName)
  | within (extensions : FileName)
  deriving DecidableEq, Repr

/-- Whether an extension is wanted. A text does not occur in bytes, nor the other way round, and is
not to be looked for there. -/
def ExtensionFilter.accepts : ExtensionFilter → FileName → Except Fault Bool
  | all, _ => .ok true
  | among extensions, ext => .ok (extensions.contains ext)
  | within (.text extensions), .text ext => .ok (Text.hasPart ext extensions)
  | within (.text _), .bytes _ => .error (.textRequired .bytes)
  | within (.bytes _), .text _ => .error .bytesRequired
  | within (.bytes extensions), .bytes ext =>
    .ok (Text.hasPart (FileName.bytes ext).chars (FileName.bytes extensions).chars)

/-- The names and texts of a collection, in the order of the names. -/
def sortedFiles {α : Type} (files : List (FileName × α)) : List (FileName × α) :=
  files.mergeSort fun f g => FileName.le f.1 g.1

/-- Registers named texts one by one under a directory, without their extensions, and counts
them. -/
def loadFiles (store : FragmentStore) (directory : Text) (filter : ExtensionFilter) (count : Nat) :
    List (FileName × Value) → Step FragmentStore Nat
  | [] => .done count store
  | (name, source) :: rest =>
    let (path, ext) := name.splitExtension
    match filter.accepts ext with
    | .error fault => .failed fault store
    | .ok false => loadFiles store directory filter count rest
    | .ok true =>
      (store.add (.text (directory ++ '/' :: path.written)) source).andThen fun _ store =>
        loadFiles store directory filter (count + 1) rest

/-- Registers the named texts of a collection that have a wanted extension, in the order of their
names. -/
def load (store : FragmentStore) (files : List (FileName × Value)) (origin : FragmentOrigin)
    (directory : Text) (filter : ExtensionFilter) : Step FragmentStore Unit :=
  (loadFiles store directory filter 0 (sortedFiles files)).andThen fun count store =>
    (Step.done () store).note (.loaded count origin)

/-- The names and sources in a map from names to sources. The names must have an order, so all of
them are of one kind; if that is not one of names, the first of them is at fault. -/
def namedSources (entries : List (Value × Value)) : Except Fault (List (FileName × Value)) := do
  let names ← Value.sorted (entries.map Prod.fst)
  match names.find? fun name => (FileName.ofValue? name).isNone with
  | some name => .error (.notAPath name.kind)
  | none =>
    return entries.filterMap fun (name, source) =>
      (FileName.ofValue? name).map fun name => (name, source)

/-- Which extensions a value asks for. -/
def ExtensionFilter.ofValue (v : Value) : Except Fault ExtensionFilter :=
  match v, FileName.ofValue? v with
  | .null, _ => .ok .all
  | _, some extensions => .ok (.within extensions)
  | v, none =>
    match v.items with
    | .ok items => .ok (.among (items.filterMap FileName.ofValue?))
    | .error _ => .error (.notAContainer v.kind)

/-- Registers the sources that a map holds by their names. -/
def loadValue (store : FragmentStore) (loader directory extensions : Value) :
    Step FragmentStore Unit :=
  match loader with
  | .map entries =>
    let wanted := if entries.isEmpty then .ok .all else ExtensionFilter.ofValue extensions
    match namedSources entries, wanted with
    | .ok files, .ok filter => store.load files .given directory.display filter
    | .error fault, _ => .failed fault store
    | _, .error fault => .failed fault store
  | loader => .failed (.badLoader loader) store

end FragmentStore

end GlslCompose
