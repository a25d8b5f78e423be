/-
`Library.lean` -- a composer with a cache of compiled texts: the compiler that all
shaders of one context share.

The cache key is the digest of everything that the body of a compiled text depends
on: the source, the directory its includes are relative to, the active defines,
the revision of the store, the number of transforms, the precision and the
version. The name of the shader is not part of it beyond that directory; it only
appears in the marker line, which is added to the cached body each time.
-/
import GlslCompose.CompiledText
import GlslCompose.Composer
import GlslCompose.Digest
import GlslCompose.FragmentStore.Bundled
import GlslCompose.TextCache

set_option autoImplicit false

namespace GlslCompose

/-- The digest of the JSON text of a value. -/
def Digest.ofValue (v : Value) : Except Fault Nat :=
  match v.json with
  | .ok json => .ok (ofText json)
  | .error problem => .error (.notJson problem)

/-- **A composer with a cache, and what the compiled texts declare.** The precision and the version
are kept as the values that were given: they are written as texts, but as keys a number and its
numeral are not the same. -/
structure Library where
  composer : Composer
  precision : Value
  version : Value
  cache : TextCache Nat Text
  /-- The revision of the store for which the cached texts are good. -/
  seenRevision : Nat

namespace Library

/-! ## Setting up -/

/-- The precision that is declared unless another one is asked for. -/
def defaultPrecision : Text := "mediump float"

/-- **What a library is made with.** Everything has a default, and `composer` is one that may
already hold fragments, defines and transforms. -/
structure Options where
  precision : Value := .null
  version : Value := .null
  defines : Value := .null
  transforms : Value := .list []
  fragments : Value := .null
  bundled : Bool := true
  composer : Option Composer := none

/-- The composer that a library starts with: a new one, or the given one with the defines and
transforms added to it. -/
def startComposer (options : Options) : Except Fault Composer :=
  match options.composer with
  | none => Composer.make .empty options.defines options.transforms
  | some composer =>
    let defines := if options.defines.isTrue then options.defines else .map []
    let step := (composer.define defines (.bool true)).andThen fun _ composer =>
      composer.useItems options.transforms
    step.result.map fun _ => step.state

/-- The store with the bundled fragments and the given ones registered. -/
def startStore (options : Options) (store : FragmentStore) : Except Fault FragmentStore :=
  let bundled : Step FragmentStore Unit :=
    if options.bundled then store.loadBundled else .done () store
  let step := bundled.andThen fun _ store =>
    if options.fragments.isTrue then store.add options.fragments .null else .done () store
  step.result.map fun _ => step.state

/-- A new library. -/
def make (options : Options) : Except Fault Library := do
  let composer ← startComposer options
  let store ← startStore options composer.store
  let precision :=
    if options.precision.isTrue then options.precision else .text defaultPrecision
  return ⟨composer.withStore store, precision, options.version, .empty, store.revision⟩

/-! ## The composer of a library -/

/-- The store of a library. -/
def store (library : Library) : FragmentStore := library.composer.store

/-- The defines of a library. -/
def macros (library : Library) : MacroTable := library.composer.macros

/-- The library with another composer. -/
def withComposer (library : Library) (composer : Composer) : Library :=
  { library with composer := composer }

/-- The library with another store. -/
def withStore (library : Library) (store : FragmentStore) : Library :=
  library.withComposer (library.composer.withStore store)

/-- Registers a fragment, or everything in a mapping. -/
def add (library : Library) (path source : Value) : Step Library Unit :=
  (library.store.add path source).within library.withStore

/-- Registers the sources that a map holds by their names. -/
def load (library : Library) (loader directory extensions : Value) : Step Library Unit :=
  (library.store.loadValue loader directory extensions).within library.withStore

/-- Sets defines for all shaders of the library. -/
def define (library : Library) (name value : Value) : Step Library Bool :=
  (library.composer.define name value).within library.withComposer

/-- Removes a define for all shaders of the library. -/
def undefine (library : Library) (name : Value) : Step Library Unit :=
  (library.composer.undefine name).within library.withComposer

/-- Adds a transform. -/
def use (library : Library) (transform : Value) : Step Library Unit :=
  (library.composer.use transform).within library.withComposer

/-- The library with something done to its cache. -/
def withCache (library : Library) (f : TextCache Nat Text → TextCache Nat Text) : Library :=
  { library with cache := f library.cache }

/-! ## Compiling -/

/-- What the body of a compiled text depends on, as a value. -/
def keyValue (library : Library) (name : FileName) (source : Value) (active : ActiveDefines) :
    Value :=
  .list [
    source,
    name.root.toValue,
    .list (active.map fun (name, value) => .list [name, .text value]),
    .int library.store.revision,
    .int library.composer.transforms.length,
    library.precision,
    library.version]

/-- The key under which the body of a compiled text is cached. -/
def cacheKey (library : Library) (name : FileName) (source defines : Value) :
    Except Fault Nat := do
  let active ← library.macros.active defines
  Digest.ofValue (library.keyValue name source active)

/-- The key under which the body of a compiled text is cached, for a name that may be none. -/
def keyFor (library : Library) (name source defines : Value) : Except Fault Nat := do
  let name ← FragmentStore.nameOf name
  library.cacheKey name source defines

/-- Whether a text would come from the cache. -/
def isCached (library : Library) (source name defines : Value) : Except Fault Bool :=
  (library.keyFor name source defines).map library.cache.has

/-- The version that compiled texts declare, if they have none of their own. -/
def versionText? (library : Library) : Option Text :=
  if library.version.isTrue then some library.version.display else none

/-- The body of a compiled text, made anew. -/
def compileBody (library : Library) (name : FileName) (source : Text) (defines : Value) :
    Step Library Text :=
  ((library.composer.process name (CompiledText.dropGuard source) defines).within
    library.withComposer).map (CompiledText.body library.precision.display library.versionText?)

/-- The library with its cache emptied if the store has changed since it was filled. Entries for
an older store can never be hit again. -/
def refreshed (library : Library) : Library :=
  if library.store.revision ≠ library.seenRevision then
    { library with cache := library.cache.clear false, seenRevision := library.store.revision }
  else library

/-- The body of a compiled text, from the cache under its key or else made anew and cached. -/
def cachedBody (library : Library) (key : Nat) (name : FileName) (source : Text)
    (defines : Value) : Step Library Text :=
  match library.cache.get key with
  | (some body, cache) =>
    (Step.done body { library with cache := cache }).note (.reused name)
  | (none, cache) =>
    (compileBody { library with cache := cache } name source defines).andThen fun body library =>
      let library := library.withCache (·.set key body)
      (Step.done body library).note (.compiled name library.cache.size)

/-- **The compiled text of a source.** An empty source has none, and a source without a name is
anonymous. -/
def compile (library : Library) (name : FileName) (source : Text) (defines : Value) :
    Step Library (Option Text) :=
  let name := name.orAnonymous
  if source.isEmpty then .done none library
  else
    -- before the key is made, so that it also happens where the defines are at fault
    let library := library.refreshed
    match library.cacheKey name (.text source) defines with
    | .error fault => .failed fault library
    | .ok key =>
      -- the marker goes in behind the cache, so files of one directory can share a body
      (library.cachedBody key name source defines).map fun body =>
        some (CompiledText.withMarker name.written body)

/-- Refuses a source that is no text. It is looked for in the cache all the same, where it cannot
be. -/
def refuseSource (library : Library) (name : FileName) (source defines : Value) :
    Step Library (Option Text) :=
  match library.cacheKey name source defines with
  | .error fault => .failed fault library
  | .ok key => .failed (.sourceNotText source.kind) (library.withCache fun cache => (cache.get key).2)

/-- Compiles what a value is, under the name that another value is. -/
def compileValue (library : Library) (name source defines : Value) : Step Library (Option Text) :=
  if !source.isTrue then .done none library
  else
    match FragmentStore.nameOf name, source with
    | .error fault, _ => .failed fault library.refreshed
    | .ok name, .text source => library.compile name source defines
    | .ok name, source => library.refreshed.refuseSource name source defines

/-- Compiles a source that may come without a name. Where there is a name but no source, the name
is the source. -/
def compileGiven (library : Library) (name source defines : Value) : Step Library (Option Text) :=
  match source with
  | .null => library.compileValue .null name defines
  | source => library.compileValue name source defines

/-- The compiled text of a stored fragment. -/
def get (library : Library) (path : Value) : Step Library (Option Text) :=
  match path with
  | .text path =>
    match library.store.source? path with
    | some source =>
      library.compile (.text path) source .null
    | none => .done none library
  | _ => .done none library

end Library

end GlslCompose
