/-
`Expansion.lean` -- the walk over directives: from a text to the tokens that are left
when every include is replaced by the fragment it asks for.

A fragment is spliced in each time it is included. It may be open only once at a
time, so the walk keeps the paths that are open, and including one of them again
is a fault; that is also why the walk ends, since each fragment that it enters is
stored and was not open. Comments never reach the tokens, also not from inside a
directive, and a define always has a value.

Every text is scanned between two line feeds of its own. They keep what comes
before and after it on other lines, and with the first of them on line 0 the text
starts on line 1.
-/
import GlslCompose.Directive
import GlslCompose.FragmentStore.Basic
import GlslCompose.Token.Stream

set_option autoImplicit false

namespace GlslCompose

/-- The path that an include asks for, in a file whose includes are relative to `root`. No path can
be found from a directory whose name is bytes. -/
def Directive.IncludeTarget.resolve (root : FileName) :
    Directive.IncludeTarget → Except Fault Text
  | fromRoot path => .ok (FragmentStore.resolve path "/")
  | fromFile path =>
    match root with
    | .text root => .ok (FragmentStore.resolve path root)
    | .bytes _ => .error .mixedPath

namespace Expansion

/-! ## One file -/

/-- What becomes of the tokens of one file. An include is handed to `splice`, with the frame for
its place and the path that it asks for. -/
def ofTokens (splice : IncludeFrame → Text → Logged (List Token)) (file root : FileName)
    (above : List IncludeFrame) : List Token → Logged (List Token)
  | [] => .done []
  | token :: rest =>
    if token.kind.isComment then ofTokens splice file root above rest
    else if token.kind ≠ .directive then
      (ofTokens splice file root above rest).map (token :: ·)
    else
      let data := Directive.withoutComments token.data
      let keyword := Directive.keyword data
      if keyword = "define" then
        (ofTokens splice file root above rest).map
          ({ token with data := Directive.normalDefine data } :: ·)
      else if keyword = "include" then
        let frame : IncludeFrame := ⟨file, token.line⟩
        match Directive.includeTarget (Directive.includeArgument data) with
        | .error problem => .failed (.badInclude problem (frame :: above))
        | .ok target =>
          match target.resolve root with
          | .error fault => .failed fault
          | .ok path =>
            (splice frame path).andThen fun inner =>
              (ofTokens splice file root above rest).map (inner ++ ·)
      else (ofTokens splice file root above rest).map ({ token with data := data } :: ·)

/-- The tokens of a file, scanned between two line feeds. -/
def fileTokens (text : Text) : List Token := Token.ofText ('\n' :: text ++ ['\n']) 0

/-! ## All files -/

/-- The paths of a store that are not open. -/
def closedPaths (store : FragmentStore) (opened : List Text) : List Text :=
  store.fragments.keys.filter fun path => path ∉ opened

/-- Opening a stored path that was not open leaves fewer of them. -/
theorem length_closedPaths_lt {store : FragmentStore} {opened : List Text} {path fragment : Text}
    (hs : store.source? path = some fragment) (ho : path ∉ opened) :
    (closedPaths store (path :: opened)).length < (closedPaths store opened).length := by
  have hk : path ∈ store.fragments.keys :=
    (store.fragments.isSome_get?_iff path).1 (by rw [show store.fragments.get? path = _ from hs]; rfl)
  have hsub : closedPaths store (path :: opened)
      = (closedPaths store opened).filter fun p => p ≠ path := by
    simp only [closedPaths, List.filter_filter, List.mem_cons, not_or]
    congr 1
    funext p
    simp
  rw [hsub]
  refine List.length_filter_lt_length_iff_exists.2 ⟨path, ?_, by simp⟩
  simp [closedPaths, hk, ho]

/-- **The tokens of a text with every include spliced in.** `opened` are the paths that are open,
`above` is the chain of includes that led to the text, innermost first, and `file` its name. -/
def ofText (store : FragmentStore) (opened : List Text) (above : List IncludeFrame)
    (file : FileName) (text : Text) : Logged (List Token) :=
  ofTokens (fun frame path =>
    match hs : store.source? path with
    | none => .failed (.badInclude (.notFound path) (frame :: above))
    | some fragment =>
      if ho : path ∈ opened then .failed (.badInclude (.cyclic path) (frame :: above))
      else
        -- what is open grows along one chain of includes only, so two fragments may share a third
        have := length_closedPaths_lt hs ho
        (ofText store (path :: opened) (frame :: above) (.text path) fragment).note
          (.including path file))
    file file.root above (fileTokens text)
  termination_by (closedPaths store opened).length

/-- The paths that are open when a walk starts: the name of the text, if the text is really that
fragment. -/
def openedBy (store : FragmentStore) (name : FileName) (source : Text) : List Text :=
  match name with
  | .text name => if store.source? name = some source then [name] else []
  | .bytes _ => []

/-- The text of a named source with every include spliced in. -/
def ofSource (store : FragmentStore) (name : FileName) (source : Text) : Logged Text :=
  (ofText store (openedBy store name source) [] name source).map Token.toText

end Expansion

end GlslCompose
