/-
`Proofs/RegisteredPaths.lean` -- which fragments can be included under the path that they were
registered under.

Three parts of the library look at a path. Registering puts its slashes in order. The scanner
reads it as a piece of a directive, which ends at a line comment and at a block comment that
is never closed, and in which a closed one is a blank. And what an include asks for is
resolved, without extension and without components that lead nowhere. The line
`#include <path>` asks for what was registered under the path exactly if no comment opens in
the path and the path is faithful (`Path.Faithful`): `asksFirst_includeLine_iff`.

That a comment in the path is always in the way needs an argument, because what is left of
the path may well be one that can be asked for. A comment that is cut off takes the closing
bracket with it. And a comment that is blanked takes at least two stars with it, of which no
step behind the scanner puts one back (`count_resolve_le`), while registering keeps all of
them (`count_collapse`).
-/
import Mathlib.Data.List.Flatten
import GlslCompose.Proofs.PathComponents
import GlslCompose.Proofs.WalkedText

set_option autoImplicit false

namespace GlslCompose

/-! ## Counting stars -/

namespace Path

theorem count_intercalate (parts : List Text) :
    (List.intercalate ['/'] parts).count '*' = parts.flatten.count '*' := by
  induction parts with
  | nil => rfl
  | cons part rest ih =>
    cases rest with
    | nil => rw [List.intercalate_singleton, List.flatten_cons, List.flatten_nil, List.append_nil]
    | cons next rest =>
      have hslash : (['/'] : Text).count '*' = 0 := by decide
      rw [List.intercalate_cons_cons, List.count_append, List.count_append, ih,
        List.flatten_cons (l := part), List.count_append, hslash, Nat.add_zero]

/-- Registering keeps every star of a path. -/
theorem count_collapse {path : Text} (h : components path ≠ []) :
    (collapse path).count '*' = path.count '*' := by
  have hend : (endSlash path).count '*' = 0 := by
    unfold endSlash
    split <;> decide
  rw [collapse_eq h, List.count_append, count_intercalate, flatten_components, hend,
    List.count_filter (by decide), Nat.add_zero]

theorem splitExtension_isPrefix (path : Text) : (splitExtension path).1 <+: path := by
  by_cases hext : (splitExtension path).2 = []
  · exact ⟨[], by rw [splitExtension_of_bare hext, List.append_nil]⟩
  · obtain ⟨head, stem, ext, hpath, hstem, -⟩ := splitExtension_of_extension hext
    exact ⟨'.' :: ext, by rw [hstem, hpath]⟩

/-- Resolving a path adds no star. -/
theorem count_resolve_le (path : Text) :
    (FragmentStore.resolve path "/").count '*' ≤ path.count '*' := by
  calc (FragmentStore.resolve path "/").count '*'
      = (simplified (splitExtension path).1).flatten.count '*' := by
        rw [resolve_root, count_intercalate]
    _ ≤ (Text.pieces '/' (splitExtension path).1).flatten.count '*' :=
        (simplified_spec _).2.flatten.count_le '*'
    _ = (splitExtension path).1.count '*' := by
        rw [Text.flatten_pieces, List.count_filter (by decide)]
    _ ≤ path.count '*' := (splitExtension_isPrefix path).sublist.count_le '*'

end Path

namespace Directive

/-- **A comment that is blanked takes stars with it:** a directive that keeps all its stars had no
closed comment. -/
theorem count_blankComments (s : Text) : (blankComments s).count '*' ≤ s.count '*' ∧
    ((blankComments s).count '*' = s.count '*' → blankComments s = s) := by
  fun_induction blankComments s with
  | case1 s body rest hclosed _ ih =>
    -- The opening of the comment alone has a star.
    have hopening : 0 < body.count '*' := by
      unfold Scan.closedComment? at hclosed
      split at hclosed
      · simp only [Option.map_eq_some_iff, Prod.exists, Prod.mk.injEq] at hclosed
        obtain ⟨inner, behind, -, rfl, -⟩ := hclosed
        exact List.count_pos_iff.2 (by simp)
      · cases hclosed
    have hblank : (' ' :: blankComments rest).count '*' = (blankComments rest).count '*' := by
      simp
    rw [(Scan.closedComment?_split hclosed).1, List.count_append, hblank]
    constructor
    · omega
    · intro heq
      omega
  | case2 hclosed => exact ⟨Nat.le_refl _, fun _ => rfl⟩
  | case3 c t hclosed ih =>
    rw [List.count_cons, List.count_cons]
    constructor
    · omega
    · intro heq
      rw [ih.2 (by omega)]

/-! ## The directive of an include line -/

theorem withoutComments_include (t : Text) : withoutComments ("#include <" ++ t)
    = "#include <" ++ Text.trimEnd isTrailing (blankComments t) := by
  have hslash : '/' ∉ String.toList "#include <" := by decide
  have hsplit : ∀ s : Text, String.toList "#include <" ++ s
      = String.toList "#include " ++ '<' :: s := fun s => rfl
  rw [withoutComments, blankComments_append hslash, hsplit, Text.trimEnd_append_cons (by decide),
    hsplit]

/-- What stands behind the opening bracket of an include, as far as it is looked at. -/
def bracketed (t : Text) : Text :=
  Text.trimEnd Text.isBlank (Text.trimEnd isTrailing (blankComments t))

theorem bracketed_isPrefix (t : Text) : bracketed t <+: blankComments t :=
  (Text.trimEnd_isPrefix _ _).trans (Text.trimEnd_isPrefix _ _)

theorem bracketed_of_noComment {path : Text} (h : Scan.NoComment (path ++ ['>'])) :
    bracketed (path ++ ['>']) = path ++ ['>'] := by
  rw [bracketed, blankComments_of_noComment h, Text.trimEnd_concat (by decide),
    Text.trimEnd_concat (by decide)]

theorem includeArgument_include (t : Text) :
    includeArgument (withoutComments ("#include <" ++ t)) = '<' :: bracketed t := by
  have hargument : ∀ s : Text, includeArgument ("#include <" ++ s)
      = Text.trimEnd Text.isBlank ('<' :: s) := fun s => rfl
  rw [withoutComments_include, hargument]
  exact Text.trimEnd_append_cons (by decide) [] _

/-- A path that is asked for between brackets is all that stands between them. -/
theorem includeTarget_bracketed {u : Text} {target : IncludeTarget}
    (h : includeTarget ('<' :: u) = .ok target) :
    ∃ mid, u = mid ++ ['>'] ∧ target = .fromRoot (Text.strip mid) := by
  have hclosing : closing? '<' = some '>' := rfl
  rw [includeTarget, hclosing] at h
  dsimp only at h
  cases hlast : u.getLast? with
  | none => rw [hlast] at h; cases h
  | some last =>
    rw [hlast] at h
    dsimp only at h
    split at h
    · cases h
    · rename_i heq
      obtain ⟨mid, rfl⟩ := List.getLast?_eq_some_iff.1 hlast
      split at h
      · cases h
      · cases h
        rw [Decidable.not_not.1 heq, List.dropLast_concat]
        exact ⟨mid, rfl, rfl⟩

theorem includeTarget_concat {path : Text} (hstrip : Text.strip path = path) (hne : path ≠ []) :
    includeTarget ('<' :: (path ++ ['>'])) = .ok (.fromRoot path) := by
  have hclosing : closing? '<' = some '>' := rfl
  rw [includeTarget, hclosing, List.getLast?_concat]
  dsimp only
  rw [if_neg (by simp), List.dropLast_concat, hstrip, if_neg (by simpa using hne)]
  rfl

end Directive

namespace Scan

/-- A directive goes on through characters that mean nothing to it. -/
theorem Extent.exists_of_append {front s body rest : Text} (h : Extent body rest)
    (hsplit : body ++ rest = front ++ s)
    (hplain : ∀ c ∈ front, c ≠ '\n' ∧ c ≠ '\\' ∧ c ≠ '/') :
    ∃ tail, body = front ++ tail ∧ Extent tail rest := by
  induction front generalizing body with
  | nil => exact ⟨body, rfl, h⟩
  | cons c front ih =>
    obtain ⟨⟨hfeed, hback, hslash⟩, hrest⟩ := List.forall_mem_cons.1 hplain
    cases h with
    | ends hedge =>
      rw [List.nil_append] at hsplit
      rcases edge_iff.1 hedge with rfl | hhead | ⟨t, rfl⟩ | ⟨t, rfl, -⟩
      · cases hsplit
      · rw [hsplit] at hhead
        exact absurd (Option.some.inj hhead) hfeed
      · exact absurd (List.cons.inj hsplit).1.symm hslash
      · exact absurd (List.cons.inj hsplit).1.symm hslash
    | @goesOn piece body _ hpiece hbody =>
      rw [List.append_assoc] at hsplit
      -- Every other piece starts with a character that means something.
      have hfirst : ∀ d t, piece = d :: t → d = c := by
        rintro d t rfl
        exact (List.cons.inj hsplit).1
      cases hpiece with
      | lineBreak => exact absurd (hfirst _ _ rfl).symm hback
      | returnBreak => exact absurd (hfirst _ _ rfl).symm hback
      | backslash _ _ => exact absurd (hfirst _ _ rfl).symm hback
      | comment _ => exact absurd (hfirst _ _ rfl).symm hslash
      | slash _ _ => exact absurd (hfirst _ _ rfl).symm hslash
      | @char d _ _ _ _ =>
        obtain rfl := hfirst _ _ rfl
        obtain ⟨tail, rfl, htail⟩ := ih hbody (List.cons.inj hsplit).2 hrest
        exact ⟨tail, rfl, htail⟩

/-- **A directive takes in the rest of its line,** if no comment opens there and no backslash stands at
its end. -/
theorem extent_of_noComment {line : Text} (hfeed : '\n' ∉ line) (hbare : NoComment line)
    (hopen : ¬ EndsOpen line) (t : Text) : Extent line ('\n' :: t) := by
  -- By itself the line is a directive up to its end, whatever it ends in; the line feed comes after.
  have halone : Extent line [] := by
    clear hopen
    induction line with
    | nil => exact .ends edge_nil
    | cons c s ih =>
      rw [List.mem_cons, not_or] at hfeed
      rw [← List.singleton_append]
      refine .goesOn ?_ (ih hfeed.2 (hbare.right (s := [c])))
      rw [List.append_nil]
      by_cases hback : c = '\\'
      · subst hback
        refine .backslash (fun hhead => hfeed.2 (List.mem_of_head? hhead)) ?_
        rintro t rfl
        exact hfeed.2 (by simp)
      · by_cases hslash : c = '/'
        · subst hslash
          exact .slash hbare.head?_of_slash.1 hbare.head?_of_slash.2
        · exact .char (Ne.symm hfeed.1) hback hslash
  rcases halone.lineFeed_cases with hends | ⟨hends, -⟩
  · exact hends t
  · exact absurd hends hopen

end Scan

namespace Expansion

open Scan (Extent NoComment)

/-! ## Include lines -/

/-- The line that includes a path from the root. -/
def includeLine (path : Text) : Text := "#include <" ++ (path ++ ['>'])

/-- **A path that can be written between brackets.** It is not just slashes and white space, it is on
one line, no white space is around it, and no quote or bracket is in it. -/
structure Writable (path : Text) : Prop where
  visible : Text.isBlankText (path.filter (· ≠ '/')) = false
  unbroken : ∀ c ∈ path, Text.isLineBreak c = false
  stripped : Text.strip path = path
  unquoted : ∀ c ∈ path, c ≠ '<' ∧ c ≠ '>' ∧ c ≠ '\x22'

instance (path : Text) : Decidable (Writable path) :=
  have := List.decidableBAll (fun c => Text.isLineBreak c = false) path
  have := List.decidableBAll (fun c => c ≠ '<' ∧ c ≠ '>' ∧ c ≠ '\x22') path
  decidable_of_iff (Text.isBlankText (path.filter (· ≠ '/')) = false ∧
      (∀ c ∈ path, Text.isLineBreak c = false) ∧ Text.strip path = path ∧
      ∀ c ∈ path, c ≠ '<' ∧ c ≠ '>' ∧ c ≠ '\x22')
    ⟨fun h => ⟨h.1, h.2.1, h.2.2.1, h.2.2.2⟩,
      fun h => ⟨h.visible, h.unbroken, h.stripped, h.unquoted⟩⟩

/-- **A path under which an include finds what is registered:** no comment opens in it, and it
resolves to itself. -/
structure Includable (path : Text) : Prop where
  bare : NoComment path
  faithful : Path.Faithful path

instance (path : Text) : Decidable (Includable path) :=
  decidable_of_iff (NoComment path ∧ Path.Faithful path)
    ⟨fun h => ⟨h.1, h.2⟩, fun h => ⟨h.bare, h.faithful⟩⟩

/-- **The first include of a text asks for a path,** so the walk of the text is first of all that of the
fragment at the path. -/
def AsksFirst (root : FileName) (text path : Text) : Prop :=
  ∃ token, (fileTokens text).find? isInclude = some token ∧ fate root token = .fetched path

/-- The directive of an include line, as far as the scanner takes it in. -/
def includeToken (tail : Text) : Token := ⟨.directive, "#include <" ++ tail, 1⟩

theorem isInclude_includeToken (tail : Text) : isInclude (includeToken tail) = true := by
  have hkeyword : Directive.keyword (Directive.withoutComments (includeToken tail).data)
      = String.toList "include" := by
    rw [includeToken, Directive.withoutComments_include]
    rfl
  rw [isInclude, hkeyword]
  rfl

theorem fate_includeToken_eq_fetched_iff {root : FileName} {tail path : Text} :
    fate root (includeToken tail) = .fetched path ↔
      ∃ target, Directive.includeTarget ('<' :: Directive.bracketed tail) = .ok target ∧
        target.resolve root = .ok path := by
  rw [fate_of_isInclude (isInclude_includeToken tail), includeToken,
    Directive.includeArgument_include]
  cases Directive.includeTarget ('<' :: Directive.bracketed tail) with
  | error problem => simp
  | ok target => cases hresolve : target.resolve root <;> simp [hresolve]

/-- The scanner takes in an include line as one directive, up to where the directive ends. -/
theorem exists_fileTokens (path : Text) : ∃ tail rest, tail ++ rest = path ++ ['>', '\n'] ∧
    Extent tail rest ∧ fileTokens (includeLine path) = ⟨.space, ['\n'], 0⟩ :: includeToken tail ::
      Scan.tokensFrom (1 + Scan.lineFeeds ("#include <" ++ tail)) false rest := by
  have hplain : ∀ c ∈ String.toList "include <", c ≠ '\n' ∧ c ≠ '\\' ∧ c ≠ '/' := by simp
  have hwhole := Scan.extent_directiveBody ("include <" ++ (path ++ ['>', '\n']))
  have hsplit := Scan.directiveBody_split ("include <" ++ (path ++ ['>', '\n']))
  -- Where the directive ends depends on the path, but its keyword is always in it.
  revert hwhole hsplit
  generalize Scan.directiveBody ("include <" ++ (path ++ ['>', '\n'])) = found
  obtain ⟨body, rest⟩ := found
  intro hwhole hsplit
  obtain ⟨tail, rfl, hextent⟩ := hwhole.exists_of_append hsplit.symm hplain
  have hrest : path ++ ['>', '\n'] = tail ++ rest := by
    rw [List.append_assoc] at hsplit
    exact List.append_cancel_left hsplit
  refine ⟨tail, rest, hrest.symm, hextent, ?_⟩
  have hhash : String.toList "#include <" ++ tail
      = [] ++ '#' :: (String.toList "include <" ++ tail) := rfl
  have hindent : ∀ c ∈ ([] : Text), Scan.isIndent c = true := by simp
  have hstarts : Scan.Starts true .directive ("#include <" ++ tail) rest :=
    hhash ▸ .directive rfl hindent hwhole
  have htext : ∀ lead : Text, lead ++ (path ++ ['>']) ++ ['\n'] = (lead ++ tail) ++ rest := by
    intro lead
    rw [List.append_assoc, List.append_assoc, List.singleton_append, hrest, List.append_assoc]
  have htokens := Scan.tokensFrom_append hstarts 1
  exact (fileTokens_eq _).trans
    (congrArg (List.cons _) ((congrArg (Scan.tokensFrom 1 true) (htext _)).trans htokens))

/-- **No comment opens in a path that keeps its stars.** Where the scanner finds the closing bracket,
and no star less than in the path in front of it, no comment was cut off and none was blanked. -/
theorem noComment_of_bracketed {path tail rest mid : Text} (hsplit : tail ++ rest = path ++ ['>', '\n'])
    (hextent : Extent tail rest) (hclosing : '>' ∉ path)
    (hmid : Directive.bracketed tail = mid ++ ['>']) (hcount : path.count '*' ≤ mid.count '*') :
    NoComment path := by
  have hprefix : tail <+: path ++ ['>', '\n'] := ⟨rest, hsplit⟩
  have hwithin : mid ++ ['>'] <+: Directive.blankComments tail :=
    hmid ▸ Directive.bracketed_isPrefix tail
  have htail : tail.count '*' ≤ path.count '*' := by
    have hle := hprefix.sublist.count_le '*'
    rw [List.count_append] at hle
    simpa using hle
  have hblanked : mid.count '*' ≤ (Directive.blankComments tail).count '*' := by
    have hle := hwithin.sublist.count_le '*'
    rw [List.count_append] at hle
    omega
  obtain ⟨hless, hsame⟩ := Directive.count_blankComments tail
  have hkept : Directive.blankComments tail = tail := hsame (by omega)
  have hbare := Directive.noComment_blankComments hextent
  rw [hkept] at hbare hwithin
  -- The bracket is in the tail, so the tail holds all of the path.
  rcases List.prefix_or_prefix_of_prefix hprefix (List.prefix_append path _) with hshort | hlong
  · exact absurd (hshort.subset (hwithin.subset (by simp))) hclosing
  · obtain ⟨behind, rfl⟩ := hlong
    exact hbare.left

section Line

variable {path : Text}

theorem Writable.components_ne_nil (h : Writable path) : Path.components path ≠ [] := by
  intro hnil
  have hflat := Path.flatten_components path
  rw [hnil] at hflat
  have hvisible := h.visible
  rw [← hflat] at hvisible
  cases hvisible

theorem Writable.ne_nil (h : Writable path) : path ≠ [] := by
  rintro rfl
  exact h.components_ne_nil rfl

theorem Writable.lineFeed_notMem (h : Writable path) : '\n' ∉ path := fun hmem =>
  absurd (h.unbroken _ hmem) (by decide)

theorem noComment_concat (hbare : NoComment path) : NoComment (path ++ ['>']) :=
  hbare.append (Scan.noComment_of_notMem (by decide)) fun _ => ⟨by decide, by decide⟩

/-- The directive of a path without comments is the whole line. -/
theorem eq_of_noComment (h : Writable path) (hbare : NoComment path) {tail rest : Text}
    (hsplit : tail ++ rest = path ++ ['>', '\n']) (hextent : Extent tail rest) :
    tail = path ++ ['>'] ∧ rest = ['\n'] := by
  have hline : Extent (path ++ ['>']) ['\n'] := by
    refine Scan.extent_of_noComment ?_ ?_ ?_ []
    · simpa using h.lineFeed_notMem
    · exact noComment_concat hbare
    · rintro ⟨front, heq | heq⟩
      · have hlast := congrArg List.getLast? heq
        rw [List.getLast?_concat, List.getLast?_concat] at hlast
        exact absurd hlast (by decide)
      · have hlast := congrArg List.getLast? heq
        rw [List.getLast?_concat, List.append_cons, List.getLast?_concat] at hlast
        exact absurd hlast (by decide)
  have hbody := Scan.directiveBody_of_extent hextent
  have hwhole := Scan.directiveBody_of_extent hline
  rw [List.append_assoc, List.singleton_append, ← hsplit, hbody] at hwhole
  exact ⟨congrArg Prod.fst hwhole, congrArg Prod.snd hwhole⟩

/-- Such a path is asked for as it is resolved. -/
theorem fate_of_noComment (h : Writable path) (hbare : NoComment path) (root : FileName) :
    fate root (includeToken (path ++ ['>'])) = .fetched (FragmentStore.resolve path "/") := by
  refine fate_includeToken_eq_fetched_iff.2 ⟨.fromRoot path, ?_, rfl⟩
  rw [Directive.bracketed_of_noComment (noComment_concat hbare),
    Directive.includeTarget_concat h.stripped h.ne_nil]

/-- An includable path is asked for as it is registered. -/
theorem fate_of_includable (h : Writable path) (hincludable : Includable path) (root : FileName) :
    fate root (includeToken (path ++ ['>'])) = .fetched (Path.collapse path) := by
  rw [fate_of_noComment h hincludable.bare,
    (Path.resolve_eq_collapse_iff h.components_ne_nil).2 hincludable.faithful]

/-- **The line of a path asks for what is registered under the path exactly if the path is
includable.** -/
theorem asksFirst_includeLine_iff (h : Writable path) (root : FileName) :
    AsksFirst root (includeLine path) (Path.collapse path) ↔ Includable path := by
  obtain ⟨tail, rest, hsplit, hextent, htokens⟩ := exists_fileTokens path
  have hfirst : AsksFirst root (includeLine path) (Path.collapse path) ↔
      fate root (includeToken tail) = .fetched (Path.collapse path) := by
    have hfind : (fileTokens (includeLine path)).find? isInclude = some (includeToken tail) := by
      rw [htokens, List.find?_cons_of_neg (by decide),
        List.find?_cons_of_pos (isInclude_includeToken tail)]
    rw [AsksFirst, hfind]
    simp
  rw [hfirst]
  constructor
  · intro hfate
    -- What is resolved is what is left between the brackets, so no star of the path got lost there.
    obtain ⟨target, htarget, hresolve⟩ := fate_includeToken_eq_fetched_iff.1 hfate
    obtain ⟨mid, hmid, rfl⟩ := Directive.includeTarget_bracketed htarget
    have hpath : FragmentStore.resolve (Text.strip mid) "/" = Path.collapse path :=
      Except.ok.inj hresolve
    have hbare : NoComment path := by
      refine noComment_of_bracketed hsplit hextent (fun hmem => (h.unquoted _ hmem).2.1 rfl) hmid ?_
      calc path.count '*' = (FragmentStore.resolve (Text.strip mid) "/").count '*' := by
            rw [hpath, Path.count_collapse h.components_ne_nil]
        _ ≤ (Text.strip mid).count '*' := Path.count_resolve_le _
        _ ≤ mid.count '*' := by
            have hstrip : (Text.strip mid).Sublist mid :=
              (Text.trimEnd_isPrefix _ _).sublist.trans (List.dropWhile_sublist _)
            exact hstrip.count_le '*'
    obtain ⟨rfl, -⟩ := eq_of_noComment h hbare hsplit hextent
    rw [fate_of_noComment h hbare] at hfate
    injection hfate with heq
    exact ⟨hbare, (Path.resolve_eq_collapse_iff h.components_ne_nil).1 heq⟩
  · intro hincludable
    obtain ⟨rfl, -⟩ := eq_of_noComment h hincludable.bare hsplit hextent
    exact fate_of_includable h hincludable root

end Line

/-! ## Walking an include line -/

/-- **The walk of a source visits a fragment** and does nothing else: what is collected in the fragment
stands between the two line feeds of the source, and the include is on line 1. -/
def Visits (store : FragmentStore) (name : FileName) (source path fragment : Text) : Prop :=
  ofSource store name source =
    ((ofText store (path :: openedBy store name source) [⟨name, 1⟩] (.text path) fragment).map
      fun inner => '\n' :: (Token.toText inner ++ ['\n'])).note (.including path name)

/-- White space stays as it is. -/
theorem fate_space (root : FileName) (data : Text) (line : Int) :
    fate root ⟨.space, data, line⟩ = .kept ⟨.space, data, line⟩ := rfl

/-- A notice in front of a result stays in front. -/
theorem head?_notices_note_andThen {α β : Type} (notice : Notice) (l : Logged α)
    (f : α → Logged β) : ((l.note notice).andThen f).notices.head? = some notice := by
  unfold Logged.andThen
  split <;> rfl

/-- What a walk goes into first is what the first include asks for. -/
theorem exists_find?_of_including {store : FragmentStore} {opened : List Text}
    {above : List IncludeFrame} {file root : FileName} {tokens : List Token} {path : Text}
    (h : (ofTokens (splice store opened above file) file root above tokens).notices.head?
      = some (.including path file)) :
    ∃ token, tokens.find? isInclude = some token ∧ fate root token = .fetched path := by
  induction tokens with
  | nil => cases h
  | cons token rest ih =>
    rw [ofTokens_cons] at h
    cases hinclude : isInclude token with
    | false =>
      rw [List.find?_cons_of_neg (by simp [hinclude])]
      rcases fate_of_not_isInclude root hinclude with hfate | ⟨kept, hfate⟩
      · rw [hfate] at h
        exact ih h
      · rw [hfate] at h
        exact ih h
    | true =>
      refine ⟨token, List.find?_cons_of_pos hinclude, ?_⟩
      rw [fate_of_isInclude hinclude] at h ⊢
      cases htarget : Directive.includeTarget
          (Directive.includeArgument (Directive.withoutComments token.data)) with
      | error problem => rw [htarget] at h; cases h
      | ok target =>
        rw [htarget] at h
        dsimp only at h ⊢
        cases hresolve : target.resolve root with
        | error fault => rw [hresolve] at h; cases h
        | ok asked =>
          rw [hresolve] at h
          dsimp only at h ⊢
          -- A notice is given only if the fragment is entered, and then it comes first.
          cases hs : store.source? asked with
          | none => simp [splice, hs, Logged.failed, Logged.andThen] at h
          | some fragment =>
            by_cases hopen : asked ∈ opened
            · simp [splice, hs, hopen, Logged.failed, Logged.andThen] at h
            · simp only [splice, hs, Option.elim, List.contains_iff_mem, if_neg hopen,
                head?_notices_note_andThen] at h
              cases h
              rfl

/-- A fragment that is visited is what the first include asks for. -/
theorem asksFirst_of_visits {store : FragmentStore} {name : FileName} {source path fragment : Text}
    (h : Visits store name source path fragment) : AsksFirst name.root source path := by
  have hnotices := congrArg (fun l => l.notices.head?) h
  rw [ofSource, ofText_eq] at hnotices
  exact exists_find?_of_including hnotices

/-- The path is open before the walk only if the source is the fragment that it includes, and has the
name of that fragment. -/
theorem notMem_openedBy {store : FragmentStore} {name : FileName} {path source fragment : Text}
    (hs : store.source? path = some fragment) (h : name ≠ .text path ∨ fragment ≠ source) :
    path ∉ openedBy store name source := by
  intro hmem
  obtain ⟨hname, hsource⟩ := of_mem_openedBy hmem
  rw [hs] at hsource
  exact h.elim (fun hne => hne hname) fun hne => hne (Option.some.inj hsource)

/-- **The walk of the line of an includable path** visits the fragment at the path. -/
theorem visits_of_includable {store : FragmentStore} {name : FileName} {path fragment : Text}
    (h : Writable path) (hincludable : Includable path)
    (hs : store.source? (Path.collapse path) = some fragment)
    (hother : name ≠ .text (Path.collapse path) ∨ fragment ≠ includeLine path) :
    Visits store name (includeLine path) (Path.collapse path) fragment := by
  obtain ⟨tail, rest, hsplit, hextent, htokens⟩ := exists_fileTokens path
  obtain ⟨rfl, rfl⟩ := eq_of_noComment h hincludable.bare hsplit hextent
  have hfate := fate_of_includable h hincludable name.root
  have hnone : ∀ c ∈ ([] : Text), Scan.isSpace c = true := by simp
  have hlast : ∀ line : Int, Scan.tokensFrom line false ['\n'] = [⟨.space, ['\n'], line⟩] := by
    intro line
    have hfeed := Scan.tokensFrom_append (Scan.starts_lineFeed false hnone []) line
    rwa [Scan.tokensFrom_nil] at hfeed
  have hclosed := notMem_openedBy hs hother
  have hline : (includeToken (path ++ ['>'])).line = 1 := rfl
  -- Of the three tokens, the line feeds around the include are kept.
  rw [Visits, ofSource, ofText_eq, htokens, hlast, ofTokens_cons, fate_space]
  dsimp only
  rw [ofTokens_cons, hfate]
  dsimp only
  rw [ofTokens_cons, fate_space]
  simp only [splice, hs, Option.elim, List.contains_iff_mem, if_neg hclosed, hline]
  generalize ofText store (Path.collapse path :: openedBy store name (includeLine path)) [⟨name, 1⟩]
    (.text (Path.collapse path)) fragment = inner
  obtain ⟨result, notices⟩ := inner
  cases result with
  | error fault => rfl
  | ok tokens =>
    simp [Logged.note, Logged.map, Logged.andThen, Logged.done, ofTokens, Except.map, Token.toText]

/-- **What is registered under a path is included under it exactly if the path is includable.** The
path can be any that can be written between brackets. Only a line that is itself the fragment, walked
under its own name, is left out, because its walk is refused as cyclic. -/
theorem visits_registered_iff (store : FragmentStore) (name : FileName) (path source : Text)
    (h : Writable path) (hother : name ≠ .text (Path.collapse path) ∨ source ≠ includeLine path) :
    Visits (store.add (.text path) (.text source)).state name (includeLine path)
      (Path.collapse path) source ↔ Includable path := by
  have hs : (store.add (.text path) (.text source)).state.source? (Path.collapse path)
      = some source := by
    rw [FragmentStore.add, Step.state_done, FragmentStore.source?_insert, if_pos rfl]
  constructor
  · intro hvisits
    exact (asksFirst_includeLine_iff h name.root).1 (asksFirst_of_visits hvisits)
  · intro hincludable
    exact visits_of_includable h hincludable hs hother

/-- A leading slash, a blank and a component that starts with dots are not in the way. -/
theorem visits_registered_of_soft_shadow :
    (Writable "/light/..soft shadow" ∧ (FileName.text "main" ≠ .text (Path.collapse "/light/..soft shadow") ∨
      "float s;".toList ≠ includeLine "/light/..soft shadow")) ∧
    Visits (FragmentStore.empty.add (.text "/light/..soft shadow") (.text "float s;")).state
      (.text "main") (includeLine "/light/..soft shadow") "light/..soft shadow" "float s;" := by
  have hwritable : Writable "/light/..soft shadow" := by decide +kernel
  have hother : FileName.text "main" ≠ .text (Path.collapse "/light/..soft shadow") := by
    decide +kernel
  have hpath : Path.collapse "/light/..soft shadow" = "light/..soft shadow".toList := by
    decide +kernel
  refine ⟨⟨hwritable, .inl hother⟩, ?_⟩
  rw [← hpath]
  exact (visits_registered_iff .empty (.text "main") "/light/..soft shadow" "float s;" hwritable
    (.inl hother)).2 (by decide +kernel)

/-- **Not everything that is registered can be included under its path.** What is asked for loses its
extension, so a fragment that was registered with one is not found. -/
theorem not_visited_with_extension : ¬ ∀ (store : FragmentStore) (name : FileName)
    (path source : Text), Writable path →
    name ≠ .text (Path.collapse path) ∨ source ≠ includeLine path →
    Visits (store.add (.text path) (.text source)).state name (includeLine path)
      (Path.collapse path) source := by
  intro h
  have hvisits := h .empty (.text "main") "light/lambert.glsl" "float l;" (by decide +kernel)
    (.inl (by decide +kernel))
  have hincludable := (asksFirst_includeLine_iff (by decide +kernel) _).1
    (asksFirst_of_visits hvisits)
  revert hincludable
  decide +kernel

end Expansion

end GlslCompose
