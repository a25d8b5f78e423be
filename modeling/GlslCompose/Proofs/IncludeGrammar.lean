/-
`Proofs/IncludeGrammar.lean` -- which arguments of an include are read as a path.

The argument is what stands behind the keyword when the comments are blanked and the white
space around it is taken off (`BehindKeyword.includeArgument_eq`). It is read from its two
ends alone: the first character opens a path, and the last one has to be the delimiter that
closes it (`Encloses`). So an argument is read as a path exactly if it stands between
delimiters and is not blank in between (`includeTarget_eq_ok_iff`), and whatever is not read
is refused for what it says, and never for a path that leads nowhere.

What one would write down as the grammar of a path between delimiters asks for more: the
closing delimiter does not stand in the path (`WellDelimited`). Nothing looks for it there.
Two paths on one line open with the delimiter of the first and end in that of the second, and
are read as one long path (`two_paths_as_one`).
-/
import GlslCompose.Proofs.IncludeCycles
import GlslCompose.Proofs.ReturnedDirective

set_option autoImplicit false

namespace GlslCompose

namespace Text

/-- Nothing is left of a text without the white space around it exactly if it is blank. -/
theorem isEmpty_strip (s : Text) : (strip s).isEmpty = isBlankText s := by
  cases hskip : s.dropWhile isBlank with
  | nil =>
    have hall : isBlankText s = true := List.all_eq_true.2 (List.dropWhile_eq_nil_iff.1 hskip)
    rw [strip, trim, hskip, hall]
    rfl
  | cons c t =>
    have hhead : isBlank c = false := Scan.head?_dropWhile (s := s) c (by rw [hskip]; rfl)
    have hsome : ¬ ∀ d ∈ s, isBlank d = true := by
      intro hall
      rw [List.dropWhile_eq_nil_iff.2 hall] at hskip
      cases hskip
    have hall : isBlankText s = false := by
      rw [isBlankText, List.all_eq_false]
      simpa using hsome
    rw [strip, trim, hskip, hall, show c :: t = [] ++ c :: t from rfl, trimEnd_append_cons hhead]
    rfl

end Text

namespace Directive

/-! ## What is read as a path -/

/-- **A path between delimiters:** the argument, the delimiter that closes it, the path, and what is
asked for. Brackets ask for a path from the root and quotes for one from the file, which starts with a
dot; the white space around the path does not count. -/
inductive Encloses : Text → Char → Text → IncludeTarget → Prop
  | brackets (path : Text) :
      Encloses ('<' :: (path ++ ['>'])) '>' path (.fromRoot (Text.strip path))
  | quotes (path : Text) :
      Encloses ('\x22' :: (path ++ ['\x22'])) '\x22' path
        (.fromFile (if Text.startsWith "." (Text.strip path) then Text.strip path
          else "./" ++ Text.strip path))

/-- What an argument asks for: a path between delimiters that is not blank. -/
def Asks (argument : Text) (target : IncludeTarget) : Prop :=
  ∃ closing path, Encloses argument closing path target ∧ Text.isBlankText path = false

/-- **The grammar of an argument:** a path between delimiters that is not blank and does not hold the
delimiter that closes it. -/
def WellDelimited (argument : Text) (target : IncludeTarget) : Prop :=
  ∃ closing path, Encloses argument closing path target ∧ Text.isBlankText path = false ∧
    closing ∉ path

section Encloses

variable {argument path path' : Text} {closing closing' : Char} {target target' : IncludeTarget}

/-- The delimiters are the ends of the argument, so there is one way to read it. -/
theorem Encloses.unique (h : Encloses argument closing path target)
    (h' : Encloses argument closing' path' target') :
    closing' = closing ∧ path' = path ∧ target' = target := by
  cases h with
  | brackets path =>
    generalize hargument : '<' :: (path ++ ['>']) = argument at h'
    cases h' with
    | brackets path' =>
      obtain rfl := List.append_cancel_right (List.cons.inj hargument).2
      exact ⟨rfl, rfl, rfl⟩
    | quotes path' => exact absurd (List.cons.inj hargument).1 (by decide)
  | quotes path =>
    generalize hargument : '\x22' :: (path ++ ['\x22']) = argument at h'
    cases h' with
    | brackets path' => exact absurd (List.cons.inj hargument).1 (by decide)
    | quotes path' =>
      obtain rfl := List.append_cancel_right (List.cons.inj hargument).2
      exact ⟨rfl, rfl, rfl⟩

/-- A path between delimiters is read, unless it is blank. -/
theorem Encloses.includeTarget_eq (h : Encloses argument closing path target) :
    includeTarget argument
      = if Text.isBlankText path = true then .error (.emptyPath argument) else .ok target := by
  cases h with
  | brackets path =>
    have hclosing : closing? '<' = some '>' := rfl
    rw [includeTarget, hclosing, List.getLast?_concat]
    dsimp only
    rw [if_neg (by simp), List.dropLast_concat, Text.isEmpty_strip]
    rfl
  | quotes path =>
    have hclosing : closing? '\x22' = some '\x22' := rfl
    have hquote : ¬ '\x22' = '<' := by decide
    rw [includeTarget, hclosing, List.getLast?_concat]
    dsimp only
    rw [if_neg (by simp), List.dropLast_concat, Text.isEmpty_strip]
    simp only [if_neg hquote]

/-- An argument stands between delimiters or is refused. -/
theorem encloses_or_refused (argument : Text) : (∃ closing path target,
    Encloses argument closing path target) ∨ ∃ problem, includeTarget argument = .error problem := by
  cases argument with
  | nil => exact .inr ⟨_, rfl⟩
  | cons opening rest =>
    rw [includeTarget]
    cases hclosing : closing? opening with
    | none => exact .inr ⟨_, rfl⟩
    | some expected =>
      cases hlast : rest.getLast? with
      | none => exact .inr ⟨_, rfl⟩
      | some last =>
        obtain ⟨path, rfl⟩ := List.getLast?_eq_some_iff.1 hlast
        by_cases hmatch : last = expected
        · subst hmatch
          left
          unfold closing? at hclosing
          split at hclosing
          · rename_i hopening
            obtain rfl := Option.some.inj hclosing
            subst hopening
            exact ⟨_, _, _, .brackets path⟩
          · split at hclosing
            · rename_i hopening
              obtain rfl := Option.some.inj hclosing
              subst hopening
              exact ⟨_, _, _, .quotes path⟩
            · cases hclosing
        · right
          dsimp only
          rw [if_pos hmatch]
          exact ⟨_, rfl⟩

end Encloses

/-- **An argument is read as a path exactly if** it stands between delimiters and is not blank in
between. -/
theorem includeTarget_eq_ok_iff {argument : Text} {target : IncludeTarget} :
    includeTarget argument = .ok target ↔ Asks argument target := by
  rcases encloses_or_refused argument with ⟨closing, path, read, hread⟩ | ⟨problem, hproblem⟩
  · rw [hread.includeTarget_eq]
    constructor
    · intro hok
      split at hok
      · cases hok
      · rename_i hpath
        cases hok
        exact ⟨closing, path, hread, by simpa using hpath⟩
    · rintro ⟨closing', path', hasked, hpath⟩
      obtain ⟨-, rfl, rfl⟩ := hread.unique hasked
      rw [hpath]
      rfl
  · refine ⟨fun hok => ?_, ?_⟩
    · rw [hproblem] at hok
      cases hok
    · rintro ⟨closing, path, hasked, hpath⟩
      rw [hasked.includeTarget_eq, hpath] at hproblem
      cases hproblem

/-- What is not read as a path is refused for what it says. -/
theorem exists_refusal {argument : Text} (h : ∀ target, ¬ Asks argument target) :
    ∃ problem, includeTarget argument = .error problem ∧ problem.path? = none := by
  cases hread : includeTarget argument with
  | error problem => exact ⟨problem, rfl, Expansion.path?_of_includeTarget hread⟩
  | ok target => exact absurd (includeTarget_eq_ok_iff.1 hread) (h target)

/-- **The grammar is kept exactly if** no path that is not blank holds its closing delimiter. -/
theorem asks_iff_wellDelimited {argument : Text} :
    (∀ target, Asks argument target ↔ WellDelimited argument target) ↔
      ∀ closing path target, Encloses argument closing path target →
        Text.isBlankText path = true ∨ closing ∉ path := by
  constructor
  · intro h closing path target hread
    cases hblank : Text.isBlankText path with
    | true => exact .inl rfl
    | false =>
      obtain ⟨closing', path', hwell, -, hout⟩ := (h target).1 ⟨closing, path, hread, hblank⟩
      obtain ⟨rfl, rfl, -⟩ := hread.unique hwell
      exact .inr hout
  · intro h target
    constructor
    · rintro ⟨closing, path, hread, hblank⟩
      have hout := (h closing path target hread).resolve_left (by rw [hblank]; exact nofun)
      exact ⟨closing, path, hread, hblank, hout⟩
    · rintro ⟨closing, path, hread, hblank, -⟩
      exact ⟨closing, path, hread, hblank⟩

end Directive

namespace Expansion

open Directive (Asks BehindKeyword Encloses WellDelimited blankComments includeArgument
  withoutComments)

/-- What is asked for is found from every directory whose name is a text. -/
theorem exists_resolve (target : Directive.IncludeTarget) (directory : Text) :
    ∃ path, target.resolve (.text directory) = .ok path := by
  cases target with
  | fromRoot path => exact ⟨_, rfl⟩
  | fromFile path => exact ⟨_, rfl⟩

section Include

variable (splice : IncludeFrame → Text → Logged (List Token)) (file : FileName) (directory : Text)
  (above : List IncludeFrame)

/-- **How an include is read.** Its argument is what stands behind the keyword, comments blanked and
the white space around it taken off. If that is a path between delimiters and not blank, the walk goes
on with the path, and in every other case it ends with what is wrong with the argument; there is no
third way. The closing delimiter does not stand in a path that is read, except where the argument has
it in the middle. -/
theorem include_read {token : Token} (h : isInclude token = true) (rest : List Token) :
    let argument := includeArgument (withoutComments token.data)
    let walk := ofTokens splice file (.text directory) above (token :: rest)
    (∃ front behind, BehindKeyword "include" front (blankComments token.data) behind ∧
      argument = Text.strip behind) ∧
    (∀ target, Asks argument target → ∃ path, target.resolve (.text directory) = .ok path ∧
      walk = (splice ⟨file, token.line⟩ path).andThen fun inner =>
        (ofTokens splice file (.text directory) above rest).map (inner ++ ·)) ∧
    ((∀ target, ¬ Asks argument target) → ∃ problem, problem.path? = none ∧
      walk = .failed (.badInclude problem (⟨file, token.line⟩ :: above))) ∧
    ((∀ target, Asks argument target ↔ WellDelimited argument target) ↔
      ∀ closing path target, Encloses argument closing path target →
        Text.isBlankText path = true ∨ closing ∉ path) := by
  dsimp only
  refine ⟨?_, fun target hasks => ?_, fun hnone => ?_, Directive.asks_iff_wellDelimited⟩
  · simp only [isInclude, Bool.and_eq_true, decide_eq_true_eq] at h
    have hkeyword := h.2
    rw [Directive.keyword_withoutComments] at hkeyword
    obtain ⟨front, behind, hbehind⟩ := Directive.exists_behindKeyword hkeyword (by decide)
    refine ⟨front, behind, hbehind, ?_⟩
    rw [Directive.includeArgument_withoutComments]
    exact hbehind.includeArgument_eq
  · obtain ⟨path, hpath⟩ := exists_resolve target directory
    refine ⟨path, hpath, ?_⟩
    rw [ofTokens_cons, fate_of_isInclude h, Directive.includeTarget_eq_ok_iff.2 hasks]
    dsimp only
    rw [hpath]
  · obtain ⟨problem, hproblem, hsays⟩ := Directive.exists_refusal hnone
    refine ⟨problem, hsays, ?_⟩
    rw [ofTokens_cons, fate_of_isInclude h, hproblem]

end Include

/-- An include with white space around its path and a comment in front of it. -/
def spacedInclude : Token := ⟨.directive, "# include/* all */< ./light/a b.glsl >", 3⟩

/-- The fragment at the end of a walk that splices in its path and nothing else. -/
def pathOnly (_ : IncludeFrame) (path : Text) : Logged (List Token) := .done [⟨.other, path, 0⟩]

/-- The comment is a blank and the white space does not count. -/
theorem include_read_of_spacedInclude :
    isInclude spacedInclude = true ∧
    includeArgument (withoutComments spacedInclude.data) = String.toList "< ./light/a b.glsl >" ∧
    Asks "< ./light/a b.glsl >" (.fromRoot "./light/a b.glsl") ∧
    (ofTokens pathOnly (.text "main") (.text "/") [] [spacedInclude]).result
      = .ok [⟨.other, "light/a b", 0⟩] := by
  have hinclude : isInclude spacedInclude = true := by decide +kernel
  have hargument : includeArgument (withoutComments spacedInclude.data)
      = String.toList "< ./light/a b.glsl >" := by decide +kernel
  have hasks : Asks "< ./light/a b.glsl >" (.fromRoot "./light/a b.glsl") :=
    ⟨'>', _, .brackets " ./light/a b.glsl ", by decide⟩
  obtain ⟨-, hread, -⟩ := include_read pathOnly (.text "main") "/" [] hinclude []
  obtain ⟨path, hpath, hwalk⟩ := hread _ (hargument ▸ hasks)
  have hfound : FragmentStore.resolve "./light/a b.glsl" "/" = "light/a b" := by decide +kernel
  obtain rfl : String.toList "light/a b" = path := hfound.symm.trans (Except.ok.inj hpath)
  exact ⟨hinclude, hargument, hasks, by rw [hwalk]; rfl⟩

/-- An include of two paths. -/
def twoPaths : Token := ⟨.directive, "#include <a> <b>", 1⟩

/-- **Two paths on one line are read as one long path.** The argument opens with the delimiter of the
first and ends in that of the second. It is not refused, and what is looked for is a fragment of this
name. -/
theorem two_paths_as_one : ¬ ∀ (splice : IncludeFrame → Text → Logged (List Token)) (file : FileName)
    (directory : Text) (above : List IncludeFrame) (token : Token) (rest : List Token),
    isInclude token = true →
    (∀ target, ¬ WellDelimited (includeArgument (withoutComments token.data)) target) →
    ∃ problem, problem.path? = none ∧ ofTokens splice file (.text directory) above (token :: rest)
      = .failed (.badInclude problem (⟨file, token.line⟩ :: above)) := by
  intro h
  have hinclude : isInclude twoPaths = true := by decide +kernel
  have hargument : includeArgument (withoutComments twoPaths.data)
      = '<' :: (String.toList "a> <b" ++ ['>']) := by decide +kernel
  have hbad : ∀ target, ¬ WellDelimited (includeArgument (withoutComments twoPaths.data)) target := by
    rintro target ⟨closing, path, hread, -, hout⟩
    rw [hargument] at hread
    obtain ⟨rfl, rfl, -⟩ := (Encloses.brackets "a> <b").unique hread
    exact hout (by decide)
  obtain ⟨problem, hsays, hwalk⟩ := h (splice .empty [] [] (.text "main")) (.text "main") "/" []
    twoPaths [] hinclude hbad
  have hfate : fate (.text "/") twoPaths = .fetched "a> <b" := by
    have htarget : Directive.includeTarget (includeArgument (withoutComments twoPaths.data))
        = .ok (.fromRoot "a> <b") := by
      rw [hargument]
      decide +kernel
    rw [fate_of_isInclude hinclude, htarget]
    have hfound : FragmentStore.resolve "a> <b" "/" = "a> <b" := by decide +kernel
    exact congrArg Fate.fetched hfound
  rw [ofTokens_cons, hfate] at hwalk
  have hresult := congrArg Logged.result hwalk
  -- The store is empty, so the path is not found.
  cases hresult
  cases hsays

end Expansion

end GlslCompose
