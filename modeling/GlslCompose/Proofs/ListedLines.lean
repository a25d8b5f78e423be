/-
`Proofs/ListedLines.lean` -- the numbers of a listing, and the line that a fault names.

Where an include fails, the chain of the fault names lines, and the listing of the source is
there to be read along with it. The two count in different ways. The scan that finds the
directives counts line feeds, and nothing else. The listing cuts the text where any line
breaks, which is also at a form feed or a carriage return by itself, and numbers what it gets.

The row that shows a place has one number more than there are breaks in front of the place
(`lineIndex_lineParts`, `getElem?_lines`), and there are never fewer of them than line feeds.
They are as many exactly if each break is a line feed, alone or behind a carriage return
(`count_le_breaks_and_eq_iff`). So the line of a fault is the number of the row, or is too small.

That the fault names a line of the listed text takes some care. What is walked is the text
without the guard at its end, which is a beginning of the text. The fault carries a chain of
places, of which the last one is in the text (`exists_outermost`), and it comes out of the walk
whether or not the library has a cache (`ofSource_of_compile`).
-/
import GlslCompose.Proofs.CachePrediction
import GlslCompose.Proofs.CompiledShape
import GlslCompose.Proofs.PairRun
import GlslCompose.Proofs.ProloguePlace
import GlslCompose.Proofs.TokenPlaces

set_option autoImplicit false

namespace GlslCompose

namespace Text

/-! ## Breaks in front of a place -/

/-- The number of line breaks in a text. A carriage return and the line feed behind it are one. -/
def breaks : Text → Nat
  | [] => 0
  | '\r' :: '\n' :: s => breaks s + 1
  | c :: s => if isLineBreak c then breaks s + 1 else breaks s

/-- Which of some lines holds an offset of the text that they make up, counted from zero. -/
def lineIndex : List Text → Nat → Nat
  | [], _ => 0
  | line :: rest, offset =>
    if offset < line.length then 0 else lineIndex rest (offset - line.length) + 1

theorem lines_ne_nil {s : Text} (h : s ≠ []) : lines s ≠ [] := by
  fun_cases lines s with
  | case1 => exact absurd rfl h
  | case2 | case3 | case4 | case5 => exact List.cons_ne_nil _ _

/-- The first line is what the text starts with. -/
theorem headD_lines_prefix (s : Text) : (lines s).headD [] <+: s := by
  fun_induction lines s with
  | case1 => exact List.nil_prefix
  | case2 s ih => exact List.nil_prefix
  | case3 c s hpair hbreak ih => exact List.nil_prefix
  | case4 c s hpair hbreak hnil ih => exact List.prefix_append [c] s
  | case5 c s hpair hbreak line rest hcons ih =>
    rw [hcons] at ih
    exact (List.prefix_cons_inj c).2 ih

section Place

variable {c : Char} (hc : isLineBreak c = false)
include hc

/-- A carriage return that ends a text is by itself in front of a character that is no break. -/
theorem not_pair_append {d : Char} {s : Text} (h : ∀ rest, d = '\r' → s = '\n' :: rest → False)
    (behind : Text) : ∀ rest, d = '\r' → s ++ c :: behind = '\n' :: rest → False := by
  intro rest hd hs
  cases s with
  | nil =>
    obtain ⟨rfl, -⟩ := List.cons.inj hs
    exact absurd hc (by decide)
  | cons e s =>
    obtain ⟨rfl, -⟩ := List.cons.inj hs
    exact h s hd rfl

/-- **The line that holds a place** has as many lines in front of it as there are breaks. -/
theorem lineIndex_lineParts (before behind : Text) :
    lineIndex (lineParts (before ++ c :: behind)) before.length = breaks before := by
  fun_induction breaks before with
  | case1 =>
    rw [List.nil_append, Prologue.lineParts_cons hc, lineIndex, List.length_nil, if_pos]
    exact Nat.succ_pos _
  | case2 s ih =>
    have hparts : lineParts ('\r' :: '\n' :: s ++ c :: behind)
        = ['\r', '\n'] :: lineParts (s ++ c :: behind) := by
      rw [List.cons_append, List.cons_append, lineParts]
    rw [hparts, lineIndex, if_neg (by simp)]
    exact congrArg (· + 1) ih
  | case3 d s hpair hbreak ih =>
    rw [List.cons_append, lineParts.eq_3 _ _ (not_pair_append hc hpair behind), if_pos hbreak, lineIndex,
      if_neg (by simp)]
    exact congrArg (· + 1) ih
  | case4 d s hpair hbreak ih =>
    rw [List.cons_append, Prologue.lineParts_cons (Bool.eq_false_iff.2 hbreak), ← ih]
    -- A character that is no break makes the first line longer, and there is a first line.
    cases hparts : lineParts (s ++ c :: behind) with
    | nil =>
      have hnil := Text.flatten_lineParts (s ++ c :: behind)
      rw [hparts] at hnil
      exact absurd hnil.symm (by simp)
    | cons line rest =>
      simp [lineIndex]

/-- A character that is no break goes to the first line of what is behind it. -/
theorem lines_cons (s : Text) : lines (c :: s) = (c :: (lines s).headD []) :: (lines s).tail := by
  rw [lines.eq_3, if_neg (Bool.eq_false_iff.1 hc)]
  · cases lines s <;> rfl
  · -- A carriage return would be a break by itself.
    rintro rest rfl
    exact absurd hc (by decide)

/-- **The line of a place,** without its break: some text that stands in front of the place, the character
at the place, and some text that stands behind it. -/
theorem getElem?_lines (before behind : Text) :
    ∃ start tail, (start = before ∨ 0 < breaks before) ∧ start <:+ before ∧ tail <+: behind ∧
      (lines (before ++ c :: behind))[breaks before]? = some (start ++ c :: tail) := by
  fun_induction breaks before with
  | case1 =>
    refine ⟨[], (lines behind).headD [], .inl rfl, List.nil_suffix, headD_lines_prefix behind, ?_⟩
    rw [List.nil_append, lines_cons hc]
    rfl
  | case2 s ih =>
    obtain ⟨start, tail, -, hstart, htail, hline⟩ := ih
    refine ⟨start, tail, .inr (Nat.succ_pos _), hstart.trans ⟨['\r', '\n'], rfl⟩, htail, ?_⟩
    rw [List.cons_append, List.cons_append, lines]
    exact hline
  | case3 d s hpair hbreak ih =>
    obtain ⟨start, tail, -, hstart, htail, hline⟩ := ih
    refine ⟨start, tail, .inr (Nat.succ_pos _), hstart.trans (List.suffix_cons d s), htail, ?_⟩
    rw [List.cons_append, lines.eq_3 _ _ (not_pair_append hc hpair behind), if_pos hbreak]
    exact hline
  | case4 d s hpair hbreak ih =>
    obtain ⟨start, tail, hfirst, hstart, htail, hline⟩ := ih
    rw [List.cons_append, lines_cons (Bool.eq_false_iff.2 hbreak)]
    cases hbreaks : breaks s with
    | zero =>
      -- No break is in front of the place, so all of the text there stands on its line.
      obtain rfl := hfirst.resolve_right (by omega)
      refine ⟨d :: start, tail, .inl rfl, List.suffix_rfl, htail, ?_⟩
      rw [hbreaks] at hline
      rw [List.getElem?_cons_zero, List.cons_append, List.headD_eq_head?_getD,
        List.head?_eq_getElem?, hline]
      rfl
    | succ n =>
      refine ⟨start, tail, .inr (Nat.succ_pos _), hstart.trans (List.suffix_cons d s), htail, ?_⟩
      rw [hbreaks] at hline
      rw [List.getElem?_cons_succ, List.getElem?_tail, hline]

end Place

/-! ## Breaks and line feeds -/

/-- **A text whose breaks are line feeds,** each alone or behind a carriage return. -/
def BreaksAtFeeds (s : Text) : Prop := FeedsOnly s ∧ s.getLast? ≠ some '\r'

instance (s : Text) : Decidable (BreaksAtFeeds s) := inferInstanceAs (Decidable (_ ∧ _))

/-- Character by character: a break is a line feed or a carriage return, and a carriage return stands in
front of a line feed. -/
theorem breaksAtFeeds_cons_iff {c : Char} {s : Text} :
    BreaksAtFeeds (c :: s) ↔ (isLineBreak c = true → c = '\n' ∨ c = '\r') ∧
      (c = '\r' → s.head? = some '\n') ∧ BreaksAtFeeds s := by
  have hbreaks : (∀ d ∈ c :: s, isLineBreak d = true → d = '\n' ∨ d = '\r') ↔
      (isLineBreak c = true → c = '\n' ∨ c = '\r') ∧
        ∀ d ∈ s, isLineBreak d = true → d = '\n' ∨ d = '\r' := List.forall_mem_cons
  have hchain := @List.isChain_cons Char (fun c d => c = '\r' → d = '\n') c s
  constructor
  · rintro ⟨⟨h, hreturns⟩, hlast⟩
    obtain ⟨hc, hs⟩ := hbreaks.1 h
    obtain ⟨hhead, hrest⟩ := hchain.1 hreturns
    cases s with
    | nil => exact ⟨hc, fun heq => absurd (by rw [heq]; rfl) hlast, ⟨hs, hrest⟩, nofun⟩
    | cons d s =>
      rw [List.getLast?_cons_cons] at hlast
      exact ⟨hc, fun heq => congrArg some (hhead d rfl heq), ⟨hs, hrest⟩, hlast⟩
  · rintro ⟨hc, hhead, ⟨hs, hrest⟩, hlast⟩
    refine ⟨⟨hbreaks.2 ⟨hc, hs⟩, hchain.2 ⟨fun d hd heq => ?_, hrest⟩⟩, ?_⟩
    · rw [hhead heq] at hd
      exact (Option.some.inj hd).symm
    · cases s with
      | nil =>
        intro heq
        cases hhead (Option.some.inj heq)
      | cons d s =>
        rw [List.getLast?_cons_cons]
        exact hlast

/-- Line feeds alone are enough. -/
theorem breaksAtFeeds_of_forall {s : Text} (h : ∀ c ∈ s, isLineBreak c = true → c = '\n') :
    BreaksAtFeeds s := by
  induction s with
  | nil => exact ⟨⟨nofun, .nil⟩, nofun⟩
  | cons c s ih =>
    rw [List.forall_mem_cons] at h
    refine breaksAtFeeds_cons_iff.2 ⟨fun hc => .inl (h.1 hc), ?_, ih h.2⟩
    rintro rfl
    exact absurd (h.1 (by decide)) (by decide)

/-- **There is a break for each line feed,** and there are no others exactly if the breaks are line feeds. -/
theorem count_le_breaks_and_eq_iff (s : Text) :
    s.count '\n' ≤ breaks s ∧ (s.count '\n' = breaks s ↔ BreaksAtFeeds s) := by
  fun_induction breaks s with
  | case1 => exact ⟨Nat.le_refl 0, iff_of_true rfl ⟨⟨nofun, .nil⟩, nofun⟩⟩
  | case2 s ih =>
    have hcount : ('\r' :: '\n' :: s).count '\n' = s.count '\n' + 1 := by simp
    have hiff : BreaksAtFeeds ('\r' :: '\n' :: s) ↔ BreaksAtFeeds s := by
      rw [breaksAtFeeds_cons_iff, breaksAtFeeds_cons_iff]
      simp
    rw [hcount, hiff, ← ih.2]
    omega
  | case3 c s hpair hbreak ih =>
    by_cases hfeed : c = '\n'
    · subst hfeed
      have hcount : ('\n' :: s).count '\n' = s.count '\n' + 1 := List.count_cons_self
      have hiff : BreaksAtFeeds ('\n' :: s) ↔ BreaksAtFeeds s := by
        rw [breaksAtFeeds_cons_iff]
        simp
      rw [hcount, hiff, ← ih.2]
      omega
    · -- A break of another kind is one more.
      have hcount : (c :: s).count '\n' = s.count '\n' := List.count_cons_of_ne hfeed
      have hnot : ¬ BreaksAtFeeds (c :: s) := by
        rw [breaksAtFeeds_cons_iff]
        rintro ⟨hc, hhead, -⟩
        obtain rfl := (hc hbreak).resolve_left hfeed
        cases s with
        | nil => cases hhead rfl
        | cons d s => exact hpair s rfl (by rw [Option.some.inj (hhead rfl)])
      rw [hcount]
      exact ⟨by omega, iff_of_false (by omega) hnot⟩
  | case4 c s hpair hbreak ih =>
    have hfeed : c ≠ '\n' := by
      rintro rfl
      exact hbreak isLineBreak_lineFeed
    have hreturn : c ≠ '\r' := by
      rintro rfl
      exact hbreak (by decide)
    have hcount : (c :: s).count '\n' = s.count '\n' := List.count_cons_of_ne hfeed
    have hiff : BreaksAtFeeds (c :: s) ↔ BreaksAtFeeds s := by
      rw [breaksAtFeeds_cons_iff]
      simp [hbreak, hreturn]
    rw [hcount, hiff]
    exact ih

end Text

namespace Listing

open Text (Unbroken breaks fed isLineBreak joinLines lineIndex lineParts lines)

/-! ## The rows of a listing -/

theorem getElem?_numberedFrom (number : Nat) (ls : List Text) (i : Nat) :
    (numberedFrom number ls)[i]? = ls[i]?.map (numbered (number + i)) := by
  induction ls generalizing number i with
  | nil => rfl
  | cons line rest ih =>
    rw [numberedFrom]
    cases i with
    | zero => rfl
    | succ i =>
      rw [List.getElem?_cons_succ, List.getElem?_cons_succ, ih]
      congr 2
      omega

theorem unbroken_ofNat (n : Nat) : Unbroken (Text.ofNat n) := by
  have hdigit : ∀ n < 10, isLineBreak (Text.digit n) = false := by decide
  fun_induction Text.ofNat n with
  | case1 n hn =>
    intro c hc
    rw [List.mem_singleton.1 hc]
    exact hdigit n hn
  | case2 n hn ih =>
    refine ih.append fun c hc => ?_
    rw [List.mem_singleton.1 hc]
    exact hdigit _ (Nat.mod_lt n (by decide))

theorem unbroken_numbered (number : Nat) {line : Text} (h : Unbroken line) :
    Unbroken (numbered number line) := by
  have hblanks : ∀ n, Unbroken (List.replicate n ' ') := by
    intro n c hc
    rw [(List.mem_replicate.1 hc).2]
    decide
  have hcolon : Unbroken (String.toList ": ") := by decide
  exact (((hblanks _).append (unbroken_ofNat number)).append hcolon).append h

theorem unbroken_of_mem_numberedFrom {number : Nat} {ls : List Text}
    (h : ∀ line ∈ ls, Unbroken line) : ∀ row ∈ numberedFrom number ls, Unbroken row := by
  induction ls generalizing number with
  | nil => exact nofun
  | cons line rest ih =>
    rw [List.forall_mem_cons] at h
    rw [numberedFrom, List.forall_mem_cons]
    exact ⟨unbroken_numbered number h.1, ih h.2⟩

/-- **The rows of a listing** are the lines of its text behind their numbers. -/
theorem lines_ofText {source : Text} (h : source ≠ []) :
    lines (ofText source) = numberedFrom 1 (lines source) := by
  have hlines : numberedFrom 1 (lines source) ≠ [] := by
    obtain ⟨line, rest, hcons⟩ := List.exists_cons_of_ne_nil (Text.lines_ne_nil h)
    rw [hcons]
    exact List.cons_ne_nil _ _
  rw [ofText, Text.joinLines_append_lineFeed hlines]
  exact Text.lines_fed (unbroken_of_mem_numberedFrom fun line hmem => Text.unbroken_of_mem_lines hmem)

/-- **The number of the row that shows a place of a text,** given by its offset. -/
def numberAt (source : Text) (offset : Nat) : Nat := lineIndex (lineParts source) offset + 1

/-- **A row of the printed listing that shows a place:** the row with that number, of a line that goes on
behind the text in front of the place with what stands there. -/
def Shows (source before behind : Text) (number : Nat) : Prop :=
  ∃ start tail, start <:+ before ∧ tail <+: behind ∧ tail ≠ [] ∧
    (lines (ofText source))[number - 1]? = some (numbered number (start ++ tail))

section Place

variable {c : Char} (hc : isLineBreak c = false)
include hc

theorem numberAt_eq (before behind : Text) :
    numberAt (before ++ c :: behind) before.length = 1 + breaks before := by
  rw [numberAt, Text.lineIndex_lineParts hc, Nat.add_comm]

/-- **The row with the number of a place shows the place.** -/
theorem shows_numberAt (before behind : Text) : Shows (before ++ c :: behind) before (c :: behind)
    (numberAt (before ++ c :: behind) before.length) := by
  obtain ⟨start, tail, -, hstart, htail, hline⟩ := Text.getElem?_lines hc before behind
  refine ⟨start, c :: tail, hstart, (List.prefix_cons_inj c).2 htail, List.cons_ne_nil c tail, ?_⟩
  rw [lines_ofText (by simp), numberAt_eq hc, getElem?_numberedFrom, Nat.add_sub_cancel_left, hline]
  rfl

end Place

end Listing

/-! ## The outermost place of a chain -/

namespace Expansion

/-- **The include of a text that a chain of includes goes through.** It stands in the text, behind some
of it. If no place of the chain is further in, it is the include at fault; otherwise it asks for the
fragment that the next place is in. -/
structure Outermost (store : FragmentStore) (root : FileName) (text before : Text) (directive : Token)
    (problem : IncludeProblem) (inner trace : List IncludeFrame) : Prop where
  isInclude : isInclude directive = true
  stands : ∃ front behind, Token.ofText text 1 = front ++ directive :: behind ∧
    Token.toText front = before
  fails : inner = [] → FailsBy store root directive trace problem
  leads : ∀ frame ∈ inner.getLast?, ∃ path, frame.path = .text path ∧
    fate root directive = .fetched path

/-- A chain that has entered a file ends in the source, with the include that asks for the file below.
That is the file at hand, or the one of the last place but one. -/
theorem Chain.exists_outermost {store : FragmentStore} {name file : FileName} {source text : Text}
    {above : List IncludeFrame} (h : Chain store name source above file text) :
    (above = [] ∧ file = name ∧ text = source) ∨
      ∃ inner line token path, above = inner ++ [⟨name, line⟩] ∧ IncludeAt source line token ∧
        fate name.root token = .fetched path ∧
        ∀ below, ∀ frame ∈ (⟨file, below⟩ :: inner).getLast?, frame.path = .text path := by
  induction h with
  | source => exact .inl ⟨rfl, rfl, rfl⟩
  | @through above file text path fragment token line _ hat hasks _ ih =>
    refine .inr ?_
    rcases ih with ⟨rfl, rfl, rfl⟩ | ⟨inner, outer, first, asked, rfl, hfirst, hasked, hbelow⟩
    · refine ⟨[], line, token, path, rfl, hat, hasks, fun below frame hframe => ?_⟩
      obtain rfl := Option.some.inj hframe
      rfl
    · refine ⟨⟨file, line⟩ :: inner, outer, first, asked, rfl, hfirst, hasked,
        fun below frame hframe => ?_⟩
      rw [List.getLast?_cons_cons] at hframe
      exact hbelow line frame hframe

/-- **The last place of the chain of a fault is in the source.** -/
theorem exists_outermost {store : FragmentStore} {name : FileName} {source : Text}
    {problem : IncludeProblem} {trace : List IncludeFrame}
    (h : FaultChain store name source problem trace) :
    ∃ (inner : List IncludeFrame) (line : Int) (before : Text) (directive : Token),
      trace = inner ++ [⟨name, line⟩] ∧
      Outermost store name.root source before directive problem inner trace ∧
      line = 1 + Scan.lineFeeds before := by
  obtain ⟨file, text, line, token, above, rfl, hchain, hat, hfails⟩ := h
  rcases hchain.exists_outermost with
    ⟨rfl, rfl, rfl⟩ | ⟨inner, outer, first, asked, rfl, hfirst, hasked, hbelow⟩
  · obtain ⟨hinclude, before, behind, hsplit, -, hline⟩ := hat
    exact ⟨[], line, Token.toText before, token, rfl,
      ⟨hinclude, ⟨before, behind, hsplit, rfl⟩, fun _ => hfails, nofun⟩, hline⟩
  · obtain ⟨hinclude, before, behind, hsplit, -, hline⟩ := hfirst
    exact ⟨⟨file, line⟩ :: inner, outer, Token.toText before, first, rfl,
      ⟨hinclude, ⟨before, behind, hsplit, rfl⟩, nofun,
        fun frame hframe => ⟨asked, hbelow line frame hframe, hasked⟩⟩, hline⟩

/-- A directive starts with a character that is no break. -/
theorem exists_of_isInclude {text : Text} {token : Token} (hmem : token ∈ Token.ofText text 1)
    (h : isInclude token = true) : ∃ c data, token.data = c :: data ∧ Text.isLineBreak c = false := by
  obtain ⟨lineStart, rest, hstarts⟩ := Scan.starts_of_mem hmem
  rw [kind_of_isInclude h] at hstarts
  generalize token.data = data at hstarts
  cases hstarts with
  | @directive indent body _ _ hindent _ =>
    cases indent with
    | nil => exact ⟨'#', body, rfl, by decide⟩
    | cons c indent =>
      have hc : Scan.isIndent c = true := hindent c List.mem_cons_self
      have hbreak : ∀ d, Scan.isIndent d = true → Text.isLineBreak d = false := by
        intro d hd
        simp only [Scan.isIndent, Bool.or_eq_true, beq_iff_eq] at hd
        rcases hd with rfl | rfl <;> decide
      exact ⟨c, indent ++ '#' :: body, rfl, hbreak c hc⟩
  | plain _ hreads => cases hreads

/-- **Where the outermost include of a chain stands** in a text of which the source is the beginning. -/
theorem Outermost.exists_place {store : FragmentStore} {root : FileName} {source text before : Text}
    {directive : Token} {problem : IncludeProblem} {inner trace : List IncludeFrame}
    (h : Outermost store root source before directive problem inner trace) (hsource : source <+: text) :
    ∃ c data rest, directive.data = c :: data ∧ Text.isLineBreak c = false ∧
      text = before ++ directive.data ++ rest := by
  obtain ⟨front, behind, hsplit, rfl⟩ := h.stands
  have hmem : directive ∈ Token.ofText source 1 := by
    rw [hsplit]
    exact List.mem_append_right _ List.mem_cons_self
  obtain ⟨c, data, hdata, hc⟩ := exists_of_isInclude hmem h.isInclude
  obtain ⟨dropped, rfl⟩ := hsource
  refine ⟨c, data, Token.toText behind ++ dropped, hdata, hc, ?_⟩
  rw [Scan.eq_append_of_tokensFrom hsplit, List.append_assoc, List.append_assoc, List.append_assoc]

end Expansion

/-! ## Compiling -/

theorem CompiledText.dropGuard_isPrefix (s : Text) : dropGuard s <+: s := by
  induction s with
  | nil => exact List.nil_prefix
  | cons c s ih =>
    rw [dropGuard]
    split
    · exact List.nil_prefix
    · exact (List.prefix_cons_inj c).2 ih

namespace Library

variable {library : Library} {name : FileName} {source : Text} {defines : Value}
  {problem : IncludeProblem} {trace : List IncludeFrame}

/-- What has no key does not fail at an include. -/
theorem cacheKey_ne_badInclude (source : Value) :
    library.cacheKey name source defines ≠ .error (.badInclude problem trace) := by
  intro h
  rcases bind_eq_error_iff.1 h with hactive | ⟨active, -, hdigest⟩
  · cases MacroTable.eq_of_active_error hactive
  · unfold Digest.ofValue at hdigest
    split at hdigest <;> cases hdigest

/-- **A compilation that fails at an include fails in the walk,** whatever is cached, unless a transform
gives the fault. -/
theorem ofSource_of_compile
    (htransforms : ∀ t ∈ library.composer.transforms, ∀ v, t v ≠ .error (.badInclude problem trace))
    (h : (library.compile name source defines).result = .error (.badInclude problem trace)) :
    (Expansion.ofSource library.store name.orAnonymous (CompiledText.dropGuard source)).result
      = .error (.badInclude problem trace) := by
  by_cases hsource : source = []
  · subst hsource
    cases h
  cases hkey : library.cacheKey name.orAnonymous (.text source) defines with
  | error fault =>
    rw [compile_of_keyless hsource hkey] at h
    rw [Step.result_failed] at h
    exact absurd (hkey.trans (by rw [Except.error.inj h])) (cacheKey_ne_badInclude _)
  | ok key =>
    rw [compile_of_key hsource hkey, Step.result_map] at h
    have hcached := error_of_map h
    unfold cachedBody at hcached
    split at hcached
    · cases hcached
    · rename_i cache hmiss
      rw [Step.result_andThen] at hcached
      rcases bind_eq_error_iff.1 hcached with hbody | ⟨body, -, hdone⟩
      · have hplain : ({ library.refreshed with cache := cache } : Library).plain = library.plain :=
          plain_refreshed library
        rw [← result_compileBody_plain, hplain, result_compileBody_plain, result_compileBody,
          FileName.orAnonymous_orAnonymous] at hbody
        exact Composer.ofSource_of_compose htransforms (error_of_map hbody)
      · cases hdone

end Library

namespace ShaderPair

variable {pair : ShaderPair} {listing : Bool} {library : Library} {slot : Slot} {text : Text}
  {rest texts : List (Slot × Text)} {problem : IncludeProblem} {trace : List IncludeFrame}

theorem listing_mem_of_error
    (h : (library.compile (.text (pair.slotName slot)) text pair.macros.toValue).result
      = .error (.badInclude problem trace)) (rest : List (Slot × Text)) :
    Notice.listing (Listing.ofText text)
      ∈ (compileTexts pair true library ((slot, text) :: rest)).notices := by
  rw [compileTexts]
  dsimp only
  rw [h]
  exact List.mem_append_right _ List.mem_cons_self

theorem notices_compileTexts_cons_of_ok {compiled : Option Text}
    (h : (library.compile (.text (pair.slotName slot)) text pair.macros.toValue).result = .ok compiled)
    (rest : List (Slot × Text)) :
    (compileTexts pair listing library ((slot, text) :: rest)).notices
      = (library.compile (.text (pair.slotName slot)) text pair.macros.toValue).notices
        ++ (compileTexts pair listing (library.compile (.text (pair.slotName slot)) text
            pair.macros.toValue).state rest).notices := by
  rw [compileTexts]
  dsimp only
  rw [h]
  dsimp only
  rw [Step.andThen, h]
  rfl

/-- The shader of a slot has a name, also if the pair has none. -/
theorem orAnonymous_slotName (pair : ShaderPair) (slot : Slot) :
    (FileName.text (pair.slotName slot)).orAnonymous = .text (pair.slotName slot) := by
  have hne : pair.slotName slot ≠ [] := List.append_ne_nil_of_right_ne_nil _ (by decide)
  have hempty : (FileName.text (pair.slotName slot)).isEmpty = false := List.isEmpty_eq_false_iff.2 hne
  rw [FileName.orAnonymous, if_neg (Bool.eq_false_iff.1 hempty)]

/-- **Compiling texts fails at an include where compiling one of them does,** and that one is listed. -/
theorem exists_of_compileTexts_error
    (h : (compileTexts pair listing library texts).result = .error (.badInclude problem trace)) :
    ∃ slot text other, (slot, text) ∈ texts ∧ Library.plain other = library.plain ∧
      (other.compile (.text (pair.slotName slot)) text pair.macros.toValue).result
        = .error (.badInclude problem trace) ∧
      (listing = true → Notice.listing (Listing.ofText text)
        ∈ (compileTexts pair listing library texts).notices) := by
  induction texts generalizing library with
  | nil => cases h
  | cons item rest ih =>
    obtain ⟨slot, text⟩ := item
    rw [result_compileTexts_cons] at h
    rcases bind_eq_error_iff.1 h with hfirst | ⟨compiled, hfirst, hothers⟩
    · refine ⟨slot, text, library, List.mem_cons_self, rfl, hfirst, ?_⟩
      rintro rfl
      exact listing_mem_of_error hfirst rest
    · obtain ⟨own, source, other, hmem, hplain, hfault, hlisted⟩ := ih (error_of_map hothers)
      refine ⟨own, source, other, List.mem_cons_of_mem _ hmem,
        hplain.trans (library.plain_state_compile _ _ _), hfault, fun hlisting => ?_⟩
      rw [notices_compileTexts_cons_of_ok hfirst]
      exact List.mem_append_right _ (hlisted hlisting)

/-- **The line of a fault is the number of its row exactly if the breaks in front of it are line feeds.**
Where compiling the texts of a pair fails at an include, and no transform gave the fault, it is one of
the texts that fails, and that text is listed if listings are wanted. The last place of the chain is in
this text, under the name of the slot, with the line of the include that the chain goes through. The row
of the listing that shows where this include starts has that line for its number if and only if each
break in front of the include is a line feed, alone or behind a carriage return; otherwise the line is
too small. -/
theorem line_eq_numberAt_iff
    (htransforms : ∀ t ∈ library.composer.transforms, ∀ v, t v ≠ .error (.badInclude problem trace))
    (h : (compileTexts pair listing library texts).result = .error (.badInclude problem trace)) :
    ∃ slot text, (slot, text) ∈ texts ∧
      (listing = true → Notice.listing (Listing.ofText text)
        ∈ (compileTexts pair listing library texts).notices) ∧
      ∃ (inner : List IncludeFrame) (line : Int) (before : Text) (directive : Token) (rest : Text),
        trace = inner ++ [⟨.text (pair.slotName slot), line⟩] ∧
        Expansion.Outermost library.store (FileName.text (pair.slotName slot)).root
          (CompiledText.dropGuard text) before directive problem inner trace ∧
        text = before ++ directive.data ++ rest ∧
        Listing.Shows text before (directive.data ++ rest) (Listing.numberAt text before.length) ∧
        line ≤ Listing.numberAt text before.length ∧
        (line = Listing.numberAt text before.length ↔ Text.BreaksAtFeeds before) := by
  obtain ⟨slot, text, other, hmem, hplain, hfault, hlisted⟩ := exists_of_compileTexts_error h
  have hstore := Library.store_eq_of_plain hplain
  have hsame : other.composer.transforms = library.composer.transforms := by
    have hown : other.plain.composer.transforms = library.plain.composer.transforms := by rw [hplain]
    exact hown
  have hwalk := Library.ofSource_of_compile (hsame ▸ htransforms) hfault
  rw [orAnonymous_slotName, hstore] at hwalk
  obtain ⟨inner, line, before, directive, htrace, houtermost, hline⟩ :=
    Expansion.exists_outermost (Expansion.faultChain_of_ofSource hwalk)
  obtain ⟨c, data, rest, hdata, hc, htext⟩ :=
    houtermost.exists_place (CompiledText.dropGuard_isPrefix text)
  refine ⟨slot, text, hmem, hlisted, inner, line, before, directive, rest, htrace, houtermost,
    htext, ?_⟩
  have hsplit : text = before ++ c :: (data ++ rest) := by
    rw [htext, hdata, List.append_assoc, List.cons_append]
  have hnumber := Listing.numberAt_eq hc before (data ++ rest)
  have hcounts := Text.count_le_breaks_and_eq_iff before
  have hfeeds : Scan.lineFeeds before = before.count '\n' := rfl
  have hshows := Listing.shows_numberAt hc before (data ++ rest)
  rw [← hsplit] at hnumber hshows
  rw [hdata, List.cons_append, hline, hnumber, ← hcounts.2, hfeeds]
  rw [hnumber] at hshows
  exact ⟨hshows, by omega, by omega⟩

/-- A library with a fragment whose include asks for nothing that is stored. -/
def danglingLibrary : Library :=
  Library.emptyLibrary.withStore (FragmentStore.empty.insert "noise" "\n#include <missing>")

/-- A source that includes it, behind a comment and a directive that both run over two lines. -/
def foldedSource : Text := "/* two\nlines */\n#define A \\\n 1\n #include <noise>"

/-- The include is on the fifth line, and the fifth row shows it. -/
theorem line_eq_numberAt_iff_of_foldedSource :
    (compileTexts (fresh (.text "sketch") ⟨none, none⟩ .empty) true danglingLibrary
        [(.fragment, foldedSource)]).result
      = .error (.badInclude (.notFound "missing")
        [⟨.text "noise", 2⟩, ⟨.text "sketch (fragment)", 5⟩]) ∧
    ∃ before directive rest, foldedSource = before ++ directive ++ rest ∧
      Listing.Shows foldedSource before (directive ++ rest) 5 := by
  have hfault : (compileTexts (fresh (.text "sketch") ⟨none, none⟩ .empty) true danglingLibrary
      [(.fragment, foldedSource)]).result
      = .error (.badInclude (.notFound "missing")
        [⟨.text "noise", 2⟩, ⟨.text "sketch (fragment)", 5⟩]) :=
    Composer.eq_of_includeFault? (by decide +kernel)
  have htransforms : ∀ t ∈ danglingLibrary.composer.transforms, ∀ v, t v ≠ .error (.badInclude
      (.notFound "missing") [⟨.text "noise", 2⟩, ⟨.text "sketch (fragment)", 5⟩]) := by
    have hnone : danglingLibrary.composer.transforms = [] := rfl
    rw [hnone]
    exact nofun
  obtain ⟨slot, text, hmem, -, inner, line, before, directive, rest, htrace, -, htext, hshows, -,
    hiff⟩ := line_eq_numberAt_iff htransforms hfault
  obtain ⟨rfl, rfl⟩ := Prod.mk.inj (List.mem_singleton.1 hmem)
  obtain rfl : line = 5 := by
    have hlast := congrArg List.getLast? htrace
    rw [List.getLast?_concat] at hlast
    exact (congrArg IncludeFrame.line (Option.some.inj hlast)).symm
  have hfeeds : foldedSource.all (fun c => !Text.isLineBreak c || c == '\n') = true := by decide +kernel
  have hfront : Text.BreaksAtFeeds before := by
    refine Text.breaksAtFeeds_of_forall fun c hc hbreak => ?_
    have hmem : c ∈ foldedSource := by
      rw [htext, List.append_assoc]
      exact List.mem_append_left _ hc
    simpa [hbreak] using List.all_eq_true.1 hfeeds c hmem
  have hnumber : Listing.numberAt foldedSource before.length = 5 := by
    have hsame := hiff.2 hfront
    omega
  rw [hnumber] at hshows
  exact ⟨hfault, before, directive.data, rest, htext, hshows⟩

/-- A source with a form feed in front of an include. -/
def feedingSource : Text := "int a;\x0cint b;\n#include <b>"

/-- **A form feed in front of an include.** The listing numbers what is behind it as another line, so the
include is in its third row, and the fault names the second. -/
theorem line_behind_form_feed : ¬ ∀ (pair : ShaderPair) (library : Library) (slot : Slot) (text : Text)
    (problem : IncludeProblem) (trace inner : List IncludeFrame) (line : Int) (before : Text)
    (directive : Token) (rest : Text), library.composer.transforms = [] →
    (compileTexts pair true library [(slot, text)]).result = .error (.badInclude problem trace) →
    trace = inner ++ [⟨.text (pair.slotName slot), line⟩] →
    Expansion.Outermost library.store (FileName.text (pair.slotName slot)).root
      (CompiledText.dropGuard text) before directive problem inner trace →
    text = before ++ directive.data ++ rest →
    line = Listing.numberAt text before.length := by
  intro h
  let directive : Token := ⟨.directive, "#include <b>", 2⟩
  have hfault : (compileTexts (fresh (.text "sketch") ⟨none, none⟩ .empty) true Library.emptyLibrary
      [(.vertex, feedingSource)]).result
      = .error (.badInclude (.notFound "b") [⟨.text "sketch (vertex)", 2⟩]) :=
    Composer.eq_of_includeFault? (by decide +kernel)
  have hasks : Expansion.fate (FileName.text "sketch (vertex)").root directive = .fetched "b" :=
    Expansion.Fate.path?_eq_some_iff.1 (by decide +kernel)
  have hstands : ∃ front behind,
      Token.ofText (CompiledText.dropGuard feedingSource) 1 = front ++ directive :: behind ∧
        Token.toText front = "int a;\x0cint b;\n" :=
    ⟨(Token.ofText feedingSource 1).dropLast, [], by decide +kernel, by decide +kernel⟩
  have hline := h _ _ _ _ _ _ [] 2 _ _ [] rfl hfault rfl
    ⟨by decide +kernel, hstands, fun _ => ⟨hasks, rfl⟩, nofun⟩ (by decide)
  revert hline
  decide +kernel

end ShaderPair

end GlslCompose
