/-
`Proofs/Stretches.lean` -- the directives and comments of a text, found a second way, and
that the scanner finds the same ones in the same places.

The scanner cuts a text into tokens of every kind and keeps one bit beside the text,
whether the line is still at its start. The other way has two passes and no tokens. The
first pass sees comments and nothing else (`marks`). The second goes over what the first
has left, one mark at a time, with all that stands on the line so far; a `#` starts a
directive when nothing stands there but white space and block comments
(`stretchesFrom`), and the directive takes marks until the first line feed that it does
not escape, a line comment, or a block comment that is never closed (`directiveMarks`).

Two facts tie the passes to the scanner. Every token is a whole number of marks
(`marks_append_of_slash` and the steps for comments), so the first pass may be run token
by token. And a directive takes just the marks of its pieces (`directiveMarks_extent`).
What carries the second induction is `Escapes`: in the middle of a directive, what has
been read never escapes a line feed that is still to come, for the scanner would have
taken the two as one piece.
-/
import GlslCompose.Proofs.WalkedText

set_option autoImplicit false

namespace GlslCompose

namespace Scan

/-! ## The first pass: comments -/

/-- What a scan for comments alone sees in a text: a character outside comments, or a comment. -/
inductive Mark where
  | char (c : Char)
  | closed (text : Text)
  | unclosed (text : Text)
  | line (text : Text)
  deriving DecidableEq, Repr

namespace Mark

/-- The text of a mark. -/
def text : Mark → Text
  | char c => [c]
  | closed text | unclosed text | line text => text

/-- Whether a directive may stand behind a mark on its line: white space and block comments. -/
def isGap : Mark → Bool
  | char c => isSpace c
  | closed _ | unclosed _ => true
  | line _ => false

end Mark

/-- **The scan for comments.** A line comment runs up to the line feed, a block comment up to the
first `*/` behind its start, or to the end of the text. -/
def marks (s : Text) : List Mark :=
  match s with
  | [] => []
  | '/' :: '/' :: s =>
    .line ('/' :: '/' :: s.takeWhile (· != '\n')) :: marks (s.dropWhile (· != '\n'))
  | '/' :: '*' :: s =>
    match _h : closeComment? s with
    | some (body, rest) => .closed ('/' :: '*' :: body) :: marks rest
    | none => [.unclosed ('/' :: '*' :: s)]
  | c :: s => .char c :: marks s
  termination_by s.length
  decreasing_by
  · have := (List.dropWhile_sublist (fun c => c != '\n') (l := s)).length_le
    simp only [List.length_cons]
    omega
  · have := congrArg List.length (closeComment?_split _h).1
    simp only [List.length_cons, List.length_append] at this ⊢
    omega
  · simp

/-- A comment is never closed when there is no `*/` behind its start. -/
theorem closeComment?_eq_none_iff {s : Text} : closeComment? s = none ↔ ¬ ['*', '/'] <:+: s := by
  fun_induction closeComment? s with
  | case1 => simp
  | case2 s => simpa using ⟨[], s, rfl⟩
  | case3 c s hc ih =>
    have hhead : ¬ ['*', '/'] <+: c :: s := by
      rintro ⟨t, ht⟩
      obtain ⟨rfl, rfl⟩ := List.cons.inj ht
      exact hc t rfl rfl
    rw [Option.map_eq_none_iff, ih, List.infix_cons_iff, not_or]
    exact ⟨fun h => ⟨hhead, h⟩, fun h => h.2⟩

/-- A comment is closed by the first `*/` behind its start. -/
theorem closeComment?_eq_some_iff {s body rest : Text} : closeComment? s = some (body, rest) ↔
    ∃ front, body = front ++ ['*', '/'] ∧ s = body ++ rest ∧ ¬ ['*', '/'] <:+: front ++ ['*'] := by
  constructor
  · intro h
    fun_induction closeComment? s generalizing body rest with
    | case1 => cases h
    | case2 s =>
      obtain ⟨rfl, rfl⟩ : ['*', '/'] = body ∧ s = rest := by simpa using h
      exact ⟨[], rfl, rfl, by decide⟩
    | case3 c s hc ih =>
      -- A closing that stood further in front would start at this character.
      simp only [Option.map_eq_some_iff, Prod.exists, Prod.mk.injEq] at h
      obtain ⟨body, rest, hs, rfl, rfl⟩ := h
      obtain ⟨front, rfl, rfl, hfirst⟩ := ih hs
      refine ⟨c :: front, rfl, rfl, fun hinfix => ?_⟩
      rw [List.cons_append, List.infix_cons_iff] at hinfix
      rcases hinfix with ⟨t, ht⟩ | hinfix
      · obtain ⟨rfl, hnext⟩ := List.cons.inj ht
        cases front with
        | nil => cases hnext
        | cons d front =>
          obtain ⟨rfl, -⟩ := List.cons.inj hnext
          exact hc _ rfl rfl
      · exact hfirst hinfix
  · rintro ⟨front, rfl, rfl, hfirst⟩
    induction front with
    | nil => rfl
    | cons c front ih =>
      rw [List.cons_append, List.infix_cons_iff, not_or] at hfirst
      have hnext := ih hfirst.2
      rw [List.cons_append, List.cons_append, closeComment?, hnext]
      · rfl
      · rintro t rfl heq
        cases front with
        | nil => cases heq
        | cons d front =>
          obtain ⟨rfl, -⟩ := List.cons.inj heq
          exact hfirst.1 ⟨front ++ ['*'], rfl⟩

/-! ## The second pass: directives -/

/-- The marks that belong to a directive whose text so far is `before`, and those behind it. -/
def directiveMarks (before : Text) : List Mark → List Mark × List Mark
  | [] => ([], [])
  | .line text :: ms => ([], .line text :: ms)
  | .unclosed text :: ms => ([], .unclosed text :: ms)
  | .closed text :: ms =>
    let (own, rest) := directiveMarks (before ++ text) ms
    (.closed text :: own, rest)
  | .char c :: ms =>
    if c = '\n' ∧ ¬ EndsOpen before then ([], .char c :: ms)
    else
      let (own, rest) := directiveMarks (before ++ [c]) ms
      (.char c :: own, rest)

theorem length_directiveMarks_le (before : Text) (ms : List Mark) :
    (directiveMarks before ms).2.length ≤ ms.length := by
  fun_induction directiveMarks before ms <;> simp_all <;> omega

/-- A directive or a comment, and the place in the text where it starts. -/
structure Stretch where
  kind : TokenKind
  start : Nat
  text : Text
  deriving DecidableEq, Repr

/-- The directives and comments of a row of marks. The first mark stands at `start`, and `line` is
what stands in front of it since the last line feed outside comments and directives. -/
def stretchesFrom (start : Nat) (line : List Mark) (ms : List Mark) : List Stretch :=
  match ms with
  | [] => []
  | .char c :: ms =>
    if c = '#' ∧ line.all Mark.isGap then
      let found := directiveMarks ['#'] ms
      let text := '#' :: found.1.flatMap Mark.text
      ⟨.directive, start, text⟩ ::
        stretchesFrom (start + text.length) (line ++ .char '#' :: found.1) found.2
    else stretchesFrom (start + 1) (if c = '\n' then [] else line ++ [.char c]) ms
  | .closed text :: ms =>
    ⟨.blockComment, start, text⟩ :: stretchesFrom (start + text.length) (line ++ [.closed text]) ms
  | .unclosed text :: ms =>
    ⟨.blockComment, start, text⟩ :: stretchesFrom (start + text.length) (line ++ [.unclosed text]) ms
  | .line text :: ms =>
    ⟨.lineComment, start, text⟩ :: stretchesFrom (start + text.length) (line ++ [.line text]) ms
  termination_by ms.length
  decreasing_by
  · have := length_directiveMarks_le ['#'] ms
    simp only [List.length_cons]
    omega
  all_goals simp

/-- **The reference scan:** the directives and comments of a text, in order. -/
def stretches (s : Text) : List Stretch := stretchesFrom 0 [] (marks s)

end Scan

namespace Token

/-- The directive or the comment that a token is, if it is one. A directive starts behind the white
space in front of its `#`. -/
def stretch? (start : Nat) (token : Token) : Option Scan.Stretch :=
  match token.kind with
  | .directive =>
    let text := Text.skipBlanks token.data
    some ⟨.directive, start + (token.data.length - text.length), text⟩
  | .blockComment => some ⟨.blockComment, start, token.data⟩
  | .lineComment => some ⟨.lineComment, start, token.data⟩
  | _ => none

/-- The directives and comments among tokens that stand one behind the other from `start` on. -/
def stretches (start : Nat) : List Token → List Scan.Stretch
  | [] => []
  | token :: tokens =>
    (token.stretch? start).toList ++ stretches (start + token.data.length) tokens

end Token

namespace Scan

/-! ## The first pass, token by token -/

theorem marks_nil : marks [] = [] := by rw [marks]

/-- A character that opens no comment is a mark. -/
theorem marks_cons {c : Char} {s : Text}
    (h : c = '/' → s.head? ≠ some '/' ∧ s.head? ≠ some '*') : marks (c :: s) = .char c :: marks s := by
  rw [marks]
  · rintro t rfl rfl
    exact (h rfl).1 rfl
  · rintro t rfl rfl
    exact (h rfl).2 rfl

/-- So is each character of a text without a slash. -/
theorem marks_append_of_slash {s : Text} (h : '/' ∉ s) (t : Text) :
    marks (s ++ t) = s.map Mark.char ++ marks t := by
  induction s with
  | nil => rfl
  | cons c s ih =>
    obtain ⟨hc, hs⟩ := not_or.1 (mt List.mem_cons.2 h)
    rw [List.cons_append, marks_cons fun hslash => absurd hslash.symm hc, ih hs]
    rfl

theorem marks_slashes (s : Text) :
    marks ('/' :: '/' :: s)
      = .line ('/' :: '/' :: s.takeWhile (· != '\n')) :: marks (s.dropWhile (· != '\n')) := by
  rw [marks]

theorem marks_lineComment {body rest : Text} (hbody : ∀ c ∈ body, (c != '\n') = true)
    (hrest : ∀ c ∈ rest.head?, (c != '\n') = false) :
    marks ('/' :: '/' :: body ++ rest) = .line ('/' :: '/' :: body) :: marks rest := by
  obtain ⟨htake, hdrop⟩ := takeWhile_eq_of_all hbody hrest
  rw [List.cons_append, List.cons_append, marks_slashes, htake, hdrop]

theorem marks_blockComment (s : Text) :
    marks ('/' :: '*' :: s) = match closeComment? s with
      | some (body, rest) => .closed ('/' :: '*' :: body) :: marks rest
      | none => [.unclosed ('/' :: '*' :: s)] := by
  rw [marks]
  split <;> rename_i h <;> rw [h]

theorem marks_closed {body : Text} (h : closeComment? body = some (body, [])) (rest : Text) :
    marks ('/' :: '*' :: body ++ rest) = .closed ('/' :: '*' :: body) :: marks rest := by
  have hbody := closeComment?_append (t := rest) h
  rw [List.nil_append] at hbody
  rw [List.cons_append, List.cons_append, marks_blockComment, hbody]

theorem marks_unclosed {body : Text} (h : closeComment? body = none) :
    marks ('/' :: '*' :: body) = [.unclosed ('/' :: '*' :: body)] := by
  rw [marks_blockComment, h]

/-- A code token is read as its characters: a slash opens no comment with what follows it. -/
theorem marks_append_of_code {kind : TokenKind} {data rest : Text} (h : Reads kind data rest)
    (hcode : isCode kind = true) : marks (data ++ rest) = data.map Mark.char ++ marks rest := by
  have hcomment : kind.isComment = false := by cases kind <;> first | rfl | cases hcode
  rcases h.slash hcomment with hnone | ⟨rfl, -, hline, hblock⟩
  · exact marks_append_of_slash hnone rest
  · exact marks_cons fun _ => ⟨hline, hblock⟩

/-! ## The directives of the second pass -/

/-- Whether a line feed that a text starts with, or that stands behind a carriage return there, is
escaped by what stands in front of the text. -/
def Escapes (before s : Text) : Prop :=
  EndsOpen before ∧ s.head? = some '\n' ∨ ['\\'] <:+ before ∧ ∃ t, s = '\r' :: '\n' :: t

theorem endsOpen_concat {before : Text} {c : Char} :
    EndsOpen (before ++ [c]) ↔ c = '\\' ∨ c = '\r' ∧ ['\\'] <:+ before := by
  constructor
  · rintro ⟨front, heq | heq⟩
    · exact .inl (List.append_inj_right' heq rfl |> List.singleton_inj.1)
    · rw [show ['\\', '\r'] = ['\\'] ++ ['\r'] from rfl, ← List.append_assoc] at heq
      obtain ⟨hbefore, hc⟩ := List.append_inj' heq rfl
      exact .inr ⟨List.singleton_inj.1 hc, front, hbefore.symm⟩
  · rintro (rfl | ⟨rfl, front, rfl⟩)
    · exact ⟨before, .inl rfl⟩
    · exact ⟨front, .inr (by rw [List.append_assoc]; rfl)⟩

theorem not_escapes_concat {before : Text} {c : Char} (hback : c ≠ '\\') (hreturn : c ≠ '\r')
    (s : Text) : ¬ Escapes (before ++ [c]) s := by
  rintro (⟨hends, -⟩ | ⟨⟨front, heq⟩, -⟩)
  · rcases endsOpen_concat.1 hends with hc | ⟨hc, -⟩
    · exact hback hc
    · exact hreturn hc
  · exact hback (List.singleton_inj.1 (List.append_inj_right' heq rfl)).symm

/-- A directive takes a character that is no line feed, and a line feed that it escapes. -/
theorem directiveMarks_char {before : Text} {c : Char} (h : c ≠ '\n' ∨ EndsOpen before)
    {ms own rest : List Mark} (hnext : directiveMarks (before ++ [c]) ms = (own, rest)) :
    directiveMarks before (.char c :: ms) = (.char c :: own, rest) := by
  have hcond : ¬ (c = '\n' ∧ ¬ EndsOpen before) := fun hc => h.elim (· hc.1) hc.2
  rw [directiveMarks, if_neg hcond, hnext]

/-- **A directive takes the marks of a piece,** and goes on behind it without a line feed that it
escapes. -/
theorem directiveMarks_piece {piece rest : Text} (h : Continues piece rest) {before : Text}
    (hescape : ¬ Escapes before (piece ++ rest)) :
    ¬ Escapes (before ++ piece) rest ∧ ∃ taken : List Mark, taken.flatMap Mark.text = piece ∧
      ∀ {own behind : List Mark}, directiveMarks (before ++ piece) (marks rest) = (own, behind) →
        directiveMarks before (marks (piece ++ rest)) = (taken ++ own, behind) := by
  cases h with
  | lineBreak =>
    have hends : EndsOpen (before ++ ['\\']) := endsOpen_concat.2 (.inl rfl)
    have hpiece : before ++ ['\\', '\n'] = before ++ ['\\'] ++ ['\n'] := by simp
    rw [hpiece, marks_append_of_slash (by decide)]
    refine ⟨not_escapes_concat (by decide) (by decide) _, [.char '\\', .char '\n'], rfl, fun hnext => ?_⟩
    exact directiveMarks_char (.inl (by decide)) (directiveMarks_char (.inr hends) hnext)
  | returnBreak =>
    have hends : EndsOpen (before ++ ['\\'] ++ ['\r']) := endsOpen_concat.2 (.inr ⟨rfl, before, rfl⟩)
    have hpiece : before ++ ['\\', '\r', '\n'] = before ++ ['\\'] ++ ['\r'] ++ ['\n'] := by simp
    rw [hpiece, marks_append_of_slash (by decide)]
    refine ⟨not_escapes_concat (by decide) (by decide) _, [.char '\\', .char '\r', .char '\n'], rfl,
      fun hnext => ?_⟩
    exact directiveMarks_char (.inl (by decide)) <| directiveMarks_char (.inl (by decide)) <|
      directiveMarks_char (.inr hends) hnext
  | backslash hline hreturn =>
    refine ⟨?_, [.char '\\'], rfl, fun hnext => ?_⟩
    · rintro (⟨-, hfeed⟩ | ⟨-, t, ht⟩)
      · exact hline hfeed
      · exact hreturn t ht
    · rw [marks_append_of_slash (by decide)]
      exact directiveMarks_char (.inl (by decide)) hnext
  | @comment text _ hclose =>
    obtain ⟨front, rfl, -⟩ := closeComment?_eq_some_iff.1 hclose
    have hpiece : before ++ '/' :: '*' :: (front ++ ['*', '/'])
        = before ++ '/' :: '*' :: front ++ ['*'] ++ ['/'] := by simp
    refine ⟨?_, [.closed ('/' :: '*' :: (front ++ ['*', '/']))], by simp [Mark.text], fun hnext => ?_⟩
    · rw [hpiece]
      exact not_escapes_concat (by decide) (by decide) _
    · rw [marks_closed hclose, directiveMarks, hnext]
      rfl
  | slash hline hblock =>
    refine ⟨not_escapes_concat (by decide) (by decide) _, [.char '/'], rfl, fun hnext => ?_⟩
    rw [List.singleton_append, marks_cons fun _ => ⟨hline, hblock⟩]
    exact directiveMarks_char (.inl (by decide)) hnext
  | @char c _ hfeed hback hslash =>
    refine ⟨?_, [.char c], rfl, fun hnext => ?_⟩
    · -- A carriage return behind a backslash stands before no line feed.
      rintro (⟨hends, hhead⟩ | ⟨⟨front, heq⟩, -⟩)
      · rcases endsOpen_concat.1 hends with hc | ⟨rfl, hbefore⟩
        · exact hback hc
        · obtain ⟨t, ht⟩ := List.head?_eq_some_iff.1 hhead
          exact hescape (.inr ⟨hbefore, t, by rw [ht]; rfl⟩)
      · exact hback (List.singleton_inj.1 (List.append_inj_right' heq rfl)).symm
    · rw [List.singleton_append, marks_cons fun h => absurd h hslash]
      exact directiveMarks_char (.inl hfeed) hnext

/-- It takes nothing where it ends. -/
theorem directiveMarks_edge {before rest : Text} (hedge : Edge rest) (hescape : ¬ Escapes before rest) :
    directiveMarks before (marks rest) = ([], marks rest) := by
  rcases edge_iff.1 hedge with rfl | hfeed | ⟨t, rfl⟩ | ⟨t, rfl, hopen⟩
  · rw [marks_nil]
    rfl
  · have hends : ¬ EndsOpen before := fun hends => hescape (.inl ⟨hends, hfeed⟩)
    obtain ⟨t, rfl⟩ := List.head?_eq_some_iff.1 hfeed
    rw [marks_cons fun hslash => absurd hslash (by decide), directiveMarks, if_pos ⟨rfl, hends⟩]
  · rw [marks_slashes]
    rfl
  · rw [marks_unclosed hopen]
    rfl

/-- **A directive takes the marks of its pieces.** -/
theorem directiveMarks_extent {body rest : Text} (h : Extent body rest) {before : Text}
    (hescape : ¬ Escapes before (body ++ rest)) :
    ∃ own, directiveMarks before (marks (body ++ rest)) = (own, marks rest) ∧
      own.flatMap Mark.text = body := by
  induction h generalizing before with
  | ends hedge => exact ⟨[], directiveMarks_edge hedge hescape, rfl⟩
  | @goesOn piece body rest hpiece _ ih =>
    rw [List.append_assoc] at hescape ⊢
    obtain ⟨hnone, taken, htaken, hstep⟩ := directiveMarks_piece hpiece hescape
    obtain ⟨own, hnext, htext⟩ := ih hnone
    exact ⟨taken ++ own, hstep hnext, by rw [List.flatMap_append, htaken, htext]⟩

/-! ## The two ways agree -/

theorem notMem_of_all {p : Char → Bool} {s : Text} (hs : ∀ c ∈ s, p c = true) {c : Char}
    (hc : p c = false) : c ∉ s := fun hmem => by
  rw [hs c hmem] at hc
  cases hc

/-- Characters outside comments are passed over, if none of them ends the line or may start a
directive. -/
theorem stretchesFrom_chars {s : Text} (hfeed : '\n' ∉ s) {line : List Mark}
    (hhash : '#' ∈ s → line.all Mark.isGap = false) (start : Nat) (ms : List Mark) :
    stretchesFrom start line (s.map Mark.char ++ ms)
      = stretchesFrom (start + s.length) (line ++ s.map Mark.char) ms := by
  induction s generalizing start line with
  | nil => simp
  | cons c s ih =>
    have hc : c ≠ '\n' := fun h => hfeed (h ▸ List.mem_cons_self)
    have hnone : ¬ (c = '#' ∧ line.all Mark.isGap = true) := by
      rintro ⟨rfl, hgap⟩
      rw [hhash List.mem_cons_self] at hgap
      cases hgap
    have hnext : '#' ∈ s → (line ++ [Mark.char c]).all Mark.isGap = false := by
      intro hmem
      rw [List.all_append, hhash (List.mem_cons_of_mem _ hmem)]
      rfl
    rw [List.map_cons, List.cons_append, stretchesFrom, if_neg hnone, if_neg hc,
      ih (fun h => hfeed (List.mem_cons_of_mem _ h)) hnext]
    simp [Nat.add_right_comm, Nat.add_assoc]

theorem all_isGap_concat (line : List Mark) (m : Mark) :
    (line ++ [m]).all Mark.isGap = (line.all Mark.isGap && m.isGap) := by
  rw [List.all_append, List.all_cons, List.all_nil, Bool.and_true]

theorem all_isGap_chars (line : List Mark) (s : Text) :
    (line ++ s.map Mark.char).all Mark.isGap = (line.all Mark.isGap && s.all isSpace) := by
  rw [List.all_append, List.all_map]
  rfl

/-- **A directive is found where a line starts.** Behind it the line is past its start. -/
theorem stretchesFrom_directive {indent body rest : Text} (hindent : ∀ c ∈ indent, isIndent c = true)
    (hextent : Extent body rest) {line : List Mark} (hline : line.all Mark.isGap = true)
    (start : Nat) : ∃ behind : List Mark, behind.all Mark.isGap = false ∧
      stretchesFrom start line (marks (indent ++ '#' :: body ++ rest))
        = ⟨.directive, start + indent.length, '#' :: body⟩ ::
          stretchesFrom (start + (indent ++ '#' :: body).length) behind (marks rest) := by
  have hnone : ∀ c, isIndent c = false → c ∉ indent := fun _ => notMem_of_all hindent
  have hgap : (line ++ indent.map Mark.char).all Mark.isGap = true := by
    rw [all_isGap_chars, hline, List.all_eq_true.2 fun c hc => isSpace_of_isIndent (hindent c hc)]
    rfl
  have hfresh : ¬ Escapes ([] ++ ['#']) (body ++ rest) :=
    not_escapes_concat (by decide) (by decide) _
  obtain ⟨own, hown, htext⟩ := directiveMarks_extent hextent hfresh
  rw [List.nil_append] at hown
  refine ⟨line ++ indent.map Mark.char ++ .char '#' :: own, ?_, ?_⟩
  · rw [List.all_append, List.all_cons, show Mark.isGap (.char '#') = false from rfl,
      Bool.false_and, Bool.and_false]
  · have hlength : start + (indent ++ '#' :: body).length
        = start + indent.length + ('#' :: body).length := by
      rw [List.length_append, Nat.add_assoc]
    rw [List.append_assoc, marks_append_of_slash (hnone '/' (by decide)), List.cons_append,
      marks_cons fun h => absurd h (by decide),
      stretchesFrom_chars (hnone '\n' (by decide)) (fun h => absurd h (hnone '#' (by decide))),
      stretchesFrom, if_pos ⟨rfl, hgap⟩, hlength]
    simp only [hown, htext]

/-- A code token is passed over, and behind it the line is past its start. -/
theorem stretchesFrom_code {kind : TokenKind} {data rest : Text} (h : Reads kind data rest)
    (hcode : isCode kind = true) {line : List Mark}
    (hhash : line.all Mark.isGap = true → NoHash (data ++ rest)) (start : Nat) :
    (line ++ data.map Mark.char).all Mark.isGap = startBehind (line.all Mark.isGap) kind data ∧
      stretchesFrom start line (marks (data ++ rest))
        = stretchesFrom (start + data.length) (line ++ data.map Mark.char) (marks rest) := by
  constructor
  · obtain ⟨c, t, rfl, hspace, -⟩ := h.exists_cons hcode
    rw [all_isGap_chars, List.all_cons, hspace, Bool.false_and, Bool.and_false,
      startBehind_of_isCode hcode]
  · -- A `#` here is a token of its own, and one that the scanner took for no directive.
    have hpast : '#' ∈ data → line.all Mark.isGap = false := by
      intro hmem
      rcases h.notMem_of_code hcode (c := '#') (by decide) with rfl | hnot
      · exact Bool.eq_false_iff.2 fun hgap => hhash hgap rfl
      · exact absurd hmem hnot
    rw [marks_append_of_code h hcode, stretchesFrom_chars (h.lineFeed_notMem hcode) hpast]

/-- **Outside directives a token is a comment, or is passed over.** The line behind it lets a directive
start just when the scanner looks for one there. -/
theorem stretchesFrom_reads {kind : TokenKind} {data rest : Text} (h : Reads kind data rest)
    {line : List Mark} (hhash : line.all Mark.isGap = true → NoHash (data ++ rest)) (start : Nat)
    (number : Int) : ∃ behind : List Mark,
      behind.all Mark.isGap = startBehind (line.all Mark.isGap) kind data ∧
      stretchesFrom start line (marks (data ++ rest))
        = (Token.stretch? start ⟨kind, data, number⟩).toList ++
          stretchesFrom (start + data.length) behind (marks rest) := by
  by_cases hcode : isCode kind = true
  · have hnone : (Token.stretch? start ⟨kind, data, number⟩).toList = [] := by
      cases kind <;> first | rfl | cases hcode
    obtain ⟨hbehind, hfound⟩ := stretchesFrom_code h hcode hhash start
    exact ⟨_, hbehind, by rw [hfound, hnone, List.nil_append]⟩
  -- A comment is one mark; white space up to a line feed starts the line anew, and other white space
  -- leaves it as it is.
  cases h with
  | @closedComment body _ hclose =>
    refine ⟨line ++ [.closed ('/' :: '*' :: body)], ?_, ?_⟩
    · rw [all_isGap_concat, Mark.isGap, Bool.and_true]
      rfl
    · rw [marks_closed hclose, stretchesFrom]
      rfl
  | @openComment body hopen =>
    refine ⟨line ++ [.unclosed ('/' :: '*' :: body)], ?_, ?_⟩
    · rw [all_isGap_concat, Mark.isGap, Bool.and_true]
      rfl
    · rw [List.append_nil, marks_unclosed hopen, stretchesFrom, marks_nil]
      rfl
  | @lineComment body _ hbody hrest =>
    refine ⟨line ++ [.line ('/' :: '/' :: body)], ?_, ?_⟩
    · rw [all_isGap_concat, Mark.isGap, Bool.and_false]
      rfl
    · rw [marks_lineComment hbody hrest, stretchesFrom]
      rfl
  | @lineFeed blanks _ hblanks =>
    have hnone : ∀ c, isSpace c = false → c ∉ blanks := fun _ => notMem_of_all hblanks
    refine ⟨[], (startBehind_lineFeed _ blanks).symm, ?_⟩
    rw [List.append_assoc, marks_append_of_slash (hnone '/' (by decide)), List.singleton_append,
      marks_cons fun h => absurd h (by decide),
      stretchesFrom_chars (hnone '\n' (by decide)) (fun h => absurd h (hnone '#' (by decide))),
      stretchesFrom, if_neg (fun h => absurd h.1 (by decide)), if_pos rfl, List.length_append]
    rfl
  | blanks _ hblanks _ _ =>
    have hnone : ∀ c, isSpace c = false → c ∉ data := fun _ => notMem_of_all hblanks
    refine ⟨line ++ data.map Mark.char, ?_, ?_⟩
    · rw [all_isGap_chars, List.all_eq_true.2 hblanks, Bool.and_true, startBehind_blanks _ hblanks]
    · rw [marks_append_of_slash (hnone '/' (by decide)), stretchesFrom_chars (hnone '\n' (by decide))
        (fun h => absurd h (hnone '#' (by decide)))]
      rfl
  | identifier _ _ _ => exact absurd rfl hcode
  | number _ _ _ => exact absurd rfl hcode
  | other _ _ _ => exact absurd rfl hcode

/-- **The tokens of a text are the stretches of its marks,** wherever the text stands, if the line in
front of it lets a directive start just when the scanner looks for one. -/
theorem stretches_tokensFrom (lineStart : Bool) (s : Text) {line : List Mark}
    (hline : line.all Mark.isGap = lineStart) (start : Nat) (number : Int) :
    Token.stretches start (tokensFrom number lineStart s) = stretchesFrom start line (marks s) := by
  induction lineStart, s using scan_induction generalizing line start number with
  | nil lineStart =>
    rw [tokensFrom_nil, marks_nil, stretchesFrom]
    rfl
  | cons lineStart kind data rest hstarts ih =>
    rw [tokensFrom_append hstarts, Token.stretches]
    dsimp only
    cases hstarts with
    | @directive indent body _ hstart hindent hextent =>
      obtain ⟨behind, hbehind, hfound⟩ :=
        stretchesFrom_directive hindent hextent (hline.trans hstart) start
      have hstrip : Text.skipBlanks (indent ++ '#' :: body) = '#' :: body :=
        (takeWhile_eq_of_all (fun c hc => isBlank_of_isIndent (hindent c hc)) (by simp; decide)).2
      rw [hfound, ih hbehind]
      simp [Token.stretch?, hstrip]
    | plain hhash hreads =>
      obtain ⟨behind, hbehind, hfound⟩ :=
        stretchesFrom_reads hreads (fun hgap => hhash (hline.symm.trans hgap)) start number
      rw [hline] at hbehind
      rw [hfound, ih hbehind]

/-- **The scanner finds the directives and comments of the reference scan,** each of them where it
stands, with its text, and nothing else. -/
theorem stretches_ofText (source : Text) (firstLine : Int) :
    Token.stretches 0 (Token.ofText source firstLine) = stretches source :=
  stretches_tokensFrom true source rfl 0 firstLine

end Scan

end GlslCompose
