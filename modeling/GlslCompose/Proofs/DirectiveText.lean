/-
`Proofs/DirectiveText.lean` -- what a directive says when a line feed comes to stand at
its end.

A directive that ends in a backslash takes in the line feed behind the text. Its keyword
stays what it was (`keyword_concat`), but it cannot be an include that asks for
anything: white space around the argument does not count, the backslash in front of it
does, and an argument has to end in a delimiter (`not_ok_of_endsOpen`). So no include
depends on whether there is a line feed behind the text that it ends.
-/
import GlslCompose.Directive
import GlslCompose.Proofs.DirectiveExtent

set_option autoImplicit false

namespace GlslCompose

/-! ## Trimming -/

namespace Text

variable {p : Char → Bool}

theorem trimEnd_eq_nil_of_all {s : Text} (h : ∀ c ∈ s, p c = true) : trimEnd p s = [] := by
  induction s with
  | nil => rfl
  | cons c s ih =>
    rw [trimEnd, ih fun d hd => h d (List.mem_cons_of_mem _ hd)]
    simp [h c List.mem_cons_self]

/-- What is trimmed is the run behind the last character that is not of the kind. -/
theorem trimEnd_append {front behind : Text} {c : Char} (hc : p c = false)
    (hbehind : ∀ d ∈ behind, p d = true) : trimEnd p (front ++ c :: behind) = front ++ [c] := by
  induction front with
  | nil =>
    rw [List.nil_append, trimEnd, trimEnd_eq_nil_of_all hbehind]
    simp [hc]
  | cons d front ih =>
    rw [List.cons_append, trimEnd, ih]
    cases front <;> rfl

/-- A text that does not end in a character of the kind is not trimmed. -/
theorem trimEnd_concat {front : Text} {c : Char} (hc : p c = false) :
    trimEnd p (front ++ [c]) = front ++ [c] := trimEnd_append hc (by simp)

/-- A text that is not all of one kind has a last character that is not of the kind. -/
theorem all_or_exists_append (p : Char → Bool) (s : Text) : (∀ c ∈ s, p c = true) ∨
    ∃ front c behind, s = front ++ c :: behind ∧ p c = false ∧ ∀ d ∈ behind, p d = true := by
  induction s with
  | nil => exact .inl (by simp)
  | cons d s ih =>
    rcases ih with hall | ⟨front, c, behind, rfl, hc, hbehind⟩
    · cases hd : p d with
      | true => exact .inl (List.forall_mem_cons.2 ⟨hd, hall⟩)
      | false => exact .inr ⟨[], d, s, rfl, hd, hall⟩
    · exact .inr ⟨d :: front, c, behind, rfl, hc, hbehind⟩

/-- The last character of a trimmed text is the last one that is not of the kind. -/
theorem exists_append_of_getLast?_trimEnd {s : Text} {c : Char}
    (h : (trimEnd p s).getLast? = some c) :
    ∃ front behind, s = front ++ c :: behind ∧ p c = false ∧ ∀ d ∈ behind, p d = true := by
  rcases all_or_exists_append p s with hall | ⟨front, last, behind, rfl, hlast, hbehind⟩
  · rw [trimEnd_eq_nil_of_all hall] at h
    cases h
  · rw [trimEnd_append hlast hbehind, List.getLast?_concat] at h
    obtain rfl := Option.some.inj h
    exact ⟨front, behind, rfl, hlast, hbehind⟩

/-- A text has one last character that is not of the kind. -/
theorem eq_of_append_eq {front front' behind behind' : Text} {c c' : Char} (hc : p c = false)
    (hc' : p c' = false) (hbehind : ∀ d ∈ behind, p d = true) (hbehind' : ∀ d ∈ behind', p d = true)
    (h : front ++ c :: behind = front' ++ c' :: behind') : c = c' := by
  have htrim := congrArg (trimEnd p) h
  rw [trimEnd_append hc hbehind, trimEnd_append hc' hbehind'] at htrim
  have hlast := congrArg List.getLast? htrim
  rw [List.getLast?_concat, List.getLast?_concat] at hlast
  exact Option.some.inj hlast

/-- White space is skipped the same way with a blank behind the text. -/
theorem skipBlanks_concat {c : Char} (hc : isBlank c = true) (s : Text) : skipBlanks (s ++ [c])
    = if skipBlanks s = [] then [] else skipBlanks s ++ [c] := by
  induction s with
  | nil => simp [skipBlanks, hc]
  | cons d s ih =>
    unfold skipBlanks at ih ⊢
    rw [List.cons_append, List.dropWhile_cons, List.dropWhile_cons]
    split
    · exact ih
    · simp

theorem word_concat {c : Char} (hc : isWord c = false) (s : Text) : word (s ++ [c]) = word s :=
  Scan.takeWhile_append_of_head (by simpa using hc)

end Text

/-! ## A line feed behind the directive -/

namespace Directive

open Scan (EndsOpen)

theorem closedComment?_concat {s : Text} {c : Char} (hc : c ≠ '/') :
    Scan.closedComment? (s ++ [c])
      = (Scan.closedComment? s).map fun (body, rest) => (body, rest ++ [c]) := by
  match s with
  | [] => simp [Scan.closedComment?]
  | [d] =>
    have hone : Scan.closedComment? [d] = none := by unfold Scan.closedComment?; split <;> simp_all
    have htwo : Scan.closedComment? [d, c] = none := by
      unfold Scan.closedComment?
      split <;> simp_all [Scan.closeComment?]
    rw [List.singleton_append, htwo, hone]
    rfl
  | d :: e :: s =>
    -- The opening is within the text, so only the closing could take the last character in.
    by_cases hopens : d = '/' ∧ e = '*'
    · obtain ⟨rfl, rfl⟩ := hopens
      simp only [List.cons_append, Scan.closedComment?, Scan.closeComment?_concat hc]
      cases Scan.closeComment? s <;> rfl
    · have hnone : ∀ t, Scan.closedComment? (d :: e :: t) = none := by
        intro t
        unfold Scan.closedComment?
        split
        · rename_i heq
          simp_all
        · rfl
      rw [List.cons_append, List.cons_append, hnone, hnone]
      rfl

theorem blankComments_nil : blankComments [] = [] := by
  rw [blankComments]
  rfl

theorem blankComments_of_none {c : Char} {s : Text} (h : Scan.closedComment? (c :: s) = none) :
    blankComments (c :: s) = c :: blankComments s := by
  rw [blankComments]
  split
  · rename_i hsome
    rw [h] at hsome
    cases hsome
  · rfl

theorem blankComments_of_some {s : Text} {found : Text × Text} (h : Scan.closedComment? s = some found) :
    blankComments s = ' ' :: blankComments found.2 := by
  rw [blankComments]
  split
  · rename_i hsome
    rw [h] at hsome
    rw [Option.some.inj hsome]
  · rename_i hnone
    rw [h] at hnone
    cases hnone

/-- Every character but a slash stays the last one when the comments are replaced. -/
theorem blankComments_concat (s : Text) {c : Char} (hc : c ≠ '/') :
    blankComments (s ++ [c]) = blankComments s ++ [c] := by
  fun_induction blankComments s with
  | case1 s body rest hclosed _ ih =>
    have hconcat := closedComment?_concat (s := s) hc
    rw [hclosed, Option.map_some] at hconcat
    rw [blankComments]
    split
    · rename_i body' rest' hsome
      rw [hconcat] at hsome
      obtain ⟨rfl, rfl⟩ : body = body' ∧ rest ++ [c] = rest' := by simpa using hsome
      rw [ih, List.cons_append]
    · rename_i hnone
      rw [hconcat] at hnone
      cases hnone
  | case2 hclosed =>
    have hconcat := closedComment?_concat (s := []) hc
    rw [hclosed, List.nil_append] at hconcat
    rw [List.nil_append, blankComments_of_none hconcat, blankComments_nil]
  | case3 d s hclosed ih =>
    have hconcat := closedComment?_concat (s := d :: s) hc
    rw [hclosed, List.cons_append] at hconcat
    rw [List.cons_append, blankComments_of_none hconcat, ih, List.cons_append]

/-- **A line feed behind a directive that ends in a backslash** is nothing but a line feed behind what
the directive says. -/
theorem withoutComments_lineFeed {data : Text} (h : EndsOpen data) :
    EndsOpen (withoutComments data) ∧
      withoutComments (data ++ ['\n']) = withoutComments data ++ ['\n'] := by
  have hlast : ∀ s, ∀ c : Char, c ≠ '/' → isTrailing c = false →
      withoutComments (s ++ [c]) = blankComments (s ++ [c]) := by
    intro s c hc htrailing
    rw [withoutComments, blankComments_concat s hc, Text.trimEnd_concat htrailing]
  rw [hlast data '\n' (by decide) (by decide), blankComments_concat data (by decide)]
  obtain ⟨front, rfl | rfl⟩ := h
  · rw [hlast front '\\' (by decide) (by decide), blankComments_concat front (by decide)]
    exact ⟨⟨_, .inl rfl⟩, rfl⟩
  · have hsplit : front ++ ['\\', '\r'] = front ++ ['\\'] ++ ['\r'] := by simp
    rw [hsplit, hlast _ '\r' (by decide) (by decide), blankComments_concat _ (by decide),
      blankComments_concat front (by decide), List.append_assoc]
    exact ⟨⟨_, .inr rfl⟩, rfl⟩

/-- The keyword does not depend on a blank at the end. -/
theorem keyword_concat {c : Char} (hblank : Text.isBlank c = true) (hword : Text.isWord c = false)
    (data : Text) : keyword (data ++ [c]) = keyword data := by
  have hbehind : ∀ s, Text.word (Text.skipBlanks (s ++ [c])) = Text.word (Text.skipBlanks s) := by
    intro s
    rw [Text.skipBlanks_concat hblank]
    split
    · rename_i hnil
      rw [hnil]
    · exact Text.word_concat hword _
  unfold keyword afterHash?
  rw [Text.skipBlanks_concat hblank]
  cases hskip : Text.skipBlanks data with
  | nil => rfl
  | cons d s =>
    by_cases hd : d = '#'
    · subst hd
      exact hbehind s
    · simp [hd]

/-! ## What stands behind the keyword -/

/-- **What stands behind the keyword of a directive,** and the text up to there. There may be white
space in front of the `#` and behind it, and the keyword is not the beginning of a longer word. -/
structure BehindKeyword (keyword front data behind : Text) : Prop where
  split : data = front ++ behind
  upTo : ∃ indent gap, front = indent ++ '#' :: (gap ++ keyword) ∧
    (∀ c ∈ indent, Text.isBlank c = true) ∧ ∀ c ∈ gap, Text.isBlank c = true
  ends : ∀ c ∈ behind.head?, Text.isWord c = false

section BehindKeyword

variable {word front data behind : Text}

theorem exists_behindKeyword (h : keyword data = word) (hne : word ≠ []) :
    ∃ front behind, BehindKeyword word front data behind := by
  unfold keyword at h
  split at h
  · rename_i s hs
    unfold afterHash? at hs
    split at hs
    · rename_i t ht
      obtain rfl := Option.some.inj hs
      have hdata := List.takeWhile_append_dropWhile (p := Text.isBlank) (l := data)
      have hgap := List.takeWhile_append_dropWhile (p := Text.isBlank) (l := t)
      have hword := List.takeWhile_append_dropWhile (p := Text.isWord) (l := Text.skipBlanks t)
      refine ⟨data.takeWhile Text.isBlank ++ '#' :: (t.takeWhile Text.isBlank ++ word),
        (Text.skipBlanks t).dropWhile Text.isWord, ?_,
        ⟨_, _, rfl, Scan.all_takeWhile, Scan.all_takeWhile⟩, Scan.head?_dropWhile⟩
      rw [List.append_assoc, List.cons_append, List.append_assoc, ← h, Text.word, hword,
        Text.skipBlanks, hgap, ← ht]
      exact hdata.symm
    · cases hs
  · exact absurd h.symm hne

/-- The keyword and what stands behind it are what follows the `#`. -/
theorem BehindKeyword.afterHash?_eq (h : BehindKeyword word front data behind)
    (hletter : ∀ c ∈ word.head?, Text.isBlank c = false) (hne : word ≠ []) :
    afterHash? data = some (word ++ behind) := by
  obtain ⟨rfl, ⟨indent, gap, rfl, hindent, hgap⟩, -⟩ := h
  obtain ⟨first, more, rfl⟩ := List.exists_cons_of_ne_nil hne
  have hstarts : ∀ c ∈ (first :: more ++ behind).head?, Text.isBlank c = false := hletter
  rw [List.append_assoc, List.cons_append, List.append_assoc, afterHash?, Text.skipBlanks,
    (Scan.takeWhile_eq_of_all hindent (Scan.head?_cons_eq_false (by decide) _)).2]
  exact congrArg some (Scan.takeWhile_eq_of_all hgap hstarts).2

theorem BehindKeyword.keyword_eq (h : BehindKeyword word front data behind)
    (hword : ∀ c ∈ word, Text.isWord c = true)
    (hletter : ∀ c ∈ word.head?, Text.isBlank c = false) (hne : word ≠ []) : keyword data = word := by
  rw [keyword, h.afterHash?_eq hletter hne]
  exact (Scan.takeWhile_eq_of_all hword h.ends).1

/-- The argument of an include is what stands behind its keyword, without the white space around it. -/
theorem BehindKeyword.includeArgument_eq (h : BehindKeyword "include" front data behind) :
    includeArgument data = Text.strip behind := by
  have hletter : ∀ c ∈ (String.toList "include").head?, Text.isBlank c = false := by
    rintro c ⟨⟩
    decide
  rw [includeArgument, h.afterHash?_eq hletter (by decide), Option.bind_some,
    Text.after?_eq_some_iff.2 rfl]

end BehindKeyword

/-! ## Includes that end in a backslash -/

/-- The argument of an include is the end of the directive, without the white space around it. -/
theorem exists_append_of_includeArgument {data : Text} (h : includeArgument data ≠ []) :
    ∃ front argument, data = front ++ argument ∧
      includeArgument data = Text.trimEnd Text.isBlank argument := by
  unfold includeArgument at h ⊢
  split at h
  · rename_i argument hargument
    obtain ⟨s, hs, hinclude⟩ := Option.bind_eq_some_iff.1 hargument
    rw [Text.after?_eq_some_iff] at hinclude
    unfold afterHash? at hs
    split at hs
    · rename_i t ht
      have hdata := List.takeWhile_append_dropWhile (p := Text.isBlank) (l := data)
      have hrest := List.takeWhile_append_dropWhile (p := Text.isBlank) (l := t)
      have hstart := List.takeWhile_append_dropWhile (p := Text.isBlank) (l := argument)
      unfold Text.skipBlanks at ht hs
      rw [Option.some.inj hs, hinclude] at hrest
      rw [ht] at hdata
      refine ⟨data.takeWhile Text.isBlank ++ '#' :: (t.takeWhile Text.isBlank ++ "include".toList
        ++ argument.takeWhile Text.isBlank), argument.dropWhile Text.isBlank, ?_, rfl⟩
      rw [List.append_assoc, List.cons_append, List.append_assoc, hstart, List.append_assoc, hrest,
        hdata]
    · cases hs
  · exact absurd rfl h

/-- An argument that asks for something ends in a delimiter. -/
theorem getLast?_of_includeTarget {argument : Text} {target : IncludeTarget}
    (h : includeTarget argument = .ok target) :
    ∃ c, argument.getLast? = some c ∧ c ≠ '\\' := by
  unfold includeTarget at h
  split at h
  · cases h
  · rename_i opening rest
    split at h
    · cases h
    · rename_i expected hexpected
      split at h
      · cases h
      · rename_i last hlast
        split at h
        · cases h
        · rename_i heq
          have hrest : rest ≠ [] := by rintro rfl; cases hlast
          refine ⟨last, by rw [List.getLast?_cons, hlast]; rfl, ?_⟩
          rw [Decidable.not_not.1 heq]
          rintro rfl
          unfold closing? at hexpected
          split at hexpected
          · cases hexpected
          · split at hexpected
            · cases hexpected
            · cases hexpected

/-- **A directive that ends in a backslash asks for nothing.** -/
theorem not_ok_of_endsOpen {data : Text} (h : EndsOpen data) (target : IncludeTarget) :
    includeTarget (includeArgument (data ++ ['\n'])) ≠ .ok target := by
  intro hok
  obtain ⟨c, hlast, hc⟩ := getLast?_of_includeTarget hok
  obtain ⟨front, argument, hsplit, hargument⟩ :=
    exists_append_of_includeArgument fun hnil => by rw [hnil] at hlast; cases hlast
  rw [hargument] at hlast
  obtain ⟨inner, behind, rfl, hblank, hbehind⟩ := Text.exists_append_of_getLast?_trimEnd hlast
  refine hc ?_
  rw [← List.append_assoc] at hsplit
  have hback : Text.isBlank '\\' = false := by decide
  have hline : ∀ d ∈ ['\n'], Text.isBlank d = true := by simp [Text.isBlank]
  have hreturn : ∀ d ∈ ['\r', '\n'], Text.isBlank d = true := by simp [Text.isBlank]
  obtain ⟨start, rfl | rfl⟩ := h
  · rw [List.append_assoc] at hsplit
    exact (Text.eq_of_append_eq hback hblank hline hbehind hsplit).symm
  · rw [List.append_assoc] at hsplit
    exact (Text.eq_of_append_eq hback hblank hreturn hbehind hsplit).symm

end Directive

end GlslCompose
