/-
`Proofs/DirectiveExtent.lean` -- how far a directive reaches, and what of the text behind
it takes part in that.

A directive goes on over line breaks behind a backslash and over closed comments, and it
ends in front of a line feed, a line comment or a block comment that is never closed. So
its end can move when the text behind it changes, in three ways. A slash or a backslash
at the end may now belong to what follows; that cannot happen while what follows starts
with the same character (`Extent.of_head`). A comment that was open may be closed by the
new text. And a directive that reached the end of the text with a backslash takes a line
feed that is put there, and with it whatever goes on from there
(`Extent.lineFeed_cases`).

The last case is the one that matters where a fragment is spliced into a text, because
fragments are scanned in front of a line feed of their own.
-/
import GlslCompose.Proofs.Reading

set_option autoImplicit false

namespace GlslCompose.Scan

/-! ## One piece -/

/-- **A place where a directive ends:** the end of the text, a line feed, a line comment, or a block
comment that is never closed. -/
def Edge (s : Text) : Prop := directivePiece? s = none

/-- What a directive goes on with. `Continues piece rest` says that it takes `piece` in front of
`rest`. -/
inductive Continues : Text → Text → Prop
  /-- A line feed behind a backslash. -/
  | lineBreak {rest : Text} : Continues ['\\', '\n'] rest
  /-- A carriage return and a line feed behind a backslash. -/
  | returnBreak {rest : Text} : Continues ['\\', '\r', '\n'] rest
  /-- A backslash that stands before no line break. -/
  | backslash {rest : Text} : rest.head? ≠ some '\n' → (∀ t, rest ≠ '\r' :: '\n' :: t) →
      Continues ['\\'] rest
  /-- A block comment that is closed. -/
  | comment {body rest : Text} : closeComment? body = some (body, []) →
      Continues ('/' :: '*' :: body) rest
  /-- A slash that opens no comment. -/
  | slash {rest : Text} : rest.head? ≠ some '/' → rest.head? ≠ some '*' → Continues ['/'] rest
  /-- Any other character. -/
  | char {c : Char} {rest : Text} : c ≠ '\n' → c ≠ '\\' → c ≠ '/' → Continues [c] rest

theorem continues_of_directivePiece? {s piece rest : Text}
    (h : directivePiece? s = some (piece, rest)) : Continues piece rest := by
  unfold directivePiece? at h
  split at h
  · cases h
  · rename_i c s
    by_cases hfeed : c = '\n'
    · simp [hfeed] at h
    by_cases hback : c = '\\'
    · -- A backslash escapes a line feed, or one behind a carriage return, or else stands for itself.
      subst hback
      simp only [hfeed, if_false, if_true] at h
      split at h
      · obtain ⟨rfl, rfl⟩ : _ ∧ _ = rest := by simpa [eq_comm] using h
        exact .lineBreak
      · obtain ⟨rfl, rfl⟩ : _ ∧ _ = rest := by simpa [eq_comm] using h
        exact .returnBreak
      · rename_i hline hreturn
        obtain ⟨rfl, rfl⟩ : _ ∧ _ = rest := by simpa [eq_comm] using h
        refine .backslash (fun hhead => ?_) hreturn
        obtain ⟨t, ht⟩ := List.head?_eq_some_iff.1 hhead
        exact hline t ht
    by_cases hslash : c = '/'
    · -- A line comment ends the directive, and a block comment is a piece of it where it is closed.
      subst hslash
      simp only [hfeed, hback, if_false, if_true] at h
      split at h
      · cases h
      · simp only [Option.map_eq_some_iff, Prod.exists, Prod.mk.injEq] at h
        obtain ⟨body, rest', hclose, rfl, rfl⟩ := h
        exact .comment (closeComment?_body hclose)
      · rename_i hline hblock
        obtain ⟨rfl, rfl⟩ : _ ∧ _ = rest := by simpa [eq_comm] using h
        refine .slash (fun hhead => ?_) fun hhead => ?_
        · obtain ⟨t, ht⟩ := List.head?_eq_some_iff.1 hhead
          exact hline t ht
        · obtain ⟨t, ht⟩ := List.head?_eq_some_iff.1 hhead
          exact hblock t ht
    · simp only [hfeed, hback, hslash, if_false] at h
      obtain ⟨rfl, rfl⟩ : _ ∧ _ = rest := by simpa [eq_comm] using h
      exact .char hfeed hback hslash

theorem directivePiece?_of_continues {piece rest : Text} (h : Continues piece rest) :
    directivePiece? (piece ++ rest) = some (piece, rest) := by
  cases h with
  | lineBreak => rfl
  | returnBreak => rfl
  | backslash hline hreturn =>
    simp only [List.singleton_append, directivePiece?]
    split
    · rename_i heq
      simp at heq
    · simp only [if_true]
      split
      · simp at hline
      · exact absurd rfl (hreturn _)
      · rfl
  | comment hclose =>
    have hbody := closeComment?_append (t := rest) hclose
    simp only [List.nil_append] at hbody
    simp [directivePiece?, hbody]
  | slash hline hblock =>
    simp only [List.singleton_append, directivePiece?]
    split
    · rename_i heq
      simp at heq
    · split
      · rename_i heq
        simp at heq
      · simp only [if_true]
        split
        · simp at hline
        · simp at hblock
        · rfl
  | char hfeed hback hslash => simp [directivePiece?, hfeed, hback, hslash]

theorem edge_nil : Edge [] := rfl

theorem edge_lineFeed (s : Text) : Edge ('\n' :: s) := rfl

/-- Where a directive ends. -/
theorem edge_iff {s : Text} : Edge s ↔ s = [] ∨ s.head? = some '\n' ∨ (∃ t, s = '/' :: '/' :: t) ∨
    ∃ t, s = '/' :: '*' :: t ∧ closeComment? t = none := by
  constructor
  · intro h
    match s with
    | [] => exact .inl rfl
    | c :: s =>
      by_cases hfeed : c = '\n'
      · exact .inr (.inl (by rw [hfeed]; rfl))
      by_cases hback : c = '\\'
      · subst hback
        simp only [Edge, directivePiece?, hfeed, if_false, if_true] at h
        split at h <;> cases h
      by_cases hslash : c = '/'
      · subst hslash
        simp only [Edge, directivePiece?, hfeed, hback, if_false, if_true] at h
        split at h
        · exact .inr (.inr (.inl ⟨_, rfl⟩))
        · exact .inr (.inr (.inr ⟨_, rfl, Option.map_eq_none_iff.1 h⟩))
        · cases h
      · simp only [Edge, directivePiece?, hfeed, hback, hslash, if_false] at h
        cases h
  · rintro (rfl | hfeed | ⟨t, rfl⟩ | ⟨t, rfl, hopen⟩)
    · exact edge_nil
    · obtain ⟨t, rfl⟩ := List.head?_eq_some_iff.1 hfeed
      exact edge_lineFeed t
    · rfl
    · simp [Edge, directivePiece?, hopen]

/-! ## The whole directive -/

/-- **How far a directive reaches.** `Extent body rest` says that what follows a `#` in the text
`body ++ rest` is `body`, as far as it belongs to the directive. -/
inductive Extent : Text → Text → Prop
  | ends {rest : Text} : Edge rest → Extent [] rest
  | goesOn {piece body rest : Text} : Continues piece (body ++ rest) → Extent body rest →
      Extent (piece ++ body) rest

theorem Extent.edge {body rest : Text} (h : Extent body rest) : Edge rest := by
  induction h with
  | ends hedge => exact hedge
  | goesOn _ _ ih => exact ih

theorem extent_directiveBody (s : Text) : Extent (directiveBody s).1 (directiveBody s).2 := by
  fun_induction directiveBody s with
  | case1 s hedge => exact .ends hedge
  | case2 s piece rest hpiece _ body behind hbody ih =>
    rw [hbody] at ih
    refine .goesOn ?_ ih
    have hsplit := directiveBody_split rest
    rw [hbody] at hsplit
    rw [← hsplit]
    exact continues_of_directivePiece? hpiece

theorem directiveBody_of_extent {body rest : Text} (h : Extent body rest) :
    directiveBody (body ++ rest) = (body, rest) := by
  induction h with
  | @ends rest hedge =>
    rw [List.nil_append, directiveBody]
    split
    · rfl
    · rename_i hpiece
      rw [show directivePiece? rest = none from hedge] at hpiece
      cases hpiece
  | @goesOn piece body rest hpiece _ ih =>
    have hp := directivePiece?_of_continues hpiece
    rw [List.append_assoc, directiveBody]
    split
    · rename_i hnone
      rw [hp] at hnone
      cases hnone
    · rename_i piece' rest' hsome
      rw [hp] at hsome
      obtain ⟨rfl, rfl⟩ : piece = piece' ∧ body ++ rest = rest' := by simpa using hsome
      rw [ih]

/-- A blank that may stand before the `#` of a directive. -/
def isIndent (c : Char) : Bool := c == ' ' || c == '\t'

theorem directive?_eq (s : Text) : directive? s =
    match s.dropWhile isIndent with
    | '#' :: t => some (s.takeWhile isIndent ++ '#' :: (directiveBody t).1, (directiveBody t).2)
    | _ => none := rfl

/-- **The directives.** Blanks and tabs, a `#`, and as much of what follows as belongs to it. -/
theorem directive?_eq_some_iff {s data rest : Text} : directive? s = some (data, rest) ↔
    s = data ++ rest ∧ ∃ indent body, (∀ c ∈ indent, isIndent c = true) ∧
      data = indent ++ '#' :: body ∧ Extent body rest := by
  constructor
  · intro h
    refine ⟨(directive?_split h).1, ?_⟩
    rw [directive?_eq] at h
    split at h
    · rename_i t _
      obtain ⟨rfl, rfl⟩ : _ ∧ _ = rest := by simpa using h
      exact ⟨_, _, all_takeWhile, rfl, extent_directiveBody t⟩
    · cases h
  · rintro ⟨rfl, indent, body, hindent, rfl, hextent⟩
    have hhash : ∀ c ∈ ('#' :: (body ++ rest)).head?, isIndent c = false := by simp [isIndent]
    obtain ⟨htake, hdrop⟩ := takeWhile_eq_of_all hindent hhash
    simp [directive?_eq, htake, hdrop, directiveBody_of_extent hextent]

/-- A text starts with no directive when the first character behind its blanks and tabs is no
`#`. -/
theorem directive?_eq_none_iff {s : Text} :
    directive? s = none ↔ (s.dropWhile isIndent).head? ≠ some '#' := by
  rw [directive?_eq]
  split
  · rename_i heq
    simp [heq]
  · rename_i hne
    simp only [true_iff]
    intro hhead
    obtain ⟨t, ht⟩ := List.head?_eq_some_iff.1 hhead
    exact hne t ht

/-! ## In front of another text -/

/-- A directive ends in the same place in front of a text that starts with the same character, if it
may end there at all. -/
theorem Extent.of_head {body rest t : Text} (h : Extent body rest) (hedge : Edge t)
    (hhead : t.head? = rest.head?) : Extent body t := by
  induction h with
  | ends _ => exact .ends hedge
  | @goesOn piece body rest hpiece _ ih =>
    refine .goesOn ?_ (ih hhead)
    have hheads : (body ++ t).head? = (body ++ rest).head? := by
      simp only [List.head?_append, hhead]
    cases hpiece with
    | lineBreak => exact .lineBreak
    | returnBreak => exact .returnBreak
    | backslash hline hreturn =>
      refine .backslash (hheads ▸ hline) fun u heq => ?_
      match body with
      | [] =>
        -- No directive ends in front of a carriage return.
        rw [List.nil_append] at heq
        subst heq
        cases hedge
      | [c] =>
        obtain ⟨rfl, rfl⟩ : c = '\r' ∧ t = '\n' :: u := by simpa using heq
        obtain ⟨v, rfl⟩ := List.head?_eq_some_iff.1 hhead.symm
        exact hreturn v rfl
      | c :: d :: body =>
        obtain ⟨rfl, rfl, -⟩ : c = '\r' ∧ d = '\n' ∧ body ++ t = u := by simpa using heq
        exact hreturn (body ++ rest) rfl
    | comment hclose => exact .comment hclose
    | slash hline hblock => exact .slash (hheads ▸ hline) (hheads ▸ hblock)
    | char hfeed hback hslash => exact .char hfeed hback hslash

/-- Whether what belongs to a directive ends in a backslash, or in a backslash and a carriage
return. A line feed behind it belongs to it then. -/
def EndsOpen (body : Text) : Prop := ∃ front, body = front ++ ['\\'] ∨ body = front ++ ['\\', '\r']

instance (body : Text) : Decidable (EndsOpen body) :=
  decidable_of_iff (['\\'] <:+ body ∨ ['\\', '\r'] <:+ body) <| by
    simp only [EndsOpen, List.IsSuffix, exists_or, eq_comm]

theorem EndsOpen.append {body : Text} (h : EndsOpen body) (piece : Text) :
    EndsOpen (piece ++ body) := by
  obtain ⟨front, rfl | rfl⟩ := h
  · exact ⟨piece ++ front, .inl (by rw [List.append_assoc])⟩
  · exact ⟨piece ++ front, .inr (by rw [List.append_assoc])⟩

/-- A line feed at the end of the text changes what a directive goes on with only if it comes to
stand behind a backslash. -/
theorem Continues.lineFeed {piece rest : Text} (h : Continues piece rest)
    (hback : piece = ['\\'] → rest ≠ [] ∧ rest ≠ ['\r']) (t : Text) :
    Continues piece (rest ++ '\n' :: t) := by
  have hhead : ∀ d, d ≠ '\n' → rest.head? ≠ some d → (rest ++ '\n' :: t).head? ≠ some d := by
    intro d hd hrest
    cases rest with
    | nil => simpa [eq_comm] using hd
    | cons c rest => exact hrest
  cases h with
  | lineBreak => exact .lineBreak
  | returnBreak => exact .returnBreak
  | backslash hline hreturn =>
    obtain ⟨hnil, hone⟩ := hback rfl
    match rest with
    | [] => exact absurd rfl hnil
    | [c] =>
      refine .backslash hline fun u heq => hone ?_
      rw [(List.cons.inj heq).1]
    | c :: d :: rest =>
      refine .backslash hline fun u heq => ?_
      obtain ⟨rfl, rfl, -⟩ : c = '\r' ∧ d = '\n' ∧ rest ++ '\n' :: t = u := by simpa using heq
      exact hreturn rest rfl
  | comment hclose => exact .comment hclose
  | slash hline hblock =>
    exact .slash (hhead '/' (by decide) hline) (hhead '*' (by decide) hblock)
  | char hfeed hchar hslash => exact .char hfeed hchar hslash

/-- **A line feed behind a directive** that reached the end of the text ends it, unless the
directive ends in a backslash. Then the line feed belongs to the directive, and it ends behind it,
if it may end there. -/
theorem Extent.lineFeed_cases {body : Text} (h : Extent body []) :
    (∀ t, Extent body ('\n' :: t)) ∨
      EndsOpen body ∧ ∀ t, Edge t → Extent (body ++ ['\n']) t := by
  generalize hrest : ([] : Text) = rest at h
  induction h with
  | ends _ => exact .inl fun t => .ends (edge_lineFeed t)
  | @goesOn piece body rest hpiece _ ih =>
    subst hrest
    rw [List.append_nil] at hpiece
    by_cases hback : piece = ['\\'] ∧ (body = [] ∨ body = ['\r'])
    · obtain ⟨rfl, rfl | rfl⟩ := hback
      · have hbreak : ∀ t, Edge t → Extent (['\\', '\n'] ++ []) t := fun t ht =>
          .goesOn .lineBreak (.ends ht)
        exact .inr ⟨⟨[], .inl rfl⟩, hbreak⟩
      · have hbreak : ∀ t, Edge t → Extent (['\\', '\r', '\n'] ++ []) t := fun t ht =>
          .goesOn .returnBreak (.ends ht)
        exact .inr ⟨⟨[], .inr rfl⟩, hbreak⟩
    · have hpiece' : ∀ t, Continues piece (body ++ '\n' :: t) := by
        refine hpiece.lineFeed fun hp => ⟨fun hnil => ?_, fun hone => ?_⟩
        · exact hback ⟨hp, .inl hnil⟩
        · exact hback ⟨hp, .inr hone⟩
      rcases ih rfl with hnext | ⟨hopen, hnext⟩
      · exact .inl fun t => .goesOn (hpiece' t) (hnext t)
      · refine .inr ⟨hopen.append piece, fun t ht => ?_⟩
        rw [List.append_assoc]
        refine .goesOn ?_ (hnext t ht)
        rw [List.append_assoc]
        exact hpiece' t

end GlslCompose.Scan
