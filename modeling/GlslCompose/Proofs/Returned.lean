/-
`Proofs/Returned.lean` -- a text, and the same text with carriage returns in front of some
of its line feeds.

Texts come with either kind of line end, and one composed text can hold both, since each
fragment keeps the line ends that it was written with. So the relation between a text and
its other spelling is not a function: `Returned s t` says that `t` is `s` with a carriage
return put in front of some line feeds, and not which.

Nearly everything that is done with a text cannot tell the two characters apart, and then
it takes related texts to related texts: runs and trimming with any class that holds both
or neither (`Returned.takeWhile`, `Returned.trimEnd`), beginnings without a line end in
them (`Returned.after?`), comments, and the keyword of a directive. And related texts
have the same visible lines (`Returned.visibleLines_eq`).

What can tell them apart is how many lines there are. A carriage return put behind another
one is a line by itself, so for a statement about lines one by one it has to be known that
none is (`Paired`).
-/
import Mathlib.Data.List.Forall2
import GlslCompose.Proofs.VisibleLines
import GlslCompose.Proofs.WalkedText

set_option autoImplicit false

namespace GlslCompose

/-! ## Related options -/

section Options

variable {α β γ δ : Type} {related : α → β → Prop} {related' : γ → δ → Prop} {x : Option α}
  {y : Option β}

/-- Of related options both are nothing, or both are something. -/
theorem rel_cases (h : Option.Rel related x y) :
    x = none ∧ y = none ∨ ∃ a b, x = some a ∧ y = some b ∧ related a b := by
  cases h with
  | none => exact .inl ⟨rfl, rfl⟩
  | some h => exact .inr ⟨_, _, rfl, rfl, h⟩

theorem rel_map {f : α → γ} {g : β → δ} (h : Option.Rel related x y)
    (hmap : ∀ a b, related a b → related' (f a) (g b)) : Option.Rel related' (x.map f) (y.map g) := by
  cases h with
  | none => exact .none
  | some h => exact .some (hmap _ _ h)

theorem rel_bind {f : α → Option γ} {g : β → Option δ} (h : Option.Rel related x y)
    (hbind : ∀ a b, related a b → Option.Rel related' (f a) (g b)) :
    Option.Rel related' (x.bind f) (y.bind g) := by
  cases h with
  | none => exact .none
  | some h => exact hbind _ _ h

end Options

namespace Text

/-- A text with a carriage return in front of every line feed. -/
def withReturns (s : Text) : Text := s.flatMap fun c => if c = '\n' then ['\r', '\n'] else [c]

/-- **Carriage returns in front of some line feeds.** The second text has them, and is the first one
otherwise. -/
inductive Returned : Text → Text → Prop
  | nil : Returned [] []
  | same {c : Char} {s t : Text} : Returned s t → Returned (c :: s) (c :: t)
  | feed {s t : Text} : Returned s t → Returned ('\n' :: s) ('\r' :: '\n' :: t)

namespace Returned

variable {s t : Text}

/-! ## Putting together and taking apart -/

theorem refl (s : Text) : Returned s s := by
  induction s with
  | nil => exact .nil
  | cons c s ih => exact .same ih

theorem append {s' t' : Text} (h : Returned s t) (h' : Returned s' t') :
    Returned (s ++ s') (t ++ t') := by
  induction h with
  | nil => exact h'
  | same _ ih => exact .same ih
  | feed _ ih => exact .feed ih

theorem withReturns (s : Text) : Returned s (Text.withReturns s) := by
  induction s with
  | nil => exact .nil
  | cons c s ih =>
    rw [Text.withReturns, List.flatMap_cons]
    by_cases hc : c = '\n'
    · rw [if_pos hc, hc]
      exact .feed ih
    · rw [if_neg hc]
      exact .same ih

theorem exists_of_cons {c : Char} (h : Returned (c :: s) t) :
    (∃ t', t = c :: t' ∧ Returned s t') ∨ c = '\n' ∧ ∃ t', t = '\r' :: '\n' :: t' ∧ Returned s t' := by
  cases h with
  | same h => exact .inl ⟨_, rfl, h⟩
  | feed h => exact .inr ⟨rfl, _, rfl, h⟩

theorem exists_of_cons_of_ne {c : Char} (hc : c ≠ '\n') (h : Returned (c :: s) t) :
    ∃ t', t = c :: t' ∧ Returned s t' := by
  rcases h.exists_of_cons with hsame | ⟨hfeed, -⟩
  · exact hsame
  · exact absurd hfeed hc

theorem exists_of_append {front behind : Text} (h : Returned (front ++ behind) t) :
    ∃ front' behind', t = front' ++ behind' ∧ Returned front front' ∧ Returned behind behind' := by
  induction front generalizing t with
  | nil => exact ⟨[], t, rfl, .nil, h⟩
  | cons c front ih =>
    rcases exists_of_cons h with ⟨u, rfl, hu⟩ | ⟨rfl, u, rfl, hu⟩
    · obtain ⟨front', behind', rfl, hfront, hbehind⟩ := ih hu
      exact ⟨c :: front', behind', rfl, .same hfront, hbehind⟩
    · obtain ⟨front', behind', rfl, hfront, hbehind⟩ := ih hu
      exact ⟨'\r' :: '\n' :: front', behind', rfl, .feed hfront, hbehind⟩

/-- On one line there is nothing to put a carriage return in front of. -/
theorem eq_of_notMem (hs : '\n' ∉ s) (h : Returned s t) : t = s := by
  induction h with
  | nil => rfl
  | same _ ih => rw [ih fun hmem => hs (List.mem_cons_of_mem _ hmem)]
  | feed _ _ => exact absurd List.mem_cons_self hs

theorem exists_of_append_of_notMem {front behind : Text} (hfront : '\n' ∉ front)
    (h : Returned (front ++ behind) t) : ∃ behind', t = front ++ behind' ∧ Returned behind behind' := by
  obtain ⟨front', behind', rfl, hrel, hbehind⟩ := h.exists_of_append
  rw [hrel.eq_of_notMem hfront]
  exact ⟨behind', rfl, hbehind⟩

theorem exists_of_cons_right {c : Char} (hc : c ≠ '\r') (h : Returned s (c :: t)) :
    ∃ s', s = c :: s' ∧ Returned s' t := by
  cases h with
  | same h => exact ⟨_, rfl, h⟩
  | feed _ => exact absurd rfl hc

/-- Where the other text starts without a carriage return, both start the same way. -/
theorem exists_of_append_right {front behind : Text} (hfront : '\r' ∉ front)
    (h : Returned s (front ++ behind)) : ∃ behind', s = front ++ behind' ∧ Returned behind' behind := by
  induction front generalizing s with
  | nil => exact ⟨s, rfl, h⟩
  | cons c front ih =>
    rw [List.mem_cons, not_or] at hfront
    obtain ⟨s', rfl, hs⟩ := exists_of_cons_right (Ne.symm hfront.1) h
    obtain ⟨behind', rfl, hbehind⟩ := ih hfront.2 hs
    exact ⟨behind', rfl, hbehind⟩

theorem eq_nil_iff (h : Returned s t) : t = [] ↔ s = [] := by cases h <;> simp

/-- In front of a text the two differ only where one starts with a line feed. -/
theorem head?_cases (h : Returned s t) :
    t.head? = s.head? ∨ s.head? = some '\n' ∧ t.head? = some '\r' := by
  cases h with
  | nil => exact .inl rfl
  | same _ => exact .inl rfl
  | feed _ => exact .inr ⟨rfl, rfl⟩

theorem head?_of_ne (h : Returned s t) (hs : s.head? ≠ some '\n') : t.head? = s.head? := by
  rcases h.head?_cases with heq | ⟨hfeed, -⟩
  · exact heq
  · exact absurd hfeed hs

theorem head?_ne (h : Returned s t) {c : Char} (hc : c ≠ '\r') (hs : s.head? ≠ some c) :
    t.head? ≠ some c := by
  rcases h.head?_cases with heq | ⟨-, hreturn⟩
  · rwa [heq]
  · rw [hreturn]
    exact fun heq => hc (Option.some.inj heq).symm

theorem getLast? (h : Returned s t) : t.getLast? = s.getLast? := by
  induction h with
  | nil => rfl
  | same _ ih => rw [List.getLast?_cons, List.getLast?_cons, ih]
  | feed _ ih => rw [List.getLast?_cons, List.getLast?_cons, List.getLast?_cons, ih]; rfl

theorem count_lineFeed (h : Returned s t) : t.count '\n' = s.count '\n' := by
  induction h with
  | nil => rfl
  | same _ ih => rw [List.count_cons, List.count_cons, ih]
  | feed _ ih =>
    rw [List.count_cons_of_ne (by decide), List.count_cons_self, List.count_cons_self, ih]

theorem count_of_lineFeed (h : Returned (s ++ ['\n']) (t ++ ['\n'])) :
    t.count '\n' = s.count '\n' := by
  have hcount := h.count_lineFeed
  rw [List.count_append, List.count_append] at hcount
  exact Nat.add_right_cancel hcount

/-! ## Classes of characters -/

section Class

variable {p : Char → Bool}

theorem all_eq (hp : p '\r' = p '\n') (h : Returned s t) : t.all p = s.all p := by
  induction h with
  | nil => rfl
  | same _ ih => rw [List.all_cons, List.all_cons, ih]
  | feed _ ih => rw [List.all_cons, List.all_cons, List.all_cons, ih, hp, ← Bool.and_assoc, Bool.and_self]

theorem takeWhile (hp : p '\r' = p '\n') (h : Returned s t) :
    Returned (s.takeWhile p) (t.takeWhile p) := by
  induction h with
  | nil => exact .nil
  | @same c _ _ _ ih =>
    rw [List.takeWhile_cons, List.takeWhile_cons]
    split
    · exact .same ih
    · exact .nil
  | feed _ ih =>
    rw [List.takeWhile_cons, List.takeWhile_cons, List.takeWhile_cons, hp]
    split
    · exact .feed ih
    · exact .nil

theorem dropWhile (hp : p '\r' = p '\n') (h : Returned s t) :
    Returned (s.dropWhile p) (t.dropWhile p) := by
  induction h with
  | nil => exact .nil
  | @same c _ _ hrest ih =>
    rw [List.dropWhile_cons, List.dropWhile_cons]
    split
    · exact ih
    · exact .same hrest
  | feed hrest ih =>
    rw [List.dropWhile_cons, List.dropWhile_cons, List.dropWhile_cons, hp]
    split
    · exact ih
    · exact .feed hrest

theorem trimEnd (hp : p '\r' = p '\n') (h : Returned s t) :
    Returned (Text.trimEnd p s) (Text.trimEnd p t) := by
  have hcons : ∀ (c : Char) (u : Text), Text.trimEnd p (c :: u)
      = if Text.trimEnd p u = [] ∧ p c = true then [] else c :: Text.trimEnd p u := by
    intro c u
    rw [Text.trimEnd]
    cases Text.trimEnd p u with
    | nil => simp
    | cons d v => simp
  induction h with
  | nil => exact .nil
  | same _ ih =>
    simp only [hcons, ih.eq_nil_iff]
    split
    · exact .nil
    · exact .same ih
  | feed _ ih =>
    simp only [hcons, hp, ih.eq_nil_iff]
    split
    · rename_i hboth
      rw [if_pos ⟨rfl, hboth.2⟩]
      exact .nil
    · rw [if_neg fun hnil => List.cons_ne_nil _ _ hnil.1]
      exact .feed ih

end Class

theorem skipBlanks (h : Returned s t) : Returned (Text.skipBlanks s) (Text.skipBlanks t) :=
  h.dropWhile (by decide)

theorem strip (h : Returned s t) : Returned (Text.strip s) (Text.strip t) := h.skipBlanks.trimEnd (by decide)

theorem isBlankText_eq (h : Returned s t) : isBlankText t = isBlankText s := h.all_eq (by decide)

theorem word_eq (h : Returned s t) : word t = word s := by
  apply eq_of_notMem _ (h.takeWhile (by decide))
  intro hmem
  exact absurd (Scan.all_takeWhile _ hmem) (by decide)

/-- A beginning without a line end in it is cut off both texts or off none. -/
theorem after? {lead : Text} (hfeed : '\n' ∉ lead) (hreturn : '\r' ∉ lead) (h : Returned s t) :
    Option.Rel Returned (Text.after? lead s) (Text.after? lead t) := by
  induction lead generalizing s t with
  | nil => exact .some h
  | cons c lead ih =>
    rw [List.mem_cons, not_or] at hfeed hreturn
    cases h with
    | nil => exact .none
    | @same d s t h =>
      rw [Text.after?, Text.after?]
      split
      · exact ih hfeed.2 hreturn.2 h
      · exact .none
    | feed _ =>
      rw [Text.after?, Text.after?, if_neg (Ne.symm hfeed.1), if_neg (Ne.symm hreturn.1)]
      exact .none

/-! ## Visible lines -/

/-- **Related texts have the same visible lines.** -/
theorem visibleLines_eq (h : Returned s t) : visibleLines t = visibleLines s := by
  -- The induction is on the texts behind the start of a line.
  suffices hline : ∀ line, visibleLines (line ++ t) = visibleLines (line ++ s) from hline []
  have hreturn : isLineBreak '\r' = true := by decide
  induction h with
  | nil => exact fun _ => rfl
  | @same c s t _ ih =>
    intro line
    have hnext := ih (line ++ [c])
    rwa [List.append_assoc, List.append_assoc] at hnext
  | @feed s t _ ih =>
    intro line
    have hempty := visibleLines_append_lineFeed [] t
    rw [visibleLines_append_break hreturn, visibleLines_append_lineFeed]
    rw [List.nil_append] at hempty
    rw [hempty, show visibleLines t = visibleLines s from ih []]
    rfl

end Returned

/-! ## Line by line -/

/-- What does not start with two characters is read one by one. -/
theorem ne_pair {c d e : Char} {s : Text} (h : c = d → s.head? ≠ some e) (t : Text) (hc : c = d)
    (hs : s = e :: t) : False :=
  h hc (by rw [hs]; rfl)

/-- **Carriage returns in front of some line feeds, none of them behind a carriage return.** -/
inductive Paired : Text → Text → Prop
  | nil : Paired [] []
  | same {c : Char} {s t : Text} : (c = '\r' → t.head? = s.head?) → Paired s t → Paired (c :: s) (c :: t)
  | feed {s t : Text} : Paired s t → Paired ('\n' :: s) ('\r' :: '\n' :: t)

namespace Paired

variable {s t : Text}

theorem returned (h : Paired s t) : Returned s t := by
  induction h with
  | nil => exact .nil
  | same _ _ ih => exact .same ih
  | feed _ ih => exact .feed ih

theorem refl (s : Text) : Paired s s := by
  induction s with
  | nil => exact .nil
  | cons c s ih => exact .same (fun _ => rfl) ih

/-- Two texts stand behind two others, if none of the carriage returns comes to stand behind one. -/
theorem append {s' t' : Text} (h : Paired s t) (h' : Paired s' t')
    (hjoin : s.getLast? = some '\r' → t'.head? = s'.head?) : Paired (s ++ s') (t ++ t') := by
  induction h with
  | nil => exact h'
  | @same c s t hc h ih =>
    have hlast : s ≠ [] → (c :: s).getLast? = s.getLast? := by
      intro hs
      obtain ⟨d, u, rfl⟩ := List.exists_cons_of_ne_nil hs
      rfl
    refine .same (fun hreturn => ?_) (ih fun hs => hjoin ?_)
    -- What follows a carriage return is in the first text, or is the start of the second.
    · by_cases hs : s = []
      · subst hs hreturn
        rw [h.returned.eq_nil_iff.2 rfl]
        exact hjoin rfl
      · have ht : t ≠ [] := fun ht => hs (h.returned.eq_nil_iff.1 ht)
        show (t ++ t').head? = (s ++ s').head?
        rw [List.head?_append_of_ne_nil _ ht, List.head?_append_of_ne_nil _ hs]
        exact hc hreturn
    · rw [hlast (by rintro rfl; cases hs)]
      exact hs
  | @feed s t _ ih =>
    refine .feed (ih fun hs => hjoin ?_)
    rw [List.getLast?_cons, hs]
    rfl

end Paired

/-- Where there is no carriage return yet, none is put behind one. -/
theorem Returned.paired {s t : Text} (h : Returned s t) (hs : '\r' ∉ s) : Paired s t := by
  induction h with
  | nil => exact .nil
  | same _ ih =>
    rw [List.mem_cons, not_or] at hs
    exact .same (fun hc => absurd hc.symm hs.1) (ih hs.2)
  | feed _ ih => exact .feed (ih fun hmem => hs (List.mem_cons_of_mem _ hmem))

/-- **Paired texts have the same lines,** one by one, but for the line feeds. -/
theorem Paired.lineParts {s t : Text} (h : Paired s t) :
    List.Forall₂ Returned (Text.lineParts s) (Text.lineParts t) := by
  have hfeed : ∀ u, Text.lineParts ('\n' :: u) = ['\n'] :: Text.lineParts u := by
    intro u
    rw [Text.lineParts.eq_def]
    simp [isLineBreak]
  have hpair : ∀ u, Text.lineParts ('\r' :: '\n' :: u) = ['\r', '\n'] :: Text.lineParts u := by
    exact Text.lineParts.eq_2
  induction h with
  | nil => exact .nil
  | feed _ ih =>
    rw [hfeed, hpair]
    exact .cons (.feed .nil) ih
  | @same c s t hc h ih =>
    by_cases hbreak : c = '\r' ∧ s.head? = some '\n'
    · -- A carriage return with its line feed is one break in both texts.
      obtain ⟨rfl, hs⟩ := hbreak
      have ht := hc rfl
      rw [hs] at ht
      obtain ⟨s', rfl⟩ := List.head?_eq_some_iff.1 hs
      obtain ⟨t', rfl⟩ := List.head?_eq_some_iff.1 ht
      rw [hfeed, hfeed] at ih
      rw [hpair, hpair]
      exact .cons (.refl _) (List.forall₂_cons.1 ih).2
    · have hs : c = '\r' → s.head? ≠ some '\n' := fun hreturn hhead => hbreak ⟨hreturn, hhead⟩
      have ht : c = '\r' → t.head? ≠ some '\n' := fun hreturn => by
        rw [hc hreturn]
        exact hs hreturn
      rw [Text.lineParts.eq_3 c s (ne_pair hs), Text.lineParts.eq_3 c t (ne_pair ht)]
      split
      · exact .cons (.refl _) ih
      · generalize Text.lineParts s = parts at ih
        generalize Text.lineParts t = parts' at ih
        cases ih with
        | nil => exact .cons (.refl _) .nil
        | cons hl hls => exact .cons (.same hl) hls

end Text

end GlslCompose
