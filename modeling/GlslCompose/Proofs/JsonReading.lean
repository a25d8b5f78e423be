/-
`Proofs/JsonReading.lean` -- JSON texts can be read in one way only.

A key is the digest of the JSON text of everything a compiled text depends on, so
two different keys are as good as their JSON texts are different. What has to be
shown is that the text determines the value, and it is shown part by part from the
left: where two texts agree that start with the JSON texts of two strings, the
strings are the same and so is what follows them. Stated with what follows, the
lemmas for the parts chain up to one for a whole list without any talk of positions.

Strings are the part with an argument in it. A character is written as itself, as a
backslash and a letter, as a backslash, `u` and four digits, or, above U+FFFF, as two
of the latter (`jsonChar_cases`). The first three tell themselves apart by their
first two characters. The fourth differs from the third because its first number
belongs to a surrogate, and no character has such a number.

Of all values only a string is written with a quotation mark in front
(`eq_text_of_json_quote`). That is what makes the names in a list of defines
readable although nothing says beforehand that they are texts.
-/
import GlslCompose.Value.Json

set_option autoImplicit false

namespace GlslCompose

/-! ## Digits -/

namespace Text

theorem digit_injective : ∀ n < 16, ∀ m < 16, digit n = digit m → n = m := by decide

/-- The last digits of a number are read back up to what they do not show of it. -/
theorem hex_append_inj {width n m : Nat} {r s : Text} (h : hex width n ++ r = hex width m ++ s) :
    n % Nat.pow 16 width = m % Nat.pow 16 width ∧ r = s := by
  induction width generalizing n m r s with
  | zero => exact ⟨(Nat.mod_one n).trans (Nat.mod_one m).symm, h⟩
  | succ width ih =>
    simp only [hex, List.append_assoc, List.singleton_append] at h
    obtain ⟨hhigh, hlow⟩ := ih h
    obtain ⟨hdigit, hrest⟩ := List.cons.inj hlow
    have hlast := digit_injective _ (Nat.mod_lt _ (by decide)) _ (Nat.mod_lt _ (by decide)) hdigit
    refine ⟨?_, hrest⟩
    have hpow : Nat.pow 16 (width + 1) = 16 * Nat.pow 16 width := Nat.mul_comm _ _
    rw [hpow, Nat.mod_mul, Nat.mod_mul, hlast, hhigh]

/-- A numeral holds nothing but decimal digits. -/
theorem isDigit_of_mem_ofNat (n : Nat) : ∀ c ∈ ofNat n, c.isDigit = true := by
  have hdigit : ∀ d < 10, (digit d).isDigit = true := by decide
  induction n using Nat.strongRecOn with
  | ind n ih =>
    rw [ofNat]
    split
    · rename_i hlt
      intro c hc
      rw [List.mem_singleton.1 hc]
      exact hdigit n hlt
    · rename_i hge
      intro c hc
      rcases List.mem_append.1 hc with hc | hc
      · exact ih (n / 10) (by omega) c hc
      · rw [List.mem_singleton.1 hc]
        exact hdigit _ (Nat.mod_lt _ (by decide))

theorem ofNat_ne_nil (n : Nat) : ofNat n ≠ [] := by
  rw [ofNat]
  split
  · exact List.cons_ne_nil _ _
  · exact List.append_ne_nil_of_right_ne_nil _ (List.cons_ne_nil _ _)

theorem ofNat_injective {n m : Nat} (h : ofNat n = ofNat m) : n = m := by
  induction n using Nat.strongRecOn generalizing m with
  | ind n ih =>
    -- One digit or more than one: the lengths tell the cases apart, and else the last digit is the same.
    have hlen := fun k => List.length_pos_iff.2 (ofNat_ne_nil k)
    rw [ofNat, ofNat.eq_1 m] at h
    by_cases hn : n < 10
    · by_cases hm : m < 10
      · rw [if_pos hn, if_pos hm] at h
        exact digit_injective n (by omega) m (by omega) (List.cons.inj h).1
      · rw [if_pos hn, if_neg hm] at h
        have := congrArg List.length h
        simp only [List.length_cons, List.length_nil, List.length_append] at this
        have := hlen (m / 10)
        omega
    · by_cases hm : m < 10
      · rw [if_neg hn, if_pos hm] at h
        have := congrArg List.length h
        simp only [List.length_cons, List.length_nil, List.length_append] at this
        have := hlen (n / 10)
        omega
      · rw [if_neg hn, if_neg hm] at h
        obtain ⟨hhigh, hlow⟩ := List.append_inj' h rfl
        have hdiv := ih (n / 10) (by omega) hhigh
        have hmod := digit_injective _ (by omega) _ (by omega) (List.cons.inj hlow).1
        omega

/-- A numeral in front of something that is no digit is read back. -/
theorem ofNat_append_inj {n m : Nat} {sep : Char} {r s : Text} (hsep : sep.isDigit = false)
    (h : ofNat n ++ sep :: r = ofNat m ++ sep :: s) : n = m ∧ r = s := by
  have hcut : ∀ (k : Nat) (t : Text), (ofNat k ++ sep :: t).takeWhile Char.isDigit = ofNat k := by
    intro k t
    rw [List.takeWhile_append_of_pos (isDigit_of_mem_ofNat k), List.takeWhile_cons, hsep]
    simp
  have hnumeral : ofNat n = ofNat m := by rw [← hcut n r, h, hcut m s]
  rw [hnumeral] at h
  exact ⟨ofNat_injective hnumeral, (List.cons.inj (List.append_cancel_left h)).2⟩

end Text

namespace Value

/-! ## Strings -/

/-- The character that a letter behind a backslash stands for. -/
def afterBackslash (letter : Char) : Char :=
  if letter = 'n' then '\n'
  else if letter = 'r' then '\r'
  else if letter = 't' then '\t'
  else if letter = 'b' then Char.ofNat 8
  else if letter = 'f' then Char.ofNat 12
  else letter

/-- **The four ways to write a character in a string.** -/
theorem jsonChar_cases (c : Char) :
    (jsonChar c = [c] ∧ c ≠ '\\' ∧ c ≠ '\x22') ∨
    (∃ letter, jsonChar c = ['\\', letter] ∧ letter ≠ 'u' ∧ afterBackslash letter = c) ∨
    (c.toNat < 0x10000 ∧ jsonChar c = jsonUnit c.toNat) ∨
    (0x10000 ≤ c.toNat ∧ jsonChar c = jsonUnit (0xD800 + (c.toNat - 0x10000) / 1024) ++
      jsonUnit (0xDC00 + (c.toNat - 0x10000) % 1024)) := by
  have hchar : ∀ n, c.toNat = n → Char.ofNat n = c := fun n hn => hn ▸ Char.ofNat_toNat c
  unfold jsonChar
  by_cases hquote : c = '\x22'
  · exact .inr (.inl ⟨'\x22', by simp [hquote], by decide, by rw [hquote]; decide⟩)
  by_cases hslash : c = '\\'
  · exact .inr (.inl ⟨'\\', by simp [hslash], by decide, by rw [hslash]; decide⟩)
  by_cases hfeed : c = '\n'
  · exact .inr (.inl ⟨'n', by simp [hfeed], by decide, by rw [hfeed]; decide⟩)
  by_cases hreturn : c = '\r'
  · exact .inr (.inl ⟨'r', by simp [hreturn], by decide, by rw [hreturn]; decide⟩)
  by_cases htab : c = '\t'
  · exact .inr (.inl ⟨'t', by simp [htab], by decide, by rw [htab]; decide⟩)
  simp only [if_neg hquote, if_neg hslash, if_neg hfeed, if_neg hreturn, if_neg htab]
  by_cases hback : c.toNat = 8
  · exact .inr (.inl ⟨'b', by simp [hback], by decide, by rw [← hchar 8 hback]; decide⟩)
  by_cases hform : c.toNat = 12
  · exact .inr (.inl ⟨'f', by simp [hform], by decide, by rw [← hchar 12 hform]; decide⟩)
  simp only [if_neg hback, if_neg hform]
  split
  · exact .inl ⟨rfl, hslash, hquote⟩
  · split
    · rename_i hlow
      exact .inr (.inr (.inl ⟨hlow, rfl⟩))
    · rename_i hhigh
      exact .inr (.inr (.inr ⟨by omega, rfl⟩))

/-- What a surrogate is numbered with, no character is. -/
theorem toNat_not_surrogate (c : Char) : c.toNat < 0xD800 ∨ 0xDFFF < c.toNat := by
  rcases c.valid with h | h
  · exact .inl h
  · exact .inr h.1

theorem toNat_lt (c : Char) : c.toNat < 0x110000 := by
  rcases c.valid with h | h
  · exact Nat.lt_trans h (by decide)
  · exact h.2

theorem jsonUnit_append_inj {n m : Nat} {r s : Text} (hn : n < 0x10000) (hm : m < 0x10000)
    (h : jsonUnit n ++ r = jsonUnit m ++ s) : n = m ∧ r = s := by
  simp only [jsonUnit, List.append_assoc] at h
  obtain ⟨hmod, hrest⟩ := Text.hex_append_inj (List.append_cancel_left h)
  have hpow : Nat.pow 16 4 = 0x10000 := rfl
  rw [hpow, Nat.mod_eq_of_lt hn, Nat.mod_eq_of_lt hm] at hmod
  exact ⟨hmod, hrest⟩

theorem jsonChar_append_inj {c d : Char} {r s : Text} (h : jsonChar c ++ r = jsonChar d ++ s) :
    c = d ∧ r = s := by
  have hext : c.toNat = d.toNat → c = d := fun hn => by
    rw [← Char.ofNat_toNat c, hn, Char.ofNat_toNat]
  have hc := toNat_lt c
  have hd := toNat_lt d
  rcases jsonChar_cases c with ⟨ec, hc1, -⟩ | ⟨lc, ec, hc1, hc2⟩ | ⟨hc1, ec⟩ | ⟨hc1, ec⟩ <;>
  rcases jsonChar_cases d with ⟨ed, hd1, -⟩ | ⟨ld, ed, hd1, hd2⟩ | ⟨hd1, ed⟩ | ⟨hd1, ed⟩ <;>
  rw [ec, ed] at h
  -- One row for each way to write `c`, and in it one line for each way to write `d`.
  · exact List.cons.inj h
  · exact absurd (List.cons.inj h).1 hc1
  · exact absurd (List.cons.inj h).1 hc1
  · exact absurd (List.cons.inj h).1 hc1
  · exact absurd (List.cons.inj h).1.symm hd1
  · obtain ⟨hl, hr⟩ := List.cons.inj (List.cons.inj h).2
    exact ⟨by rw [← hc2, ← hd2, hl], hr⟩
  · exact absurd (List.cons.inj (List.cons.inj h).2).1 hc1
  · exact absurd (List.cons.inj (List.cons.inj h).2).1 hc1
  · exact absurd (List.cons.inj h).1.symm hd1
  · exact absurd (List.cons.inj (List.cons.inj h).2).1.symm hd1
  · obtain ⟨hn, hr⟩ := jsonUnit_append_inj hc1 hd1 h
    exact ⟨hext hn, hr⟩
  · rw [List.append_assoc] at h
    have hn := (jsonUnit_append_inj hc1 (by omega) h).1
    have := toNat_not_surrogate c
    omega
  · exact absurd (List.cons.inj h).1.symm hd1
  · exact absurd (List.cons.inj (List.cons.inj h).2).1.symm hd1
  · rw [List.append_assoc] at h
    have hn := (jsonUnit_append_inj (by omega) hd1 h).1
    have := toNat_not_surrogate d
    omega
  · rw [List.append_assoc, List.append_assoc] at h
    obtain ⟨hhigh, h⟩ := jsonUnit_append_inj (by omega) (by omega) h
    obtain ⟨hlow, hr⟩ := jsonUnit_append_inj (by omega) (by omega) h
    exact ⟨hext (by omega), hr⟩

/-- No character is written with a quotation mark in front. -/
theorem jsonChar_append_ne_quote (c : Char) (r s : Text) : jsonChar c ++ r ≠ '\x22' :: s := by
  intro h
  rcases jsonChar_cases c with ⟨ec, -, hquote⟩ | ⟨lc, ec, -⟩ | ⟨-, ec⟩ | ⟨-, ec⟩ <;> rw [ec] at h
  · exact hquote (List.cons.inj h).1
  · exact absurd (List.cons.inj h).1 (by decide)
  · exact absurd (List.cons.inj h).1 (by decide)
  · exact absurd (List.cons.inj h).1 (by decide)

/-- **A string at the start of a text is read back,** and so is what follows it. -/
theorem jsonText_append_inj {a b r s : Text} (h : jsonText a ++ r = jsonText b ++ s) :
    a = b ∧ r = s := by
  simp only [jsonText, List.cons_append, List.append_assoc] at h
  replace h := (List.cons.inj h).2
  induction a generalizing b with
  | nil =>
    cases b with
    | nil => exact ⟨rfl, (List.cons.inj h).2⟩
    | cons d b =>
      rw [List.flatMap_cons, List.append_assoc] at h
      exact absurd h.symm (jsonChar_append_ne_quote d _ _)
  | cons c a ih =>
    cases b with
    | nil =>
      rw [List.flatMap_cons, List.append_assoc] at h
      exact absurd h (jsonChar_append_ne_quote c _ _)
    | cons d b =>
      rw [List.flatMap_cons, List.flatMap_cons, List.append_assoc, List.append_assoc] at h
      obtain ⟨rfl, hbody⟩ := jsonChar_append_inj h
      obtain ⟨rfl, hr⟩ := ih hbody
      exact ⟨rfl, hr⟩

/-! ## Which values are written with a quotation mark in front -/

theorem quote_not_mem_ofNat (n : Nat) : '\x22' ∉ Text.ofNat n := fun h =>
  absurd (Text.isDigit_of_mem_ofNat n _ h) (by decide)

theorem mem_of_mem_trimEnd {p : Char → Bool} {c : Char} {s : Text} (h : c ∈ Text.trimEnd p s) :
    c ∈ s := by
  induction s with
  | nil => exact h
  | cons d s ih =>
    rw [Text.trimEnd] at h
    split at h
    · split at h
      · cases h
      · rw [List.mem_singleton.1 h]; exact List.mem_cons_self
    · rename_i e t he
      rcases List.mem_cons.1 h with rfl | h
      · exact List.mem_cons_self
      · exact List.mem_cons_of_mem _ (ih (he ▸ h))

theorem quote_not_mem_zeros (n : Nat) : '\x22' ∉ Binary64.zeros n := fun h =>
  absurd (List.eq_of_mem_replicate h) (by decide)

/-- Both ways to place the point among digits write the digits, zeros, and signs of their own. -/
theorem quote_not_mem_positional {ds : Text} (top : Int) (hds : '\x22' ∉ ds) :
    '\x22' ∉ Binary64.positional ds top := by
  have htake : ∀ n, '\x22' ∉ ds.take n := fun n h => hds (List.mem_of_mem_take h)
  have hdrop : ∀ n, '\x22' ∉ ds.drop n := fun n h => hds (List.mem_of_mem_drop h)
  unfold Binary64.positional
  split
  · simp [quote_not_mem_zeros, hds]
  · dsimp only
    split <;> simp [quote_not_mem_zeros, hds, htake, hdrop]

theorem quote_not_mem_scientific {ds : Text} (top : Int) (hds : '\x22' ∉ ds) :
    '\x22' ∉ Binary64.scientific ds top := by
  have htake : ∀ n, '\x22' ∉ ds.take n := fun n h => hds (List.mem_of_mem_take h)
  have htail : '\x22' ∉ ds.tail := fun h => hds (List.mem_of_mem_tail h)
  unfold Binary64.scientific
  dsimp only
  split <;> split <;> simp [quote_not_mem_zeros, htake, htail, quote_not_mem_ofNat]

theorem quote_not_mem_decimalText (x : Binary64) : '\x22' ∉ x.decimalText := by
  have hmagnitude : ∀ m e, '\x22' ∉ Binary64.magnitudeText m e := by
    intro m e
    have hdigits : ∀ d, '\x22' ∉ Text.trimEnd (· == '0') (Text.ofNat d) := fun d h =>
      quote_not_mem_ofNat d (mem_of_mem_trimEnd h)
    unfold Binary64.magnitudeText
    split
    · decide
    · dsimp only
      split
      · exact quote_not_mem_positional _ (hdigits _)
      · exact quote_not_mem_scientific _ (hdigits _)
  unfold Binary64.decimalText
  split
  · decide
  · split <;> decide
  · split
    · simp [hmagnitude]
    · exact hmagnitude _ _

theorem quote_not_mem_jsonNumber (x : Binary64) : '\x22' ∉ jsonNumber x := by
  unfold jsonNumber
  split
  · decide
  · split <;> decide
  · exact quote_not_mem_decimalText _

theorem quote_not_mem_ofInt (n : Int) : '\x22' ∉ Text.ofInt n := by
  cases n with
  | ofNat n => exact quote_not_mem_ofNat n
  | negSucc n => simp [Text.ofInt, quote_not_mem_ofNat]

/-- **Only strings are written with a quotation mark in front.** -/
theorem eq_text_of_json_quote {v : Value} {r : Text} (h : v.json = .ok ('\x22' :: r)) :
    ∃ s, v = .text s := by
  have hmem : ∀ t : Text, Except.ok t = (.ok ('\x22' :: r) : Except JsonProblem Text) →
      '\x22' ∈ t := fun t ht => by rw [Except.ok.inj ht]; exact List.mem_cons_self
  cases v with
  | text s => exact ⟨s, rfl⟩
  | null => rw [json] at h; exact absurd (hmem _ h) (by decide)
  | bool b => rw [json] at h; exact absurd (hmem _ h) (by cases b <;> decide)
  | int n => rw [json] at h; exact absurd (hmem _ h) (quote_not_mem_ofInt n)
  | float x => rw [json] at h; exact absurd (hmem _ h) (quote_not_mem_jsonNumber x)
  | list items =>
    rw [json] at h
    cases hi : jsonItems items with
    | error problem => rw [hi] at h; cases h
    | ok ts => rw [hi] at h; exact absurd (List.cons.inj (Except.ok.inj h)).1 (by decide)
  | map entries =>
    rw [json] at h
    cases he : jsonEntries entries with
    | error problem => rw [he] at h; cases h
    | ok ts => rw [he] at h; exact absurd (List.cons.inj (Except.ok.inj h)).1 (by decide)
  | bytes _ | table _ _ | function _ | literal _ | generated _ | template _ _ | bareSource
  | program _ => simp [json] at h

end Value

end GlslCompose
