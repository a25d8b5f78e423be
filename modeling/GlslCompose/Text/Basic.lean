/-
`Text/Basic.lean` -- text as a list of code points, and the few operations on it
that the rest of the library shares: cutting a known beginning off, splitting at
a character, replacing every occurrence of a text, trimming, and the order of
code points.

A text is a `List Char` and not a `String`, because everything this library does
with shader text is a scan from left to right. On lists a scan is a recursion on
its input, and "nothing is lost" is a statement about `++`. String literals stand
for their code points through the coercion below, so texts are still written the
usual way.
-/
set_option autoImplicit false

namespace GlslCompose

/-- A text is the list of its code points. -/
abbrev Text := List Char

namespace Text

/-- A string literal stands for the list of its code points. -/
instance : Coe String Text := ⟨String.toList⟩

/-! ## Cutting -/

/-- What follows `lead` in a text that starts with it. -/
def after? : Text → Text → Option Text
  | [], s => some s
  | _ :: _, [] => none
  | c :: lead, d :: s => if c = d then after? lead s else none

/-- **What `after?` answers.** It gives `r` exactly when the text is `lead`
followed by `r`. -/
theorem after?_eq_some_iff {lead s r : Text} : after? lead s = some r ↔ s = lead ++ r := by
  induction lead generalizing s with
  | nil => simp [after?]
  | cons c lead ih =>
    cases s with
    | nil => simp [after?]
    | cons d s =>
      by_cases h : c = d
      · subst h; simp [after?, ih]
      · simp [after?, h, Ne.symm h]

/-- Whether a text starts with `lead`. -/
def startsWith (lead s : Text) : Bool := (after? lead s).isSome

/-- The pieces of a text between occurrences of `sep`. There is always one more
piece than there are occurrences. -/
def pieces (sep : Char) : Text → List Text
  | [] => [[]]
  | c :: s =>
    if c = sep then [] :: pieces sep s
    else match pieces sep s with
      | [] => [[c]]
      | p :: ps => (c :: p) :: ps

/-- A text cut at its last `sep`: what stands before it, and what stands after. -/
def cutLast? (sep : Char) : Text → Option (Text × Text)
  | [] => none
  | c :: s =>
    match cutLast? sep s with
    | some (before, behind) => some (c :: before, behind)
    | none => if c = sep then some ([], s) else none

/-- A text cut at its first `sep`. -/
def cutFirst? (sep : Char) : Text → Option (Text × Text)
  | [] => none
  | c :: s =>
    if c = sep then some ([], s)
    else (cutFirst? sep s).map fun (before, behind) => (c :: before, behind)

/-- A cut loses only the separator. -/
theorem eq_of_cutFirst? {sep : Char} {s before behind : Text}
    (h : cutFirst? sep s = some (before, behind)) : s = before ++ sep :: behind := by
  induction s generalizing before with
  | nil => simp [cutFirst?] at h
  | cons c s ih =>
    unfold cutFirst? at h
    split at h
    · rename_i hc
      simp at h; obtain ⟨rfl, rfl⟩ := h; simp [hc]
    · simp only [Option.map_eq_some_iff, Prod.exists, Prod.mk.injEq] at h
      obtain ⟨a, b, hs, rfl, rfl⟩ := h
      simp [ih hs]

/-- What follows the first occurrence of `mark` in a text. -/
def past? (mark : Text) : Text → Option Text
  | [] => after? mark []
  | c :: s =>
    match after? mark (c :: s) with
    | some rest => some rest
    | none => past? mark s

/-- What follows an occurrence is no longer than the text. -/
theorem length_past?_le {mark s rest : Text} (h : past? mark s = some rest) :
    rest.length ≤ s.length := by
  induction s with
  | nil =>
    rw [past?, after?_eq_some_iff] at h
    have := congrArg List.length h
    simp at this; omega
  | cons c s ih =>
    unfold past? at h
    split at h
    · rename_i h'
      rw [after?_eq_some_iff] at h'
      simp only [Option.some.injEq] at h
      subst h
      have := congrArg List.length h'
      rw [List.length_append] at this; omega
    · have := ih h
      simp only [List.length_cons]; omega

/-- What follows a run of characters is no longer than the text. -/
theorem length_dropWhile_le (p : Char → Bool) (s : Text) : (s.dropWhile p).length ≤ s.length := by
  have h := congrArg List.length (List.takeWhile_append_dropWhile (p := p) (l := s))
  simp only [List.length_append] at h
  omega

/-- Cutting a beginning off makes a text shorter by that much. -/
theorem length_after? {lead s r : Text} (h : after? lead s = some r) :
    r.length + lead.length = s.length := by
  rw [after?_eq_some_iff] at h
  simp [h]; omega

/-- Whether `part` occurs somewhere in a text. -/
def hasPart (part : Text) : Text → Bool
  | [] => part.isEmpty
  | c :: s => startsWith part (c :: s) || hasPart part s

/-! ## Trimming -/

/-- A text without the longest run of `p` at its end. -/
def trimEnd (p : Char → Bool) : Text → Text
  | [] => []
  | c :: s =>
    match trimEnd p s with
    | [] => if p c then [] else [c]
    | d :: t => c :: d :: t

/-- A text without the runs of `p` at both ends. -/
def trim (p : Char → Bool) (s : Text) : Text := trimEnd p (s.dropWhile p)

/-! ## Replacing -/

/-- The text with `new` for every occurrence of a nonempty `old`, found from left
to right and never overlapping. `skip` counts the characters of an occurrence
that are still to be passed over. -/
def replaceFrom (old new : Text) : Nat → Text → Text
  | _, [] => []
  | 0, c :: s =>
    if startsWith old (c :: s) then new ++ replaceFrom old new (old.length - 1) s
    else c :: replaceFrom old new 0 s
  | skip + 1, _ :: s => replaceFrom old new skip s

/-- The text with `new` for every occurrence of `old`. The empty text occurs
before every character and at the end. -/
def replaceAll (old new s : Text) : Text :=
  if old.isEmpty then new ++ s.flatMap fun c => c :: new
  else replaceFrom old new 0 s

/-! ## Order, width, numerals -/

/-- Texts are ordered by their code points, the shorter of two first where one
begins the other. -/
def le : Text → Text → Bool
  | [], _ => true
  | _ :: _, [] => false
  | a :: s, b :: t => if a = b then le s t else decide (a.toNat < b.toNat)

/-- A text moved to the right until it is `width` wide. -/
def padLeft (width : Nat) (s : Text) : Text := List.replicate (width - s.length) ' ' ++ s

/-- The character for a digit below sixteen, letters being small. -/
def digit (n : Nat) : Char :=
  if n < 10 then Char.ofNat (48 + n) else Char.ofNat (87 + n)

/-- The decimal numeral of a natural number. -/
def ofNat (n : Nat) : Text :=
  if n < 10 then [digit n] else ofNat (n / 10) ++ [digit (n % 10)]

/-- The decimal numeral of an integer, with a minus sign below zero. -/
def ofInt : Int → Text
  | .ofNat n => ofNat n
  | .negSucc n => '-' :: ofNat (n + 1)

/-- The last `width` hexadecimal digits of a number. -/
def hex : (width : Nat) → Nat → Text
  | 0, _ => []
  | width + 1, n => hex width (n / 16) ++ [digit (n % 16)]

end Text

end GlslCompose
