/-
`Proofs/PathComponents.lean` -- paths as rows of components, and which paths resolve to
themselves.

A store has two ways to make a path regular. What is registered under a path only has its
slashes put in order (`Path.collapse`). What is asked for from the root also loses its
extension, and every component that leads nowhere (`FragmentStore.resolve`). Each way is
said here by the components of the path: `collapse` writes them with single slashes between
them and keeps a slash at the end (`collapse_eq`), `resolve` writes those that are left and
never a slash at the end (`resolve_root`).

Components have no slashes, so a row of them can be read back from how it is written, and
the two ways agree on a path exactly if they leave the same components and there is no slash
at the end. That is the case if no component is `.` or `..` and the last one has no extension
(`resolve_eq_collapse_iff`).
-/
import Mathlib.Data.List.Basic
import GlslCompose.FragmentStore.Basic

set_option autoImplicit false

namespace GlslCompose

/-! ## Pieces -/

namespace Text

/-- The pieces of a text are those into which the list of its characters splits. -/
theorem pieces_eq_splitOn (sep : Char) (s : Text) : pieces sep s = s.splitOn sep := by
  induction s with
  | nil => exact (List.splitOn_nil sep).symm
  | cons c s ih =>
    rw [List.splitOn_cons_eq_if_modifyHead, pieces, ih]
    by_cases hc : c = sep
    · rw [if_pos hc, if_pos (beq_iff_eq.2 hc)]
    · rw [if_neg hc, if_neg (by simpa using hc)]
      cases hsplit : s.splitOn sep with
      | nil => exact absurd hsplit (List.splitOn_ne_nil sep s)
      | cons first behind => rfl

theorem exists_pieces (sep : Char) (s : Text) :
    ∃ first behind, pieces sep s = first :: behind := by
  rw [pieces_eq_splitOn]
  exact List.exists_cons_of_ne_nil (List.splitOn_ne_nil sep s)

theorem pieces_cons_of_ne {sep c : Char} {s first : Text} {behind : List Text} (hc : c ≠ sep)
    (h : pieces sep s = first :: behind) : pieces sep (c :: s) = (c :: first) :: behind := by
  rw [pieces, if_neg hc, h]

theorem pieces_append_cons (sep : Char) (s t : Text) :
    pieces sep (s ++ sep :: t) = pieces sep s ++ pieces sep t := by
  simp only [pieces_eq_splitOn, List.splitOn]
  exact List.splitOnP_append_cons s t (beq_self_eq_true sep)

theorem pieces_of_notMem {sep : Char} {s : Text} (h : sep ∉ s) : pieces sep s = [s] := by
  rw [pieces_eq_splitOn, List.splitOn]
  exact List.splitOnP_eq_singleton fun c hc => beq_eq_false_iff_ne.2 fun heq => h (heq ▸ hc)

theorem startsWith_singleton_iff {c : Char} {s : Text} :
    startsWith [c] s = true ↔ s.head? = some c := by
  rw [startsWith, Option.isSome_iff_exists, List.head?_eq_some_iff]
  exact exists_congr fun _ => after?_eq_some_iff

theorem pieces_intercalate {sep : Char} {parts : List Text} (hne : parts ≠ [])
    (h : ∀ part ∈ parts, sep ∉ part) : pieces sep (List.intercalate [sep] parts) = parts := by
  rw [pieces_eq_splitOn]
  exact List.splitOn_intercalate sep h hne

/-- The pieces of a text hold every character of it that does not separate them. -/
theorem flatten_pieces (sep : Char) (s : Text) : (pieces sep s).flatten = s.filter (· ≠ sep) := by
  induction s with
  | nil => rfl
  | cons c s ih =>
    by_cases hc : c = sep
    · rw [pieces, if_pos hc, List.flatten_cons, ih, List.filter_cons_of_neg (by simpa using hc)]
      rfl
    · obtain ⟨first, behind, hpieces⟩ := exists_pieces sep s
      rw [List.filter_cons_of_pos (by simpa using hc), ← ih, pieces_cons_of_ne hc hpieces, hpieces]
      rfl

theorem notMem_of_mem_pieces {sep : Char} {s part : Text} (h : part ∈ pieces sep s) :
    sep ∉ part := by
  intro hmem
  have hflat : sep ∈ (pieces sep s).flatten := List.mem_flatten.2 ⟨part, h, hmem⟩
  rw [flatten_pieces] at hflat
  exact absurd rfl (of_decide_eq_true (List.mem_filter.1 hflat).2)

/-- A text that is not cut has no separator. -/
theorem notMem_of_cutLast? {sep : Char} {s : Text} (h : cutLast? sep s = none) : sep ∉ s := by
  induction s with
  | nil => exact List.not_mem_nil
  | cons c s ih =>
    rw [cutLast?] at h
    split at h
    · cases h
    · rename_i hnone
      split at h
      · cases h
      · rename_i hc
        exact List.not_mem_cons_of_ne_of_not_mem (Ne.symm hc) (ih hnone)

/-- A cut at the last separator loses only the separator, and there is none behind it. -/
theorem eq_of_cutLast? {sep : Char} {s before behind : Text}
    (h : cutLast? sep s = some (before, behind)) : s = before ++ sep :: behind ∧ sep ∉ behind := by
  induction s generalizing before with
  | nil => cases h
  | cons c s ih =>
    rw [cutLast?] at h
    split at h
    · rename_i front rest hcut
      cases h
      obtain ⟨rfl, hnot⟩ := ih hcut
      exact ⟨rfl, hnot⟩
    · rename_i hnone
      split at h
      · rename_i hc
        cases h
        exact ⟨by rw [hc]; rfl, notMem_of_cutLast? hnone⟩
      · cases h

end Text

namespace Path

/-! ## Components -/

/-- **The components of a path:** what stands between its slashes, where something does. -/
def components (path : Text) : List Text := (Text.pieces '/' path).filter (· ≠ [])

theorem components_slash (s : Text) : components ('/' :: s) = components s := rfl

theorem slash_notMem_of_mem {path part : Text} (h : part ∈ components path) : '/' ∉ part :=
  Text.notMem_of_mem_pieces (List.mem_filter.1 h).1

theorem ne_nil_of_mem {path part : Text} (h : part ∈ components path) : part ≠ [] :=
  of_decide_eq_true (List.mem_filter.1 h).2

theorem flatten_components (path : Text) : (components path).flatten = path.filter (· ≠ '/') := by
  rw [← Text.flatten_pieces, components]
  induction Text.pieces '/' path with
  | nil => rfl
  | cons first behind ih =>
    by_cases hfirst : first = []
    · rw [List.filter_cons_of_neg (by simpa using hfirst), ih, hfirst]
      rfl
    · rw [List.filter_cons_of_pos (by simpa using hfirst), List.flatten_cons, ih,
        List.flatten_cons]

/-- A row of components can be read back. -/
theorem components_intercalate {parts : List Text} (hslash : ∀ part ∈ parts, '/' ∉ part)
    (hnil : ∀ part ∈ parts, part ≠ []) : components (List.intercalate ['/'] parts) = parts := by
  by_cases hne : parts = []
  · rw [hne]
    rfl
  · rw [components, Text.pieces_intercalate hne hslash]
    exact List.filter_eq_self.2 fun part hmem => decide_eq_true (hnil part hmem)

/-- No slash stands at the end of a row of components. -/
theorem getLast?_intercalate {parts : List Text} (hslash : ∀ part ∈ parts, '/' ∉ part)
    (hnil : ∀ part ∈ parts, part ≠ []) :
    (List.intercalate ['/'] parts).getLast? ≠ some '/' := by
  induction parts with
  | nil => exact nofun
  | cons part rest ih =>
    rw [List.forall_mem_cons] at hslash hnil
    cases rest with
    | nil =>
      rw [List.intercalate_singleton]
      exact fun hlast => hslash.1 (List.mem_of_getLast? hlast)
    | cons next rest =>
      have hbehind := ih hslash.2 hnil.2
      have hne : List.intercalate ['/'] (next :: rest) ≠ [] := by
        intro hempty
        have hparts := components_intercalate hslash.2 hnil.2
        rw [hempty] at hparts
        cases hparts
      rw [List.intercalate_cons_cons, List.getLast?_append_of_ne_nil _ hne]
      exact hbehind

/-! ## Putting slashes in order -/

/-- The slash at the end of a path, if there is one. -/
def endSlash (path : Text) : Text := if path.getLast? = some '/' then ['/'] else []

theorem endSlash_cons {c : Char} {s : Text} (h : s ≠ [] ∨ c ≠ '/') :
    endSlash (c :: s) = endSlash s := by
  cases s with
  | nil =>
    have hc : c ≠ '/' := h.resolve_left fun hne => hne rfl
    rw [endSlash, if_neg (by simpa using hc)]
    rfl
  | cons d t => rw [endSlash, List.getLast?_cons_cons, endSlash]

theorem intercalate_cons_head (c : Char) (part : Text) (parts : List Text) :
    List.intercalate ['/'] ((c :: part) :: parts) = c :: List.intercalate ['/'] (part :: parts) := by
  cases parts with
  | nil => rw [List.intercalate_singleton, List.intercalate_singleton]
  | cons next rest =>
    rw [List.intercalate_cons_cons, List.intercalate_cons_cons]
    rfl

/-- What follows a character is written with single slashes. The first piece of it belongs to that
character and stays where it is, also if it is empty. -/
theorem inner_eq {s first : Text} {behind : List Text} (h : Text.pieces '/' s = first :: behind) :
    collapse.inner s
      = List.intercalate ['/'] (first :: behind.filter (· ≠ [])) ++ endSlash s := by
  fun_induction collapse.inner s generalizing first behind with
  | case1 =>
    cases h
    rfl
  | case2 s ih =>
    -- Two slashes: the empty piece between them is dropped.
    cases h
    have hslash : Text.pieces '/' ('/' :: s) = [] :: Text.pieces '/' s := rfl
    rw [ih hslash, endSlash_cons (.inl (List.cons_ne_nil _ _))]
    rfl
  | case3 c s hpair ih =>
    obtain ⟨next, rest, hpieces⟩ := Text.exists_pieces '/' s
    rw [ih hpieces]
    by_cases hc : c = '/'
    · subst hc
      obtain ⟨rfl, rfl⟩ : first = [] ∧ behind = next :: rest := by
        rw [Text.pieces, if_pos rfl, hpieces] at h
        exact ⟨(List.cons.inj h).1.symm, (List.cons.inj h).2.symm⟩
      cases s with
      | nil =>
        cases hpieces
        rfl
      | cons d t =>
        -- No slash follows, so the next piece is not empty.
        obtain ⟨part, parts, htail⟩ := Text.exists_pieces '/' t
        have hd : d ≠ '/' := fun heq => hpair t rfl (by rw [heq])
        rw [Text.pieces_cons_of_ne hd htail] at hpieces
        obtain ⟨rfl, rfl⟩ := List.cons.inj hpieces
        rw [endSlash_cons (.inl (List.cons_ne_nil _ _)),
          List.filter_cons_of_pos (by simp),
          List.intercalate_cons_cons]
        rfl
    · rw [Text.pieces_cons_of_ne hc hpieces] at h
      obtain ⟨rfl, rfl⟩ := List.cons.inj h
      rw [endSlash_cons (.inr hc), intercalate_cons_head]
      rfl

/-- **A path as it is registered:** its components with single slashes between them, and a slash at the
end if there was one. -/
theorem collapse_eq {path : Text} (h : components path ≠ []) :
    collapse path = List.intercalate ['/'] (components path) ++ endSlash path := by
  fun_induction collapse path with
  | case1 => exact absurd rfl h
  | case2 s ih =>
    rw [components_slash] at h ⊢
    have hs : s ≠ [] := fun hnil => h (by rw [hnil]; rfl)
    rw [ih h, endSlash_cons (.inl hs)]
  | case3 c s hc =>
    have hslash : c ≠ '/' := hc
    obtain ⟨first, behind, hpieces⟩ := Text.exists_pieces '/' s
    rw [inner_eq hpieces, components, Text.pieces_cons_of_ne hslash hpieces,
      List.filter_cons_of_pos (by simp), endSlash_cons (.inr hslash),
      intercalate_cons_head]
    rfl

/-- A row of components has its slashes in order. -/
theorem collapse_intercalate {parts : List Text} (hslash : ∀ part ∈ parts, '/' ∉ part)
    (hnil : ∀ part ∈ parts, part ≠ []) :
    collapse (List.intercalate ['/'] parts) = List.intercalate ['/'] parts := by
  by_cases hne : parts = []
  · rw [hne]
    rfl
  · have hparts := components_intercalate hslash hnil
    rw [collapse_eq (by rwa [hparts]), hparts, endSlash, if_neg (getLast?_intercalate hslash hnil),
      List.append_nil]

theorem collapse_replicate (n : Nat) (s : Text) : collapse (List.replicate n '/' ++ s) = collapse s := by
  induction n with
  | zero => rfl
  | succ n ih => exact ih

/-! ## Components that lead nowhere -/

/-- A component that stands for itself: it is not empty, and neither stays where it is nor goes
back. -/
structure Named (part : Text) : Prop where
  ne_nil : part ≠ []
  ne_dot : part ≠ "."
  ne_dots : part ≠ ".."

instance (part : Text) : Decidable (Named part) :=
  decidable_of_iff (part ≠ [] ∧ part ≠ "." ∧ part ≠ "..")
    ⟨fun h => ⟨h.1, h.2.1, h.2.2⟩, fun h => ⟨h.ne_nil, h.ne_dot, h.ne_dots⟩⟩

/-- What is left of the components of a path from the root. -/
def simplified (path : Text) : List Text :=
  ((Text.pieces '/' path).foldl (step true) []).reverse

theorem simplified_slash (path : Text) : simplified ('/' :: path) = simplified path := rfl

/-- **One more component from the root** is passed over, takes the last one back, or is put behind the
others. In the last case it stands for itself. -/
theorem step_cases {stack : List Text} {part : Text} (h : ∀ last ∈ stack, Named last) :
    step true stack part = stack ∨ step true stack part = stack.tail ∨
      (Named part ∧ step true stack part = part :: stack) := by
  by_cases hstays : part = [] ∨ part = "."
  · exact .inl (if_pos (by simpa using hstays))
  · rw [not_or] at hstays
    rw [step.eq_def, if_neg (by simpa using hstays)]
    by_cases hback : part = ".."
    · rw [if_pos hback]
      cases stack with
      | nil => exact .inl rfl
      | cons last rest =>
        exact .inr (.inl (if_neg (h last List.mem_cons_self).ne_dots))
    · exact .inr (.inr ⟨⟨hstays.1, hstays.2, hback⟩, if_neg hback⟩)

/-- Nothing but components of the path that stand for themselves is left, in their order. -/
theorem simplified_spec (path : Text) :
    (∀ part ∈ simplified path, Named part) ∧ (simplified path).Sublist (Text.pieces '/' path) := by
  -- The invariant of the fold: the stack holds named components, and read backwards it is left of what
  -- was gone over so far.
  suffices h : ∀ parts stack before : List Text, (∀ last ∈ stack, Named last) →
      stack.reverse.Sublist before →
      (∀ part ∈ parts.foldl (step true) stack, Named part) ∧
        (parts.foldl (step true) stack).reverse.Sublist (before ++ parts) by
    obtain ⟨hnamed, hsublist⟩ := h (Text.pieces '/' path) [] [] (fun _ hmem => nomatch hmem)
      (List.Sublist.refl _)
    exact ⟨fun part hmem => hnamed part (List.mem_reverse.1 hmem), hsublist⟩
  intro parts
  induction parts with
  | nil =>
    intro stack before hnamed hstack
    rw [List.append_nil]
    exact ⟨hnamed, hstack⟩
  | cons part parts ih =>
    intro stack before hnamed hstack
    have hlonger : stack.reverse.Sublist (before ++ [part]) :=
      hstack.trans (List.sublist_append_left before [part])
    rw [List.foldl_cons, List.append_cons]
    rcases step_cases hnamed with hstep | hstep | ⟨hpart, hstep⟩
    · rw [hstep]
      exact ih _ _ hnamed hlonger
    · rw [hstep]
      exact ih _ _ (fun last hmem => hnamed last (List.mem_of_mem_tail hmem))
        ((List.tail_sublist stack).reverse.trans hlonger)
    · rw [hstep]
      refine ih _ _ (List.forall_mem_cons.2 ⟨hpart, hnamed⟩) ?_
      rw [List.reverse_cons]
      exact hstack.append (List.Sublist.refl _)

theorem slash_notMem_of_simplified {path part : Text} (h : part ∈ simplified path) : '/' ∉ part :=
  Text.notMem_of_mem_pieces ((simplified_spec path).2.subset h)

/-- Where every component stands for itself, all of them are left. -/
theorem simplified_of_named {path : Text} (h : ∀ part ∈ components path, Named part) :
    simplified path = components path := by
  -- The stack of the fold is a variable, for every named component is put on it.
  suffices hfold : ∀ parts stack : List Text, (∀ part ∈ parts.filter (· ≠ []), Named part) →
      parts.foldl (step true) stack = (parts.filter (· ≠ [])).reverse ++ stack by
    rw [simplified, hfold _ [] h, List.append_nil, List.reverse_reverse]
    rfl
  intro parts
  induction parts with
  | nil => exact fun _ _ => rfl
  | cons part parts ih =>
    intro stack hnamed
    rw [List.foldl_cons]
    by_cases hpart : part = []
    · rw [List.filter_cons_of_neg (by simpa using hpart)] at hnamed ⊢
      rw [ih _ hnamed, hpart]
      rfl
    · rw [List.filter_cons_of_pos (by simpa using hpart)] at hnamed ⊢
      obtain ⟨hfirst, hrest⟩ := List.forall_mem_cons.1 hnamed
      have hstep : step true stack part = part :: stack := by
        rw [step.eq_def, if_neg (by simpa using ⟨hfirst.ne_nil, hfirst.ne_dot⟩),
          if_neg hfirst.ne_dots]
      rw [hstep, ih _ hrest, List.reverse_cons, List.append_assoc]
      rfl

/-- A path from the root, simplified, is what is left of its components behind one or two slashes. -/
theorem exists_simplify_slash (s : Text) : ∃ n, simplify ('/' :: s)
    = List.replicate (n + 1) '/' ++ List.intercalate ['/'] (simplified s) := by
  obtain ⟨n, hn⟩ : ∃ n, rootSlashes ('/' :: s) = n + 1 := by
    unfold rootSlashes
    split
    · exact ⟨0, rfl⟩
    · split
      · exact ⟨1, rfl⟩
      · exact ⟨0, rfl⟩
  refine ⟨n, ?_⟩
  rw [simplify, hn, decide_eq_true (Nat.succ_pos n)]
  exact if_neg (by simp [List.replicate_succ])

/-- **A path that is asked for from a directory:** what is left of the components of the two joined,
with single slashes between them. -/
theorem resolve_of_join {path root s : Text}
    (h : join (join "/" root) (splitExtension path).1 = '/' :: s) :
    FragmentStore.resolve path root = List.intercalate ['/'] (simplified s) := by
  obtain ⟨n, hsimple⟩ := exists_simplify_slash s
  have hspec := simplified_spec s
  rw [FragmentStore.resolve, h, hsimple, collapse_replicate, collapse_intercalate
    (fun part hmem => slash_notMem_of_simplified hmem) fun part hmem => (hspec.1 part hmem).ne_nil]

/-- **A path as it is asked for from the root:** what is left of the components of the path without
its extension, with single slashes between them. -/
theorem resolve_root (path : Text) : FragmentStore.resolve path "/"
    = List.intercalate ['/'] (simplified (splitExtension path).1) := by
  obtain ⟨s, hjoin, hs⟩ : ∃ s, join (join "/" "/") (splitExtension path).1 = '/' :: s ∧
      simplified s = simplified (splitExtension path).1 := by
    generalize (splitExtension path).1 = stem
    by_cases hstart : Text.startsWith ['/'] stem = true
    · obtain ⟨t, rfl⟩ := List.head?_eq_some_iff.1 (Text.startsWith_singleton_iff.1 hstart)
      exact ⟨t, if_pos hstart, (simplified_slash t).symm⟩
    · exact ⟨stem, if_neg hstart, rfl⟩
  rw [resolve_of_join hjoin, hs]

/-! ## Extensions -/

/-- A path without an extension is all of what stands before it. -/
theorem splitExtension_of_bare {path : Text} (h : (splitExtension path).2 = []) :
    (splitExtension path).1 = path := by
  unfold splitExtension at h ⊢
  dsimp only at h ⊢
  split
  · rfl
  · rename_i stem ext hcut
    rw [hcut] at h
    dsimp only at h
    split at h
    · rename_i hdots
      rw [if_pos hdots]
    · cases h

/-- **A path with an extension:** the last component is cut, and more than dots stands before the
cut. -/
theorem splitExtension_of_extension {path : Text} (h : (splitExtension path).2 ≠ []) :
    ∃ head stem ext, path = head ++ stem ++ '.' :: ext ∧ (splitExtension path).1 = head ++ stem ∧
      (head = [] ∨ ∃ front, head = front ++ ['/']) ∧ '/' ∉ stem ++ '.' :: ext ∧
      stem.all (· == '.') = false := by
  unfold splitExtension at h ⊢
  obtain ⟨hpath, hhead, hname⟩ : (cutName path).1 ++ (cutName path).2 = path ∧
      ((cutName path).1 = [] ∨ ∃ front, (cutName path).1 = front ++ ['/']) ∧
      '/' ∉ (cutName path).2 := by
    unfold cutName
    split
    · rename_i before name hcut
      obtain ⟨rfl, hnot⟩ := Text.eq_of_cutLast? hcut
      exact ⟨by rw [List.append_assoc]; rfl, .inr ⟨before, rfl⟩, hnot⟩
    · rename_i hcut
      exact ⟨rfl, .inl rfl, Text.notMem_of_cutLast? hcut⟩
  dsimp only at h ⊢
  split at h
  · exact absurd rfl h
  · rename_i stem ext hcut
    split at h
    · exact absurd rfl h
    · rename_i hdots
      obtain ⟨hlast, -⟩ := Text.eq_of_cutLast? hcut
      rw [if_neg hdots]
      refine ⟨(cutName path).1, stem, ext, ?_, rfl, hhead, hlast ▸ hname, by simpa using hdots⟩
      rw [List.append_assoc, ← hlast, hpath]

/-! ## Paths that resolve to themselves -/

/-- **A path that names what is registered under it:** each of its components stands for itself, no
slash ends it, and its last component has no extension. -/
structure Faithful (path : Text) : Prop where
  named : ∀ part ∈ components path, Named part
  unended : path.getLast? ≠ some '/'
  bare : (splitExtension path).2 = []

instance (path : Text) : Decidable (Faithful path) :=
  decidable_of_iff ((∀ part ∈ components path, Named part) ∧ path.getLast? ≠ some '/' ∧
      (splitExtension path).2 = [])
    ⟨fun h => ⟨h.1, h.2.1, h.2.2⟩, fun h => ⟨h.named, h.unended, h.bare⟩⟩

/-- The components of a path with a slash in front of its last component. -/
theorem components_append {head name : Text} (h : head = [] ∨ ∃ front, head = front ++ ['/'])
    (hslash : '/' ∉ name) (hne : name ≠ []) :
    components (head ++ name) = components head ++ [name] := by
  have hname : components name = [name] := by
    rw [components, Text.pieces_of_notMem hslash, List.filter_cons_of_pos (by simpa using hne)]
    rfl
  rcases h with rfl | ⟨front, rfl⟩
  · exact hname
  · rw [List.append_assoc, List.singleton_append, components, components,
      Text.pieces_append_cons, Text.pieces_append_cons, List.filter_append, List.filter_append,
      List.append_assoc]
    exact congrArg _ hname

/-- An extension that is lost is missed: what is left of the path without it is another row. -/
theorem simplified_ne_of_extension {path : Text} (h : (splitExtension path).2 ≠ [])
    (hnamed : ∀ part ∈ components path, Named part) :
    simplified (splitExtension path).1 ≠ components path := by
  obtain ⟨head, stem, ext, hpath, hstem, hhead, hname, hdots⟩ := splitExtension_of_extension h
  have hstemSlash : '/' ∉ stem := fun hmem => hname (List.mem_append_left _ hmem)
  have hstemNil : stem ≠ [] := by
    rintro rfl
    cases hdots
  have hshort := components_append hhead hstemSlash hstemNil
  have hlong := components_append hhead hname (by simp)
  rw [List.append_assoc] at hpath
  rw [hpath, hlong, List.forall_mem_append] at hnamed
  -- The components before the one that is cut stand for themselves, and so does what is left of it.
  have hleft : simplified (head ++ stem) = components head ++ [stem] := by
    rw [← hshort]
    refine simplified_of_named ?_
    rw [hshort]
    refine List.forall_mem_append.2 ⟨hnamed.1, List.forall_mem_singleton.2 ⟨hstemNil, ?_, ?_⟩⟩ <;>
      rintro rfl <;> exact absurd hdots (by decide)
  intro heq
  rw [hstem, hleft, hpath, hlong] at heq
  have hsame := (List.cons.inj (List.append_cancel_left heq)).1
  have hlength := congrArg List.length hsame
  rw [List.length_append, List.length_cons] at hlength
  omega

/-- **A path resolves to where it is registered exactly if it is faithful.** -/
theorem resolve_eq_collapse_iff {path : Text} (h : components path ≠ []) :
    FragmentStore.resolve path "/" = collapse path ↔ Faithful path := by
  rw [resolve_root, collapse_eq h]
  obtain ⟨hnamed, -⟩ := simplified_spec (splitExtension path).1
  have hslash : ∀ part ∈ simplified (splitExtension path).1, '/' ∉ part :=
    fun part hmem => slash_notMem_of_simplified hmem
  have hnil : ∀ part ∈ simplified (splitExtension path).1, part ≠ [] :=
    fun part hmem => (hnamed part hmem).ne_nil
  constructor
  · intro heq
    -- No slash ends what is left, so none was at the end of the path, and the rows are the same.
    have hunended : path.getLast? ≠ some '/' := by
      intro hlast
      rw [endSlash, if_pos hlast] at heq
      exact getLast?_intercalate hslash hnil (by rw [heq, List.getLast?_concat])
    have hparts : simplified (splitExtension path).1 = components path := by
      rw [endSlash, if_neg hunended, List.append_nil] at heq
      rw [← components_intercalate hslash hnil, heq]
      exact components_intercalate (fun _ hmem => slash_notMem_of_mem hmem)
        fun _ hmem => ne_nil_of_mem hmem
    have hall : ∀ part ∈ components path, Named part := hparts ▸ hnamed
    refine ⟨hall, hunended, ?_⟩
    by_contra hext
    exact simplified_ne_of_extension hext hall hparts
  · intro hfaithful
    rw [splitExtension_of_bare hfaithful.bare, simplified_of_named hfaithful.named, endSlash,
      if_neg hfaithful.unended, List.append_nil]

end Path

end GlslCompose
