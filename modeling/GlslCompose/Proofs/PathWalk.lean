/-
`Proofs/PathWalk.lean` -- resolving a path is walking in a tree.

The store is a tree whose places are named by the components on the way to them from the
root. A component leads from one place to another: nothing and `.` stay where they are, `..`
goes back, and at the root it goes nowhere, and every other one goes on (`move`). To resolve
a path is to walk along the directory that it is relative to, unless it starts at the root
itself, and then along its own components, of which the last has lost its extension
(`resolve_eq_walk`).

Resolving has a stack that is kept the other way round, and a rule for `..` behind another
`..`, which is there for paths that do not start at the root. In a path that does, no `..`
ever gets on the stack, so that rule is never asked (`reverse_step`). What is left of the
joined path are therefore names and nothing else, and a row of names is canonical
(`canonical_intercalate`).
-/
import GlslCompose.Proofs.PathComponents

set_option autoImplicit false

namespace GlslCompose

namespace Path

/-! ## Walking -/

/-- **One component of a path as a step in the tree,** from a place that is given by the names on the
way to it from the root. -/
def move (place : List Text) (part : Text) : List Text :=
  if part = [] ∨ part = "." then place
  else if part = ".." then place.dropLast
  else place ++ [part]

/-- **Where a row of components leads** from a place in the tree. -/
def walk (place parts : List Text) : List Text := parts.foldl move place

theorem walk_append (place parts more : List Text) :
    walk place (parts ++ more) = walk (walk place parts) more := List.foldl_append

theorem walk_nil_cons (place parts : List Text) : walk place ([] :: parts) = walk place parts := rfl

/-- Names lead on, and empty components are passed over. -/
theorem walk_eq_append {parts : List Text} (h : ∀ part ∈ parts, part ≠ "." ∧ part ≠ "..")
    (place : List Text) : walk place parts = place ++ parts.filter (· ≠ []) := by
  induction parts generalizing place with
  | nil => exact (List.append_nil place).symm
  | cons part parts ih =>
    obtain ⟨⟨hdot, hdots⟩, hparts⟩ := List.forall_mem_cons.1 h
    by_cases hpart : part = []
    · rw [hpart, walk_nil_cons, ih hparts, List.filter_cons_of_neg (by simp)]
    · have hmove : move place part = place ++ [part] := by
        rw [move, if_neg (not_or.2 ⟨hpart, hdot⟩), if_neg hdots]
      rw [walk, List.foldl_cons, hmove, ← walk, ih hparts,
        List.filter_cons_of_pos (by simpa using hpart), List.append_assoc]
      rfl

/-! ## The stack of components -/

/-- On a stack of names a component does what a step in the tree does. -/
theorem reverse_step {stack : List Text} (h : ∀ last ∈ stack, Named last) (part : Text) :
    (step true stack part).reverse = move stack.reverse part := by
  rw [step.eq_def, move]
  by_cases hstays : part = [] ∨ part = "."
  · rw [if_pos hstays, if_pos (by simpa using hstays)]
  · rw [if_neg hstays, if_neg (by simpa using hstays)]
    by_cases hback : part = ".."
    · rw [if_pos hback, if_pos hback]
      cases stack with
      | nil => rfl
      | cons last rest =>
        have hlast : last ≠ ".." := (h last List.mem_cons_self).ne_dots
        dsimp only
        rw [if_neg hlast, List.reverse_cons, List.dropLast_concat]
    · rw [if_neg hback, if_neg hback, List.reverse_cons]

/-- What a component leaves on a stack of names are names. -/
theorem named_step {stack : List Text} (h : ∀ last ∈ stack, Named last) (part : Text) :
    ∀ last ∈ step true stack part, Named last := by
  rcases @step_cases stack part h with hstep | hstep | ⟨hpart, hstep⟩ <;> rw [hstep]
  · exact h
  · exact fun last hmem => h last (List.mem_of_mem_tail hmem)
  · exact List.forall_mem_cons.2 ⟨hpart, h⟩

/-- What is left of the components of a path is the place to which they lead. -/
theorem simplified_eq_walk (path : Text) : simplified path = walk [] (path.splitOn '/') := by
  suffices h : ∀ parts stack : List Text, (∀ last ∈ stack, Named last) →
      (parts.foldl (step true) stack).reverse = walk stack.reverse parts by
    rw [← Text.pieces_eq_splitOn]
    exact h _ [] fun _ hmem => nomatch hmem
  intro parts
  induction parts with
  | nil => exact fun _ _ => rfl
  | cons part parts ih =>
    intro stack hnamed
    rw [List.foldl_cons, ih _ (named_step hnamed part), reverse_step hnamed part]
    rfl

/-! ## Joining -/

theorem splitOn_slash (s : Text) : ('/' :: s).splitOn '/' = [] :: s.splitOn '/' := by
  rw [← Text.pieces_eq_splitOn, ← Text.pieces_eq_splitOn]
  rfl

/-- A walk along two texts with a slash between them goes along the one and then along the other. -/
theorem walk_splitOn_append (place : List Text) (s t : Text) :
    walk place ((s ++ '/' :: t).splitOn '/') = walk (walk place (s.splitOn '/')) (t.splitOn '/') := by
  simp only [← Text.pieces_eq_splitOn]
  rw [Text.pieces_append_cons, walk_append]

/-- **A path joined to a directory** leads to where the directory and the path lead one after the other,
and a path from the root to where it leads alone. -/
theorem exists_join (root path : Text) : ∃ s, join (join "/" root) path = '/' :: s ∧
    walk [] (s.splitOn '/') =
      walk (if path.head? = some '/' then [] else walk [] (root.splitOn '/')) (path.splitOn '/') := by
  by_cases hpath : path.head? = some '/'
  · obtain ⟨t, rfl⟩ := List.head?_eq_some_iff.1 hpath
    refine ⟨t, ?_, ?_⟩
    · exact if_pos (Text.startsWith_singleton_iff.2 hpath)
    · rw [if_pos hpath, splitOn_slash, walk_nil_cons]
  · -- The directory is seen from the root, whether it says so or not.
    obtain ⟨base, hbase, hwalk⟩ : ∃ base, join "/" root = '/' :: base ∧
        walk [] (base.splitOn '/') = walk [] (root.splitOn '/') := by
      by_cases hroot : root.head? = some '/'
      · obtain ⟨t, rfl⟩ := List.head?_eq_some_iff.1 hroot
        refine ⟨t, if_pos (Text.startsWith_singleton_iff.2 hroot), ?_⟩
        rw [splitOn_slash, walk_nil_cons]
      · exact ⟨root, if_neg (mt Text.startsWith_singleton_iff.1 hroot), rfl⟩
    rw [hbase, if_neg hpath, ← hwalk, join, if_neg (mt Text.startsWith_singleton_iff.1 hpath)]
    by_cases hlast : ('/' :: base).getLast? = some '/'
    · refine ⟨base ++ path, if_pos (by simp [hlast]), ?_⟩
      rcases List.eq_nil_or_concat base with rfl | ⟨front, last, rfl⟩
      · rfl
      · rw [List.concat_eq_append, ← List.cons_append, List.getLast?_concat] at hlast
        obtain rfl := Option.some.inj hlast
        -- The slash at the end of the directory is the one between the two.
        rw [List.concat_eq_append, List.append_assoc, List.singleton_append, walk_splitOn_append,
          walk_splitOn_append]
        rfl
    · exact ⟨base ++ '/' :: path, if_neg (by simpa using hlast), walk_splitOn_append _ _ _⟩

/-! ## Canonical paths -/

/-- **A path in its canonical form:** no slash stands at its front, at its end or beside another, and
every component is a name. -/
structure Canonical (path : Text) : Prop where
  unrooted : path.head? ≠ some '/'
  unended : path.getLast? ≠ some '/'
  single : ¬ ['/', '/'] <:+: path
  named : ∀ part ∈ path.splitOn '/', part ≠ "." ∧ part ≠ ".."

/-- A row of names is canonical. -/
theorem canonical_intercalate {parts : List Text} (hnamed : ∀ part ∈ parts, Named part)
    (hslash : ∀ part ∈ parts, '/' ∉ part) : Canonical (List.intercalate ['/'] parts) := by
  have hnil : ∀ part ∈ parts, part ≠ [] := fun part hmem => (hnamed part hmem).ne_nil
  by_cases hparts : parts = []
  · subst hparts
    exact ⟨by decide, by decide, by decide, by decide⟩
  · have hpieces : Text.pieces '/' (List.intercalate ['/'] parts) = parts :=
      Text.pieces_intercalate hparts hslash
    refine ⟨?_, getLast?_intercalate hslash hnil, ?_, ?_⟩
    · intro hhead
      obtain ⟨t, ht⟩ := List.head?_eq_some_iff.1 hhead
      rw [ht, Text.pieces, if_pos rfl] at hpieces
      exact hnil [] (hpieces ▸ List.mem_cons_self) rfl
    · rintro ⟨before, behind, h⟩
      have hdouble : before ++ ['/', '/'] ++ behind = before ++ '/' :: '/' :: behind := by simp
      rw [← h, hdouble, Text.pieces_append_cons, Text.pieces, if_pos rfl] at hpieces
      exact hnil [] (hpieces ▸ by simp) rfl
    · rw [← Text.pieces_eq_splitOn, hpieces]
      exact fun part hmem => ⟨(hnamed part hmem).ne_dot, (hnamed part hmem).ne_dots⟩

/-! ## Resolving -/

/-- A path starts at the root exactly if it does so without its extension. -/
theorem head?_splitExtension_iff (path : Text) :
    (splitExtension path).1.head? = some '/' ↔ path.head? = some '/' := by
  by_cases hext : (splitExtension path).2 = []
  · rw [splitExtension_of_bare hext]
  · obtain ⟨head, stem, ext, hpath, hstem, -, -, hdots⟩ := splitExtension_of_extension hext
    have hne : head ++ stem ≠ [] := by
      intro hempty
      rw [(List.append_eq_nil_iff.1 hempty).2] at hdots
      cases hdots
    obtain ⟨c, rest, hcons⟩ := List.exists_cons_of_ne_nil hne
    rw [hstem, hpath, hcons]
    rfl

/-- **Resolving a path is walking in the tree:** along the directory, unless the path starts at the
root, and along the path without its extension. The answer names the place with single slashes
between the names, and has no way out of the tree. -/
theorem resolve_eq_walk (path root : Text) :
    let start := if path.head? = some '/' then [] else walk [] (root.splitOn '/')
    let place := walk start ((splitExtension path).1.splitOn '/')
    FragmentStore.resolve path root = List.intercalate ['/'] place ∧
      Canonical (FragmentStore.resolve path root) := by
  dsimp only
  obtain ⟨s, hjoin, hwalk⟩ := exists_join root (splitExtension path).1
  have hspec := simplified_spec s
  have hplace : simplified s =
      walk (if path.head? = some '/' then [] else walk [] (root.splitOn '/'))
        ((splitExtension path).1.splitOn '/') := by
    rw [simplified_eq_walk, hwalk]
    simp only [head?_splitExtension_iff]
  rw [resolve_of_join hjoin]
  refine ⟨by rw [hplace], canonical_intercalate hspec.1 fun part hmem => ?_⟩
  exact slash_notMem_of_simplified hmem

end Path

end GlslCompose
