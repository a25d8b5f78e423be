/-
`Proofs/LogicalLines.lean` -- logical lines, and when the assembly of a body keeps them.

For the scanner a line goes on behind a backslash: a macro may take several lines of the
text, and a logical line ends at a line feed only if no backslash stands before it. The
assembly of a body knows nothing of that. It cuts the composed text at every break,
drops each line that is blank, and puts a line feed behind each of the others. Where a
blank line stands behind a backslash it was the end of the logical line, and without it
the next line becomes part of this one (`joins_dropped_line`). Where a logical line holds
a form feed or another break, it falls apart.

`kept_iff` says that nothing else can happen. The visible lines of a text belong to its
visible logical lines in order (`flatMap_visibleLogicalLines`), and what the scanner reads
in the body is what `regroup` makes of them again: it gathers lines as long as they end in
a backslash. The first group of lines is always cut into exactly its own lines
(`exists_group`), so the groups are the logical lines of the text if and only if each
logical line is the join of its visible lines. Only the last one may lack its line feed.
-/
import GlslCompose.Proofs.LibraryRun
import GlslCompose.Proofs.PairRun
import GlslCompose.Proofs.VisibleLines

set_option autoImplicit false

namespace GlslCompose

namespace Text

/-! ## Logical lines -/

/-- The pieces of a text between line feeds that no backslash stands right before. `escaped` tells
whether a backslash stands right before the text. -/
def logicalLinesFrom (escaped : Bool) : Text → List Text
  | [] => [[]]
  | c :: s =>
    if c = '\n' ∧ escaped = false then [] :: logicalLinesFrom false s
    else (logicalLinesFrom (c == '\\') s).modifyHead (c :: ·)

/-- **The logical lines of a text.** -/
def logicalLines (s : Text) : List Text := logicalLinesFrom false s

/-- The logical lines that hold something besides white space. -/
def visibleLogicalLines (s : Text) : List Text := (logicalLines s).filter isVisible

/-- Whether a text ends in a backslash. -/
def endsEscaped (s : Text) : Bool := s.getLast? == some '\\'

theorem endsEscaped_append {s t : Text} (h : t ≠ []) : endsEscaped (s ++ t) = endsEscaped t := by
  rw [endsEscaped, endsEscaped, List.getLast?_append_of_ne_nil _ h]

theorem logicalLinesFrom_cons (escaped : Bool) (c : Char) (s : Text) :
    logicalLinesFrom escaped (c :: s)
      = if c = '\n' ∧ escaped = false then [] :: logicalLinesFrom false s
        else (logicalLinesFrom (c == '\\') s).modifyHead (c :: ·) := rfl

theorem logicalLinesFrom_ne_nil (escaped : Bool) (s : Text) : logicalLinesFrom escaped s ≠ [] := by
  induction s generalizing escaped with
  | nil => exact List.cons_ne_nil _ _
  | cons c s ih =>
    rw [logicalLinesFrom_cons]
    split
    · exact List.cons_ne_nil _ _
    · intro hnil
      exact ih _ (List.modifyHead_eq_nil_iff.1 hnil)

theorem joinLines_ne_nil {ls : List Text} (h : ls ≠ []) (hne : ∀ line ∈ ls, line ≠ []) :
    joinLines ls ≠ [] := by
  obtain ⟨line, rest, rfl⟩ := List.exists_cons_of_ne_nil h
  have hline := hne line List.mem_cons_self
  by_cases hrest : rest = []
  · rw [hrest, joinLines_singleton]
    exact hline
  · rw [joinLines_cons line hrest]
    exact List.append_ne_nil_of_left_ne_nil hline _

/-- What stands in front of the first logical line of a text, if no line ends in it. -/
theorem logicalLinesFrom_append {p : Text} (hp : '\n' ∉ p) (hne : p ≠ []) (escaped : Bool) (s : Text) :
    logicalLinesFrom escaped (p ++ s)
      = (logicalLinesFrom (endsEscaped p) s).modifyHead (p ++ ·) := by
  induction p generalizing escaped with
  | nil => exact absurd rfl hne
  | cons c p ih =>
    rw [List.mem_cons, not_or] at hp
    have hc : ¬ (c = '\n' ∧ escaped = false) := fun h => hp.1 h.1.symm
    rw [List.cons_append, logicalLinesFrom_cons, if_neg hc]
    cases p with
    | nil => rfl
    | cons d p =>
      have hends : endsEscaped (c :: d :: p) = endsEscaped (d :: p) :=
        endsEscaped_append (s := [c]) (List.cons_ne_nil d p)
      rw [ih hp.2 (List.cons_ne_nil _ _), hends, List.modifyHead_modifyHead]
      rfl

/-- **A line and its line feed** are a logical line, or go on with the text behind them. -/
theorem logicalLines_append_lineFeed {p : Text} (hp : '\n' ∉ p) (s : Text) :
    logicalLines (p ++ '\n' :: s) =
      if endsEscaped p then (logicalLines s).modifyHead (fun line => p ++ '\n' :: line)
      else p :: logicalLines s := by
  by_cases hne : p = []
  · rw [hne]
    rfl
  · rw [logicalLines, logicalLinesFrom_append hp hne, logicalLinesFrom_cons]
    cases hends : endsEscaped p with
    | true =>
      rw [if_neg (by simp), if_pos rfl, List.modifyHead_modifyHead]
      rfl
    | false =>
      rw [if_pos ⟨rfl, rfl⟩, if_neg Bool.false_ne_true, List.modifyHead_cons, List.append_nil]
      rfl

/-- A logical line is one logical line by itself. -/
theorem logicalLinesFrom_self (escaped : Bool) (s : Text) :
    ∃ first rest, logicalLinesFrom escaped s = first :: rest ∧
      logicalLinesFrom escaped first = [first] ∧ ∀ line ∈ rest, logicalLines line = [line] := by
  induction s generalizing escaped with
  | nil => exact ⟨[], [], rfl, rfl, fun _ h => absurd h List.not_mem_nil⟩
  | cons c s ih =>
    rw [logicalLinesFrom_cons]
    split
    · obtain ⟨first, rest, hsplit, hfirst, hrest⟩ := ih false
      refine ⟨[], _, rfl, rfl, fun line hline => ?_⟩
      rw [hsplit] at hline
      rcases List.mem_cons.1 hline with rfl | hline
      · exact hfirst
      · exact hrest line hline
    · rename_i hc
      obtain ⟨first, rest, hsplit, hfirst, hrest⟩ := ih (c == '\\')
      refine ⟨c :: first, rest, ?_, ?_, hrest⟩
      · rw [hsplit, List.modifyHead_cons]
      · rw [logicalLinesFrom_cons, if_neg hc, hfirst, List.modifyHead_cons]

theorem logicalLines_of_mem {s line : Text} (h : line ∈ logicalLines s) :
    logicalLines line = [line] := by
  obtain ⟨first, rest, hsplit, hfirst, hrest⟩ := logicalLinesFrom_self false s
  rw [logicalLines, hsplit] at h
  rcases List.mem_cons.1 h with rfl | h
  · exact hfirst
  · exact hrest line h

/-- **The logical lines make up the text,** with a line feed between any two. -/
theorem joinLines_logicalLinesFrom (escaped : Bool) (s : Text) :
    joinLines (logicalLinesFrom escaped s) = s := by
  induction s generalizing escaped with
  | nil => rfl
  | cons c s ih =>
    rw [logicalLinesFrom_cons]
    split
    · rename_i hc
      have hjoin := ih false
      rw [joinLines_cons _ (logicalLinesFrom_ne_nil false s), hjoin, hc.1]
      rfl
    · obtain ⟨first, rest, hsplit⟩ :=
        List.exists_cons_of_ne_nil (logicalLinesFrom_ne_nil (c == '\\') s)
      have hjoin := ih (c == '\\')
      rw [hsplit] at hjoin ⊢
      rw [List.modifyHead_cons, ← hjoin]
      by_cases hrest : rest = []
      · rw [hrest, joinLines_singleton, joinLines_singleton]
      · rw [joinLines_cons _ hrest, joinLines_cons _ hrest, List.cons_append]

/-- **Each visible line of a text belongs to one of its visible logical lines,** in order. -/
theorem flatMap_visibleLogicalLines (s : Text) :
    (visibleLogicalLines s).flatMap visibleLines = visibleLines s := by
  have hall : (logicalLines s).flatMap visibleLines = visibleLines s := by
    rw [← visibleLines_joinLines, logicalLines, joinLines_logicalLinesFrom]
  rw [← hall, visibleLogicalLines]
  induction logicalLines s with
  | nil => rfl
  | cons line ls ih =>
    cases hline : isVisible line with
    | true => rw [List.filter_cons_of_pos hline, List.flatMap_cons, List.flatMap_cons, ih]
    | false =>
      rw [List.filter_cons_of_neg (by rw [hline]; exact Bool.false_ne_true), List.flatMap_cons, ih,
        visibleLines_eq_nil_iff.2 hline, List.nil_append]

/-! ## What is read in lines with line feeds -/

/-- The logical lines of a text in which each of some lines has its line feed: a line goes on with
the next one if it ends in a backslash. -/
def regroup : List Text → List Text
  | [] => []
  | line :: ls =>
    if endsEscaped line then
      match regroup ls with
      | [] => [line ++ ['\n']]
      | next :: rest => (line ++ '\n' :: next) :: rest
    else line :: regroup ls

theorem regroup_cons (line : Text) (ls : List Text) :
    regroup (line :: ls)
      = if endsEscaped line then
          match regroup ls with
          | [] => [line ++ ['\n']]
          | next :: rest => (line ++ '\n' :: next) :: rest
        else line :: regroup ls := rfl

theorem regroup_eq_nil_iff {ls : List Text} : regroup ls = [] ↔ ls = [] := by
  cases ls with
  | nil => exact ⟨fun _ => rfl, fun _ => rfl⟩
  | cons line ls =>
    refine ⟨fun h => ?_, nofun⟩
    rw [regroup_cons] at h
    split at h
    · split at h <;> cases h
    · cases h

/-- The text behind the last of the lines is empty, and it belongs to the last line if that ends in a
backslash. -/
theorem logicalLines_fed {ls : List Text} (h : ∀ line ∈ ls, '\n' ∉ line) :
    logicalLines (fed ls) = regroup ls ++ [[]] ∨
      (logicalLines (fed ls) = regroup ls ∧ ls ≠ []) := by
  induction ls with
  | nil => exact .inl rfl
  | cons line ls ih =>
    have hrest := ih fun line hmem => h line (List.mem_cons_of_mem _ hmem)
    rw [fed_cons, logicalLines_append_lineFeed (h line List.mem_cons_self), regroup_cons]
    cases hends : endsEscaped line with
    | false =>
      rw [if_neg Bool.false_ne_true, if_neg Bool.false_ne_true]
      rcases hrest with hrest | ⟨hrest, -⟩
      · exact .inl (by rw [hrest]; rfl)
      · exact .inr ⟨by rw [hrest], List.cons_ne_nil _ _⟩
    | true =>
      rw [if_pos rfl, if_pos rfl]
      cases hgroups : regroup ls with
      | nil =>
        rw [regroup_eq_nil_iff.1 hgroups]
        exact .inr ⟨rfl, List.cons_ne_nil _ _⟩
      | cons next groups =>
        rw [hgroups] at hrest
        rcases hrest with hrest | ⟨hrest, -⟩
        · exact .inl (by rw [hrest]; rfl)
        · exact .inr ⟨by rw [hrest]; rfl, List.cons_ne_nil _ _⟩

/-- A group of visible lines has something to see in it. -/
theorem isVisible_of_mem_regroup {ls : List Text} (h : ∀ line ∈ ls, isVisible line = true) :
    ∀ line ∈ regroup ls, isVisible line = true := by
  have happend : ∀ line rest : Text, isVisible line = true → isVisible (line ++ rest) = true := by
    intro line rest hline
    rw [isVisible, isBlankText, List.all_append, Bool.not_and]
    rw [isVisible, isBlankText] at hline
    rw [hline, Bool.true_or]
  induction ls with
  | nil => exact fun line hline => absurd hline List.not_mem_nil
  | cons first ls ih =>
    have hfirst := h first List.mem_cons_self
    have hrest := ih fun line hmem => h line (List.mem_cons_of_mem _ hmem)
    -- The first group starts with the first line, which is visible, and may go on in another group.
    intro line hline
    rw [regroup_cons] at hline
    split at hline
    · split at hline
      · rw [List.mem_singleton.1 hline]
        exact happend _ _ hfirst
      · rename_i next rest hgroups
        rw [hgroups] at hrest
        rcases List.mem_cons.1 hline with rfl | hline
        · exact happend _ _ hfirst
        · exact hrest line (List.mem_cons_of_mem _ hline)
    · rcases List.mem_cons.1 hline with rfl | hline
      · exact hfirst
      · exact hrest line hline

/-- **What is read in visible lines with line feeds.** -/
theorem visibleLogicalLines_fed {ls : List Text} (hunbroken : ∀ line ∈ ls, '\n' ∉ line)
    (hvisible : ∀ line ∈ ls, isVisible line = true) :
    visibleLogicalLines (fed ls) = regroup ls := by
  have hgroups : (regroup ls).filter isVisible = regroup ls :=
    List.filter_eq_self.2 (isVisible_of_mem_regroup hvisible)
  rw [visibleLogicalLines]
  rcases logicalLines_fed hunbroken with h | ⟨h, -⟩
  · rw [h, List.filter_append, hgroups]
    exact List.append_nil _
  · rw [h, hgroups]

/-! ## One group -/

/-- **A logical line that is kept:** the join of its visible lines, without a backslash at its end. -/
def Kept (line : Text) : Prop := joinLines (visibleLines line) = line ∧ endsEscaped line = false

/-- **The first group takes some of the lines,** which are joined in it. If it ends in a backslash
then it takes all of them, and holds the last line feed as well. -/
theorem exists_group {ls : List Text} {first : Text} {rest : List Text}
    (hvisible : ∀ line ∈ ls, isVisible line = true) (h : regroup ls = first :: rest) :
    ∃ taken left, ls = taken ++ left ∧ taken ≠ [] ∧ regroup left = rest ∧
      ((first = joinLines taken ∧ endsEscaped first = false) ∨ (first = fed taken ∧ left = [])) := by
  induction ls generalizing first rest with
  | nil => cases h
  | cons line ls ih =>
    rw [regroup_cons] at h
    cases hends : endsEscaped line with
    | false =>
      rw [hends, if_neg Bool.false_ne_true] at h
      obtain ⟨rfl, rfl⟩ := List.cons.inj h
      exact ⟨[line], ls, rfl, List.cons_ne_nil _ _, rfl, .inl ⟨(joinLines_singleton line).symm, hends⟩⟩
    | true =>
      -- The line goes on in the first group of those below, if there is one.
      rw [hends, if_pos rfl] at h
      cases hgroups : regroup ls with
      | nil =>
        rw [hgroups] at h
        obtain ⟨rfl, rfl⟩ := List.cons.inj h
        rw [regroup_eq_nil_iff.1 hgroups]
        exact ⟨[line], [], rfl, List.cons_ne_nil _ _, rfl, .inr ⟨(fed_cons line []).symm, rfl⟩⟩
      | cons next groups =>
        rw [hgroups] at h
        obtain ⟨rfl, rfl⟩ := List.cons.inj h
        obtain ⟨taken, left, rfl, hne, hleft, hcase⟩ :=
          ih (fun line hmem => hvisible line (List.mem_cons_of_mem _ hmem)) hgroups
        refine ⟨line :: taken, left, rfl, List.cons_ne_nil _ _, hleft, ?_⟩
        rcases hcase with ⟨rfl, hend⟩ | ⟨rfl, hnil⟩
        · left
          have hjoin : joinLines taken ≠ [] := by
            apply joinLines_ne_nil hne
            intro other hmem
            exact ne_nil_of_isVisible
              (hvisible other (List.mem_cons_of_mem _ (List.mem_append_left _ hmem)))
          refine ⟨(joinLines_cons line hne).symm, ?_⟩
          rw [endsEscaped_append (List.cons_ne_nil _ _)]
          exact (endsEscaped_append (s := ['\n']) hjoin).trans hend
        · exact .inr ⟨(fed_cons line taken).symm, hnil⟩

/-- Where a line with its line feed does not end a logical line, it ends in a backslash. -/
theorem of_logicalLines_append_lineFeed {p s : Text} (hp : '\n' ∉ p)
    (h : logicalLines (p ++ '\n' :: s) = [p ++ '\n' :: s]) :
    endsEscaped p = true ∧ logicalLines s = [s] := by
  rw [logicalLines_append_lineFeed hp] at h
  cases hends : endsEscaped p with
  | false =>
    rw [hends, if_neg Bool.false_ne_true] at h
    exact absurd (List.cons.inj h).2 (logicalLinesFrom_ne_nil false s)
  | true =>
    rw [hends, if_pos rfl] at h
    obtain ⟨line, rest, hsplit⟩ := List.exists_cons_of_ne_nil (logicalLinesFrom_ne_nil false s)
    rw [logicalLines, hsplit, List.modifyHead_cons] at h
    obtain ⟨hline, rfl⟩ := List.cons.inj h
    have hsame := List.cons.inj (List.append_cancel_left hline)
    rw [logicalLines, hsplit, hsame.2]
    exact ⟨rfl, rfl⟩

/-- **Lines that make up a kept logical line are gathered again,** whatever stands behind them. -/
theorem regroup_append {ls : List Text} (hne : ls ≠ []) (hunbroken : ∀ line ∈ ls, '\n' ∉ line)
    (hfull : ∀ line ∈ ls, line ≠ []) (hself : logicalLines (joinLines ls) = [joinLines ls])
    (hends : endsEscaped (joinLines ls) = false) (more : List Text) :
    regroup (ls ++ more) = joinLines ls :: regroup more := by
  induction ls with
  | nil => exact absurd rfl hne
  | cons line ls ih =>
    by_cases hls : ls = []
    · subst hls
      rw [joinLines_singleton] at hends ⊢
      rw [List.singleton_append, regroup_cons, hends, if_neg Bool.false_ne_true]
    · have hrest : joinLines ls ≠ [] :=
        joinLines_ne_nil hls fun other hmem => hfull other (List.mem_cons_of_mem _ hmem)
      -- A line feed within a logical line is escaped by the line in front of it.
      rw [joinLines_cons line hls] at hself hends ⊢
      obtain ⟨hline, hselfRest⟩ :=
        of_logicalLines_append_lineFeed (hunbroken line List.mem_cons_self) hself
      rw [endsEscaped_append (List.cons_ne_nil _ _),
        show endsEscaped ('\n' :: joinLines ls) = endsEscaped (joinLines ls) from
          endsEscaped_append (s := ['\n']) hrest] at hends
      rw [List.cons_append, regroup_cons, hline, if_pos rfl,
        ih hls (fun other hmem => hunbroken other (List.mem_cons_of_mem _ hmem))
          (fun other hmem => hfull other (List.mem_cons_of_mem _ hmem)) hselfRest hends]

/-- So are lines that all end in a backslash, but they keep their last line feed. -/
theorem regroup_fed {ls : List Text} (hne : ls ≠ []) (hunbroken : ∀ line ∈ ls, '\n' ∉ line)
    (hself : logicalLines (fed ls) = [fed ls]) : regroup ls = [fed ls] := by
  induction ls with
  | nil => exact absurd rfl hne
  | cons line ls ih =>
    rw [fed_cons] at hself ⊢
    obtain ⟨hline, hrest⟩ :=
      of_logicalLines_append_lineFeed (hunbroken line List.mem_cons_self) hself
    rw [regroup_cons, hline, if_pos rfl]
    by_cases hls : ls = []
    · rw [hls]
      rfl
    · rw [ih hls (fun other hmem => hunbroken other (List.mem_cons_of_mem _ hmem)) hrest]

/-! ## All of them -/

/-- **Logical lines that survive the assembly.** Each is kept, but the last one may end in a backslash
with a line feed. -/
structure Whole (ls : List Text) : Prop where
  inner : ∀ line ∈ ls.dropLast, Kept line
  last : ∀ line, ls.getLast? = some line → Kept line ∨ fed (visibleLines line) = line

theorem whole_singleton_iff {line : Text} :
    Whole [line] ↔ Kept line ∨ fed (visibleLines line) = line := by
  refine ⟨fun h => h.last line rfl, fun h => ⟨fun _ hmem => absurd hmem List.not_mem_nil, ?_⟩⟩
  rintro other ⟨⟩
  exact h

theorem whole_cons_iff {line : Text} {ls : List Text} (hls : ls ≠ []) :
    Whole (line :: ls) ↔ Kept line ∧ Whole ls := by
  have hdrop : (line :: ls).dropLast = line :: ls.dropLast := List.dropLast_cons_of_ne_nil hls
  have hlast : (line :: ls).getLast? = ls.getLast? := by
    rw [List.getLast?_cons, List.getLast?_eq_some_getLast hls]
    rfl
  refine ⟨fun h => ⟨?_, ?_, ?_⟩, fun ⟨hline, h⟩ => ⟨?_, ?_⟩⟩
  · exact h.inner line (by rw [hdrop]; exact List.mem_cons_self)
  · exact fun other hmem => h.inner other (by rw [hdrop]; exact List.mem_cons_of_mem _ hmem)
  · exact fun other hother => h.last other (by rw [hlast]; exact hother)
  · intro other hmem
    rw [hdrop] at hmem
    rcases List.mem_cons.1 hmem with rfl | hmem
    · exact hline
    · exact h.inner other hmem
  · intro other hother
    rw [hlast] at hother
    exact h.last other hother

/-- A visible logical line has a visible line. -/
theorem visibleLines_ne_nil {line : Text} (h : isVisible line = true) : visibleLines line ≠ [] := by
  intro hnil
  rw [visibleLines_eq_nil_iff, h] at hnil
  cases hnil

theorem lineFeed_notMem_of_mem {s line : Text} (h : line ∈ visibleLines s) : '\n' ∉ line := by
  intro hmem
  have hbreak := (of_mem_visibleLines h).2 _ hmem
  rw [isLineBreak_lineFeed] at hbreak
  cases hbreak

/-- A visible line of visible lines is its own visible line. -/
theorem visible_of_mem_flatMap {ls : List Text} {other : Text} (h : other ∈ ls.flatMap visibleLines) :
    visibleLines other = [other] ∧ isVisible other = true := by
  obtain ⟨source, -, hsource⟩ := List.mem_flatMap.1 h
  exact ⟨visibleLines_of_mem hsource, (of_mem_visibleLines hsource).1⟩

/-- **The first line is read again from the lines that it was cut into,** for the first group is cut into
its own lines again. Either nothing is lost of it, or it is the last one and ends in a line feed. -/
theorem of_regroup_cons {line : Text} {ls : List Text}
    (h : regroup ((line :: ls).flatMap visibleLines) = line :: ls) :
    regroup (ls.flatMap visibleLines) = ls ∧
      (Kept line ∨ fed (visibleLines line) = line ∧ ls.flatMap visibleLines = []) := by
  obtain ⟨taken, left, happend, -, hleft, hcase⟩ :=
    exists_group (fun other hother => (visible_of_mem_flatMap hother).2) h
  have htaken : taken.flatMap visibleLines = taken :=
    flatMap_visibleLines_of_forall fun other hother =>
      (visible_of_mem_flatMap (by rw [happend]; exact List.mem_append_left _ hother)).1
  have hsame : visibleLines line = taken := by
    rcases hcase with ⟨heq, -⟩ | ⟨heq, -⟩
    · rw [heq, visibleLines_joinLines, htaken]
    · rw [heq, visibleLines_fed, htaken]
  rw [List.flatMap_cons, hsame] at happend
  have hbehind := List.append_cancel_left happend
  rw [← hbehind] at hleft
  refine ⟨hleft, ?_⟩
  rcases hcase with ⟨heq, hends⟩ | ⟨heq, hnil⟩
  · exact .inl ⟨by rw [hsame, ← heq], hends⟩
  · exact .inr ⟨by rw [hsame, ← heq], hbehind.trans hnil⟩

theorem whole_of_regroup {ls : List Text} (h : regroup (ls.flatMap visibleLines) = ls) : Whole ls := by
  induction ls with
  | nil => exact ⟨fun _ hmem => absurd hmem List.not_mem_nil, nofun⟩
  | cons line ls ih =>
    obtain ⟨hrest, hline⟩ := of_regroup_cons h
    by_cases hls : ls = []
    · rw [hls]
      exact whole_singleton_iff.2 (hline.imp_right And.left)
    · refine (whole_cons_iff hls).2 ⟨hline.resolve_right fun hlast => hls ?_, ih hrest⟩
      -- Behind a line that takes the last line feed there is nothing left.
      rw [hlast.2] at hrest
      exact hrest.symm

theorem regroup_of_whole {ls : List Text} (hself : ∀ line ∈ ls, logicalLines line = [line])
    (hvisible : ∀ line ∈ ls, isVisible line = true) (h : Whole ls) :
    regroup (ls.flatMap visibleLines) = ls := by
  induction ls with
  | nil => rfl
  | cons line ls ih =>
    have hrest := ih (fun other hmem => hself other (List.mem_cons_of_mem _ hmem))
      (fun other hmem => hvisible other (List.mem_cons_of_mem _ hmem))
    have hline := visibleLines_ne_nil (hvisible line List.mem_cons_self)
    have hlineSelf := hself line List.mem_cons_self
    have hunbroken : ∀ other ∈ visibleLines line, '\n' ∉ other :=
      fun other hother => lineFeed_notMem_of_mem hother
    have hkept : Kept line → regroup (visibleLines line ++ ls.flatMap visibleLines)
        = line :: regroup (ls.flatMap visibleLines) := by
      rintro ⟨hjoin, hends⟩
      rw [regroup_append hline hunbroken
        (fun other hother => ne_nil_of_isVisible (of_mem_visibleLines hother).1)
        (by rw [hjoin]; exact hlineSelf) (by rw [hjoin]; exact hends), hjoin]
    rw [List.flatMap_cons]
    by_cases hls : ls = []
    · rw [hls] at h hkept ⊢
      rcases whole_singleton_iff.1 h with hline' | hfed
      · rw [hkept hline']
        rfl
      · rw [List.flatMap_nil, List.append_nil,
          regroup_fed hline hunbroken (by rw [hfed]; exact hlineSelf), hfed]
    · obtain ⟨hline', hwhole⟩ := (whole_cons_iff hls).1 h
      rw [hkept hline', hrest hwhole]

/-- **Logical lines are read again from their visible lines if and only if they are whole.** -/
theorem regroup_eq_self_iff {ls : List Text} (hself : ∀ line ∈ ls, logicalLines line = [line])
    (hvisible : ∀ line ∈ ls, isVisible line = true) :
    regroup (ls.flatMap visibleLines) = ls ↔ Whole ls :=
  ⟨whole_of_regroup, regroup_of_whole hself hvisible⟩

/-- **The visible logical lines of a text, against those of its visible lines.** -/
theorem visibleLogicalLines_fed_iff (s : Text) :
    visibleLogicalLines (fed (visibleLines s)) = visibleLogicalLines s
      ↔ Whole (visibleLogicalLines s) := by
  rw [visibleLogicalLines_fed (fun line hline => lineFeed_notMem_of_mem hline)
    (fun line hline => (of_mem_visibleLines hline).1), ← flatMap_visibleLogicalLines]
  apply regroup_eq_self_iff
  · intro line hline
    exact logicalLines_of_mem (List.mem_filter.1 hline).1
  · intro line hline
    exact (List.mem_filter.1 hline).2

end Text

/-! ## The body of a compiled text -/

namespace Library

open Text (visibleLines visibleLogicalLines fed Whole)

/-- **The logical lines of a walked text survive in the body if and only if they are whole.** The
text is one without a version and without anything that is read as a precision statement, and the
library declares no version. -/
theorem logicalLines_kept_iff {library : Library} {name : FileName} {source walked : Text}
    {defines : Value}
    (hwalked : (library.composer.process name (CompiledText.dropGuard source) defines).result
      = .ok walked)
    (hversion : library.versionText? = none)
    (hprecision : CompiledText.dropPrecision false walked = walked)
    (hdirective : CompiledText.cutVersion? (Text.lines walked) = none) :
    ∃ below, (library.compileBody name source defines).result
        = .ok (fed (visibleLines (CompiledText.precisionLine library.precision.display)) ++ below) ∧
      (visibleLogicalLines below = visibleLogicalLines walked
        ↔ Whole (visibleLogicalLines walked)) := by
  refine ⟨fed (visibleLines walked), ?_, Text.visibleLogicalLines_fed_iff walked⟩
  rw [Composer.result_process] at hwalked
  rw [result_compileBody, hwalked, hversion, Except.map, CompiledText.body_eq, hprecision,
    CompiledText.withHeader, hdirective]
  dsimp only
  rw [List.flatMap_cons, Text.fed_append, Text.flatMap_visibleLines_lines]

/-- A macro whose last line is blank. -/
def openMacro : Text := "#define A \\\n\nint b;"

/-- The text that is walked for it. -/
def openMacroWalked : Text := "\n#define A \\\n\nint b;\n"

/-- A library without anything in it. -/
def emptyLibrary : Library := (DrawContext.around .recording).library

theorem walked_openMacro :
    (emptyLibrary.composer.process (.text "x") (CompiledText.dropGuard openMacro) .null).result
      = .ok openMacroWalked := by
  apply ok_of_toOption
  decide +kernel

/-- **A logical line can run into the next one.** The source holds neither a version nor a precision
statement, and the library nothing at all. In the walked text the blank line ends what the macro
leaves open; in the body the line below has become part of the macro. -/
theorem joins_dropped_line : ¬ ∀ (library : Library) (name : FileName) (source walked below : Text),
    '\r' ∉ source → Text.hasPart "version" source = false →
    Text.hasPart "precision" source = false → library.composer.transforms = [] →
    library.macros.toList = [] → library.versionText? = none →
    (library.composer.process name (CompiledText.dropGuard source) .null).result = .ok walked →
    (library.compileBody name source .null).result
      = .ok (fed (visibleLines (CompiledText.precisionLine library.precision.display)) ++ below) →
    visibleLogicalLines below = visibleLogicalLines walked := by
  intro h
  have hcompiled : (emptyLibrary.compileBody (.text "x") openMacro .null).result
      = .ok (fed (visibleLines (CompiledText.precisionLine emptyLibrary.precision.display))
          ++ String.toList "#define A \\\nint b;\n") := by
    apply ok_of_toOption
    decide +kernel
  have hsame := h emptyLibrary (.text "x") openMacro _ _ (by decide) (by decide) (by decide) rfl rfl
    rfl walked_openMacro hcompiled
  revert hsame
  decide +kernel

/-- The same source, as a case of the general statement: its logical lines are not whole. -/
theorem logicalLines_kept_iff_of_open_macro :
    CompiledText.dropPrecision false openMacroWalked = openMacroWalked ∧
      CompiledText.cutVersion? (Text.lines openMacroWalked) = none ∧
      ∃ below, (emptyLibrary.compileBody (.text "x") openMacro .null).result
          = .ok (fed (visibleLines (CompiledText.precisionLine emptyLibrary.precision.display))
              ++ below) ∧
        (visibleLogicalLines below = visibleLogicalLines openMacroWalked
          ↔ Whole (visibleLogicalLines openMacroWalked)) := by
  have hprecision : CompiledText.dropPrecision false openMacroWalked = openMacroWalked := by
    decide +kernel
  have hdirective : CompiledText.cutVersion? (Text.lines openMacroWalked) = none := by
    decide +kernel
  exact ⟨hprecision, hdirective,
    logicalLines_kept_iff walked_openMacro rfl hprecision hdirective⟩

end Library

end GlslCompose
