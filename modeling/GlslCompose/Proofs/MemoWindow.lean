/-
`Proofs/MemoWindow.lean` -- a memo is a window on the keys that were new to it, first in and
first out.

A memo that is full pushes out what has been in it longest, and to remember something under
a key that is there changes the value in its place. So the order in a memo tells when each
key came in, and not when it was used last; and a key that was pushed out comes in again as
a new one. What a call does depends on all the calls before it in this way: whether its key
is new (`freshKeys`) is a question to the memo that they have left.

The keys of the memo are then the last of those that were new, as many as it holds
(`Window`). One call moves the window on by its key or leaves it where it is
(`window_concat`), and the value at a key is that of the last call for it, because a call
for a key that is there writes to it, and a key that comes in again has lost its value.
-/
import GlslCompose.Proofs.ProgramMemo
import GlslCompose.Proofs.RememberedTexts

set_option autoImplicit false

namespace GlslCompose.Memo

section Calls

variable {κ ν : Type} {key : κ} {value : ν} {calls : List (κ × ν)}

/-! ## Calls -/

/-- **The latest call for a key** among some calls. -/
def IsLatest (key : κ) (value : ν) (calls : List (κ × ν)) : Prop :=
  ∃ before behind, calls = before ++ (key, value) :: behind ∧ ∀ call ∈ behind, call.1 ≠ key

theorem isLatest_concat_self (key : κ) (value : ν) (calls : List (κ × ν)) :
    IsLatest key value (calls ++ [(key, value)]) := ⟨calls, [], rfl, nofun⟩

/-- A call for another key leaves the latest call for a key what it is. -/
theorem IsLatest.concat (h : IsLatest key value calls) {other : κ} (hother : other ≠ key)
    (found : ν) : IsLatest key value (calls ++ [(other, found)]) := by
  obtain ⟨before, behind, rfl, hbehind⟩ := h
  refine ⟨before, behind ++ [(other, found)], by rw [List.append_assoc, List.cons_append], ?_⟩
  intro call hcall
  rcases List.mem_append.1 hcall with hold | hnew
  · exact hbehind call hold
  · obtain rfl := List.mem_singleton.1 hnew
    exact hother

variable [BEq κ]

/-- The memo that some calls leave, one after the other, of one without entries. -/
def ofCalls (calls : List (κ × ν)) : List (κ × ν) :=
  calls.foldl (fun memo (key, value) => remember key value memo) []

/-- The keys that are new to the memo when their turn comes, among some calls behind others. -/
def freshKeysFrom (before : List (κ × ν)) : List (κ × ν) → List κ
  | [] => []
  | call :: rest =>
    let later := freshKeysFrom (before ++ [call]) rest
    if Pairs.has call.1 (ofCalls before) then later else call.1 :: later

/-- **The fresh insertions of some calls,** by their keys and in order: those for a key that is not in
the memo at that moment. A key that was pushed out since is fresh again. -/
def freshKeys (calls : List (κ × ν)) : List κ := freshKeysFrom [] calls

theorem ofCalls_concat (calls : List (κ × ν)) (key : κ) (value : ν) :
    ofCalls (calls ++ [(key, value)]) = remember key value (ofCalls calls) := by
  rw [ofCalls, List.foldl_append]
  rfl

theorem freshKeysFrom_append (before calls more : List (κ × ν)) :
    freshKeysFrom before (calls ++ more)
      = freshKeysFrom before calls ++ freshKeysFrom (before ++ calls) more := by
  induction calls generalizing before with
  | nil => rw [List.append_nil]; rfl
  | cons call rest ih =>
    rw [List.cons_append, freshKeysFrom, freshKeysFrom, ih, List.append_assoc, List.singleton_append]
    split <;> rfl

theorem freshKeys_concat (calls : List (κ × ν)) (key : κ) (value : ν) :
    freshKeys (calls ++ [(key, value)])
      = freshKeys calls ++ if Pairs.has key (ofCalls calls) then [] else [key] := by
  rw [freshKeys, freshKeysFrom_append]
  rfl

end Calls

section Window

variable {κ ν : Type} [BEq κ] [LawfulBEq κ] {key : κ} {memo calls : List (κ × ν)}

/-! ## The window -/

theorem has_iff : Pairs.has key memo = true ↔ key ∈ Pairs.keys memo := by
  rw [Pairs.has, Option.isSome_iff_exists, mem_keys_iff]

/-- A key that is there keeps its place, and so do the others. -/
theorem keys_remember_of_mem (h : key ∈ Pairs.keys memo) (value : ν) :
    Pairs.keys (remember key value memo) = Pairs.keys memo := by
  have hhas : Pairs.has key memo = true := has_iff.2 h
  rw [remember, hhas, Bool.not_true, Bool.false_and, if_neg Bool.false_ne_true, Pairs.keys_put,
    if_pos h]

/-- **A memo is a window on what was new to it.** Its keys are the last ones of those, each of them stands
there once, and has the value of the latest call for it. -/
structure Window (calls memo : List (κ × ν)) : Prop where
  keys : Pairs.keys memo = (freshKeys calls).rtake capacity
  nodup : (Pairs.keys memo).Nodup
  latest : ∀ entry ∈ memo, IsLatest entry.1 entry.2 calls

/-- **One call moves the window on,** or leaves it where it is. -/
theorem window_concat (h : Window calls (ofCalls calls)) (key : κ) (value : ν) :
    Window (calls ++ [(key, value)]) (ofCalls (calls ++ [(key, value)])) := by
  rw [ofCalls_concat]
  refine ⟨?_, nodup_keys_remember h.nodup, ?_⟩
  · rw [freshKeys_concat]
    split
    · rename_i hhas
      rw [keys_remember_of_mem (has_iff.1 hhas), List.append_nil]
      exact h.keys
    · rename_i hhas
      exact keys_remember_of_notMem h.keys (fun hmem => hhas (has_iff.2 hmem)) value
  · intro entry hentry
    rcases mem_remember_of_nodup h.nodup hentry with rfl | ⟨hold, hne⟩
    · exact isLatest_concat_self key value calls
    · exact (h.latest entry hold).concat hne.symm value

/-- The memo that calls leave is a window on them, by induction on the calls from the last one. -/
theorem window_ofCalls (calls : List (κ × ν)) : Window calls (ofCalls calls) := by
  induction calls using List.reverseRecOn with
  | nil => exact ⟨rfl, List.nodup_nil, nofun⟩
  | append_singleton calls call ih => exact window_concat ih call.1 call.2

/-- **A bounded memo is a first-in first-out window.** Whatever was remembered in it, it has at most
sixteen entries; its keys in order are the last sixteen that were fresh when their turn came, or all of
them if there were fewer; and what is found at a key is the value of the latest call for it. -/
theorem memo_window (calls : List (κ × ν)) :
    (ofCalls calls).length ≤ 16 ∧
    Pairs.keys (ofCalls calls) = (freshKeys calls).rtake 16 ∧
    ∀ key ∈ Pairs.keys (ofCalls calls), ∃ value,
      Pairs.get? key (ofCalls calls) = some value ∧ IsLatest key value calls := by
  have hwindow := window_ofCalls calls
  have hkeys : Pairs.keys (ofCalls calls) = (freshKeys calls).rtake 16 := hwindow.keys
  refine ⟨?_, hkeys, ?_⟩
  · have hlength := congrArg List.length hkeys
    rw [Pairs.keys, List.length_map, List.rtake, List.length_drop] at hlength
    omega
  · intro key hkey
    obtain ⟨value, hget⟩ := mem_keys_iff.1 hkey
    exact ⟨value, hget, hwindow.latest _ (mem_of_get? hget)⟩

end Window

/-- Seventeen keys, of which the second gets another value, the first comes in again, and the sixth gets
another value as well. -/
def turnover : List (Nat × Nat) := (List.range 17).map (fun key => (key, 1)) ++ [(1, 2), (0, 3), (5, 4)]

/-- The key that was pushed out comes in behind the others, and pushes out the oldest one, which did not
become younger when its value was changed. -/
theorem memo_window_of_turnover :
    LawfulBEq Nat ∧
    Pairs.keys (ofCalls turnover) = [2, 3, 4, 5, 6, 7, 8, 9, 10, 11, 12, 13, 14, 15, 16, 0] ∧
    (freshKeys turnover).length = 18 ∧
    (ofCalls turnover).length ≤ 16 ∧
    Pairs.keys (ofCalls turnover) = (freshKeys turnover).rtake 16 ∧
    Pairs.get? 5 (ofCalls turnover) = some 4 ∧ IsLatest 5 4 turnover := by
  obtain ⟨hlength, hkeys, hlatest⟩ := memo_window turnover
  obtain ⟨value, hget, hvalue⟩ := hlatest 5 (by decide)
  have hfour : Pairs.get? 5 (ofCalls turnover) = some 4 := by decide
  obtain rfl := Option.some.inj (hfour.symm.trans hget)
  exact ⟨inferInstance, by decide, by decide, hlength, hkeys, hfour, hvalue⟩

end GlslCompose.Memo
