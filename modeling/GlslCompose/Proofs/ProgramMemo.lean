/-
`Proofs/ProgramMemo.lean` -- for which texts a pair asks the layer for a program, and which
programs it keeps.

The memo of programs pushes out what has been in it longest, and to find a program there
does not make it younger. One might fear that the program in use is pushed out, or that
texts are registered again that were registered only lately. Neither can be. The memo takes
an entry in only where texts are registered, and then their program is the one in use. So
over a layer that hands out a program whenever it is asked, the memo is nothing but the last
registrations, sixteen of them or all if there are fewer (`Keeps`), and texts that are
among those are not asked for.

A run is that of one pair, frame by frame. Whatever the pair shares with others may be
anything in each frame, and so may its defines: since the last frame others may have changed
the library, and have registered programs of their own.
-/
import GlslCompose.Proofs.UpdateFailure
import Mathlib.Data.List.Dedup
import Mathlib.Data.List.DropRight
import Mathlib.Data.List.Perm.Subperm

set_option autoImplicit false

namespace GlslCompose

/-! ## The youngest entries of a memo -/

namespace Memo

variable {κ ν : Type} [BEq κ] [LawfulBEq κ] {key : κ} {value : ν} {memo : List (κ × ν)}

/-- What has a value stands among the keys. -/
theorem mem_keys_iff : key ∈ Pairs.keys memo ↔ ∃ value, Pairs.get? key memo = some value := by
  induction memo with
  | nil => simp [Pairs.keys, Pairs.get?]
  | cons entry rest ih =>
    obtain ⟨k, v⟩ := entry
    rw [Pairs.keys] at ih ⊢
    rw [List.map_cons, List.mem_cons, Pairs.get?]
    by_cases hk : (k == key) = true
    · rw [if_pos hk]
      exact ⟨fun _ => ⟨v, rfl⟩, fun _ => .inl (beq_iff_eq.1 hk).symm⟩
    · rw [if_neg hk, ← ih]
      exact or_iff_right fun heq => hk (beq_iff_eq.2 heq.symm)

/-- A new key goes behind the others, and pushes the first out of a memo that is full. -/
theorem remember_of_notMem (h : key ∉ Pairs.keys memo) (value : ν) :
    remember key value memo
      = (if capacity ≤ memo.length then memo.drop 1 else memo) ++ [(key, value)] := by
  have hhas : Pairs.has key memo = false := by
    rw [Pairs.has, Option.isSome_eq_false_iff, Option.isNone_iff_eq_none,
      Option.eq_none_iff_forall_ne_some]
    exact fun value hget => h (mem_keys_iff.2 ⟨value, hget⟩)
  simp only [remember, hhas, Bool.not_false, Bool.true_and, decide_eq_true_eq]
  refine Pairs.put_of_not_mem (fun hmem => h ?_) value
  split at hmem
  · rw [Pairs.keys, List.map_drop] at hmem
    exact List.mem_of_mem_drop hmem
  · exact hmem

/-- **A memo that took in new keys only has the last of them.** -/
theorem keys_remember_of_notMem {keys : List κ} (hkeys : Pairs.keys memo = keys.rtake capacity)
    (h : key ∉ Pairs.keys memo) (value : ν) :
    Pairs.keys (remember key value memo) = (keys ++ [key]).rtake capacity := by
  have hlength : memo.length = (keys.rtake capacity).length := by
    rw [← hkeys, Pairs.keys, List.length_map]
  have hdrop : Pairs.keys (memo.drop 1) = (keys.rtake capacity).drop 1 := by
    rw [← hkeys, Pairs.keys, Pairs.keys, List.map_drop]
  rw [List.rtake, List.length_drop] at hlength
  rw [remember_of_notMem h, Pairs.keys, List.map_append, ← Pairs.keys]
  have hlast : (keys ++ [key]).rtake capacity = keys.rtake (capacity - 1) ++ [key] :=
    List.rtake_concat_succ keys (capacity - 1) key
  rw [hlast]
  refine congrArg (· ++ [key]) ?_
  have hcapacity : capacity = 16 := rfl
  split
  · rw [hdrop, List.rtake, List.rtake, List.drop_drop]
    exact congrArg (List.drop · keys) (by omega)
  · rw [hkeys, List.rtake, List.rtake]
    exact congrArg (List.drop · keys) (by omega)

end Memo

namespace ShaderPair

section Asking

variable {drawing behind other : Drawing} {listing : Bool} {state : List (Value × Value)}
  {texts : ProgramTexts}

/-! ## What a layer is asked for -/

/-- **Where texts are put in place, there is one way to do it.** -/
theorem Course.unique (h : Course drawing listing state (.ok true) behind)
    (hother : Course drawing listing state (.ok true) other) : other = behind := by
  cases h with
  | compiled hready _ hdue hcompiled =>
    cases hother with
    | compiled hready' _ _ hcompiled' =>
      obtain ⟨rfl, rfl⟩ := hready.unique hready'
      rw [Except.ok.inj (hcompiled.symm.trans hcompiled')]
    | swapped hready' hdue' _ =>
      obtain ⟨rfl, rfl⟩ := hready.unique hready'
      exact absurd hdue' hdue
  | swapped hready hdue _ =>
    cases hother with
    | compiled hready' _ hdue' _ =>
      obtain ⟨rfl, rfl⟩ := hready.unique hready'
      exact absurd hdue hdue'
    | swapped hready' _ _ =>
      obtain ⟨rfl, rfl⟩ := hready.unique hready'
      rfl

/-- **An update asks the layer for a program:** it puts texts in place, and the pair keeps no program
under their key. -/
structure Asks (drawing : Drawing) (listing : Bool) (state : List (Value × Value))
    (texts : ProgramTexts) : Prop where
  texts_ne : texts ≠ ⟨none, none⟩
  unknown : (Pairs.get? (programKey texts) drawing.pair.programs).join = none
  placed : ∃ behind, Course drawing listing state (.ok true) behind ∧ behind.pair.compiled = texts

/-- **What an update does to the programs of a pair,** and what it asks of the layer. -/
inductive ProgramStep (drawing : Drawing) (listing : Bool) (state : List (Value × Value))
    (new : Drawing) : Prop
  /-- No texts are put in place, or none is left. -/
  | stayed (programs : new.pair.programs = drawing.pair.programs)
      (program : new.pair.program = drawing.pair.program)
      (commands : new.context.commands = drawing.context.commands)
      (compiled : new.pair.compiled = drawing.pair.compiled ∨ new.pair.compiled = ⟨none, none⟩)
  /-- A program is kept for them. -/
  | found {index : Nat} (programs : new.pair.programs = drawing.pair.programs)
      (program : new.pair.program = some index)
      (commands : new.context.commands = drawing.context.commands)
      (known : Pairs.get? (programKey new.pair.compiled) drawing.pair.programs = some (some index))
  /-- The layer is asked, and takes them. -/
  | registered {handsOut : Bool} (asks : Asks drawing listing state new.pair.compiled)
      (accept : drawing.context.commands.accept new.pair.compiled = .ok handsOut)
      (program : new.pair.program
        = if handsOut then some drawing.context.commands.programs.length else none)
      (programs : new.pair.programs
        = Memo.remember (programKey new.pair.compiled) new.pair.program drawing.pair.programs)
      (commands : new.context.commands.programs
        = drawing.context.commands.programs ++ [new.pair.compiled])
  /-- The layer is asked, and refuses them. -/
  | refused {fault : Fault} (asks : Asks drawing listing state new.pair.compiled)
      (accept : drawing.context.commands.accept new.pair.compiled = .error fault)
      (programs : new.pair.programs = drawing.pair.programs)
      (program : new.pair.program = drawing.pair.program)
      (commands : new.context.commands = drawing.context.commands)

theorem programStep_update (drawing : Drawing) (listing : Bool) (state : List (Value × Value)) :
    ProgramStep drawing listing state (update drawing listing state).state := by
  rcases update_cases drawing listing state with
    ⟨fault, hcourse, -⟩ | ⟨hcourse, -⟩ | ⟨outcome, behind, hcourse, hprogrammed, -⟩
  · have huntouched := hcourse.untouched
    exact .stayed huntouched.programs huntouched.program hcourse.context.1
      (.inl (hcourse.unbuilt (by simp)).compiled)
  · have huntouched := hcourse.untouched
    exact .stayed huntouched.programs huntouched.program hcourse.context.1
      (.inl (hcourse.unbuilt (by simp)).compiled)
  · have huntouched := hcourse.untouched
    have hcommands := hcourse.context.1
    -- From here on it is seen to the program of the texts that were put in place.
    generalize (update drawing listing state).state = new at hprogrammed ⊢
    cases hprogrammed with
    | textless hnone => exact .stayed huntouched.programs huntouched.program hcommands (.inr hnone)
    | known htexts hknown =>
      rw [huntouched.programs] at hknown
      cases hget : Pairs.get? (programKey behind.pair.compiled) drawing.pair.programs with
      | none => rw [hget] at hknown; cases hknown
      | some value =>
        rw [hget] at hknown
        obtain rfl : value = some _ := hknown
        exact .found huntouched.programs rfl hcommands hget
    | created htexts hunknown haccept =>
      rw [huntouched.programs] at hunknown
      rw [hcommands] at haccept
      refine .registered ⟨htexts, hunknown, behind, hcourse, rfl⟩ haccept ?_ ?_ ?_
      · rw [hcommands]
      · rw [huntouched.programs]
      · rw [hcommands]
    | refused htexts hunknown hrefused =>
      rw [huntouched.programs] at hunknown
      rw [hcommands] at hrefused
      exact .refused ⟨htexts, hunknown, behind, hcourse, rfl⟩ hrefused huntouched.programs
        huntouched.program hcommands

/-- **What is asked for is asked for:** the layer takes the texts if it accepts them, and otherwise the
update fails with what the layer says. -/
theorem Asks.called (h : Asks drawing listing state texts) :
    (∀ handsOut, drawing.context.commands.accept texts = .ok handsOut →
      (update drawing listing state).state.context.commands.programs
        = drawing.context.commands.programs ++ [texts]) ∧
    ∀ fault, drawing.context.commands.accept texts = .error fault →
      (update drawing listing state).result = .error fault := by
  obtain ⟨behind, hcourse, htexts⟩ := h.placed
  have hunknown := h.unknown
  rw [← htexts, ← hcourse.untouched.programs] at hunknown
  have htexts_ne := h.texts_ne
  rw [← htexts] at htexts_ne
  rw [← hcourse.context.1, ← htexts]
  rcases update_cases drawing listing state with
    ⟨fault, hother, -⟩ | ⟨hother, -⟩ | ⟨outcome, other, hother, hprogrammed, hresult⟩
  · cases hother.eq_verdict.trans hcourse.eq_verdict.symm
  · cases hother.eq_verdict.trans hcourse.eq_verdict.symm
  · -- The texts in place have no program that is known, so the layer is asked.
    obtain rfl := hcourse.unique hother
    rw [hresult]
    generalize (update drawing listing state).state = new at hprogrammed ⊢
    cases hprogrammed with
    | textless hnone => exact absurd hnone htexts_ne
    | known _ hknown => rw [hunknown] at hknown; cases hknown
    | created _ _ haccept =>
      refine ⟨fun handsOut _ => rfl, fun fault hfault => ?_⟩
      rw [haccept] at hfault
      cases hfault
    | refused _ _ hrefused =>
      refine ⟨fun handsOut haccept => ?_, fun fault hfault => ?_⟩
      · rw [hrefused] at haccept
        cases haccept
      · rw [hrefused] at hfault
        rw [← Except.error.inj hfault]
        rfl

/-! ## What the memo keeps -/

/-- **The memo of a pair that registered some texts,** and got a program for each: it holds the last of
them, no other, and the program in use. -/
structure Keeps (registered : List ProgramTexts) (pair : ShaderPair) : Prop where
  keys : Pairs.keys pair.programs = (registered.map programKey).rtake Memo.capacity
  made : ∀ entry ∈ pair.programs, entry.2.isSome = true
  current : ∀ index, pair.program = some index → ∃ key, (key, some index) ∈ pair.programs

variable {registered : List ProgramTexts} {pair : ShaderPair}

/-- Texts whose key is not found are none of the last that were registered. -/
theorem Keeps.notMem_keys (h : Keeps registered pair)
    (hunknown : (Pairs.get? (programKey texts) pair.programs).join = none) :
    programKey texts ∉ Pairs.keys pair.programs := by
  intro hmem
  obtain ⟨program, hget⟩ := Memo.mem_keys_iff.1 hmem
  have hsome := h.made _ (Memo.mem_of_get? hget)
  rw [hget] at hunknown
  rw [show program = none from hunknown] at hsome
  cases hsome

theorem Keeps.notMem_last (h : Keeps registered pair)
    (hunknown : (Pairs.get? (programKey texts) pair.programs).join = none) :
    texts ∉ registered.rtake Memo.capacity := by
  intro hmem
  refine h.notMem_keys hunknown ?_
  rw [h.keys, List.rtake, List.length_map, ← List.map_drop]
  exact List.mem_map_of_mem hmem

theorem Keeps.length_le (h : Keeps registered pair) : pair.programs.length ≤ Memo.capacity := by
  have hlength := congrArg List.length h.keys
  rw [Pairs.keys, List.length_map, List.rtake, List.length_drop] at hlength
  omega

/-- What a layer took during an update. -/
def newPrograms (drawing : Drawing) (listing : Bool) (state : List (Value × Value)) :
    List ProgramTexts :=
  (update drawing listing state).state.context.commands.programs.drop
    drawing.context.commands.programs.length

/-- **An update keeps it so,** if the layer hands out a program for what it is asked for. -/
theorem keeps_update (h : Keeps registered drawing.pair)
    (hanswered : ∀ texts, Asks drawing listing state texts →
      drawing.context.commands.accept texts = .ok true) :
    Keeps (registered ++ newPrograms drawing listing state)
      (update drawing listing state).state.pair := by
  rw [newPrograms]
  cases programStep_update drawing listing state with
  | stayed programs program commands _ =>
    rw [commands, List.drop_length, List.append_nil]
    refine ⟨programs ▸ h.keys, programs ▸ h.made, ?_⟩
    rw [programs, program]
    exact h.current
  | found programs program commands known =>
    rw [commands, List.drop_length, List.append_nil]
    refine ⟨programs ▸ h.keys, programs ▸ h.made, ?_⟩
    rw [programs, program]
    rintro index ⟨⟩
    exact ⟨_, Memo.mem_of_get? known⟩
  | registered asks accept program programs commands =>
    rw [hanswered _ asks] at accept
    cases accept
    rw [commands, List.drop_left]
    refine ⟨?_, ?_, ?_⟩
    · rw [programs, List.map_append]
      exact Memo.keys_remember_of_notMem h.keys (h.notMem_keys asks.unknown) _
    · intro entry hentry
      rw [programs] at hentry
      rcases Memo.mem_remember hentry with rfl | hold
      · rw [program]
        rfl
      · exact h.made entry hold
    -- The program in use is the entry that was taken in just now.
    · intro index hindex
      rw [programs, hindex]
      exact ⟨_, Memo.mem_of_get? (Pairs.get?_put_self _ _ _)⟩
  | refused asks accept _ _ _ =>
    rw [hanswered _ asks] at accept
    cases accept

end Asking

/-! ## Frames -/

/-- **A frame in the run of a pair:** what the pair shares with others and what its defines are by then,
and what it is brought up to date for. -/
structure Turn where
  context : DrawContext
  macros : MacroTable
  listing : Bool
  state : List (Value × Value)

namespace Turn

/-- The pair in its frame. -/
def drawing (turn : Turn) (pair : ShaderPair) : Drawing :=
  ⟨turn.context, { pair with macros := turn.macros }⟩

/-- The pair after the frame. -/
def after (turn : Turn) (pair : ShaderPair) : ShaderPair :=
  (update (turn.drawing pair) turn.listing turn.state).state.pair

/-- The layer is asked for a program of some texts in the frame. -/
def Asks (turn : Turn) (pair : ShaderPair) (texts : ProgramTexts) : Prop :=
  ShaderPair.Asks (turn.drawing pair) turn.listing turn.state texts

/-- The layer hands out a program if it is asked for one in the frame. -/
def Answers (turn : Turn) (pair : ShaderPair) : Prop :=
  ∀ texts, turn.Asks pair texts → turn.context.commands.accept texts = .ok true

/-- The texts that are registered in the frame. -/
def registered (turn : Turn) (pair : ShaderPair) : List ProgramTexts :=
  newPrograms (turn.drawing pair) turn.listing turn.state

/-- The texts that the pair has after the frame, if it has any. -/
def texts (turn : Turn) (pair : ShaderPair) : List ProgramTexts :=
  if (turn.after pair).compiled = ⟨none, none⟩ then [] else [(turn.after pair).compiled]

end Turn

/-- The pair after some frames. -/
def afterAll (pair : ShaderPair) (turns : List Turn) : ShaderPair :=
  turns.foldl (fun pair turn => turn.after pair) pair

/-- What is gathered in some frames. -/
def gathered {α : Type} (f : Turn → ShaderPair → List α) (pair : ShaderPair) : List Turn → List α
  | [] => []
  | turn :: turns => f turn pair ++ gathered f (turn.after pair) turns

/-- The layer hands out a program whenever it is asked for one. -/
def Answered (pair : ShaderPair) : List Turn → Prop
  | [] => True
  | turn :: turns => turn.Answers pair ∧ Answered (turn.after pair) turns

/-- **The texts that a pair registers in a run,** in order. -/
def registrations (pair : ShaderPair) (turns : List Turn) : List ProgramTexts :=
  gathered Turn.registered pair turns

/-- **The pairs of texts of a run:** those that the pair has after its frames. -/
def textsOf (pair : ShaderPair) (turns : List Turn) : List ProgramTexts :=
  gathered Turn.texts pair turns

section Runs

variable {pair : ShaderPair} {seen : List ProgramTexts} {turn : Turn} {turns more : List Turn}

theorem Answered.left (h : pair.Answered (turns ++ more)) : pair.Answered turns := by
  induction turns generalizing pair with
  | nil => trivial
  | cons turn turns ih => exact ⟨h.1, ih h.2⟩

/-- A layer that always hands out a program does so whenever it is asked. -/
theorem answered_of_generous (h : ∀ turn ∈ turns, CommandLayer.Generous turn.context.commands.accept) :
    pair.Answered turns := by
  induction turns generalizing pair with
  | nil => trivial
  | cons turn turns ih =>
    obtain ⟨hturn, hturns⟩ := List.forall_mem_cons.1 h
    exact ⟨fun texts _ => hturn texts, ih hturns⟩

theorem keeps_afterAll (h : Keeps seen pair) (hanswered : pair.Answered turns) :
    Keeps (seen ++ pair.registrations turns) (pair.afterAll turns) := by
  induction turns generalizing pair seen with
  | nil => rwa [registrations, gathered, List.append_nil]
  | cons turn turns ih =>
    have hturn : Keeps seen (turn.drawing pair).pair := ⟨h.keys, h.made, h.current⟩
    have hrest := ih (keeps_update hturn hanswered.1) hanswered.2
    rw [List.append_assoc] at hrest
    exact hrest

theorem keeps_fresh (name : Value) (sources : Slots (Option ShaderSource)) (macros : MacroTable) :
    Keeps [] (fresh name sources macros) := ⟨rfl, nofun, nofun⟩

/-! ## Few texts -/

/-- **No texts were registered twice,** and those that were are those that the pair had. -/
structure Once (had registered : List ProgramTexts) (pair : ShaderPair) : Prop where
  nodup : registered.Nodup
  subset : registered ⊆ had
  superset : had ⊆ registered
  current : pair.compiled ≠ ⟨none, none⟩ → pair.compiled ∈ registered

/-- A frame that registers nothing keeps it so, if its texts were registered before. -/
theorem Once.of_registered_nil {had registered : List ProgramTexts} (h : Once had registered pair)
    (hnone : turn.registered pair = [])
    (hcurrent : (turn.after pair).compiled ≠ ⟨none, none⟩ → (turn.after pair).compiled ∈ registered) :
    Once (had ++ turn.texts pair) (registered ++ turn.registered pair) (turn.after pair) := by
  rw [hnone, List.append_nil]
  refine ⟨h.nodup, List.Subset.trans h.subset (List.subset_append_left _ _), ?_, hcurrent⟩
  refine List.append_subset.2 ⟨h.superset, ?_⟩
  rw [Turn.texts]
  split
  · exact List.nil_subset _
  · rename_i htexts
    exact List.cons_subset.2 ⟨hcurrent htexts, List.nil_subset _⟩

/-- While there are no more different texts than the memo holds, all that were registered are still in
it, and none is registered again. -/
theorem Once.after {had registered all : List ProgramTexts} (h : Once had registered pair)
    (hkeeps : Keeps registered pair) (hanswered : turn.Answers pair)
    (hfree : Digest.CollisionFree (all.map programText)) (hfew : all.dedup.length ≤ Memo.capacity)
    (hall : had ++ turn.texts pair ⊆ all) :
    Once (had ++ turn.texts pair) (registered ++ turn.registered pair) (turn.after pair) := by
  have hhad : had ⊆ all := List.Subset.trans (List.subset_append_left _ _) hall
  have hlength := (List.Nodup.subperm h.nodup fun _ hmem =>
    List.mem_dedup.2 (hhad (h.subset hmem))).length_le
  have hlast : registered.rtake Memo.capacity = registered := by
    rw [List.rtake, Nat.sub_eq_zero_of_le (hlength.trans hfew), List.drop_zero]
  rw [Turn.texts] at hall
  have hmem : (turn.after pair).compiled ≠ ⟨none, none⟩ → (turn.after pair).compiled ∈ all := by
    intro htexts
    rw [if_neg htexts] at hall
    exact hall (List.mem_append_right _ (List.mem_singleton.2 rfl))
  cases programStep_update (turn.drawing pair) turn.listing turn.state with
  | stayed _ _ commands compiled =>
    have hnone : turn.registered pair = [] := by
      rw [Turn.registered, newPrograms, commands, List.drop_length]
    refine h.of_registered_nil hnone fun htexts => ?_
    rcases compiled with hsame | hgone
    · have hcompiled : (turn.after pair).compiled = pair.compiled := hsame
      rw [hcompiled] at htexts ⊢
      exact h.current htexts
    · exact absurd hgone htexts
  | found _ _ commands known =>
    have hnone : turn.registered pair = [] := by
      rw [Turn.registered, newPrograms, commands, List.drop_length]
    refine h.of_registered_nil hnone fun htexts => ?_
    -- The key that was found is that of texts that were registered, and keys do not collide.
    have hkey : programKey (turn.after pair).compiled ∈ Pairs.keys pair.programs :=
      Memo.mem_keys_iff.2 ⟨_, known⟩
    rw [hkeeps.keys, List.rtake] at hkey
    obtain ⟨texts, htexts', hsame⟩ := List.mem_map.1 (List.mem_of_mem_drop hkey)
    rw [programKey_eq, programKey_eq] at hsame
    have heq := hfree _ (List.mem_map_of_mem (hhad (h.subset htexts'))) _
      (List.mem_map_of_mem (hmem htexts)) hsame
    rwa [← programText_injective heq]
  | registered asks accept _ _ commands =>
    have hnew : (turn.after pair).compiled ∉ registered := by
      rw [← hlast]
      exact hkeeps.notMem_last asks.unknown
    have hregistered : turn.registered pair = [(turn.after pair).compiled] := by
      rw [Turn.registered, newPrograms, commands, List.drop_left]
      rfl
    have htexts : turn.texts pair = [(turn.after pair).compiled] := if_neg asks.texts_ne
    rw [hregistered, htexts]
    refine ⟨?_, ?_, ?_, fun _ => List.mem_append_right _ (List.mem_singleton.2 rfl)⟩
    · exact h.nodup.append (List.nodup_singleton _) (by simpa using hnew)
    · exact List.append_subset.2 ⟨List.Subset.trans h.subset (List.subset_append_left _ _),
        List.subset_append_right _ _⟩
    · exact List.append_subset.2 ⟨List.Subset.trans h.superset (List.subset_append_left _ _),
        List.subset_append_right _ _⟩
  | refused asks accept _ _ _ => exact absurd ((hanswered _ asks).symm.trans accept) nofun

theorem once_afterAll {had registered all : List ProgramTexts} (h : Once had registered pair)
    (hkeeps : Keeps registered pair) (hanswered : pair.Answered turns)
    (hfree : Digest.CollisionFree (all.map programText)) (hfew : all.dedup.length ≤ Memo.capacity)
    (hall : had ++ pair.textsOf turns ⊆ all) :
    Once (had ++ pair.textsOf turns) (registered ++ pair.registrations turns)
      (pair.afterAll turns) := by
  induction turns generalizing pair had registered with
  | nil => rwa [textsOf, registrations, gathered, gathered, List.append_nil, List.append_nil]
  | cons turn turns ih =>
    rw [textsOf, gathered, ← List.append_assoc] at hall ⊢
    rw [registrations, gathered, ← List.append_assoc]
    have hturn : Keeps registered (turn.drawing pair).pair := ⟨hkeeps.keys, hkeeps.made, hkeeps.current⟩
    have hfirst := List.Subset.trans (List.subset_append_left _ _) hall
    exact ih (h.after hkeeps hanswered.1 hfree hfew hfirst) (keeps_update hturn hanswered.1)
      hanswered.2 hall

/-- **Identical programs are registered once.** Over a layer that hands out a program whenever it is
asked for one, a pair asks only for texts that are none of the last sixteen that it registered.
With no more different texts than that in the whole run, each of them is registered exactly once. The
memo never holds more programs, and never lets go of the one in use. -/
theorem registered_once {name : Value} {sources : Slots (Option ShaderSource)} {macros : MacroTable}
    {turns : List Turn} (hanswered : (fresh name sources macros).Answered turns) :
    (∀ before turn after, turns = before ++ turn :: after → ∀ texts,
      turn.Asks ((fresh name sources macros).afterAll before) texts →
      texts ∉ ((fresh name sources macros).registrations before).rtake 16) ∧
    (Digest.CollisionFree (((fresh name sources macros).textsOf turns).map programText) →
      ((fresh name sources macros).textsOf turns).dedup.length ≤ 16 →
      ∀ texts ∈ (fresh name sources macros).textsOf turns,
        ((fresh name sources macros).registrations turns).count texts = 1) ∧
    ∀ before, before <+: turns →
      ((fresh name sources macros).afterAll before).programs.length ≤ 16 ∧
      ∀ index, ((fresh name sources macros).afterAll before).program = some index →
        ∃ key, (key, some index) ∈ ((fresh name sources macros).afterAll before).programs := by
  have hkeeps : ∀ before, before <+: turns → Keeps ((fresh name sources macros).registrations before)
      ((fresh name sources macros).afterAll before) := by
    rintro before ⟨after, rfl⟩
    exact keeps_afterAll (keeps_fresh name sources macros) hanswered.left
  refine ⟨?_, fun hfree hfew texts htexts => ?_, fun before hbefore => ?_⟩
  · rintro before turn after rfl texts hasks
    exact (hkeeps before ⟨_, rfl⟩).notMem_last hasks.unknown
  · have hstart : Once [] [] (fresh name sources macros) :=
      ⟨List.nodup_nil, List.Subset.refl _, List.Subset.refl _, fun h => absurd rfl h⟩
    have honce := once_afterAll hstart (keeps_fresh name sources macros) hanswered hfree hfew
      (List.Subset.refl _)
    exact List.count_eq_one_of_mem honce.nodup (honce.superset htexts)
  · exact ⟨(hkeeps before hbefore).length_le, (hkeeps before hbefore).current⟩

end Runs

/-! ## A text that is compiled anew -/

/-- A sketch is drawn, and then drawn again with its text compiled anew. -/
def drawnAgain : List Turn := [false, true].map fun force =>
  ⟨.around .recording, .empty, false, (.text "force_compile", .bool force) :: frame "int a;"⟩

/-- The sketch as it is registered. -/
def sketchTexts : ProgramTexts :=
  ⟨some "precision mediump float;\n// sketch (vertex)\nint a;\n".toList, none⟩

theorem textsOf_drawnAgain :
    (fresh sketch.name sketch.sources .empty).textsOf drawnAgain = [sketchTexts, sketchTexts] := by
  decide +kernel

/-- In the second frame nothing is asked for, since the program of the first is kept. -/
theorem registered_once_of_text_compiled_anew :
    (fresh sketch.name sketch.sources .empty).Answered drawnAgain ∧
      Digest.CollisionFree
        (((fresh sketch.name sketch.sources .empty).textsOf drawnAgain).map programText) ∧
      ((fresh sketch.name sketch.sources .empty).textsOf drawnAgain).dedup.length ≤ 16 ∧
      ((fresh sketch.name sketch.sources .empty).textsOf drawnAgain).count sketchTexts = 2 ∧
      ((fresh sketch.name sketch.sources .empty).registrations drawnAgain).count sketchTexts = 1 := by
  have hanswered : (fresh sketch.name sketch.sources .empty).Answered drawnAgain := by
    refine answered_of_generous fun turn hturn => ?_
    obtain ⟨force, -, rfl⟩ := List.mem_map.1 hturn
    exact fun _ => rfl
  obtain ⟨-, honce, -⟩ := registered_once hanswered
  rw [textsOf_drawnAgain] at honce ⊢
  have hfree : Digest.CollisionFree ([sketchTexts, sketchTexts].map programText) := by
    decide +kernel
  have hfew : [sketchTexts, sketchTexts].dedup.length ≤ 16 := by
    decide +kernel
  exact ⟨hanswered, hfree, hfew, by decide +kernel, honce hfree hfew _ List.mem_cons_self⟩

end ShaderPair

end GlslCompose
