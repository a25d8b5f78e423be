/-
`Proofs/TemplateEnvironment.lean` -- a template is rendered in the environment of its variables
and the frame state.

The renderer does not look names up. It plans a scope for the template and for each way through
a loop, and gives each name that is mentioned there a place; what a name stands for is what was
put into its place when the scope was entered. `writeFrom` is the rendering without any of
that: an environment says what each name stands for, and a loop changes it for its item and for
`loop`.

The two agree because a scope agrees with the environment around it (`Agrees`): what its places
do not hold is what the name stands for outside of all loops. Entering a scope keeps that up
(`Agrees.enter`), as long as each place has one name, which is so unless two names of the
template spell the same.

What the names of a template stand for matters only where they are used, and so it does for what
can go wrong: a name that is undefined is a name of the template, and it stands for nothing in
the environment (`faultsIn_writeFrom`). The other faults are of values that are of the wrong
kind for what is done with them.
-/
import GlslCompose.Template.Render

set_option autoImplicit false

namespace GlslCompose

namespace Template

/-! ## Rendering in an environment -/

/-- What names stand for. -/
abbrev Environment := Text → Option Subject

namespace Environment

/-- What a name stands for, which it has to if it is used. -/
def get (env : Environment) (name : Text) : Except Fault Subject :=
  match env name with
  | some x => .ok x
  | none => .error (.undefinedName name)

/-- The environment inside a loop: the name of its items, and the loop itself, hide what is outside. -/
def inside (env : Environment) (item : Text) (x loop : Subject) : Environment := fun name =>
  if name = item then some x else if name = String.toList "loop" then some loop else env name

/-- **The environment of a template:** its variables, and its helpers behind them. The template itself has
a name if it is used before a loop takes it. -/
def ofVariables (vars : Text → Option Subject) (nodes : List Node) : Environment := fun name =>
  if name = String.toList "self" ∧ usesFirst? "self" nodes = some true then some Subject.template
  else (vars name).or (Pairs.get? name Subject.helpers)

/-- The scope in which some names stand for what they do in an environment. -/
def scope (env : Environment) (names : List Text) : Scope := ⟨[], names.map fun name => (name, env name)⟩

end Environment

mutual

/-- The text of a part of a template in an environment, and how far the loops around it have come. -/
def writeNode (env : Environment) (loops : Loops) : Node → Except Fault (Text × Loops)
  | .text s => .ok (s, loops)
  | .value x => (x.eval (env.scope x.names)).map fun x => (x.written loops, loops)
  | .choice test yes no =>
    match test.eval (env.scope test.names) with
    | .error fault => .error fault
    | .ok true => writeFrom env loops yes
    | .ok false => writeFrom env loops no
  | .loop item source body otherwise =>
    match (source.eval (env.scope source.names)).bind (Subject.start loops) with
    | .error fault => .error fault
    | .ok progress =>
      if (Loops.next? loops.length (progress :: loops)).isNone then writeFrom env loops otherwise
      else
        (goThrough loops.length
          (fun x loops' => writeFrom (env.inside item x (.loop loops.length)) loops' body)
          progress.length (progress :: loops)).map fun (s, loops) => (s, loops.tail)

/-- The text of the parts of a template in an environment, one after the other. -/
def writeFrom (env : Environment) (loops : Loops) : List Node → Except Fault (Text × Loops)
  | [] => .ok ([], loops)
  | node :: nodes =>
    match writeNode env loops node with
    | .error fault => .error fault
    | .ok (s, loops) => (writeFrom env loops nodes).map fun (t, loops) => (s ++ t, loops)

end

/-- **The text of a template in an environment.** -/
def rendering (env : Environment) (nodes : List Node) : Except Fault Text :=
  (writeFrom env [] nodes).map Prod.fst

/-! ## The names of a template -/

mutual

/-- All names in a part of a template, those of the items of its loops too. -/
def Node.mentions : Node → List Text
  | .text _ => []
  | .value x => x.names
  | .choice test yes no => test.names ++ mentionsOf yes ++ mentionsOf no
  | .loop item source body otherwise => item :: (source.names ++ mentionsOf body ++ mentionsOf otherwise)

/-- All names in parts of a template. -/
def mentionsOf : List Node → List Text
  | [] => []
  | node :: nodes => node.mentions ++ mentionsOf nodes

end

/-- No two names of a list spell the same. -/
def SpelledApart (names : List Text) : Prop :=
  ∀ name ∈ names, ∀ other ∈ names, Text.alike other name = true → other = name

theorem SpelledApart.mono {names fewer : List Text} (h : SpelledApart names) (hsub : fewer ⊆ names) :
    SpelledApart fewer := fun name hname other hother => h name (hsub hname) other (hsub hother)

mutual

/-- The names in the scope of a part are names of that part. -/
theorem Node.names_subset : ∀ node : Node, node.names ⊆ node.mentions
  | .text _ => List.Subset.refl _
  | .value _ => List.Subset.refl _
  | .choice test yes no => by
    have hyes := namesOf_subset yes
    have hno := namesOf_subset no
    intro name
    simp only [Node.names, Node.mentions, List.mem_append]
    exact Or.imp (Or.imp_right (hyes ·)) (hno ·)
  | .loop item source body otherwise => by
    intro name hname
    simp only [Node.mentions, List.mem_cons, List.mem_append]
    exact .inr (.inl (.inl hname))

theorem namesOf_subset : ∀ nodes : List Node, namesOf nodes ⊆ mentionsOf nodes
  | [] => List.Subset.refl _
  | node :: nodes => by
    have hnode := Node.names_subset node
    have hnodes := namesOf_subset nodes
    intro name
    simp only [namesOf, mentionsOf, List.mem_append]
    exact Or.imp (hnode ·) (hnodes ·)

end

mutual

/-- **A name is mentioned first somewhere,** or it is not a name of the part. -/
theorem uses?_eq_none_iff {name : Text} : ∀ {node : Node}, uses? name node = none ↔ name ∉ node.mentions
  | .text _ => by simp [uses?, Node.mentions]
  | .value x => by simp [uses?, Node.mentions]
  | .choice test yes no => by
    have hyes := @usesFirst?_eq_none_iff name yes
    have hno := @usesFirst?_eq_none_iff name no
    rw [uses?, Node.mentions, List.mem_append, List.mem_append, not_or, not_or, ← hyes, ← hno]
    by_cases htest : name ∈ test.names <;> simp [htest]
  | .loop item source body otherwise => by
    have hbody := @usesFirst?_eq_none_iff name body
    have hother := @usesFirst?_eq_none_iff name otherwise
    rw [uses?, Node.mentions, List.mem_cons, List.mem_append, List.mem_append, not_or, not_or, not_or,
      ← hbody, ← hother]
    by_cases hitem : name = item
    · simp [hitem]
    · by_cases hsource : name ∈ source.names <;> simp [hitem, Ne.symm hitem, hsource]

theorem usesFirst?_eq_none_iff {name : Text} :
    ∀ {nodes : List Node}, usesFirst? name nodes = none ↔ name ∉ mentionsOf nodes
  | [] => by simp [usesFirst?, mentionsOf]
  | node :: nodes => by
    have hnode := @uses?_eq_none_iff name node
    have hnodes := @usesFirst?_eq_none_iff name nodes
    rw [usesFirst?, mentionsOf, Option.or_eq_none_iff, hnode, hnodes, List.mem_append, not_or]

end

/-! ## Scopes -/

theorem get?_entry (name first : Text) (x : Subject) (rest : List (Text × Subject)) :
    Pairs.get? name ((first, x) :: rest) = if name = first then some x else Pairs.get? name rest := by
  rw [Pairs.get?]
  by_cases h : name = first
  · simp [h]
  · simp [h, Ne.symm h]

/-- What a function gives for each of some names is found at each of them. -/
theorem get?_graph (f : Text → Option Subject) (name : Text) (names : List Text) :
    Pairs.get? name (names.map fun name => (name, f name)) = if name ∈ names then some (f name) else none := by
  induction names with
  | nil => rfl
  | cons first rest ih =>
    rw [List.map_cons, Pairs.get?, ih]
    by_cases h : first = name
    · subst h
      simp
    · simp [h, Ne.symm h]

/-- **A scope agrees with an environment** on some names: what its places do not hold is what the name
stands for outside of all loops. -/
def Agrees (scope : Scope) (env : Environment) (names : List Text) : Prop :=
  ∀ name ∈ names, (Pairs.get? name scope.known).getD (Pairs.get? name scope.globals) = env name

/-- The places of a scope hold some names. -/
def Holds (scope : Scope) (names : List Text) : Prop := ∀ name ∈ names, Pairs.has name scope.known = true

section Scope

variable {scope : Scope} {env : Environment} {names fewer mentioned : List Text}
  {given : List (Text × Subject)}

theorem Agrees.mono (h : Agrees scope env names) (hsub : fewer ⊆ names) : Agrees scope env fewer :=
  fun name hname => h name (hsub hname)

theorem Holds.mono (h : Holds scope names) (hsub : fewer ⊆ names) : Holds scope fewer :=
  fun name hname => h name (hsub hname)

theorem Agrees.congr {other : Environment} (h : Agrees scope env names)
    (heq : ∀ name ∈ names, env name = other name) : Agrees scope other names :=
  fun name hname => (h name hname).trans (heq name hname)

/-- A name at a place stands for what it stands for in the environment. -/
theorem Agrees.get_eq (h : Agrees scope env names) (hholds : Holds scope names) {name : Text}
    (hname : name ∈ names) : scope.get name = env.get name := by
  obtain ⟨x, hx⟩ := Option.isSome_iff_exists.1 (hholds name hname)
  have henv := h name hname
  rw [hx, Option.getD_some] at henv
  rw [Scope.get, Environment.get, hx, ← henv]
  cases x <;> rfl

theorem has_iff {name : Text} : Pairs.has name given = true ↔ name ∈ given.map Prod.fst := by
  rw [Pairs.has, Option.isSome_iff_ne_none, ne_eq, Pairs.get?_eq_none_iff, Decidable.not_not]
  rfl

/-- The names that are new in a scope. -/
theorem mem_new_iff {name : Text} : name ∈ (mentioned.filter fun name =>
      !(given.map Prod.fst).contains name && !Pairs.has name scope.known).eraseDups ↔
    name ∈ mentioned ∧ name ∉ given.map Prod.fst ∧ Pairs.get? name scope.known = none := by
  rw [List.mem_eraseDups, List.mem_filter]
  simp [Pairs.has]

/-- The places of a scope that is entered, where no two names share one. -/
theorem exists_known_enter (hapart : SpelledApart (given.map Prod.fst ++ mentioned)) : ∃ new : List Text,
    (∀ name, name ∈ new ↔
      name ∈ mentioned ∧ name ∉ given.map Prod.fst ∧ Pairs.get? name scope.known = none) ∧
    (scope.enter (scope.plan (given.map Prod.fst) mentioned) given).known
      = (given.map Prod.fst ++ new).map (fun name => (name, if name ∈ given.map Prod.fst
          then Pairs.get? name given else Pairs.get? name scope.globals)) ++ scope.known := by
  refine ⟨_, fun name => mem_new_iff, ?_⟩
  have hnew := @mem_new_iff scope mentioned given
  unfold Scope.enter Scope.plan
  revert hnew
  generalize (mentioned.filter fun name =>
    !(given.map Prod.fst).contains name && !Pairs.has name scope.known).eraseDups = new
  intro hnew
  have hsub : given.map Prod.fst ++ new ⊆ given.map Prod.fst ++ mentioned := by
    intro other hother
    rcases List.mem_append.1 hother with hgiven | hother
    · exact List.mem_append_left _ hgiven
    · exact List.mem_append_right _ (hnew.1 hother).1
  -- The last name that spells the same as another one is that name itself.
  have hfills : ∀ name ∈ given.map Prod.fst ++ new,
      Scope.filler (Scope.spelled (given.map Prod.fst ++ new)) (Text.decomposed name) name = name :=
    fun name hname => Scope.filler_eq_self fun other hother => hapart.mono hsub name hname other hother
  dsimp only
  rw [show Scope.spelled (given.map Prod.fst ++ new)
    = (given.map Prod.fst ++ new).map fun name => (Text.decomposed name, name) from rfl] at hfills ⊢
  rw [List.map_map, List.map_map]
  congr 1
  refine List.map_congr_left fun name hname => ?_
  simp only [Function.comp_apply, hfills name hname]
  by_cases hgiven : name ∈ given.map Prod.fst
  · obtain ⟨x, hx⟩ := Option.isSome_iff_exists.1 (has_iff.2 hgiven)
    rw [if_pos hgiven, if_pos (has_iff.2 hgiven), hx]
    rfl
  · have hnone : Pairs.get? name given = none := Pairs.get?_eq_none_iff.2 hgiven
    have hmem : name ∈ new := (List.mem_append.1 hname).resolve_left hgiven
    rw [if_neg hgiven, if_neg (mt has_iff.1 hgiven), hnone]
    dsimp only
    rw [get?_graph, if_pos hmem]
    rfl

/-- **What is at the places of a scope that was entered:** what was given, then what stands for the names
that are mentioned and were at no place before. -/
theorem get?_enter (hapart : SpelledApart (given.map Prod.fst ++ mentioned)) (name : Text) :
    Pairs.get? name (scope.enter (scope.plan (given.map Prod.fst) mentioned) given).known
      = if name ∈ given.map Prod.fst then some (Pairs.get? name given)
        else if name ∈ mentioned ∧ Pairs.get? name scope.known = none
          then some (Pairs.get? name scope.globals)
        else Pairs.get? name scope.known := by
  obtain ⟨new, hnew, hknown⟩ := @exists_known_enter scope mentioned given hapart
  rw [hknown, Pairs.get?_append, get?_graph]
  by_cases hgiven : name ∈ given.map Prod.fst
  · rw [if_pos hgiven, if_pos hgiven, if_pos (List.mem_append_left _ hgiven)]
    rfl
  · rw [if_neg hgiven, if_neg hgiven]
    by_cases hmentioned : name ∈ mentioned ∧ Pairs.get? name scope.known = none
    · have hmem : name ∈ new := (hnew name).2 ⟨hmentioned.1, hgiven, hmentioned.2⟩
      rw [if_pos hmentioned, if_pos (List.mem_append_right _ hmem)]
      rfl
    · have hmem : name ∉ given.map Prod.fst ++ new := by
        rw [List.mem_append, not_or]
        exact ⟨hgiven, fun hmem => hmentioned ⟨((hnew name).1 hmem).1, ((hnew name).1 hmem).2.2⟩⟩
      rw [if_neg hmentioned, if_neg hmem]
      rfl

/-- **Entering a scope** puts what is given in front of the environment. -/
theorem Agrees.enter (h : Agrees scope env names)
    (hapart : SpelledApart (given.map Prod.fst ++ mentioned)) :
    Agrees (scope.enter (scope.plan (given.map Prod.fst) mentioned) given)
      (fun name => (Pairs.get? name given).or (env name)) names := by
  intro name hname
  have henv := h name hname
  rw [get?_enter hapart]
  dsimp only
  by_cases hgiven : name ∈ given.map Prod.fst
  · obtain ⟨x, hx⟩ := Option.isSome_iff_exists.1 (has_iff.2 hgiven)
    rw [if_pos hgiven, hx]
    rfl
  · rw [if_neg hgiven, show Pairs.get? name given = none from Pairs.get?_eq_none_iff.2 hgiven,
      Option.none_or, ← henv]
    split
    · rename_i hmentioned
      rw [hmentioned.2]
      rfl
    · rfl

theorem Holds.enter (hapart : SpelledApart (given.map Prod.fst ++ mentioned)) :
    Holds (scope.enter (scope.plan (given.map Prod.fst) mentioned) given) mentioned := by
  intro name hname
  rw [Pairs.has, get?_enter hapart]
  split
  · rfl
  · split
    · rfl
    · rename_i hmentioned
      exact Option.isSome_iff_ne_none.2 fun hnone => hmentioned ⟨hname, hnone⟩

/-! ## Scopes and environments -/

/-- An operand has the same value in scopes in which its names stand for the same. -/
theorem Operand.eval_congr {other : Scope} {x : Operand} (h : ∀ name ∈ x.names, scope.get name = other.get name) :
    x.eval scope = x.eval other := by
  cases x with
  | name n => exact h n List.mem_cons_self
  | int n => rfl
  | text points => rfl
  | bool b => rfl
  | null => rfl

theorem Test.eval_congr {other : Scope} {t : Test} (h : ∀ name ∈ t.names, scope.get name = other.get name) :
    t.eval scope = t.eval other := by
  induction t with
  | holds x => rw [Test.eval, Test.eval, Operand.eval_congr h]
  | equal x y | greater x y =>
    rw [Test.eval, Test.eval, Operand.eval_congr fun name hname => h name (List.mem_append_left _ hname),
      Operand.eval_congr fun name hname => h name (List.mem_append_right _ hname)]
  | negation t ih => rw [Test.eval, Test.eval, ih h]
  | both t u iht ihu | either t u iht ihu =>
    rw [Test.eval, Test.eval, iht fun name hname => h name (List.mem_append_left _ hname),
      ihu fun name hname => h name (List.mem_append_right _ hname)]

theorem Environment.get_scope (env : Environment) {name : Text} (hname : name ∈ names) :
    (env.scope names).get name = env.get name := by
  rw [Scope.get, Environment.scope, get?_graph, if_pos hname, Environment.get]
  cases env name <;> rfl

theorem Environment.eq_none_of_get_scope (env : Environment) {name : Text} (hname : name ∈ names)
    (h : (env.scope names).get name = .error (.undefinedName name)) : env name = none := by
  rw [env.get_scope hname, Environment.get] at h
  split at h
  · cases h
  · assumption

/-- What stands for nothing inside a loop stands for nothing outside. -/
theorem Environment.eq_none_of_inside (env : Environment) {item name : Text} {x loop : Subject}
    (h : env.inside item x loop name = none) : env name = none := by
  unfold Environment.inside at h
  split at h
  · cases h
  · split at h
    · cases h
    · exact h

theorem Agrees.get_eq_get_scope (h : Agrees scope env names) (hholds : Holds scope fewer)
    (hsub : fewer ⊆ names) : ∀ name ∈ fewer, scope.get name = (env.scope fewer).get name :=
  fun name hname => by rw [env.get_scope hname, (h.mono hsub).get_eq hholds hname]

end Scope

/-- What each way through a loop is given has the same names. -/
theorem map_fst_givenTo (item : Text) (mentioned : Bool) (x y loop : Subject) :
    (givenTo item mentioned x loop).map Prod.fst = (givenTo item mentioned y loop).map Prod.fst := by
  cases mentioned <;> rfl

/-- The names that a way through a loop is given are names of the loop. -/
theorem map_fst_givenTo_subset (item : Text) (body : List Node) (x loop : Subject) :
    (givenTo item (usesFirst? "loop" body).isSome x loop).map Prod.fst ⊆ item :: mentionsOf body := by
  cases hloop : usesFirst? "loop" body with
  | none =>
    intro name hname
    rw [List.mem_singleton.1 hname]
    exact List.mem_cons_self
  | some used =>
    have hmem : String.toList "loop" ∈ mentionsOf body := Decidable.by_contra fun hnot => by
      rw [usesFirst?_eq_none_iff.2 hnot] at hloop
      cases hloop
    intro name hname
    rcases List.mem_cons.1 hname with rfl | hname
    · exact List.mem_cons_self
    · rw [List.mem_singleton.1 hname]
      exact List.mem_cons_of_mem _ hmem

/-- What each way through a loop is given makes the environment inside, for what the loop mentions. -/
theorem inside_eq {body : List Node} {name : Text} (env : Environment) (item : Text) (x loop : Subject)
    (hname : name ∈ mentionsOf body) :
    (Pairs.get? name (givenTo item (usesFirst? "loop" body).isSome x loop)).or (env name)
      = env.inside item x loop name := by
  unfold Environment.inside
  cases hloop : usesFirst? "loop" body with
  | none =>
    -- The loop itself is not given, and it is not asked for.
    have hne : name ≠ String.toList "loop" := by
      rintro rfl
      exact usesFirst?_eq_none_iff.1 hloop hname
    rw [show givenTo item (none : Option Bool).isSome x loop = [(item, x)] from rfl, get?_entry, if_neg hne]
    split <;> rfl
  | some used =>
    rw [show givenTo item (some used).isSome x loop = [(item, x), (String.toList "loop", loop)] from rfl,
      get?_entry, get?_entry]
    split
    · rfl
    · split <;> rfl

/-- **The scope of a way through a loop** agrees with the environment inside. The scope is planned once,
with a mark in place of the item, and entered with each item. -/
theorem agrees_enter_loop {scope : Scope} {env : Environment} {item : Text} {body : List Node}
    (hapart : SpelledApart (item :: mentionsOf body)) (hagrees : Agrees scope env (mentionsOf body))
    (x loop : Subject) :
    let inside := scope.enter (scope.plan
      ((givenTo item (usesFirst? "loop" body).isSome .missing loop).map Prod.fst) (namesOf body))
      (givenTo item (usesFirst? "loop" body).isSome x loop)
    Agrees inside (env.inside item x loop) (mentionsOf body) ∧ Holds inside (namesOf body) := by
  rw [map_fst_givenTo item _ .missing x]
  have hscope : SpelledApart
      ((givenTo item (usesFirst? "loop" body).isSome x loop).map Prod.fst ++ namesOf body) :=
    hapart.mono (List.append_subset.2 ⟨map_fst_givenTo_subset item body x loop,
      fun _ hname => List.mem_cons_of_mem _ (namesOf_subset body hname)⟩)
  exact ⟨(hagrees.enter hscope).congr fun _ hname => inside_eq env item x loop hname, Holds.enter hscope⟩

mutual

/-- **A part of a template** is written in a scope as in the environment that the scope agrees with. -/
theorem renderNode_eq : ∀ {node : Node} {scope : Scope} {env : Environment},
    SpelledApart node.mentions → Agrees scope env node.mentions → Holds scope node.names →
    ∀ loops : Loops, renderNode scope loops node = writeNode env loops node
  | .text s, _, _, _, _, _, _ => by rw [renderNode, writeNode]
  | .value x, _, _, _, hagrees, hholds, _ => by
    rw [renderNode, writeNode,
      Operand.eval_congr (hagrees.get_eq_get_scope hholds (List.Subset.refl _))]
  | .choice test yes no, scope, env, hapart, hagrees, hholds, loops => by
    have htestsub : test.names ⊆ (Node.choice test yes no).mentions :=
      fun _ h => List.mem_append_left _ (List.mem_append_left _ h)
    have hyessub : mentionsOf yes ⊆ (Node.choice test yes no).mentions :=
      fun _ h => List.mem_append_left _ (List.mem_append_right _ h)
    have hnosub : mentionsOf no ⊆ (Node.choice test yes no).mentions :=
      fun _ h => List.mem_append_right _ h
    have htest := Test.eval_congr (hagrees.get_eq_get_scope
      (hholds.mono fun _ h => List.mem_append_left _ (List.mem_append_left _ h)) htestsub)
    have hyes := renderFrom_eq (hapart.mono hyessub) (hagrees.mono hyessub)
      (hholds.mono fun _ h => List.mem_append_left _ (List.mem_append_right _ h)) loops
    have hno := renderFrom_eq (hapart.mono hnosub) (hagrees.mono hnosub)
      (hholds.mono fun _ h => List.mem_append_right _ h) loops
    rw [renderNode, writeNode, htest]
    cases test.eval (env.scope test.names) with
    | error fault => rfl
    | ok met =>
      cases met with
      | true => exact hyes
      | false => exact hno
  | .loop item source body otherwise, scope, env, hapart, hagrees, hholds, loops => by
    have hsourcesub : source.names ⊆ (Node.loop item source body otherwise).mentions :=
      fun _ h => List.mem_cons_of_mem _ (List.mem_append_left _ (List.mem_append_left _ h))
    have hbodysub : mentionsOf body ⊆ (Node.loop item source body otherwise).mentions :=
      fun _ h => List.mem_cons_of_mem _ (List.mem_append_left _ (List.mem_append_right _ h))
    have hothersub : mentionsOf otherwise ⊆ (Node.loop item source body otherwise).mentions :=
      fun _ h => List.mem_cons_of_mem _ (List.mem_append_right _ h)
    have hsource := Operand.eval_congr (hagrees.get_eq_get_scope hholds hsourcesub)
    have hother : renderFrom (scope.enter (scope.plan [] (namesOf otherwise)) []) loops otherwise
        = writeFrom env loops otherwise := by
      have hotherapart : SpelledApart (([] : List (Text × Subject)).map Prod.fst ++ namesOf otherwise) :=
        (hapart.mono hothersub).mono (namesOf_subset otherwise)
      exact renderFrom_eq (hapart.mono hothersub) ((hagrees.mono hothersub).enter hotherapart)
        (Holds.enter hotherapart) loops
    have hinner : SpelledApart (item :: mentionsOf body) :=
      hapart.mono (List.cons_subset.2 ⟨List.mem_cons_self, hbodysub⟩)
    have hbody : ∀ x loops', renderFrom (scope.enter (scope.plan
          ((givenTo item (usesFirst? "loop" body).isSome .missing (.loop loops.length)).map Prod.fst)
          (namesOf body)) (givenTo item (usesFirst? "loop" body).isSome x (.loop loops.length))) loops' body
        = writeFrom (env.inside item x (.loop loops.length)) loops' body := by
      intro x loops'
      obtain ⟨hinside, hnames⟩ := agrees_enter_loop hinner (hagrees.mono hbodysub) x (.loop loops.length)
      exact renderFrom_eq (hapart.mono hbodysub) hinside hnames loops'
    rw [renderNode, writeNode, hsource]
    cases (source.eval (env.scope source.names)).bind (Subject.start loops) with
    | error fault => rfl
    | ok progress =>
      dsimp only
      rw [hother]
      simp only [hbody]

/-- **A template** is written in a scope as in the environment that the scope agrees with. -/
theorem renderFrom_eq : ∀ {nodes : List Node} {scope : Scope} {env : Environment},
    SpelledApart (mentionsOf nodes) → Agrees scope env (mentionsOf nodes) → Holds scope (namesOf nodes) →
    ∀ loops : Loops, renderFrom scope loops nodes = writeFrom env loops nodes
  | [], _, _, _, _, _, _ => by rw [renderFrom, writeFrom]
  | node :: nodes, scope, env, hapart, hagrees, hholds, loops => by
    have hnode := renderNode_eq (hapart.mono (List.subset_append_left _ _))
      (hagrees.mono (List.subset_append_left _ _)) (hholds.mono (List.subset_append_left _ _)) loops
    have hnodes := renderFrom_eq (hapart.mono (List.subset_append_right _ _))
      (hagrees.mono (List.subset_append_right _ _)) (hholds.mono (List.subset_append_right _ _))
    rw [renderFrom, writeFrom, hnode]
    cases writeNode env loops node with
    | error fault => rfl
    | ok written =>
      dsimp only
      rw [hnodes]

end

/-- **The text of a template for its variables** is its text in their environment, if no two of its names
spell the same. -/
theorem render_eq_rendering {nodes : List Node} (hapart : SpelledApart (mentionsOf nodes))
    (vars : List (Text × Subject)) :
    render vars nodes = rendering (Environment.ofVariables (Pairs.get? · vars) nodes) nodes := by
  have houter : Agrees ⟨vars ++ Subject.helpers, []⟩
      (fun name => Pairs.get? name (vars ++ Subject.helpers)) (mentionsOf nodes) := fun _ _ => rfl
  unfold render rendering
  dsimp only
  generalize hgiven : (if usesFirst? "self" nodes = some true
    then [(String.toList "self", Subject.template)] else []) = given
  have hsub : given.map Prod.fst ⊆ mentionsOf nodes := by
    subst hgiven
    split
    · rename_i hself
      intro name hname
      rw [List.mem_singleton.1 hname]
      refine Decidable.by_contra fun hnot => ?_
      rw [usesFirst?_eq_none_iff.2 hnot] at hself
      cases hself
    · exact nofun
  -- Around the template there is no scope, so its environment is that of the variables.
  have hscope : SpelledApart (given.map Prod.fst ++ namesOf nodes) :=
    hapart.mono (List.append_subset.2 ⟨hsub, namesOf_subset nodes⟩)
  have henv : ∀ name, (Pairs.get? name given).or (Pairs.get? name (vars ++ Subject.helpers))
      = Environment.ofVariables (Pairs.get? · vars) nodes name := by
    intro name
    subst hgiven
    rw [Environment.ofVariables, Pairs.get?_append]
    by_cases hself : usesFirst? "self" nodes = some true
    · rw [if_pos hself, get?_entry]
      by_cases hname : name = String.toList "self"
      · rw [if_pos hname, if_pos ⟨hname, hself⟩]
        rfl
      · rw [if_neg hname, if_neg fun h => hname h.1]
        rfl
    · rw [if_neg hself, if_neg fun h => hself h.2]
      rfl
  rw [renderFrom_eq hapart ((houter.enter hscope).congr fun name _ => henv name) (Holds.enter hscope)]

/-! ## What can go wrong -/

/-- **What can go wrong when a template is rendered:** a name stands for nothing, or a value is of the wrong
kind for what is done with it. -/
inductive RenderingFault (p : Text → Prop) : Fault → Prop
  | undefinedName {name : Text} : p name → RenderingFault p (.undefinedName name)
  | incomparable {left right : Value.Kind} : RenderingFault p (.incomparable .greater left right)
  | notIterable {kind : Value.Kind} : RenderingFault p (.notIterable kind)
  | missingKey : RenderingFault p (.missingKey (.int 0))

/-- The faults of a result are such faults. -/
def FaultsIn {α : Type} (p : Text → Prop) (result : Except Fault α) : Prop :=
  ∀ fault, result = .error fault → RenderingFault p fault

section Faults

variable {p q : Text → Prop} {α β : Type} {result : Except Fault α}

theorem FaultsIn.ok (a : α) : FaultsIn p (.ok a) := nofun

theorem FaultsIn.mono (h : FaultsIn p result) (hpq : ∀ name, p name → q name) : FaultsIn q result := by
  intro fault hfault
  cases h fault hfault with
  | undefinedName hname => exact .undefinedName (hpq _ hname)
  | incomparable => exact .incomparable
  | notIterable => exact .notIterable
  | missingKey => exact .missingKey

theorem FaultsIn.bind (h : FaultsIn p result) {f : α → Except Fault β} (hf : ∀ a, FaultsIn p (f a)) :
    FaultsIn p (result.bind f) := by
  cases result with
  | error fault =>
    rintro _ ⟨⟩
    exact h fault rfl
  | ok a => exact hf a

theorem FaultsIn.map (h : FaultsIn p result) (f : α → β) : FaultsIn p (result.map f) := by
  cases result with
  | error fault =>
    rintro _ ⟨⟩
    exact h fault rfl
  | ok a => exact nofun

theorem Subject.faultsIn_greater (x y : Subject) : FaultsIn p (x.greater y) := by
  intro fault hfault
  unfold Subject.greater at hfault
  split at hfault
  · split at hfault
    · cases hfault
    · cases hfault
      exact .incomparable
  · split at hfault
    · cases hfault
    · cases hfault
      exact .incomparable

theorem Subject.faultsIn_start (loops : Loops) (x : Subject) : FaultsIn p (x.start loops) := by
  cases x with
  | value v =>
    refine FaultsIn.map (fun fault hfault => ?_) _
    unfold Value.items at hfault
    split at hfault
    · cases hfault
    · cases hfault
    · cases hfault
    · split at hfault
      · cases hfault
      · cases hfault
        exact .notIterable
  | halves points => exact nofun
  | own kind written =>
    cases kind <;> rintro _ ⟨⟩ <;> first | exact .missingKey | exact .notIterable
  | loop depth => exact nofun
  | paired item depth => exact nofun
  | missing =>
    rintro _ ⟨⟩
    exact .notIterable

theorem Operand.faultsIn_eval {scope : Scope} {x : Operand}
    (h : ∀ name ∈ x.names, scope.get name = .error (.undefinedName name) → p name) :
    FaultsIn p (x.eval scope) := by
  cases x with
  | name n =>
    intro fault hfault
    rw [Operand.eval] at hfault
    have hget := hfault
    unfold Scope.get at hget
    split at hget
    · cases hget
    · cases hget
      exact .undefinedName (h n List.mem_cons_self hfault)
  | int n => exact nofun
  | text points => exact nofun
  | bool b => exact nofun
  | null => exact nofun

theorem Test.faultsIn_eval {scope : Scope} {t : Test}
    (h : ∀ name ∈ t.names, scope.get name = .error (.undefinedName name) → p name) :
    FaultsIn p (t.eval scope) := by
  induction t with
  | holds x => exact (Operand.faultsIn_eval h).map _
  | equal x y =>
    have hx := Operand.faultsIn_eval fun name hname => h name (List.mem_append_left _ hname)
    have hy := Operand.faultsIn_eval fun name hname => h name (List.mem_append_right _ hname)
    exact hx.bind fun _ => hy.bind fun _ => .ok _
  | greater x y =>
    have hx := Operand.faultsIn_eval fun name hname => h name (List.mem_append_left _ hname)
    have hy := Operand.faultsIn_eval fun name hname => h name (List.mem_append_right _ hname)
    exact hx.bind fun _ => hy.bind fun _ => Subject.faultsIn_greater _ _
  | negation t ih => exact (ih h).map _
  | both t u iht ihu | either t u iht ihu =>
    have ht := iht fun name hname => h name (List.mem_append_left _ hname)
    have hu := ihu fun name hname => h name (List.mem_append_right _ hname)
    rw [Test.eval]
    split
    · exact hu
    · exact ht

theorem faultsIn_goThrough {depth : Nat} {body : Subject → Loops → Except Fault (Text × Loops)}
    (h : ∀ x loops, FaultsIn p (body x loops)) (n : Nat) (loops : Loops) :
    FaultsIn p (goThrough depth body n loops) := by
  induction n generalizing loops with
  | zero => exact nofun
  | succ n ih =>
    rw [goThrough]
    split
    · exact nofun
    · rename_i item loops _
      have hbody := h item loops
      cases hwritten : body item loops with
      | error fault =>
        rintro _ ⟨⟩
        exact hbody fault hwritten
      | ok written => exact (ih _).map _

end Faults

mutual

/-- What can go wrong in a part of a template. -/
theorem faultsIn_renderNode : ∀ (node : Node) (scope : Scope) (loops : Loops),
    FaultsIn (fun _ => True) (renderNode scope loops node)
  | .text s, _, _ => by
    rw [renderNode]
    exact .ok _
  | .value x, _, _ => by
    rw [renderNode]
    exact (Operand.faultsIn_eval fun _ _ _ => trivial).map _
  | .choice test yes no, scope, loops => by
    have htest : FaultsIn (fun _ => True) (test.eval scope) := Test.faultsIn_eval fun _ _ _ => trivial
    rw [renderNode]
    split
    · rename_i hfault
      rintro _ ⟨⟩
      exact htest _ hfault
    · exact faultsIn_renderFrom yes scope loops
    · exact faultsIn_renderFrom no scope loops
  | .loop item source body otherwise, scope, loops => by
    have hsource : FaultsIn (fun _ => True) (source.eval scope) := Operand.faultsIn_eval fun _ _ _ => trivial
    have hstart := hsource.bind fun x => Subject.faultsIn_start loops x
    rw [renderNode]
    split
    · rename_i hfault
      rintro _ ⟨⟩
      exact hstart _ hfault
    · dsimp only
      split
      · exact faultsIn_renderFrom otherwise _ loops
      · exact (faultsIn_goThrough (fun _ loops => faultsIn_renderFrom body _ loops) _ _).map _

theorem faultsIn_renderFrom : ∀ (nodes : List Node) (scope : Scope) (loops : Loops),
    FaultsIn (fun _ => True) (renderFrom scope loops nodes)
  | [], _, _ => by
    rw [renderFrom]
    exact .ok _
  | node :: nodes, scope, loops => by
    have hnode := faultsIn_renderNode node scope loops
    rw [renderFrom]
    split
    · rename_i hfault
      rintro _ ⟨⟩
      exact hnode _ hfault
    · exact (faultsIn_renderFrom nodes scope _).map _

end

mutual

/-- **The names that can be undefined** in a part of a template are names of it that stand for nothing in
the environment. -/
theorem faultsIn_writeNode : ∀ (node : Node) (env : Environment) (loops : Loops),
    FaultsIn (fun name => name ∈ node.mentions ∧ env name = none) (writeNode env loops node)
  | .text s, _, _ => by
    rw [writeNode]
    exact .ok _
  | .value x, env, _ => by
    rw [writeNode]
    exact (Operand.faultsIn_eval fun name hname hget =>
      ⟨hname, env.eq_none_of_get_scope hname hget⟩).map _
  | .choice test yes no, env, loops => by
    have htest : FaultsIn (fun name => name ∈ (Node.choice test yes no).mentions ∧ env name = none)
        (test.eval (env.scope test.names)) := Test.faultsIn_eval fun name hname hget =>
      ⟨List.mem_append_left _ (List.mem_append_left _ hname), env.eq_none_of_get_scope hname hget⟩
    rw [writeNode]
    split
    · rename_i hfault
      rintro _ ⟨⟩
      exact htest _ hfault
    · exact (faultsIn_writeFrom yes env loops).mono fun name h =>
        ⟨List.mem_append_left _ (List.mem_append_right _ h.1), h.2⟩
    · exact (faultsIn_writeFrom no env loops).mono fun name h => ⟨List.mem_append_right _ h.1, h.2⟩
  | .loop item source body otherwise, env, loops => by
    have hsource : FaultsIn
        (fun name => name ∈ (Node.loop item source body otherwise).mentions ∧ env name = none)
        (source.eval (env.scope source.names)) := Operand.faultsIn_eval fun name hname hget =>
      ⟨List.mem_cons_of_mem _ (List.mem_append_left _ (List.mem_append_left _ hname)),
        env.eq_none_of_get_scope hname hget⟩
    have hstart := hsource.bind fun x => Subject.faultsIn_start loops x
    rw [writeNode]
    split
    · rename_i hfault
      rintro _ ⟨⟩
      exact hstart _ hfault
    · split
      · exact (faultsIn_writeFrom otherwise env loops).mono fun name h =>
          ⟨List.mem_cons_of_mem _ (List.mem_append_right _ h.1), h.2⟩
      · refine (faultsIn_goThrough (fun x loops => (faultsIn_writeFrom body _ loops).mono fun name h =>
          ⟨List.mem_cons_of_mem _ (List.mem_append_left _ (List.mem_append_right _ h.1)),
            env.eq_none_of_inside h.2⟩) _ _).map _

theorem faultsIn_writeFrom : ∀ (nodes : List Node) (env : Environment) (loops : Loops),
    FaultsIn (fun name => name ∈ mentionsOf nodes ∧ env name = none) (writeFrom env loops nodes)
  | [], _, _ => by
    rw [writeFrom]
    exact .ok _
  | node :: nodes, env, loops => by
    have hnode := (faultsIn_writeNode node env loops).mono fun name h =>
      (⟨List.mem_append_left _ h.1, h.2⟩ : name ∈ mentionsOf (node :: nodes) ∧ env name = none)
    rw [writeFrom]
    split
    · rename_i hfault
      rintro _ ⟨⟩
      exact hnode _ hfault
    · exact ((faultsIn_writeFrom nodes env _).mono fun name h =>
        ⟨List.mem_append_right _ h.1, h.2⟩).map _

end

theorem faultsIn_render (vars : List (Text × Subject)) (nodes : List Node) :
    FaultsIn (fun _ => True) (render vars nodes) := (faultsIn_renderFrom nodes _ []).map _

theorem faultsIn_rendering (env : Environment) (nodes : List Node) :
    FaultsIn (fun name => name ∈ mentionsOf nodes ∧ env name = none) (rendering env nodes) :=
  (faultsIn_writeFrom nodes env []).map _

end Template

end GlslCompose
