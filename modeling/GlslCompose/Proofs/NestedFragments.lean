/-
`Proofs/NestedFragments.lean` -- a nested mapping of fragments is the row of its leaves.

Registering a mapping walks down into the mappings inside it and carries the components of
the path along, so what a leaf is registered under is known only where it is met. Told from
outside there is no walk: a mapping has leaves, each with the keys that lead to it from the
top (`Value.leaves`), and each text among them is registered under its keys by a call of its
own (`addEach`). The two are the same (`add_eq_addLeaves`), because what is registered below a
key is what is registered for the leaves there with the key in front (`insertLeaf_eq_addLeaves`).

Where a leaf is no text, the fault names the path of the first such leaf, and the store is the
one that the leaves in front of it leave behind.
-/
import GlslCompose.FragmentStore.Basic

set_option autoImplicit false

namespace GlslCompose

/-! ## Leaves -/

namespace Value

mutual

/-- **The leaves of a value,** depth first, each with the keys that lead to it from the top. What is
no mapping is a leaf itself. -/
def leaves : Value → List (List Value × Value)
  | map entries => leavesOf entries
  | table entries _ => entries.map fun (key, source) => ([text key], text source)
  | leaf => [([], leaf)]

/-- The leaves of the entries of a map, one entry after the other. -/
def leavesOf : List (Value × Value) → List (List Value × Value)
  | [] => []
  | (key, value) :: rest =>
    value.leaves.map (fun (keys, leaf) => (key :: keys, leaf)) ++ leavesOf rest

end

/-- Keys as a path: what they are written as, with slashes between. -/
def pathOf (keys : List Value) : Text := List.intercalate ['/'] (keys.map display)

end Value

namespace Step

variable {σ α β γ : Type}

@[simp] theorem done_andThen (a : α) (state : σ) (f : α → σ → Step σ β) :
    (done a state).andThen f = f a state := by
  simp [andThen, done]

theorem andThen_assoc (step : Step σ α) (f : α → σ → Step σ β) (g : β → σ → Step σ γ) :
    (step.andThen f).andThen g = step.andThen fun a state => (f a state).andThen g := by
  unfold andThen
  cases step.result with
  | error fault => rfl
  | ok a =>
    dsimp only
    cases (f a step.state).result with
    | error fault => rfl
    | ok b => simp only [List.append_assoc]

end Step

namespace FragmentStore

open Value (pathOf)

/-! ## Leaves one by one -/

/-- Registers texts at their paths, each by a call of its own. -/
def addEach (store : FragmentStore) : List (Text × Text) → Step FragmentStore Unit
  | [] => .done () store
  | (path, source) :: rest =>
    (store.add (.text path) (.text source)).andThen fun _ store => addEach store rest

/-- Registers leaves under their keys, one after the other, up to the first that is no text. -/
def addLeaves (store : FragmentStore) : List (List Value × Value) → Step FragmentStore Unit
  | [] => .done () store
  | (keys, .text source) :: rest =>
    (store.add (.text (pathOf keys)) (.text source)).andThen fun _ store => addLeaves store rest
  | (keys, leaf) :: _ => .failed (.fragmentNotText (pathOf keys) leaf) store

theorem addLeaves_append (store : FragmentStore) (leaves more : List (List Value × Value)) :
    store.addLeaves (leaves ++ more)
      = (store.addLeaves leaves).andThen fun _ store => store.addLeaves more := by
  induction leaves generalizing store with
  | nil => rw [List.nil_append, addLeaves, Step.done_andThen]
  | cons leaf rest ih =>
    obtain ⟨keys, value⟩ := leaf
    cases value with
    | text source => simp only [List.cons_append, addLeaves, ih, Step.andThen_assoc]
    | _ => rfl

/-- Leaves that are all texts are registered each by a call of its own. -/
theorem addLeaves_texts (store : FragmentStore) (texts : List (List Value × Text)) :
    store.addLeaves (texts.map fun (keys, source) => (keys, .text source))
      = store.addEach (texts.map fun (keys, source) => (pathOf keys, source)) := by
  induction texts generalizing store with
  | nil => rfl
  | cons leaf rest ih => simp only [List.map_cons, addLeaves, addEach, ih]

/-- To register texts is never refused. -/
theorem result_addEach (store : FragmentStore) (entries : List (Text × Text)) :
    (store.addEach entries).result = .ok () := by
  induction entries generalizing store with
  | nil => rfl
  | cons entry rest ih =>
    rw [addEach, Step.result_andThen_of_ok (a := ()) rfl]
    exact ih _

/-! ## The walk down a mapping -/

/-- Leaves behind some more keys. -/
def below (keys : List Value) (leaves : List (List Value × Value)) : List (List Value × Value) :=
  leaves.map fun (inner, leaf) => (keys ++ inner, leaf)

theorem below_leavesOf_cons (keys : List Value) (key value : Value) (rest : List (Value × Value)) :
    below keys (Value.leavesOf ((key, value) :: rest))
      = below (keys ++ [key]) value.leaves ++ below keys (Value.leavesOf rest) := by
  simp [below, Value.leavesOf, Function.comp_def]

/-- The entries of a table are registered as leaves. -/
theorem foldl_table_eq_addLeaves (store : FragmentStore) (keys : List Value)
    (entries : List (Text × Text)) (revision : Nat) :
    Step.done () (entries.foldl (fun store (key, source) =>
        store.insert (List.intercalate ['/'] (keys.map Value.display ++ [key])) source) store)
      = store.addLeaves (below keys (Value.table entries revision).leaves) := by
  induction entries generalizing store with
  | nil => rfl
  | cons entry rest ih =>
    simp only [Value.leaves, below, List.map_cons, List.foldl_cons, addLeaves, add,
      Step.done_andThen] at ih ⊢
    rw [ih, pathOf, List.map_append]
    rfl

mutual

/-- What is registered for the entries of a map is registered for its leaves. -/
theorem insertEntries_eq_addLeaves (store : FragmentStore) (keys : List Value)
    (entries : List (Value × Value)) :
    insertEntries store (keys.map Value.display) entries
      = store.addLeaves (below keys (Value.leavesOf entries)) := by
  match entries with
  | [] => rfl
  | (key, value) :: rest =>
    have hkey : keys.map Value.display ++ [key.display] = (keys ++ [key]).map Value.display := by
      rw [List.map_append, List.map_singleton]
    rw [insertEntries, hkey, insertLeaf_eq_addLeaves, below_leavesOf_cons, addLeaves_append]
    congr 1
    funext _ store
    exact insertEntries_eq_addLeaves store keys rest

/-- What is registered below some keys is registered for the leaves there. -/
theorem insertLeaf_eq_addLeaves (store : FragmentStore) (keys : List Value) (value : Value) :
    insertLeaf store (keys.map Value.display) value = store.addLeaves (below keys value.leaves) := by
  match value with
  | .text source =>
    simp only [insertLeaf, Value.leaves, below, List.map_cons, List.map_nil, List.append_nil,
      addLeaves, add, Step.done_andThen, pathOf]
  | .map entries =>
    rw [insertLeaf, Value.leaves]
    exact insertEntries_eq_addLeaves store keys entries
  | .table entries revision =>
    rw [insertLeaf]
    exact foldl_table_eq_addLeaves store keys entries revision
  | .null | .bool _ | .int _ | .float _ | .bytes _ | .list _ | .function _ | .literal _
  | .generated _ | .template _ _ | .bareSource | .program _ =>
    simp only [insertLeaf, Value.leaves, below, List.map_cons, List.map_nil, List.append_nil,
      addLeaves, pathOf]

end

/-- **A mapping is registered as the row of its leaves.** -/
theorem add_eq_addLeaves (store : FragmentStore) {mapping : Value}
    (h : mapping.entries?.isSome = true) :
    store.add mapping .null = store.addLeaves mapping.leaves := by
  have hbelow : ∀ leaves, below [] leaves = leaves := fun leaves => by simp [below]
  cases mapping with
  | map entries =>
    have hentries := insertEntries_eq_addLeaves store [] entries
    rw [hbelow] at hentries
    exact hentries
  | table entries revision =>
    have hentries := foldl_table_eq_addLeaves store [] entries revision
    rw [hbelow] at hentries
    rw [← hentries]
    simp [add]
  | _ => cases h

/-- **Nested fragments are registered as the flat row of their leaves:** the texts are registered one by
one under the paths that their keys make up, and if a leaf is no text, the fault names the path of the
first such leaf, and only the texts in front of it are registered. -/
theorem add_mapping (store : FragmentStore) {mapping : Value}
    (h : mapping.entries?.isSome = true) :
    (∀ texts : List (List Value × Text),
      mapping.leaves = texts.map (fun (keys, source) => (keys, .text source)) →
        (store.add mapping .null).result = .ok () ∧
          store.add mapping .null
            = store.addEach (texts.map fun (keys, source) => (pathOf keys, source))) ∧
    ∀ (texts : List (List Value × Text)) (keys : List Value) (leaf : Value)
      (behind : List (List Value × Value)),
      mapping.leaves = texts.map (fun (keys, source) => (keys, .text source)) ++ (keys, leaf) :: behind →
      (∀ source, leaf ≠ .text source) →
        (store.add mapping .null).result = .error (.fragmentNotText (pathOf keys) leaf) ∧
        (store.add mapping .null).state
          = (store.addEach (texts.map fun (keys, source) => (pathOf keys, source))).state ∧
        (Fault.fragmentNotText (pathOf keys) leaf).message
          = "Fragment " ++ Text.quoted (pathOf keys) ++ " must be a str, not " ++ leaf.shown := by
  rw [add_eq_addLeaves store h]
  constructor
  · intro texts htexts
    rw [htexts, addLeaves_texts]
    exact ⟨result_addEach store _, rfl⟩
  · intro texts keys leaf behind hleaves hleaf
    have hfirst : ∀ store : FragmentStore, store.addLeaves ((keys, leaf) :: behind)
        = .failed (.fragmentNotText (pathOf keys) leaf) store := by
      intro store
      cases leaf with
      | text source => exact absurd rfl (hleaf source)
      | _ => rfl
    rw [hleaves, addLeaves_append, addLeaves_texts]
    have hbefore := result_addEach store (texts.map fun (keys, source) => (pathOf keys, source))
    rw [Step.result_andThen_of_ok hbefore, Step.state_andThen_of_ok hbefore, hfirst]
    exact ⟨rfl, rfl, rfl⟩

/-- Fragments in a nested mapping, with an empty mapping among them, two rows of keys that come to the
same path, and a list where a text should stand. -/
def nestedFragments : Value :=
  .map [(.text "mat", .map [(.text "flat", .text "float f;"), (.text "none", .map []),
      (.bool true, .table [("A", "a")] 1)]),
    (.text "/mat//flat", .text "float g;"),
    (.text "bad", .map [(.text "deep", .list [.int 3])]), (.text "top", .text "float t;")]

/-- The list in the mapping is refused under its path. The texts in front of it are registered, of
which the last takes the place of the first, and the one behind it is not. -/
theorem add_mapping_of_nestedFragments :
    nestedFragments.entries?.isSome = true ∧
    let texts : List (List Value × Text) := [([.text "mat", .text "flat"], "float f;"),
      ([.text "mat", .bool true, .text "A"], "a"), ([.text "/mat//flat"], "float g;")]
    nestedFragments.leaves = texts.map (fun (keys, source) => (keys, .text source)) ++
      ([.text "bad", .text "deep"], .list [.int 3]) :: [([.text "top"], .text "float t;")] ∧
    (empty.add nestedFragments .null).result
      = .error (.fragmentNotText "bad/deep" (.list [.int 3])) ∧
    (empty.add nestedFragments .null).state
      = (empty.addEach [("mat/flat", "float f;"), ("mat/True/A", "a"), ("/mat//flat", "float g;")]).state ∧
    (empty.add nestedFragments .null).state.source? "mat/flat" = some "float g;".toList ∧
    (empty.add nestedFragments .null).state.source? "top" = none ∧
    (empty.add nestedFragments .null).state.revision = 3 := by
  have hmapping : nestedFragments.entries?.isSome = true := rfl
  obtain ⟨hresult, hstate, -⟩ := (add_mapping empty hmapping).2
    [([.text "mat", .text "flat"], "float f;"), ([.text "mat", .bool true, .text "A"], "a"),
      ([.text "/mat//flat"], "float g;")]
    [.text "bad", .text "deep"] (.list [.int 3]) [([.text "top"], .text "float t;")] rfl nofun
  refine ⟨hmapping, rfl, hresult, hstate, ?_, ?_, ?_⟩
  all_goals
    rw [hstate]
    decide

end FragmentStore

end GlslCompose
