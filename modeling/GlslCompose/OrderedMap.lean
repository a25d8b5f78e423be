/-
`OrderedMap.lean` -- association lists that remember the order of insertion.

Assigning to a key that is present keeps its place, assigning to a new one puts
it at the end. The plain functions work on lists of pairs and any test for equal
keys; `OrderedMap` adds what every one of them keeps, that no key stands twice.
-/
set_option autoImplicit false

namespace GlslCompose

namespace Pairs

variable {κ ν : Type} [BEq κ]

/-- The value at a key. -/
def get? (key : κ) : List (κ × ν) → Option ν
  | [] => none
  | (k, v) :: rest => if k == key then some v else get? key rest

/-- Whether a key is present. -/
def has (key : κ) (pairs : List (κ × ν)) : Bool := (get? key pairs).isSome

/-- The pairs with `value` at `key`: in place if the key is present, else at the end. -/
def put (key : κ) (value : ν) : List (κ × ν) → List (κ × ν)
  | [] => [(key, value)]
  | (k, v) :: rest => if k == key then (k, value) :: rest else (k, v) :: put key value rest

/-- The pairs without those at `key`. -/
def drop (key : κ) (pairs : List (κ × ν)) : List (κ × ν) :=
  pairs.filter fun pair => !(pair.1 == key)

/-- The keys, in order. -/
def keys (pairs : List (κ × ν)) : List κ := pairs.map Prod.fst

/-- One list of pairs laid over another: the later ones win, and new keys come last. -/
def overlay (below above : List (κ × ν)) : List (κ × ν) :=
  above.foldl (fun pairs (k, v) => put k v pairs) below

end Pairs

namespace Pairs

variable {κ ν : Type} [BEq κ] [LawfulBEq κ]

theorem keys_put (key : κ) (value : ν) (pairs : List (κ × ν)) :
    keys (put key value pairs) = if key ∈ keys pairs then keys pairs else keys pairs ++ [key] := by
  induction pairs with
  | nil => simp [put, keys]
  | cons pair rest ih =>
    obtain ⟨k, v⟩ := pair
    by_cases h : k = key
    · subst h; simp [put, keys]
    · have h' : ¬ key = k := fun e => h e.symm
      simp only [put, beq_iff_eq, h, if_false, keys, List.map_cons, List.mem_cons, h', false_or]
      simp only [keys] at ih
      rw [ih]
      split <;> simp [*]

theorem nodup_keys_put {key : κ} {value : ν} {pairs : List (κ × ν)} (h : (keys pairs).Nodup) :
    (keys (put key value pairs)).Nodup := by
  rw [keys_put]
  split
  · exact h
  · rename_i hk
    rw [List.nodup_append]
    refine ⟨h, by simp, ?_⟩
    intro a ha b hb
    simp only [List.mem_singleton] at hb
    subst hb
    exact fun e => hk (e ▸ ha)

/-- A new key comes last. -/
theorem put_of_not_mem {key : κ} {pairs : List (κ × ν)} (h : key ∉ keys pairs) (value : ν) :
    put key value pairs = pairs ++ [(key, value)] := by
  induction pairs with
  | nil => rfl
  | cons pair rest ih =>
    obtain ⟨k, v⟩ := pair
    rw [keys, List.map_cons, List.mem_cons, not_or] at h
    have hkey : ¬ (k == key) = true := fun hk => h.1 (beq_iff_eq.1 hk).symm
    rw [put, if_neg hkey, ih h.2, List.cons_append]

/-- Laying pairs over others keeps the keys apart. -/
theorem nodup_keys_overlay {below : List (κ × ν)} (h : (keys below).Nodup) (above : List (κ × ν)) :
    (keys (overlay below above)).Nodup := by
  induction above generalizing below with
  | nil => exact h
  | cons pair rest ih => exact ih (nodup_keys_put h)

omit [BEq κ] [LawfulBEq κ] in
/-- Where no key stands twice, the next one is new. -/
theorem not_mem_keys_of_nodup {below rest : List (κ × ν)} {key : κ} {value : ν}
    (h : (keys (below ++ (key, value) :: rest)).Nodup) : key ∉ keys below := by
  intro hmem
  rw [keys, List.map_append, List.nodup_append] at h
  exact h.2.2 _ hmem _ List.mem_cons_self rfl

/-- Pairs whose keys are all new come behind the others. -/
theorem overlay_eq_append {below above : List (κ × ν)} (h : (keys (below ++ above)).Nodup) :
    overlay below above = below ++ above := by
  induction above generalizing below with
  | nil => exact (List.append_nil below).symm
  | cons pair rest ih =>
    obtain ⟨key, value⟩ := pair
    have hnew := not_mem_keys_of_nodup h
    rw [List.append_cons] at h ⊢
    rw [← ih h, ← put_of_not_mem hnew]
    rfl

omit [LawfulBEq κ] in
theorem nodup_keys_drop {key : κ} {pairs : List (κ × ν)} (h : (keys pairs).Nodup) :
    (keys (drop key pairs)).Nodup :=
  List.Sublist.nodup (List.Sublist.map _ List.filter_sublist) h

omit [LawfulBEq κ] in
/-- Putting a value at a key that is present adds no entry. -/
theorem length_put (key : κ) (value : ν) (pairs : List (κ × ν)) :
    (put key value pairs).length
      = if has key pairs then pairs.length else pairs.length + 1 := by
  induction pairs with
  | nil => simp [put, has, get?]
  | cons pair rest ih =>
    obtain ⟨k, v⟩ := pair
    by_cases h : (k == key) = true
    · simp [put, has, get?, h]
    · simp only [Bool.not_eq_true] at h
      simp only [has] at ih
      simp only [put, has, get?, h, Bool.false_eq_true, if_false, List.length_cons, ih]
      by_cases hr : (get? key rest).isSome = true <;> simp [hr]

/-- The value just remembered is there. -/
theorem get?_put_self (key : κ) (value : ν) (pairs : List (κ × ν)) :
    get? key (put key value pairs) = some value := by
  induction pairs with
  | nil => simp [put, get?]
  | cons pair rest ih =>
    obtain ⟨k, v⟩ := pair
    by_cases h : (k == key) = true
    · simp [put, get?, h]
    · simp only [Bool.not_eq_true] at h
      simp [put, get?, h, ih]

/-- Looking up after putting. -/
theorem get?_put (key other : κ) (value : ν) (pairs : List (κ × ν)) :
    get? other (put key value pairs) = if key == other then some value else get? other pairs := by
  by_cases h : key = other
  · subst h
    rw [get?_put_self, if_pos (beq_self_eq_true key)]
  · rw [if_neg (by simpa using h)]
    induction pairs with
    | nil => simp [put, get?, h]
    | cons pair rest ih =>
      obtain ⟨k, v⟩ := pair
      by_cases hk : k = key
      · subst hk
        simp [put, get?, h]
      · simp [put, get?, hk, ih]

theorem get?_eq_none_iff {key : κ} {pairs : List (κ × ν)} :
    get? key pairs = none ↔ key ∉ keys pairs := by
  induction pairs with
  | nil => simp [get?, keys]
  | cons pair rest ih =>
    obtain ⟨k, v⟩ := pair
    rw [get?, keys, List.map_cons, List.mem_cons, not_or]
    by_cases hk : k = key
    · simp [hk]
    · rw [if_neg (by simpa using hk), ih]
      exact ⟨fun h => ⟨Ne.symm hk, h⟩, And.right⟩

omit [LawfulBEq κ] in
theorem get?_append (key : κ) (front behind : List (κ × ν)) :
    get? key (front ++ behind) = (get? key front).or (get? key behind) := by
  induction front with
  | nil => rfl
  | cons pair rest ih =>
    rw [List.cons_append, get?, get?]
    split
    · rfl
    · exact ih

omit [LawfulBEq κ] in
theorem get?_map {μ : Type} (f : ν → μ) (key : κ) (pairs : List (κ × ν)) :
    get? key (pairs.map fun (k, v) => (k, f v)) = (get? key pairs).map f := by
  induction pairs with
  | nil => rfl
  | cons pair rest ih =>
    rw [List.map_cons, get?, get?]
    split
    · rfl
    · exact ih

section Renamed

variable {μ : Type} [BEq μ] {f : κ → μ} (hf : ∀ key other, (f key == f other) = (key == other))

include hf

omit [LawfulBEq κ] in
/-- Putting does not care what the keys are, as long as the same ones are equal. -/
theorem put_renamed (key : κ) (value : ν) (pairs : List (κ × ν)) :
    put (f key) value (pairs.map fun (k, v) => (f k, v))
      = (put key value pairs).map fun (k, v) => (f k, v) := by
  induction pairs with
  | nil => rfl
  | cons pair rest ih =>
    obtain ⟨k, v⟩ := pair
    rw [List.map_cons, put, put, hf]
    split
    · rfl
    · rw [ih]
      rfl

omit [LawfulBEq κ] in
theorem overlay_renamed (below above : List (κ × ν)) :
    overlay (below.map fun (k, v) => (f k, v)) (above.map fun (k, v) => (f k, v))
      = (overlay below above).map fun (k, v) => (f k, v) := by
  induction above generalizing below with
  | nil => rfl
  | cons pair rest ih =>
    obtain ⟨k, v⟩ := pair
    have hput := ih (put k v below)
    rw [← put_renamed hf] at hput
    exact hput

end Renamed

/-- What is laid over other pairs is found first. -/
theorem get?_overlay {above : List (κ × ν)} (h : (keys above).Nodup) (below : List (κ × ν)) (key : κ) :
    get? key (overlay below above) = (get? key above).or (get? key below) := by
  induction above generalizing below with
  | nil => rfl
  | cons pair rest ih =>
    obtain ⟨k, v⟩ := pair
    obtain ⟨hnew, hrest⟩ := List.nodup_cons.1 h
    have hstep : overlay below ((k, v) :: rest) = overlay (put k v below) rest := rfl
    rw [hstep, ih hrest, get?_put, get?]
    by_cases hk : k = key
    · subst hk
      rw [get?_eq_none_iff.2 hnew, if_pos (beq_self_eq_true k), if_pos (beq_self_eq_true k)]
      rfl
    · rw [if_neg (by simpa using hk), if_neg (by simpa using hk)]

end Pairs

/-- A map that keeps its keys in the order of their first insertion. -/
structure OrderedMap (κ ν : Type) where
  pairs : List (κ × ν)
  nodup : (Pairs.keys pairs).Nodup

namespace OrderedMap

variable {κ ν : Type}

@[ext] theorem ext {m n : OrderedMap κ ν} (h : m.pairs = n.pairs) : m = n := by
  cases m; cases n; simp_all

/-- The map without entries. -/
def empty : OrderedMap κ ν := ⟨[], List.nodup_nil⟩

instance : Inhabited (OrderedMap κ ν) := ⟨empty⟩

/-- The number of entries. -/
def size (m : OrderedMap κ ν) : Nat := m.pairs.length

/-- The keys, in order. -/
def keys (m : OrderedMap κ ν) : List κ := Pairs.keys m.pairs

variable [DecidableEq κ]

/-- The value at a key. -/
def get? (m : OrderedMap κ ν) (key : κ) : Option ν := Pairs.get? key m.pairs

/-- Whether a key is present. -/
def has (m : OrderedMap κ ν) (key : κ) : Bool := (m.get? key).isSome

/-- The map with `value` at `key`. -/
def insert (m : OrderedMap κ ν) (key : κ) (value : ν) : OrderedMap κ ν :=
  ⟨Pairs.put key value m.pairs, Pairs.nodup_keys_put m.nodup⟩

/-- The map without an entry at `key`. -/
def erase (m : OrderedMap κ ν) (key : κ) : OrderedMap κ ν :=
  ⟨Pairs.drop key m.pairs, Pairs.nodup_keys_drop m.nodup⟩

@[simp] theorem get?_empty (key : κ) : (empty : OrderedMap κ ν).get? key = none := rfl

/-- Looking up after inserting. -/
theorem get?_insert (m : OrderedMap κ ν) (key other : κ) (value : ν) :
    (m.insert key value).get? other = if key = other then some value else m.get? other := by
  rw [get?, insert, Pairs.get?_put]
  simp only [beq_iff_eq]
  rfl

/-- Looking up after erasing. -/
theorem get?_erase (m : OrderedMap κ ν) (key other : κ) :
    (m.erase key).get? other = if key = other then none else m.get? other := by
  simp only [get?, erase, Pairs.drop]
  generalize m.pairs = pairs
  induction pairs with
  | nil => simp [Pairs.get?]
  | cons pair rest ih =>
    obtain ⟨k, v⟩ := pair
    by_cases hk : k = key
    · subst hk
      by_cases h : k = other
      · simpa [Pairs.get?, h] using ih
      · simpa [Pairs.get?, h] using ih
    · by_cases ho : k = other
      · subst ho
        have hk' : ¬ key = k := fun e => hk e.symm
        simp [Pairs.get?, hk, hk']
      · simpa [Pairs.get?, hk, ho] using ih

/-- Inserting keeps the places of the keys, and puts a new one at the end. -/
theorem keys_insert (m : OrderedMap κ ν) (key : κ) (value : ν) :
    (m.insert key value).keys = if key ∈ m.keys then m.keys else m.keys ++ [key] :=
  Pairs.keys_put key value m.pairs

/-- A key has a value exactly when it is listed. -/
theorem isSome_get?_iff (m : OrderedMap κ ν) (key : κ) :
    (m.get? key).isSome ↔ key ∈ m.keys := by
  rw [get?, keys, Option.isSome_iff_ne_none, ne_eq, Pairs.get?_eq_none_iff, Decidable.not_not]

end OrderedMap

end GlslCompose
