/-
`TextCache.lean` -- texts that were compiled before, by their keys.

An entry is never replaced. A cache that is switched off answers nothing and
counts nothing, but still takes entries in. What the keys and the entries are
does not matter here.
-/
import GlslCompose.OrderedMap

set_option autoImplicit false

namespace GlslCompose

/-- A cache of entries `ν` by keys `κ`, with the number of hits and misses so far. -/
structure TextCache (κ ν : Type) where
  entries : OrderedMap κ ν
  enabled : Bool
  hits : Nat
  misses : Nat

namespace TextCache

variable {κ ν : Type} [DecidableEq κ]

/-- The cache that a library starts with. -/
def empty : TextCache κ ν := ⟨.empty, true, 0, 0⟩

instance : Inhabited (TextCache κ ν) := ⟨empty⟩

/-- The number of entries. -/
def size (cache : TextCache κ ν) : Nat := cache.entries.size

/-- Whether a key would be a hit. -/
def has (cache : TextCache κ ν) (key : κ) : Bool := cache.enabled && cache.entries.has key

/-- The entry at a key, and the cache with the hit or miss counted. -/
def get (cache : TextCache κ ν) (key : κ) : Option ν × TextCache κ ν :=
  if cache.enabled then
    match cache.entries.get? key with
    | some entry => (some entry, { cache with hits := cache.hits + 1 })
    | none => (none, { cache with misses := cache.misses + 1 })
  else (none, cache)

/-- The cache with an entry at a key, unless there already is one. -/
def set (cache : TextCache κ ν) (key : κ) (entry : ν) : TextCache κ ν :=
  if cache.entries.has key then cache
  else { cache with entries := cache.entries.insert key entry }

/-- The cache switched on. -/
def enable (cache : TextCache κ ν) : TextCache κ ν := { cache with enabled := true }

/-- The cache switched off. -/
def disable (cache : TextCache κ ν) : TextCache κ ν := { cache with enabled := false }

/-- The cache without entries, and without its counts if those are to go too. -/
def clear (cache : TextCache κ ν) (counts : Bool) : TextCache κ ν :=
  if counts then { cache with entries := .empty, hits := 0, misses := 0 }
  else { cache with entries := .empty }

/-! ## What the operations do to the entries -/

/-- What is answered comes from the entries. -/
theorem fst_get (cache : TextCache κ ν) (key : κ) :
    (cache.get key).1 = if cache.enabled then cache.entries.get? key else none := by
  unfold get
  split
  · split <;> simp_all
  · rfl

/-- Asking changes the counts and nothing else. -/
@[simp] theorem entries_get (cache : TextCache κ ν) (key : κ) :
    (cache.get key).2.entries = cache.entries := by
  unfold get
  split
  · split <;> rfl
  · rfl

/-- An entry that is there stays as it is. -/
theorem get?_entries_set (cache : TextCache κ ν) (key other : κ) (entry : ν) :
    (cache.set key entry).entries.get? other
      = if key = other then some ((cache.entries.get? key).getD entry)
        else cache.entries.get? other := by
  unfold set OrderedMap.has
  cases hk : cache.entries.get? key with
  | some old =>
    by_cases h : key = other
    · subst h; simp [hk]
    · simp [h]
  | none => simp [OrderedMap.get?_insert]

/-! ## Figures -/

/-- The number of entries, hits and misses. -/
def stats (cache : TextCache κ ν) : Nat × Nat × Nat := (cache.size, cache.hits, cache.misses)

end TextCache

end GlslCompose
