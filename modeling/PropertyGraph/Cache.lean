import PropertyGraph.OrderedMap

/-!
A cache of answers that expire. An entry is dropped when it is looked up past its time, never
before; the moment at which its time is just over still counts. Times are of any type with
subtraction and an order, and the present is an argument.
-/

namespace PropertyGraph

structure CacheEntry (τ : Type u) (α : Type v) where
  data : α
  lifetime : τ
  stored : τ

/-- The entry is older than its lifetime. -/
def CacheEntry.isExpired [Sub τ] [LT τ] [DecidableLT τ] (entry : CacheEntry τ α) (now : τ) :
    Bool :=
  entry.lifetime < now - entry.stored

structure Cache (τ : Type u) (α : Type v) where
  lifetime : τ
  enabled : Bool
  entries : OrderedMap String (CacheEntry τ α) := ∅
  hits : Nat := 0
  misses : Nat := 0

namespace Cache

/-- Forget all entries and counts. -/
def clear (cache : Cache τ α) : Cache τ α :=
  { cache with entries := ∅, hits := 0, misses := 0 }

def size (cache : Cache τ α) : Nat := cache.entries.size

/-- There is an entry under the key, expired or not. -/
def contains (cache : Cache τ α) (key : String) : Bool := cache.entries.contains key

/-- Store data under a key, with the lifetime of the cache if none is given. -/
def set (cache : Cache τ α) (key : String) (data : α) (now : τ) (lifetime : Option τ := none) :
    Cache τ α :=
  if cache.enabled then
    { cache with
      entries := cache.entries.insert key ⟨data, lifetime.getD cache.lifetime, now⟩ }
  else cache

/-- Look a key up. An expired entry is dropped and counts as a miss; a cache that is not enabled
finds nothing and counts nothing. -/
def get [Sub τ] [LT τ] [DecidableLT τ] (cache : Cache τ α) (key : String) (now : τ) :
    Option α × Cache τ α :=
  if cache.enabled then
    match cache.entries.get? key with
    | none => (none, { cache with misses := cache.misses + 1 })
    | some entry =>
      if entry.isExpired now then
        (none, { cache with entries := cache.entries.erase key, misses := cache.misses + 1 })
      else (some entry.data, { cache with hits := cache.hits + 1 })
  else (none, cache)

end Cache

end PropertyGraph
