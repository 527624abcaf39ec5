import ModuleBundler.Table

/-!
# Caches

A cache keeps values by key, at most as many as its capacity allows: before a new key is stored in a
full cache, the entry that was stored or found longest ago is evicted. The order of these events is kept
by a clock that ticks at every look-up and at every insertion.

An entry may have a lifetime. Time itself is no part of a cache: a lifetime of zero has always elapsed,
and any other one never does. An entry whose lifetime has elapsed is dropped when it is looked up, or
when the cache is pruned.

When an entry is stored, its lifetime is added to the present instant. The program stops there if no clock
can tell the sum, and lifetimes as long as that are outside of the model.
-/

namespace ModuleBundler

/-! ### Entries and limits -/

/-- The limits of a cache. -/
structure CacheConfig where
  /-- How many entries there may be; any number of them when none is given. -/
  capacity : Option Nat := none
  /-- The lifetime of an entry in milliseconds; endless when none is given. One that cannot be added to the
  present instant is outside of the model. -/
  lifetime : Option Nat := none
  deriving DecidableEq, Repr, Inhabited

/-- What has happened in a cache. -/
structure CacheStats where
  hits : Nat := 0
  misses : Nat := 0
  /-- Entries dropped to stay within the capacity. -/
  evictions : Nat := 0
  /-- Entries dropped because their lifetime had elapsed. -/
  expirations : Nat := 0
  deriving DecidableEq, Repr, Inhabited

/-- An entry of a cache. -/
structure CacheEntry (ν : Type) where
  value : ν
  lifetime : Option Nat
  /-- The time of the clock when the entry was last stored or found. -/
  lastUse : Nat

/-- Whether the lifetime of an entry has elapsed. -/
def CacheEntry.hasElapsed {ν : Type} (entry : CacheEntry ν) : Bool := entry.lifetime == some 0

/-- A cache. -/
structure Cache (κ ν : Type) where
  config : CacheConfig
  entries : Table κ (CacheEntry ν) := []
  clock : Nat := 0
  stats : CacheStats := {}

namespace Cache

variable {κ ν : Type} [DecidableEq κ]

/-- A cache without entries. -/
def empty (config : CacheConfig) : Cache κ ν := { config }

instance : Inhabited (Cache κ ν) := ⟨empty {}⟩

/-- The number of entries, elapsed ones included. -/
def size (cache : Cache κ ν) : Nat := cache.entries.length

/-! ### Looking up -/

/-- The cache without the entry of `key` if its lifetime has elapsed. -/
def expire (cache : Cache κ ν) (key : κ) : Cache κ ν :=
  if (cache.entries.get? key).any CacheEntry.hasElapsed then
    { cache with
      entries := cache.entries.drop key
      stats := { cache.stats with expirations := cache.stats.expirations + 1 } }
  else cache

/-- The value stored under `key`, and the cache after the look-up. -/
def get (cache : Cache κ ν) (key : κ) : Option ν × Cache κ ν :=
  let cache := cache.expire key
  let now := cache.clock + 1
  match cache.entries.get? key with
  | some entry =>
    (some entry.value,
      { cache with
        entries := cache.entries.put key { entry with lastUse := now }
        clock := now
        stats := { cache.stats with hits := cache.stats.hits + 1 } })
  | none =>
    (none,
      { cache with
        clock := now
        stats := { cache.stats with misses := cache.stats.misses + 1 } })

/-! ### Making room -/

/-- The entry that was used longest ago, with its key. -/
def oldest? : Table κ (CacheEntry ν) → Option (κ × CacheEntry ν)
  | [] => none
  | entry :: rest =>
    match oldest? rest with
    | none => some entry
    | some other => if other.2.lastUse < entry.2.lastUse then some other else some entry

/-- The cache without the entry that was used longest ago. -/
def evict (cache : Cache κ ν) : Cache κ ν :=
  match oldest? cache.entries with
  | none => cache
  | some (key, _) =>
    { cache with
      entries := cache.entries.drop key
      stats := { cache.stats with evictions := cache.stats.evictions + 1 } }

/-- Evicts at most `times` entries, until there are fewer than `capacity`. -/
def evictBelow (capacity : Nat) : Nat → Cache κ ν → Cache κ ν
  | 0, cache => cache
  | times + 1, cache =>
    if capacity ≤ cache.size then evictBelow capacity times cache.evict else cache

/-- The cache with room for one key more, unless `key` is there already. -/
def makeRoom (cache : Cache κ ν) (key : κ) : Cache κ ν :=
  match cache.config.capacity with
  | none => cache
  | some capacity =>
    if cache.entries.has key then cache else evictBelow capacity cache.size cache

/-! ### Storing and removing -/

/-- The cache with `value` stored under `key` for `lifetime`, one that can be added to the present instant. A
cache without room for any entry stays as it is. -/
def insertFor (cache : Cache κ ν) (lifetime : Option Nat) (key : κ) (value : ν) : Cache κ ν :=
  if cache.config.capacity = some 0 then cache
  else
    let cache := cache.makeRoom key
    let now := cache.clock + 1
    { cache with
      entries := cache.entries.put key { value, lifetime, lastUse := now }
      clock := now }

/-- The cache with `value` stored under `key`. -/
def insert (cache : Cache κ ν) (key : κ) (value : ν) : Cache κ ν :=
  cache.insertFor cache.config.lifetime key value

/-- The value stored under `key`, and the cache without it. -/
def remove (cache : Cache κ ν) (key : κ) : Option ν × Cache κ ν :=
  ((cache.entries.get? key).map (·.value), { cache with entries := cache.entries.drop key })

/-- The cache without entries; what has happened in it is kept. -/
def clear (cache : Cache κ ν) : Cache κ ν := { cache with entries := [] }

/-- How many entries have elapsed, and the cache without them. -/
def prune (cache : Cache κ ν) : Nat × Cache κ ν :=
  let kept := cache.entries.filter fun entry => !entry.2.hasElapsed
  let dropped := cache.entries.length - kept.length
  (dropped,
    { cache with
      entries := kept
      stats := { cache.stats with expirations := cache.stats.expirations + dropped } })

end Cache

end ModuleBundler
