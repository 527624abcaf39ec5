import ModuleBundler.Cache.Basic
import Mathlib.Logic.Function.Basic

/-!
# Caches with many holders

Any number of holders may use one cache through clones of it. Each clone carries the limits, and all of them
share the entries. In between the holders' calls lifetimes run out, and the table of the entries may come to be
gone through in another order, which no holder is to notice.

What the holders see of a run of such events is what `observe` lists.
-/

namespace ModuleBundler

/-! ### Runs of events -/

/-- What a system shows in a run of events, where `step` gives what it shows at one event, if it shows
something, and the state that it is in afterwards. -/
def observe {σ ε ω : Type} (step : σ → ε → Option ω × σ) : σ → List ε → List ω
  | _, [] => []
  | s, e :: events => (step s e).1.toList ++ observe step (step s e).2 events

/-- The state of a system after a run of events. -/
def runEvents {σ ε ω : Type} (step : σ → ε → Option ω × σ) (s : σ) (events : List ε) : σ :=
  events.foldl (fun s e => (step s e).2) s

/-- Two systems that show the same at every event, and stay related, show the same in every run. -/
theorem observe_eq_of_related {σ τ ε ω : Type} {step : σ → ε → Option ω × σ} {step' : τ → ε → Option ω × τ}
    {R : σ → τ → Prop}
    (hstep : ∀ s t e, R s t → (step s e).1 = (step' t e).1 ∧ R (step s e).2 (step' t e).2)
    (events : List ε) : ∀ s t, R s t → observe step s events = observe step' t events ∧
      R (runEvents step s events) (runEvents step' t events) := by
  induction events with
  | nil => exact fun s t h => ⟨rfl, h⟩
  | cons e events ih =>
    intro s t h
    obtain ⟨hshown, h'⟩ := hstep s t e h
    obtain ⟨hrest, hend⟩ := ih _ _ h'
    refine ⟨?_, hend⟩
    rw [observe, observe, hshown, hrest]

/-! ### Calls and events -/

/-- A call of a cache. -/
inductive CacheCall (κ ν : Type) where
  | get (key : κ)
  | insert (key : κ) (value : ν)
  /-- Stores a value for a lifetime of its own. -/
  | insertFor (lifetime : Nat) (key : κ) (value : ν)
  | remove (key : κ)
  | clear
  | prune

/-- The answer to a call of a cache. -/
inductive CacheAnswer (ν : Type) where
  | done
  | value (found : Option ν)
  | count (dropped : Nat)
  deriving DecidableEq

/-- What the caller sees after a call: the answer, the number of entries, and all counts. -/
structure CacheView (ν : Type) where
  answer : CacheAnswer ν
  size : Nat
  stats : CacheStats
  deriving DecidableEq

/-- A way to bring a table into another order. -/
structure Rearrangement (κ ν : Type) where
  apply : Table κ ν → Table κ ν
  perm : ∀ table, (apply table).Perm table

/-- What can happen to a cache that is used through clones. -/
inductive CacheEvent (κ ν : Type) where
  /-- A call through one of the clones. -/
  | call (clone : Nat) (call : CacheCall κ ν)
  /-- `copy` becomes a clone of `original`. -/
  | clone (original copy : Nat)
  /-- The lifetimes of the entries under these keys run out, where they have one. -/
  | elapse (keys : List κ)
  /-- From now on the entries are gone through in another order. -/
  | rearrange (order : Rearrangement κ (CacheEntry ν))

section

variable {κ ν : Type} [DecidableEq κ]

/-- What is left of the lifetime of the entry of `key` when those of `keys` have run out. -/
def remaining (keys : List κ) (key : κ) (lifetime : Option Nat) : Option Nat :=
  if key ∈ keys then lifetime.map fun _ => 0 else lifetime

/-! ### Caches and their clones -/

/-- The answer to a call, and the cache after it. -/
def Cache.perform (cache : Cache κ ν) : CacheCall κ ν → CacheAnswer ν × Cache κ ν
  | .get key => (.value (cache.get key).1, (cache.get key).2)
  | .insert key value => (.done, cache.insert key value)
  | .insertFor lifetime key value => (.done, cache.insertFor (some lifetime) key value)
  | .remove key => (.value (cache.remove key).1, (cache.remove key).2)
  | .clear => (.done, cache.clear)
  | .prune => (.count cache.prune.1, cache.prune.2)

/-- An entry when the lifetimes of those under `keys` have run out. -/
def CacheEntry.elapse (keys : List κ) (entry : κ × CacheEntry ν) : κ × CacheEntry ν :=
  (entry.1, { entry.2 with lifetime := remaining keys entry.1 entry.2.lifetime })

/-- A cache that is used through clones. Each clone carries its limits; everything else is shared. A number
that was given to no clone stands for the cache as it was made. -/
structure SharedCache (κ ν : Type) where
  limits : Nat → CacheConfig
  shared : Cache κ ν

namespace SharedCache

/-- A cache that was made with these limits. -/
def start (config : CacheConfig) : SharedCache κ ν := { limits := fun _ => config, shared := .empty config }

/-- The cache as a clone of it sees it. -/
def through (s : SharedCache κ ν) (clone : Nat) : Cache κ ν := { s.shared with config := s.limits clone }

/-- One event: what is seen of it, and the cache after it. -/
def step (s : SharedCache κ ν) : CacheEvent κ ν → Option (CacheView ν) × SharedCache κ ν
  | .call clone c =>
    let (answer, cache) := (s.through clone).perform c
    (some ⟨answer, cache.size, cache.stats⟩, { s with shared := cache })
  | .clone original copy => (none, { s with limits := Function.update s.limits copy (s.limits original) })
  | .elapse keys =>
    (none, { s with shared := { s.shared with entries := s.shared.entries.map (CacheEntry.elapse keys) } })
  | .rearrange order =>
    (none, { s with shared := { s.shared with entries := order.apply s.shared.entries } })

end SharedCache

end

end ModuleBundler
