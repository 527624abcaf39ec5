import ModuleBundler.Bundler
import ModuleBundler.Files.Store
import ModuleBundler.Proofs.Cache.Contents
import Mathlib.Logic.Function.Basic

/-!
# Sessions

Any number of bundlers may share a cache. A bundler keeps nothing but the files that it works on and the
shared cache, so what they do together is one sequence of calls, each of which names the bundler that is
called. The files of a bundler are kept in memory, and its reads are counted there.
-/

namespace ModuleBundler

/-- What a bundler is asked for. -/
structure Request where
  entry : Path
  options : Options
  deriving DecidableEq, Repr

namespace Request

/-- The bytes that the key of a request is the digest of. -/
def bytes (r : Request) : List UInt8 := keyBytes r.entry r.options

/-- The key of a request. -/
def key (r : Request) : String := cacheKey r.entry r.options

end Request

/-- A call of one of the bundlers, or of the cache that they share. -/
inductive Call where
  | generate (bundler : Nat) (request : Request)
  | clearCache
  | pruneExpired
  | cacheGet (key : String)
  | cacheRemove (key : String)
  deriving Repr

/-- The request of a call, if it makes one. -/
def Call.request? : Call → Option Request
  | .generate _ r => some r
  | _ => none

/-- Bundlers that share a cache, each with the files that it works on. -/
structure Session where
  projects : Nat → FileStore
  cache : BundleCache

namespace Session

/-- What a bundler does for a request. -/
def build (s : Session) (bundler : Nat) (r : Request) : Build :=
  generateBundle (s.projects bundler).view s.cache r.entry r.options

/-- The session after a call. -/
def after (s : Session) : Call → Session
  | .generate bundler r =>
    { projects := Function.update s.projects bundler
        ((s.projects bundler).countReads (s.build bundler r).reads)
      cache := (s.build bundler r).cache }
  | .clearCache => { s with cache := s.cache.clear }
  | .pruneExpired => { s with cache := s.cache.prune.2 }
  | .cacheGet key => { s with cache := (s.cache.get key).2 }
  | .cacheRemove key => { s with cache := (s.cache.remove key).2 }

/-- The answers to the requests among some calls, in order. -/
def answers : Session → List Call → List (Except BundleError Bundle)
  | _, [] => []
  | s, .generate bundler r :: calls =>
    (s.build bundler r).result :: answers (s.after (.generate bundler r)) calls
  | s, call :: calls => answers (s.after call) calls

end Session

/-- Counting reads does not change what a store answers. -/
theorem FileStore.view_countReads (ps : List Path) (store : FileStore) :
    (store.countReads ps).view = store.view := by
  unfold countReads
  induction ps generalizing store with
  | nil => rfl
  | cons p ps ih => exact (ih (store.countRead p)).trans rfl

/-! ### Fetching and building -/

/-- Fetching finds the bundle of a stored text, or it finds none. -/
theorem fetch_cases (cache : BundleCache) (key : String) :
    (∃ text bundle, (cache.get key).1 = some text ∧ Bundle.decode? text = some bundle ∧
      fetch cache key = (some bundle, (cache.get key).2)) ∨
    (∃ text, (cache.get key).1 = some text ∧ Bundle.decode? text = none ∧
      fetch cache key = (none, ((cache.get key).2.remove key).2)) ∨
    ((cache.get key).1 = none ∧ fetch cache key = (none, (cache.get key).2)) := by
  unfold fetch
  split
  next cache' he => exact .inr (.inr ⟨by rw [he], by rw [he]⟩)
  next text cache' he =>
    rw [he]
    cases hd : Bundle.decode? text with
    | some bundle => exact .inl ⟨text, bundle, rfl, hd, rfl⟩
    | none => exact .inr (.inl ⟨text, rfl, hd, rfl⟩)

theorem Cache.Stores.of_fetch {cache : BundleCache} {key k v : String} (h : (fetch cache key).2.Stores k v) :
    cache.Stores k v := by
  rcases fetch_cases cache key with ⟨_, _, -, -, he⟩ | ⟨_, -, -, he⟩ | ⟨-, he⟩ <;> rw [he] at h
  · exact h.of_get
  · exact h.of_remove.of_get
  · exact h.of_get

/-- What is fetched was stored as a text. -/
theorem stores_of_fetch {cache : BundleCache} {key : String} {bundle : Bundle}
    (h : (fetch cache key).1 = some bundle) :
    ∃ text, cache.Stores key text ∧ Bundle.decode? text = some bundle := by
  rcases fetch_cases cache key with ⟨text, b, hg, hd, he⟩ | ⟨_, -, -, he⟩ | ⟨-, he⟩ <;> rw [he] at h
  · cases h
    exact ⟨text, Cache.stores_of_get hg, hd⟩
  · cases h
  · cases h

section

variable {files : Files} {cache : BundleCache} {entry : Path} {options : Options}

/-- A bundle that is fetched is the answer. -/
theorem result_of_fetch_some {bundle : Bundle} (h : (fetch cache (cacheKey entry options)).1 = some bundle) :
    (generateBundle files cache entry options).result = .ok bundle := by
  unfold generateBundle
  simp only
  split
  next b cache' he =>
    rw [he] at h
    cases h
    rfl
  next cache' he =>
    rw [he] at h
    cases h

/-- Where no bundle is fetched, the answer comes from the files. -/
theorem result_of_fetch_none (h : (fetch cache (cacheKey entry options)).1 = none) :
    (generateBundle files cache entry options).result =
      (buildFresh files entry options).1.mapError (.generate entry) := by
  unfold generateBundle
  simp only
  split
  next b cache' he =>
    rw [he] at h
    cases h
  next cache' he =>
    split
    next e reads hb => rw [hb]; rfl
    next bundle reads hb => rw [hb]; rfl

/-- A cache without entries leaves the answer to the files. -/
theorem result_of_empty (config : CacheConfig) :
    (generateBundle files (.empty config) entry options).result =
      (buildFresh files entry options).1.mapError (.generate entry) := by
  refine result_of_fetch_none (Option.eq_none_iff_forall_ne_some.mpr fun bundle h => ?_)
  obtain ⟨text, hs, -⟩ := stores_of_fetch h
  exact Cache.not_stores_empty hs

/-- What is stored after a request was stored before, or it is the text of the bundle that the files gave
for the request. -/
theorem stores_of_generateBundle {k v : String}
    (h : (generateBundle files cache entry options).cache.Stores k v) :
    cache.Stores k v ∨ k = cacheKey entry options ∧
      ∃ bundle, (buildFresh files entry options).1 = .ok bundle ∧ v = bundle.encode := by
  have hf : ∀ {b : Option Bundle} {cache' : BundleCache},
      fetch cache (cacheKey entry options) = (b, cache') → cache'.Stores k v → cache.Stores k v := by
    intro b cache' he h
    have hs : (fetch cache (cacheKey entry options)).2.Stores k v := by
      rw [he]
      exact h
    exact hs.of_fetch
  unfold generateBundle at h
  simp only at h
  split at h
  next b cache' he => exact .inl (hf he h)
  next cache' he =>
    split at h
    next e reads hb => exact .inl (hf he h)
    next bundle reads hb =>
      rcases Cache.Stores.of_insertFor h with ⟨hk, hv⟩ | h
      · exact .inr ⟨hk, bundle, by rw [hb], hv⟩
      · exact .inl (hf he h)

end

end ModuleBundler
