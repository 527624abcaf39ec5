import ModuleBundler.Proofs.Cache.Recency
import ModuleBundler.Proofs.Session.Snapshot

/-!
# A request that fails

By the time a request fails, the cache has been looked into: an entry may have been found to have elapsed, or a
text to spell no bundle. This is all that can have happened to the cache. Apart from the entry of the request
itself every entry stays as it is, with its text, its lifetime and its last use, and nothing makes room for a
bundle that is never stored (`cache_of_error`).
-/

namespace ModuleBundler

/-! ### Look-ups without a bundle -/

/-- A look-up that gives no bundle finds no entry, or one that has elapsed, or a text that spells no bundle. An
entry that it finds is gone afterwards. -/
inductive LooksUpNothing (cache : BundleCache) (key : String) : BundleCache → Prop where
  /-- There is no entry. -/
  | absent : cache.entries.get? key = none → LooksUpNothing cache key
      { cache with
        clock := cache.clock + 1
        stats := { cache.stats with misses := cache.stats.misses + 1 } }
  /-- The entry has elapsed. -/
  | elapsed {stored : CacheEntry String} : cache.entries.get? key = some stored → stored.hasElapsed = true →
      LooksUpNothing cache key
        { cache with
          entries := cache.entries.drop key
          clock := cache.clock + 1
          stats := { cache.stats with
            misses := cache.stats.misses + 1, expirations := cache.stats.expirations + 1 } }
  /-- The text of the entry spells no bundle. -/
  | unreadable {stored : CacheEntry String} : cache.entries.get? key = some stored →
      stored.hasElapsed = false → Bundle.decode? stored.value = none →
      LooksUpNothing cache key
        { cache with
          entries := cache.entries.drop key
          clock := cache.clock + 1
          stats := { cache.stats with hits := cache.stats.hits + 1 } }

variable {files : Files} {cache : BundleCache} {entry : Path} {options : Options}

/-- A look-up gives a bundle, or it is one of these. -/
theorem looksUpNothing_of_fetch {key : String} (h : (fetch cache key).1 = none) :
    LooksUpNothing cache key (fetch cache key).2 := by
  unfold fetch at h ⊢
  cases hg : cache.entries.get? key with
  | none =>
    rw [Cache.get_of_absent hg]
    exact .absent hg
  | some stored =>
    cases hl : stored.hasElapsed with
    | true =>
      rw [Cache.get_of_elapsed hg hl]
      exact .elapsed hg hl
    | false =>
      rw [Cache.get_of_live hg hl] at h ⊢
      cases hd : Bundle.decode? stored.value with
      | some bundle => simp [hd] at h
      | none =>
        simp only [hd, Cache.remove, Table.drop_put]
        exact .unreadable hg hl hd

namespace LooksUpNothing

variable {key : String} {after : BundleCache}

theorem config_eq (h : LooksUpNothing cache key after) : after.config = cache.config := by
  cases h <;> rfl

/-- All entries stay as they are, but for that of the key. -/
theorem entries_eq (h : LooksUpNothing cache key after) : after.entries = cache.entries.drop key := by
  cases h with
  | absent hg => exact (Table.drop_of_get?_eq_none hg).symm
  | elapsed => rfl
  | unreadable => rfl

/-- The entry of the key had elapsed, or its text spelled no bundle. -/
theorem of_get?_eq_some (h : LooksUpNothing cache key after) {stored : CacheEntry String}
    (hs : cache.entries.get? key = some stored) :
    stored.hasElapsed = true ∨ Bundle.decode? stored.value = none := by
  cases h with
  | absent hg => rw [hg] at hs; cases hs
  | elapsed hg hl => exact .inl (Option.some.inj (hg.symm.trans hs) ▸ hl)
  | unreadable hg _ hd => exact .inr (Option.some.inj (hg.symm.trans hs) ▸ hd)

theorem evictions_eq (h : LooksUpNothing cache key after) :
    after.stats.evictions = cache.stats.evictions := by
  cases h <;> rfl

/-- The look-up is counted once. -/
theorem counted (h : LooksUpNothing cache key after) :
    after.stats.hits = cache.stats.hits + 1 ∧ after.stats.misses = cache.stats.misses ∨
      after.stats.hits = cache.stats.hits ∧ after.stats.misses = cache.stats.misses + 1 := by
  cases h with
  | absent => exact .inr ⟨rfl, rfl⟩
  | elapsed => exact .inr ⟨rfl, rfl⟩
  | unreadable => exact .inl ⟨rfl, rfl⟩

end LooksUpNothing

/-! ### Failures -/

/-- A request that fails has looked into the cache, and has done nothing else to it. -/
theorem looksUpNothing_of_error {e : BundleError}
    (h : (generateBundle files cache entry options).result = .error e) :
    LooksUpNothing cache (cacheKey entry options) (generateBundle files cache entry options).cache := by
  rcases generateBundle_cases files cache entry options with ⟨_, -, hb⟩ | ⟨_, _, hn, hb⟩ | ⟨_, _, -, hb⟩ <;>
    rw [hb] at h ⊢
  · cases h
  · exact looksUpNothing_of_fetch hn
  · cases h

/-- **A request that fails leaves the cache alone.** Whatever the cache holds and whatever its limits are, the
entries that are left after the failure are those that were there before, each as it was, but for the entry of
the request itself. That one is gone, and it was there only if it had elapsed or its text spelled no bundle. No
entry is counted as evicted, and the one look-up is counted once, as a hit or as a miss. -/
theorem cache_of_error (files : Files) (cache : BundleCache) (entry : Path) (options : Options) {e : BundleError}
    (h : (generateBundle files cache entry options).result = .error e) :
    let key := cacheKey entry options
    let after := (generateBundle files cache entry options).cache
    after.config = cache.config ∧
      after.entries = cache.entries.drop key ∧
      (∀ k, after.entries.get? k = if k = key then none else cache.entries.get? k) ∧
      (∀ stored, cache.entries.get? key = some stored →
        stored.hasElapsed = true ∨ Bundle.decode? stored.value = none) ∧
      after.stats.evictions = cache.stats.evictions ∧
      (after.stats.hits = cache.stats.hits + 1 ∧ after.stats.misses = cache.stats.misses ∨
        after.stats.hits = cache.stats.hits ∧ after.stats.misses = cache.stats.misses + 1) := by
  intro key after
  have hlook : LooksUpNothing cache key after := looksUpNothing_of_error h
  refine ⟨hlook.config_eq, hlook.entries_eq, fun k => ?_, fun stored => hlook.of_get?_eq_some,
    hlook.evictions_eq, hlook.counted⟩
  rw [hlook.entries_eq, Table.get?_drop]
  exact if_congr eq_comm rfl rfl

/-- A full cache with a text that spells no bundle under the key of `plainRequest`, and an entry of somebody
else. -/
def spoiledCache : BundleCache :=
  ((Cache.empty { capacity := some 2 }).insert "other" "text").insert plainRequest.key "\x7b"

theorem cache_of_error_spoiledCache :
    let build := generateBundle (FileStore.empty ⟨"/app"⟩).view spoiledCache plainRequest.entry plainRequest.options
    build.result.isOk = false ∧
      build.cache.entries.map (fun stored => (stored.1, stored.2.value)) = [("other", "text")] ∧
      build.cache.stats = { hits := 1 } := by
  have hrun : (generateBundle (FileStore.empty ⟨"/app"⟩).view spoiledCache plainRequest.entry
        plainRequest.options).result.isOk = false ∧
      (generateBundle (FileStore.empty ⟨"/app"⟩).view spoiledCache plainRequest.entry
        plainRequest.options).cache.stats = { hits := 1 } ∧
      (spoiledCache.entries.drop (cacheKey plainRequest.entry plainRequest.options)).map
        (fun stored => (stored.1, stored.2.value)) = [("other", "text")] := by decide +kernel
  obtain ⟨hfails, hstats, hother⟩ := hrun
  refine ⟨hfails, ?_, hstats⟩
  cases h : (generateBundle (FileStore.empty ⟨"/app"⟩).view spoiledCache plainRequest.entry
      plainRequest.options).result with
  | ok bundle => rw [h] at hfails; cases hfails
  | error e =>
    obtain ⟨-, hentries, -⟩ := cache_of_error _ _ _ _ h
    rw [← hentries] at hother
    exact hother

end ModuleBundler
