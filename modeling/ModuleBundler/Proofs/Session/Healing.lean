import ModuleBundler.Proofs.Bundle.Outcome
import ModuleBundler.Proofs.Cache.Conservation
import ModuleBundler.Proofs.Cache.Retention
import ModuleBundler.Proofs.Session.Failure

/-!
# Texts that spell no bundle

Anybody who holds a clone of the cache can store any text under any key. A request that finds a text which spells a
bundle is answered with this bundle, whatever wrote it. A text that spells none is no harm: the request is answered
as if nothing had been stored under its key, and when it succeeds, the text of the answer stands in place of the bad
one (`generateBundle_heals`).

No other entry pays for this, even where the cache is full. What carries the proof is that the bad text is removed
before the new one is stored, and a cache that never holds more than its capacity has room again when it has lost an
entry (`Mirrors.makeRoom_of_entries_eq_drop`).
-/

namespace ModuleBundler

/-! ### Bundlers that share a cache -/

/-- What can happen to bundlers that share a cache. -/
inductive ServiceEvent where
  /-- The bundler that holds `clone` gets a request, and `files` are the answers of its files by then. -/
  | request (clone : Nat) (files : Files) (request : Request)
  /-- Something else happens to the cache: somebody calls it, it is cloned, or time goes by. -/
  | cache (event : CacheEvent String String)

namespace SharedCache

/-- The cache after an event. -/
def serve (s : SharedCache String String) : ServiceEvent → SharedCache String String
  | .request clone files r =>
    { s with shared := (generateBundle files (s.through clone) r.entry r.options).cache }
  | .cache event => (s.step event).2

/-- A cache that was made with these limits, after a run of events. -/
def served (config : CacheConfig) (events : List ServiceEvent) : SharedCache String String :=
  events.foldl serve (.start config)

end SharedCache

/-! ### Requests as calls of the cache -/

namespace Mirrors

variable {cache : BundleCache} {list : RecencyList String String} {key : String}

theorem exists_perform (h : Mirrors cache list) (call : CacheCall String String) :
    ∃ list', Mirrors (cache.perform call).2 list' ∧ list'.config = list.config :=
  ⟨_, (h.perform call).2, list.config_perform call⟩

/-- Fetching is a look-up, and the removal of what spells no bundle. -/
theorem exists_fetch (h : Mirrors cache list) (key : String) :
    ∃ list', Mirrors (fetch cache key).2 list' ∧ list'.config = list.config := by
  obtain ⟨list₁, h₁, hc₁⟩ := h.exists_perform (.get key)
  rcases fetch_cases cache key with ⟨_, _, -, -, he⟩ | ⟨_, -, -, he⟩ | ⟨-, he⟩ <;> rw [he]
  · exact ⟨list₁, h₁, hc₁⟩
  · obtain ⟨list₂, h₂, hc₂⟩ := h₁.exists_perform (.remove key)
    exact ⟨list₂, h₂, hc₂.trans hc₁⟩
  · exact ⟨list₁, h₁, hc₁⟩

/-- After a request a cache is a list by last use, as before. -/
theorem exists_generateBundle (h : Mirrors cache list) (files : Files) (entry : Path) (options : Options) :
    ∃ list', Mirrors (generateBundle files cache entry options).cache list' ∧ list'.config = list.config := by
  obtain ⟨list₁, h₁, hc₁⟩ := h.exists_fetch (cacheKey entry options)
  rcases generateBundle_cases files cache entry options with ⟨_, -, he⟩ | ⟨_, _, -, he⟩ | ⟨bundle, _, -, he⟩ <;>
    rw [he]
  · exact ⟨list₁, h₁, hc₁⟩
  · exact ⟨list₁, h₁, hc₁⟩
  · obtain ⟨list₂, h₂, hc₂⟩ := h₁.exists_perform (.insert (cacheKey entry options) bundle.encode)
    exact ⟨list₂, h₂, hc₂.trans hc₁⟩

/-- A cache that has lost an entry has room for another one, and it is a cache that stores entries at all. -/
theorem makeRoom_of_entries_eq_drop (h : Mirrors cache list) {after : BundleCache}
    (hconfig : after.config = cache.config) (hentries : after.entries = cache.entries.drop key)
    (hk : cache.entries.has key = true) :
    after.config.capacity ≠ some 0 ∧ ∀ k, after.makeRoom k = after := by
  obtain ⟨sorted, hr, -⟩ := h.pairs
  have hdrop := Table.length_drop (hr.distinct.perm hr.perm) key
  rw [hk, Bool.toNat_true] at hdrop
  have hlt : ∀ capacity, after.config.capacity = some capacity → after.size < capacity := by
    intro capacity hc
    rw [hconfig] at hc
    have hroom : cache.entries.length ≤ capacity := h.room capacity hc
    show after.entries.length < capacity
    rw [hentries]
    omega
  exact ⟨fun hc => Nat.not_lt_zero _ (hlt 0 hc), Cache.makeRoom_of_lt hlt⟩

end Mirrors

namespace SharedCache

variable {config : CacheConfig} {s : SharedCache String String}

/-- An event leaves the entries in the order of their last uses. -/
theorem exists_mirrors_serve (h : ∃ list, s.Mirrors config list) (event : ServiceEvent) :
    ∃ list, (s.serve event).Mirrors config list := by
  obtain ⟨list, h⟩ := h
  cases event with
  | request clone files r =>
    obtain ⟨list', h', hc⟩ := h.shared.exists_generateBundle files r.entry r.options
    refine ⟨list', h.limits, hc.trans h.listLimits, ?_⟩
    show ModuleBundler.Mirrors (generateBundle files (s.through clone) r.entry r.options).cache list'
    rw [h.through_eq]
    exact h'
  | cache event => exact ⟨_, (h.step event).2⟩

/-- A run of events leaves the entries in the order of their last uses. -/
theorem exists_mirrors_served (config : CacheConfig) (events : List ServiceEvent) :
    ∃ list, (served config events).Mirrors config list := by
  have hrun : ∀ s : SharedCache String String, (∃ list, s.Mirrors config list) →
      ∃ list, (events.foldl serve s).Mirrors config list := by
    induction events with
    | nil => exact fun _ h => h
    | cons event events ih => exact fun s h => ih (s.serve event) (exists_mirrors_serve h event)
  exact hrun _ ⟨_, .start config⟩

end SharedCache

/-! ### Requests that find a text -/

section

variable {files : Files} {cache : BundleCache} {entry : Path} {options : Options} {stored : CacheEntry String}

/-- A text is found as long as its lifetime has not elapsed. -/
theorem Cache.finds_of_live {key : String} (hs : cache.entries.get? key = some stored)
    (hl : stored.hasElapsed = false) : cache.Finds key stored.value :=
  finds_iff.mpr ⟨stored, hs, hl, rfl⟩

/-- Nothing is fetched where there is no entry. -/
theorem fetch_of_absent {key : String} (h : cache.entries.get? key = none) : (fetch cache key).1 = none := by
  unfold fetch
  rw [Cache.get_of_absent h]

/-- A text that spells no bundle is not fetched. -/
theorem fetch_of_unreadable {key text : String} (h : cache.Finds key text) (hd : Bundle.decode? text = none) :
    (fetch cache key).1 = none := by
  rcases fetch_cases cache key with ⟨t, b, hg, hb, -⟩ | ⟨_, -, -, he⟩ | ⟨-, he⟩
  · obtain rfl := Option.some.inj (h.symm.trans hg)
    rw [hd] at hb
    cases hb
  · rw [he]
  · rw [he]

/-- A request that fetches nothing is answered from the files, whatever the cache is. -/
theorem result_and_reads_congr {other : BundleCache} (h : (fetch cache (cacheKey entry options)).1 = none)
    (ho : (fetch other (cacheKey entry options)).1 = none) :
    (generateBundle files cache entry options).result = (generateBundle files other entry options).result ∧
      (generateBundle files cache entry options).reads = (generateBundle files other entry options).reads := by
  rw [result_of_fetch_none h, result_of_fetch_none ho, reads_of_fetch_none h, reads_of_fetch_none ho]
  exact ⟨rfl, rfl⟩

/-- Where there is room, storing changes the entry of the key and no other one, and nothing is evicted. -/
theorem Cache.insert_of_room {κ ν : Type} [DecidableEq κ] {cache : Cache κ ν}
    (hz : cache.config.capacity ≠ some 0) (hroom : ∀ k, cache.makeRoom k = cache) (key : κ) (value : ν) :
    cache.insert key value =
      { cache with
        entries := cache.entries.put key ⟨value, cache.config.lifetime, cache.clock + 1⟩
        clock := cache.clock + 1 } := by
  rw [Cache.insert, Cache.insertFor, if_neg hz, hroom]

/-- **A bad text makes room for the good one.** A request that finds a text which spells no bundle leaves all other
entries as they are, evicts nothing, and when it succeeds, its answer is what the text under its key spells. -/
theorem Mirrors.cache_of_unreadable {list : RecencyList String String} (h : Mirrors cache list)
    (hs : cache.entries.get? (cacheKey entry options) = some stored)
    (hfetch : (fetch cache (cacheKey entry options)).1 = none) :
    let build := generateBundle files cache entry options
    (∀ k, k ≠ cacheKey entry options → build.cache.entries.get? k = cache.entries.get? k) ∧
      build.cache.stats.evictions = cache.stats.evictions ∧
      ∀ bundle, build.result = .ok bundle →
        ∃ healed, build.cache.entries.get? (cacheKey entry options) = some healed ∧
          Bundle.decode? healed.value = some bundle := by
  intro build
  have hlook := looksUpNothing_of_fetch hfetch
  rcases generateBundle_cases files cache entry options with ⟨_, hb, -⟩ | ⟨e, _, -, he⟩ | ⟨bundle, _, -, he⟩
  · rw [hfetch] at hb
    cases hb
  all_goals
    have hbuild : build.cache = _ := congrArg Build.cache he
    have hresult : build.result = _ := congrArg Build.result he
    generalize (fetch cache (cacheKey entry options)).2 = after at hlook hbuild
    have hother : ∀ k, k ≠ cacheKey entry options → after.entries.get? k = cache.entries.get? k := by
      intro k hk
      rw [hlook.entries_eq, Table.get?_drop, if_neg hk.symm]
  · -- a request that fails has removed the text and stored none
    rw [hbuild, hresult]
    exact ⟨hother, hlook.evictions_eq, fun bundle hok => by cases hok⟩
  · have hk : cache.entries.has (cacheKey entry options) = true := by rw [Table.has, hs]; rfl
    obtain ⟨hz, hroom⟩ := h.makeRoom_of_entries_eq_drop hlook.config_eq hlook.entries_eq hk
    have hentries := congrArg Cache.entries (hbuild.trans (Cache.insert_of_room hz hroom _ _))
    have hstats := congrArg Cache.stats (hbuild.trans (Cache.insert_of_room hz hroom _ _))
    dsimp only at hentries hstats
    refine ⟨fun k hk => ?_, ?_, fun b hok => ?_⟩
    · rw [hentries, Table.get?_put, if_neg hk.symm]
      exact hother k hk
    · rw [hstats]
      exact hlook.evictions_eq
    · obtain rfl : bundle = b := Except.ok.inj (hresult.symm.trans hok)
      have hhealed := Table.get?_put after.entries (cacheKey entry options) (cacheKey entry options)
        ⟨bundle.encode, after.config.lifetime, after.clock + 1⟩
      rw [if_pos rfl, ← hentries] at hhealed
      exact ⟨_, hhealed, Bundle.decode?_encode bundle⟩

end

/-- **Bad texts in a cache heal.** After any run of bundlers that share a cache with any limits, let there be an entry
under the key of a request whose lifetime has not elapsed, with any text. If the text spells a bundle, this bundle is
the answer, and no file is read. If it spells none, the answer and the files that are read are those of a cache without
the key; every other entry stays as it is, no entry is counted as evicted, and when the request succeeds, the text that
is then stored under the key spells the answer. -/
theorem generateBundle_heals (config : CacheConfig) (events : List ServiceEvent) (clone : Nat) (files : Files)
    (entry : Path) (options : Options) {stored : CacheEntry String}
    (hs : ((SharedCache.served config events).through clone).entries.get? (cacheKey entry options) = some stored)
    (hl : stored.hasElapsed = false) :
    let cache := (SharedCache.served config events).through clone
    let key := cacheKey entry options
    let build := generateBundle files cache entry options
    (∀ bundle, Bundle.decode? stored.value = some bundle → build.result = .ok bundle ∧ build.reads = []) ∧
      (Bundle.decode? stored.value = none →
        (∀ other : BundleCache, other.entries.get? key = none →
          build.result = (generateBundle files other entry options).result ∧
            build.reads = (generateBundle files other entry options).reads) ∧
        (∀ k, k ≠ key → build.cache.entries.get? k = cache.entries.get? k) ∧
        build.cache.stats.evictions = cache.stats.evictions ∧
        ∀ bundle, build.result = .ok bundle →
          ∃ healed, build.cache.entries.get? key = some healed ∧ Bundle.decode? healed.value = some bundle) := by
  intro cache key build
  have hfinds : cache.Finds key stored.value := Cache.finds_of_live hs hl
  constructor
  · intro bundle hd
    have hfetch := fetch_of_finds hfinds hd
    rcases generateBundle_cases files cache entry options with ⟨b, hb, he⟩ | ⟨_, _, hn, -⟩ | ⟨_, _, hn, -⟩
    · obtain rfl : bundle = b := Option.some.inj ((congrArg Prod.fst hfetch).symm.trans hb)
      exact ⟨congrArg Build.result he, congrArg Build.reads he⟩
    all_goals
      rw [hfetch] at hn
      cases hn
  · intro hd
    have hfetch : (fetch cache key).1 = none := fetch_of_unreadable hfinds hd
    obtain ⟨list, hm⟩ := SharedCache.exists_mirrors_served config events
    have hcache : Mirrors cache list := by
      show Mirrors ((SharedCache.served config events).through clone) list
      rw [hm.through_eq]
      exact hm.shared
    exact ⟨fun other ho => result_and_reads_congr hfetch (fetch_of_absent ho), hcache.cache_of_unreadable hs hfetch⟩

/-- Events after which a cache of two entries is full: the bundle of `plainRequest` is stored, its text is cut off
by somebody, and an entry of somebody else is stored and looked up. -/
def spoilingEvents : List ServiceEvent :=
  [.request 0 pair.view plainRequest, .cache (.clone 0 1), .cache (.call 1 (.insert "other" "text")),
    .cache (.call 1 (.insert plainRequest.key "\x7b\"code\":")), .cache (.call 0 (.get "other"))]

theorem generateBundle_heals_full :
    let cache := (SharedCache.served { capacity := some 2 } spoilingEvents).through 1
    let build := generateBundle pair.view cache plainRequest.entry plainRequest.options
    cache.size = 2 ∧ Bundle.decode? "\x7b\"code\":" = none ∧
      ∃ bundle, bundle.code = "import './b'; // first\nrun ( 1 );" ∧ build.result = .ok bundle ∧
        (∃ healed, build.cache.entries.get? plainRequest.key = some healed ∧
          Bundle.decode? healed.value = some bundle) ∧
        (build.cache.entries.get? "other").map (·.value) = some "text" ∧ build.cache.stats.evictions = 0 := by
  intro cache build
  -- with this name no step below has to evaluate the build
  have hbuild : generateBundle pair.view cache plainRequest.entry plainRequest.options = build := rfl
  have hrun : (cache.entries.get? plainRequest.key).map (fun e => (e.value, e.lifetime)) =
        some ("\x7b\"code\":", none) ∧ cache.size = 2 ∧ cache.stats.evictions = 0 ∧
      (cache.entries.get? "other").map (·.value) = some "text" ∧ "other" ≠ plainRequest.key ∧
      (Bundle.decode? "\x7b\"code\":").isNone = true ∧
      (buildFresh pair.view plainRequest.entry plainRequest.options).1.map (·.code) =
        .ok "import './b'; // first\nrun ( 1 );" := by decide +kernel
  obtain ⟨hstored, hsize, hevictions, hother, hne, hbad, hcode⟩ := hrun
  obtain ⟨stored, hs, he⟩ := Option.map_eq_some_iff.mp hstored
  obtain ⟨hvalue, hlife⟩ := Prod.mk.inj he
  have hl : stored.hasElapsed = false := by simp [CacheEntry.hasElapsed, hlife]
  have hd : Bundle.decode? stored.value = none := by rw [hvalue]; exact Option.isNone_iff_eq_none.mp hbad
  obtain ⟨-, hheals⟩ := generateBundle_heals _ _ 1 pair.view plainRequest.entry plainRequest.options hs hl
  rw [hbuild] at hheals
  obtain ⟨hfresh, hkept, hcount, hhealed⟩ := hheals hd
  obtain ⟨hresult, -⟩ := hfresh (.empty {}) rfl
  rw [result_of_empty] at hresult
  have hkept := hkept "other" hne
  cases hb : (buildFresh pair.view plainRequest.entry plainRequest.options).1 with
  | error e => rw [hb] at hcode; cases hcode
  | ok bundle =>
    rw [hb] at hcode
    rw [hb, Except.mapError] at hresult
    exact ⟨hsize, Option.isNone_iff_eq_none.mp hbad, bundle, Except.ok.inj hcode, hresult,
      hhealed bundle hresult, (congrArg (Option.map CacheEntry.value) hkept).trans hother,
      hcount.trans hevictions⟩

end ModuleBundler
