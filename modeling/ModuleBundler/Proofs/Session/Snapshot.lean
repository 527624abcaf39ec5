import ModuleBundler.Proofs.Cache.Lookup
import ModuleBundler.Proofs.Session.Memoization

/-!
# A bundle stays as it was built

Files may change while bundlers work on them. What a bundler has answered once stays the answer, whoever is
asked and whatever happens to the files, until the cache is cleared or its text under the key of the request
is removed or replaced. Then the next answer comes from the files as they are at that time
(`generate_eq_snapshot`).

The cache has no capacity and no lifetime of its own. In between it holds a text that spells the answer under
the key of the request, and no event but the ones named takes it away (`Snapshot`).
-/

namespace ModuleBundler

/-! ### Events -/

/-- A change to files in memory. -/
inductive Edit where
  | insert (path : Path) (content : ByteArray)
  | insertUnreadable (path : Path)
  | remove (path : Path)

/-- The store after a change. -/
def FileStore.edit (store : FileStore) : Edit → FileStore
  | .insert p content => store.insert p content
  | .insertUnreadable p => store.insertUnreadable p
  | .remove p => (store.remove p).2

/-- What can happen in a session: a call, a change to the files of a bundler, or a text that somebody stores
in the cache. -/
inductive Event where
  | call (call : Call)
  | edit (bundler : Nat) (edit : Edit)
  | cacheInsert (lifetime : Option Nat) (key text : String)

namespace Event

/-- The request of an event, if it makes one. -/
def request? : Event → Option Request
  | .call c => c.request?
  | _ => none

/-- Whether an event removes the text under `key` from the cache. -/
def removes (key : String) : Event → Bool
  | .call .clearCache => true
  | .call (.cacheRemove k) => k == key
  | _ => false

/-- Whether an event is the storing of a text under `key` by hand. -/
def replaces (key : String) : Event → Bool
  | .cacheInsert _ k _ => k == key
  | _ => false

end Event

namespace Session

/-- A session that begins with an empty cache without capacity and lifetime. -/
def start (projects : Nat → FileStore) : Session := { projects, cache := .empty {} }

/-- The session after an event. -/
def step (s : Session) : Event → Session
  | .call c => s.after c
  | .edit i change => { s with projects := Function.update s.projects i ((s.projects i).edit change) }
  | .cacheInsert lifetime key text => { s with cache := s.cache.insertFor lifetime key text }

/-- The session after some events. -/
def run (s : Session) (events : List Event) : Session := events.foldl step s

end Session

/-! ### Requests -/

section

variable {files : Files} {cache : BundleCache} {entry : Path} {options : Options}

/-- A text that spells a bundle is fetched, and it stays in the cache. -/
theorem fetch_of_finds {key text : String} {bundle : Bundle} (h : cache.Finds key text)
    (hd : Bundle.decode? text = some bundle) : fetch cache key = (some bundle, (cache.get key).2) := by
  rcases fetch_cases cache key with ⟨t, b, hg, hb, he⟩ | ⟨t, hg, hb, -⟩ | ⟨hg, -⟩
  · obtain rfl := Option.some.inj (h.symm.trans hg)
    obtain rfl := Option.some.inj (hd.symm.trans hb)
    exact he
  · obtain rfl := Option.some.inj (h.symm.trans hg)
    rw [hd] at hb
    cases hb
  · rw [h] at hg
    cases hg

theorem config_fetch (cache : BundleCache) (key : String) : (fetch cache key).2.config = cache.config := by
  rcases fetch_cases cache key with ⟨_, _, -, -, he⟩ | ⟨_, -, -, he⟩ | ⟨-, he⟩ <;> rw [he]
  · exact Cache.config_get cache key
  · exact Cache.config_get cache key
  · exact Cache.config_get cache key

/-- What a request does: it is answered from the cache, or it fails, or a bundle is built and stored. -/
theorem generateBundle_cases (files : Files) (cache : BundleCache) (entry : Path) (options : Options) :
    (∃ bundle, (fetch cache (cacheKey entry options)).1 = some bundle ∧
      generateBundle files cache entry options =
        { result := .ok bundle, cache := (fetch cache (cacheKey entry options)).2, reads := [] }) ∨
    (∃ e reads, (fetch cache (cacheKey entry options)).1 = none ∧
      generateBundle files cache entry options =
        { result := .error e, cache := (fetch cache (cacheKey entry options)).2, reads }) ∨
    ∃ bundle reads, (fetch cache (cacheKey entry options)).1 = none ∧
      generateBundle files cache entry options =
        { result := .ok bundle
          cache := (fetch cache (cacheKey entry options)).2.insert (cacheKey entry options) bundle.encode
          reads } := by
  unfold generateBundle
  simp only
  split
  next bundle cache' he => exact .inl ⟨bundle, by rw [he], by rw [he]⟩
  next cache' he =>
    split
    next e reads hb => exact .inr (.inl ⟨_, reads, by rw [he], by rw [he]⟩)
    next bundle reads hb => exact .inr (.inr ⟨bundle, reads, by rw [he], by rw [he]⟩)

end

/-! ### Snapshots -/

/-- Whether a cache without capacity and lifetime holds a text under `key` that spells `bundle`. -/
structure Snapshot (cache : BundleCache) (key : String) (bundle : Bundle) : Prop where
  config : cache.config = {}
  found : ∃ text, cache.Finds key text ∧ Bundle.decode? text = some bundle

namespace Snapshot

variable {files : Files} {cache : BundleCache} {key : String} {bundle : Bundle}

theorem fetch (h : Snapshot cache key bundle) (k : String) :
    Snapshot (ModuleBundler.fetch cache k).2 key bundle := by
  obtain ⟨text, hf, hd⟩ := h.found
  refine ⟨(config_fetch cache k).trans h.config, text, ?_, hd⟩
  by_cases hk : k = key
  · subst hk
    rw [fetch_of_finds hf hd]
    exact hf.get k
  · rcases fetch_cases cache k with ⟨_, _, -, -, he⟩ | ⟨_, -, -, he⟩ | ⟨-, he⟩ <;> rw [he]
    · exact hf.get k
    · exact (hf.get k).remove hk
    · exact hf.get k

theorem insertFor (h : Snapshot cache key bundle) {k : String} (hk : k ≠ key) (lifetime : Option Nat)
    (text : String) : Snapshot (cache.insertFor lifetime k text) key bundle := by
  have hc : cache.config.capacity = none := by rw [h.config]
  obtain ⟨t, hf, hd⟩ := h.found
  exact ⟨(Cache.config_insertFor hc lifetime k text).trans h.config, t, hf.insertFor hc hk lifetime text, hd⟩

/-- The request whose bundle is in the cache is answered with that bundle, and no file is read for it. -/
theorem answer {entry : Path} {options : Options} (h : Snapshot cache (cacheKey entry options) bundle) :
    (ModuleBundler.generateBundle files cache entry options).result = .ok bundle ∧
      (ModuleBundler.generateBundle files cache entry options).reads = [] := by
  obtain ⟨text, hf, hd⟩ := h.found
  rcases generateBundle_cases files cache entry options with ⟨b, hs, he⟩ | ⟨_, _, hn, -⟩ | ⟨_, _, hn, -⟩
  · rw [fetch_of_finds hf hd] at hs
    obtain rfl := Option.some.inj hs
    rw [he]
    exact ⟨rfl, rfl⟩
  all_goals
    rw [fetch_of_finds hf hd] at hn
    cases hn

/-- No request takes a bundle out of the cache, whatever request it is and whatever its answer. -/
theorem generateBundle (h : Snapshot cache key bundle) (entry : Path) (options : Options) :
    Snapshot (ModuleBundler.generateBundle files cache entry options).cache key bundle := by
  have hf := h.fetch (cacheKey entry options)
  rcases generateBundle_cases files cache entry options with ⟨_, -, he⟩ | ⟨_, _, -, he⟩ | ⟨_, _, hn, he⟩ <;>
    rw [he]
  · exact hf
  · exact hf
  · refine hf.insertFor ?_ _ _
    -- a request with this very key is answered from the cache
    rintro rfl
    obtain ⟨text, ht, hd⟩ := h.found
    rw [fetch_of_finds ht hd] at hn
    cases hn

/-- A request that succeeds leaves its bundle in the cache. -/
theorem of_result (hc : cache.config = {}) {entry : Path} {options : Options}
    (h : (ModuleBundler.generateBundle files cache entry options).result = .ok bundle) :
    Snapshot (ModuleBundler.generateBundle files cache entry options).cache (cacheKey entry options)
      bundle := by
  have hconfig := (config_fetch cache (cacheKey entry options)).trans hc
  rcases generateBundle_cases files cache entry options with ⟨b, hs, he⟩ | ⟨_, _, -, he⟩ | ⟨b, _, -, he⟩ <;>
    rw [he] at h ⊢
  · obtain rfl := Except.ok.inj h
    rcases fetch_cases cache (cacheKey entry options) with ⟨text, b', hg, hd, hf⟩ | ⟨_, -, -, hf⟩ | ⟨-, hf⟩ <;>
      rw [hf] at hs hconfig
    · obtain rfl := Option.some.inj hs
      have ht : cache.Finds (cacheKey entry options) text := hg
      exact ⟨by rw [hf]; exact hconfig, text, by rw [hf]; exact ht.get _, hd⟩
    · cases hs
    · cases hs
  · cases h
  · obtain rfl := Except.ok.inj h
    have hcap : (ModuleBundler.fetch cache (cacheKey entry options)).2.config.capacity = none := by
      rw [hconfig]
    have hlife : (ModuleBundler.fetch cache (cacheKey entry options)).2.config.lifetime ≠ some 0 := by
      rw [hconfig]
      simp
    exact ⟨(Cache.config_insertFor hcap _ _ _).trans hconfig, b.encode,
      Cache.finds_insertFor hcap hlife _ _, Bundle.decode?_encode b⟩

end Snapshot

/-! ### Sessions -/

namespace Session

variable {s : Session} {r : Request} {bundle : Bundle}

/-- The cache of a session keeps its limits. -/
theorem config_step (hc : s.cache.config = {}) (e : Event) : (s.step e).cache.config = {} := by
  cases e with
  | call c =>
    cases c with
    | generate i r =>
      have hconfig := (config_fetch s.cache r.key).trans hc
      show (generateBundle (s.projects i).view s.cache r.entry r.options).cache.config = {}
      rcases generateBundle_cases (s.projects i).view s.cache r.entry r.options with
        ⟨_, -, he⟩ | ⟨_, _, -, he⟩ | ⟨_, _, -, he⟩ <;> rw [he]
      · exact hconfig
      · exact hconfig
      · have hcap : (fetch s.cache r.key).2.config.capacity = none := by rw [hconfig]
        exact (Cache.config_insertFor hcap _ _ _).trans hconfig
    | cacheGet key => exact (Cache.config_get s.cache key).trans hc
    | _ => exact hc
  | edit i change => exact hc
  | cacheInsert lifetime key text =>
    exact (Cache.config_insertFor (by rw [hc]) lifetime key text).trans hc

theorem config_run (events : List Event) : ∀ {s : Session}, s.cache.config = {} →
    (s.run events).cache.config = {} := by
  induction events with
  | nil => exact fun hc => hc
  | cons e events ih => exact fun hc => ih (config_step hc e)

/-- An event keeps the bundle under a key, unless it removes or replaces its text. -/
theorem snapshot_step {key : String} (h : Snapshot s.cache key bundle) {e : Event}
    (hr : e.removes key = false) (hp : e.replaces key = false) : Snapshot (s.step e).cache key bundle := by
  obtain ⟨text, hf, hd⟩ := h.found
  cases e with
  | call c =>
    cases c with
    | generate i r => exact h.generateBundle r.entry r.options
    | clearCache => cases hr
    | pruneExpired => exact ⟨h.config, text, hf.prune, hd⟩
    | cacheGet k => exact ⟨(Cache.config_get s.cache k).trans h.config, text, hf.get k, hd⟩
    | cacheRemove k =>
      have hk : k ≠ key := by simpa [Event.removes] using hr
      exact ⟨h.config, text, hf.remove hk, hd⟩
  | edit i change => exact h
  | cacheInsert lifetime k text =>
    have hk : k ≠ key := by simpa [Event.replaces] using hp
    exact h.insertFor hk lifetime text

theorem snapshot_run {key : String} (events : List Event) : ∀ {s : Session}, Snapshot s.cache key bundle →
    (∀ e ∈ events, e.removes key = false ∧ e.replaces key = false) →
      Snapshot (s.run events).cache key bundle := by
  induction events with
  | nil => exact fun h _ => h
  | cons e events ih =>
    intro s h he
    obtain ⟨⟨hr, hp⟩, hrest⟩ := List.forall_mem_cons.mp he
    exact ih (snapshot_step h hr hp) hrest

/-- A key without a text stays without one, unless its own request is made or a text is stored under it. -/
theorem not_stores_step (hn : ∀ text, ¬ s.cache.Stores r.key text) {e : Event}
    (hr : ∀ r', e.request? = some r' → r'.key ≠ r.key) (hp : e.replaces r.key = false) (text : String) :
    ¬ (s.step e).cache.Stores r.key text := by
  intro h
  cases e with
  | call c =>
    cases c with
    | generate i r' =>
      rcases stores_of_generateBundle h with h | ⟨hk, -⟩
      · exact hn text h
      · exact hr r' rfl hk.symm
    | clearCache => exact Cache.not_stores_clear h
    | pruneExpired => exact hn text h.of_prune
    | cacheGet k => exact hn text h.of_get
    | cacheRemove k => exact hn text h.of_remove
  | edit i change => exact hn text h
  | cacheInsert lifetime k t =>
    have hk : k ≠ r.key := by simpa [Event.replaces] using hp
    rcases h.of_insertFor with ⟨he, -⟩ | h
    · exact hk he.symm
    · exact hn text h

theorem not_stores_run (events : List Event) : ∀ {s : Session}, (∀ text, ¬ s.cache.Stores r.key text) →
    (∀ e ∈ events, (∀ r', e.request? = some r' → r'.key ≠ r.key) ∧ e.replaces r.key = false) →
      ∀ text, ¬ (s.run events).cache.Stores r.key text := by
  induction events with
  | nil => exact fun h _ => h
  | cons e events ih =>
    intro s h he
    obtain ⟨⟨hr, hp⟩, hrest⟩ := List.forall_mem_cons.mp he
    exact ih (not_stores_step h hr hp) hrest

/-- An event that removes the text under a key leaves none there. -/
theorem not_stores_of_removes {key : String} {e : Event} (he : e.removes key = true) (text : String) :
    ¬ (s.step e).cache.Stores key text := by
  cases e with
  | call c =>
    cases c with
    | clearCache => exact Cache.not_stores_clear
    | cacheRemove k =>
      obtain rfl : k = key := by simpa [Event.removes] using he
      exact Cache.not_stores_remove
    | _ => cases he
  | _ => cases he

/-- A request whose key has no text is answered as with an empty cache. -/
theorem result_of_not_stores (hn : ∀ text, ¬ s.cache.Stores r.key text) (i : Nat) :
    (s.build i r).result = (generateBundle (s.projects i).view (.empty {}) r.entry r.options).result := by
  have hf : (fetch s.cache r.key).1 = none :=
    Option.eq_none_iff_forall_ne_some.mpr fun bundle h =>
      let ⟨text, hs, _⟩ := stores_of_fetch h
      hn text hs
  rw [result_of_empty]
  exact result_of_fetch_none hf

end Session

/-- **A bundle stays as it was built** until it is removed from the cache. In every run of bundlers that share
a cache without capacity and lifetime: once a request was answered with a bundle, every later request of this
kind is answered with the same bundle by every bundler, and no read is counted for it, whatever happens to
the files and to the rest of the cache. The first such request after the bundle was removed is answered as
with an empty cache, from the files as they are by then, as long as the digest does not collide on the bytes
of the requests. -/
theorem generate_eq_snapshot (projects : Nat → FileStore) (before : List Event) (r : Request) :
    (∀ i bundle, (((Session.start projects).run before).build i r).result = .ok bundle →
      ∀ between : List Event,
        (∀ e ∈ between, e.removes r.key = false ∧ e.replaces r.key = false) → ∀ j,
          let s := (Session.start projects).run (before ++ .call (.generate i r) :: between)
          (s.build j r).result = .ok bundle ∧ (s.after (.generate j r)).projects = s.projects) ∧
    (∀ removal : Event, removal.removes r.key = true → ∀ between : List Event,
      CollisionFree (r :: between.filterMap Event.request?) →
      (∀ e ∈ between, e.request? ≠ some r ∧ e.replaces r.key = false) → ∀ j,
        let s := (Session.start projects).run (before ++ removal :: between)
        (s.build j r).result =
          (generateBundle (s.projects j).view (.empty {}) r.entry r.options).result) := by
  have hconfig : ((Session.start projects).run before).cache.config = {} := Session.config_run before rfl
  constructor
  · intro i bundle hok between hb j s
    have hs : s = (((Session.start projects).run before).after (.generate i r)).run between := by
      show Session.run _ _ = _
      rw [Session.run, List.foldl_append]
      rfl
    have hsnap : Snapshot s.cache r.key bundle := by
      rw [hs]
      exact Session.snapshot_run between (Snapshot.of_result hconfig hok) hb
    obtain ⟨hanswer, hreads⟩ : (s.build j r).result = .ok bundle ∧ (s.build j r).reads = [] :=
      hsnap.answer
    refine ⟨hanswer, ?_⟩
    show Function.update s.projects j ((s.projects j).countReads (s.build j r).reads) = s.projects
    rw [hreads]
    exact Function.update_eq_self j s.projects
  · intro removal hr between hc hb j s
    have hs : s = (((Session.start projects).run before).step removal).run between := by
      show Session.run _ _ = _
      rw [Session.run, List.foldl_append]
      rfl
    refine Session.result_of_not_stores (fun text => ?_) j
    rw [hs]
    refine Session.not_stores_run between (Session.not_stores_of_removes hr) (fun e he => ⟨?_, (hb e he).2⟩) text
    -- a request with this key would be this request
    intro r' hr' hk
    have hmade : r' ∈ r :: between.filterMap Event.request? :=
      List.mem_cons_of_mem _ (List.mem_filterMap.mpr ⟨e, he, hr'⟩)
    obtain rfl := eq_of_key_eq hc hmade List.mem_cons_self hk
    exact (hb e he).1 hr'

/-- Events that leave the bundle of `plainRequest` in the cache: its files change and become unreadable, another
request is made, and the cache is used for something else. -/
def pairEvents : List Event :=
  [.edit 0 (.insert ⟨"b.js"⟩ "stop();".toUTF8), .call (.generate 1 smallRequest),
    .edit 1 (.insertUnreadable ⟨"a.js"⟩), .call .pruneExpired, .cacheInsert (some 0) "other" "text",
    .call (.cacheRemove smallRequest.key), .call (.generate 1 plainRequest)]

theorem generate_eq_snapshot_pair :
    (∃ bundle, bundle.code = "import './b'; // first\nrun ( 1 );" ∧ ∀ j,
      let s := (Session.start fun _ => pair).run (.call (.generate 0 plainRequest) :: pairEvents)
      (s.build j plainRequest).result = .ok bundle ∧
        (s.after (.generate j plainRequest)).projects = s.projects) ∧
    (((Session.start fun _ => pair).run
        [.call (.generate 0 plainRequest), .call .clearCache,
          .edit 0 (.insert ⟨"b.js"⟩ "stop();".toUTF8)]).build 0 plainRequest).result.toOption.map (·.code) =
      some "import './b'; // first\nstop();" := by
  obtain ⟨hkeeps, -⟩ := generate_eq_snapshot (fun _ => pair) [] plainRequest
  obtain ⟨-, hfresh⟩ := generate_eq_snapshot (fun _ => pair) [.call (.generate 0 plainRequest)] plainRequest
  constructor
  · have hcode : (((Session.start fun _ => pair).build 0 plainRequest).result.map (·.code)) =
        .ok "import './b'; // first\nrun ( 1 );" := by decide +kernel
    cases h : ((Session.start fun _ => pair).build 0 plainRequest).result with
    | error e => rw [h] at hcode; cases hcode
    | ok bundle =>
      rw [h] at hcode
      refine ⟨bundle, Except.ok.inj hcode, fun j => hkeeps 0 bundle h pairEvents ?_ j⟩
      have hevents : pairEvents.all (fun e => !e.removes plainRequest.key && !e.replaces plainRequest.key) =
          true := by decide +kernel
      simpa using hevents
  · have hmade : CollisionFree [plainRequest] := by
      intro r hr r' hr' _
      rw [List.mem_singleton.mp hr, List.mem_singleton.mp hr']
    have h := hfresh (.call .clearCache) rfl [.edit 0 (.insert ⟨"b.js"⟩ "stop();".toUTF8)] hmade
      (by simp [Event.request?, Event.replaces]) 0
    rw [List.singleton_append] at h
    rw [h]
    decide +kernel

end ModuleBundler
