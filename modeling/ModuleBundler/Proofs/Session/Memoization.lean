import ModuleBundler.Proofs.Bundle.RoundTrip
import ModuleBundler.Proofs.Cache.Key
import ModuleBundler.Proofs.Session.Basic

/-!
# A cache changes no answer

As long as files do not change, a request is answered as if there were no cache, whatever its limits are
and whatever was done with it before (`answers_eq_fresh`). The cache may have lost any of its entries; what
carries the proof is that each text it holds is the bundle that the files give for one of the requests of
the session, under the key of that request (`Memoizes`). Requests with one key are the same request,
unless the digest collides on their bytes.
-/

namespace ModuleBundler

/-- The requests that some calls make, in order. -/
def requests (calls : List Call) : List Request := calls.filterMap Call.request?

/-- Whether the digest tells requests with different bytes apart. -/
def CollisionFree (made : List Request) : Prop :=
  ∀ r ∈ made, ∀ r' ∈ made, Digest.bytes r.bytes = Digest.bytes r'.bytes → r.bytes = r'.bytes

/-- Whether each text in a cache is the bundle that the files give for one of the requests `made`, under
its key. -/
def Memoizes (files : Files) (made : List Request) (cache : BundleCache) : Prop :=
  ∀ key text, cache.Stores key text → ∃ r ∈ made, key = r.key ∧
    ∃ bundle, (buildFresh files r.entry r.options).1 = .ok bundle ∧ text = bundle.encode

variable {files : Files} {made : List Request} {cache : BundleCache}

theorem memoizes_empty (config : CacheConfig) : Memoizes files made (.empty config) :=
  fun _ _ h => absurd h Cache.not_stores_empty

/-- A request whose digest does not collide is known from its key. -/
theorem eq_of_key_eq (hc : CollisionFree made) {r r' : Request} (hr : r ∈ made) (hr' : r' ∈ made)
    (h : r.key = r'.key) : r = r' := by
  obtain ⟨he, ho⟩ := eq_of_cacheKey_eq (hc r hr r' hr') h
  cases r
  cases r'
  exact (Request.mk.injEq ..).mpr ⟨he, ho⟩

/-! ### One call -/

/-- A cache that memoizes answers as the files do. -/
theorem Memoizes.result (hm : Memoizes files made cache) (hc : CollisionFree made) {r : Request}
    (hr : r ∈ made) :
    (generateBundle files cache r.entry r.options).result =
      (buildFresh files r.entry r.options).1.mapError (.generate r.entry) := by
  cases hf : (fetch cache (cacheKey r.entry r.options)).1 with
  | none => exact result_of_fetch_none hf
  | some bundle =>
    obtain ⟨text, hs, hd⟩ := stores_of_fetch hf
    obtain ⟨r', hr', hk, b, hb, rfl⟩ := hm _ _ hs
    -- the stored text belongs to this very request, and it spells the bundle it was made from
    obtain rfl : r = r' := eq_of_key_eq hc hr hr' hk
    rw [Bundle.decode?_encode] at hd
    rw [result_of_fetch_some hf, hb, Option.some.inj hd]
    rfl

/-- A cache that memoizes still does so after a request. -/
theorem Memoizes.generateBundle (hm : Memoizes files made cache) {r : Request} (hr : r ∈ made) :
    Memoizes files made (generateBundle files cache r.entry r.options).cache := by
  intro key text h
  rcases stores_of_generateBundle h with h | ⟨hk, hb⟩
  · exact hm key text h
  · exact ⟨r, hr, hk, hb⟩

/-- A session whose cache memoizes, and whose bundlers work on the same files, is one after any call. -/
theorem Memoizes.after {s : Session} (hm : Memoizes files made s.cache)
    (hp : ∀ i, (s.projects i).view = files) {call : Call} (hr : ∀ r, call.request? = some r → r ∈ made) :
    Memoizes files made (s.after call).cache ∧ ∀ i, ((s.after call).projects i).view = files := by
  cases call with
  | generate bundler r =>
    refine ⟨?_, fun i => ?_⟩
    · show Memoizes files made (s.build bundler r).cache
      unfold Session.build
      rw [hp]
      exact hm.generateBundle (hr r rfl)
    · show (Function.update s.projects bundler _ i).view = files
      by_cases hi : i = bundler
      · subst hi
        rw [Function.update_self, FileStore.view_countReads, hp]
      · rw [Function.update_of_ne hi, hp]
  | clearCache => exact ⟨fun _ _ h => absurd h Cache.not_stores_clear, hp⟩
  | pruneExpired => exact ⟨fun key text h => hm key text h.of_prune, hp⟩
  | cacheGet k => exact ⟨fun key text h => hm key text h.of_get, hp⟩
  | cacheRemove k => exact ⟨fun key text h => hm key text h.of_remove, hp⟩

/-! ### Sessions -/

/-- The answers of a session whose cache memoizes are those of the files. -/
theorem Memoizes.answers (hc : CollisionFree made) {calls : List Call} :
    ∀ {s : Session}, Memoizes files made s.cache → (∀ i, (s.projects i).view = files) →
      (∀ r ∈ requests calls, r ∈ made) →
      s.answers calls = (requests calls).map fun r =>
        (buildFresh files r.entry r.options).1.mapError (.generate r.entry) := by
  induction calls with
  | nil => intro s _ _ _; rfl
  | cons call calls ih =>
    intro s hm hp hr
    have hcall : ∀ r, call.request? = some r → r ∈ made := fun r h =>
      hr r (List.mem_filterMap.mpr ⟨call, List.mem_cons_self, h⟩)
    obtain ⟨hm', hp'⟩ := hm.after hp hcall
    have hrest := ih hm' hp' fun r h => by
      obtain ⟨c, hc, he⟩ := List.mem_filterMap.mp h
      exact hr r (List.mem_filterMap.mpr ⟨c, List.mem_cons_of_mem _ hc, he⟩)
    cases call with
    | generate bundler r =>
      have hanswer : (s.build bundler r).result =
          (buildFresh files r.entry r.options).1.mapError (.generate r.entry) := by
        unfold Session.build
        rw [hp]
        exact hm.result hc (hcall r rfl)
      rw [Session.answers, hanswer, hrest]
      rfl
    | _ => exact hrest

/-- **A cache changes no answer.** Bundlers that work on the same files and share a cache with any limits
answer every request, after any calls, as a new bundler with a cache of its own does, as long as the digest
does not collide on the bytes of the requests. -/
theorem answers_eq_fresh (store : FileStore) {projects : Nat → FileStore}
    (hp : ∀ i, (projects i).view = store.view) (config : CacheConfig) {calls : List Call}
    (hc : CollisionFree (requests calls)) :
    Session.answers { projects, cache := .empty config } calls =
      (requests calls).map fun r => (generateBundle store.view (.empty {}) r.entry r.options).result := by
  rw [(memoizes_empty config).answers hc hp fun _ h => h]
  exact List.map_congr_left fun r _ => (result_of_empty {}).symm

/-- Two files, one of which refers to the other. -/
def pair : FileStore :=
  ((FileStore.empty ⟨"/app"⟩).insert ⟨"a.js"⟩ "import './b'; // first".toUTF8).insert ⟨"b.js"⟩
    "run ( 1 );".toUTF8

/-- A request for the pair as it is. -/
def plainRequest : Request :=
  ⟨⟨"a.js"⟩, { extensions := [".js"], ignorePatterns := [], target := .server }⟩

/-- A request for the pair without comments and blanks. -/
def smallRequest : Request := ⟨⟨"a.js"⟩, { plainRequest.options with minify := true }⟩

/-- Calls of two bundlers. In a cache with one place, each of the two bundles takes the place of the other. -/
def pairCalls : List Call :=
  [.generate 0 plainRequest, .generate 1 plainRequest, .generate 1 smallRequest, .pruneExpired,
    .generate 0 plainRequest, .cacheRemove smallRequest.key, .generate 0 smallRequest]

theorem answers_eq_fresh_pair :
    (Session.answers { projects := fun _ => pair, cache := .empty { capacity := some 1 } } pairCalls).map
        (fun answer => answer.toOption.map (·.code)) =
      [some "import './b'; // first\nrun ( 1 );", some "import './b'; // first\nrun ( 1 );",
        some "import './b';run(1);", some "import './b'; // first\nrun ( 1 );",
        some "import './b';run(1);"] := by
  have hne : Digest.bytes plainRequest.bytes ≠ Digest.bytes smallRequest.bytes := by
    unfold Request.bytes
    rw [keyBytes_eq, keyBytes_eq]
    decide +kernel
  have hc : CollisionFree (requests pairCalls) := by
    have hmade : ∀ r ∈ requests pairCalls, r = plainRequest ∨ r = smallRequest := by
      intro r hr
      simp only [requests, pairCalls, Call.request?, List.filterMap_cons, List.filterMap_nil,
        List.mem_cons, List.not_mem_nil, or_false] at hr
      grind
    intro r hr r' hr' h
    rcases hmade r hr with rfl | rfl <;> rcases hmade r' hr' with rfl | rfl
    · rfl
    · exact absurd h hne
    · exact absurd h.symm hne
    · rfl
  rw [answers_eq_fresh pair (fun _ => rfl) { capacity := some 1 } hc]
  decide +kernel

end ModuleBundler
