import ModuleBundler.Proofs.Walk.FanOut
import Mathlib.Data.Set.Card
import Mathlib.Logic.Function.Basic
import Mathlib.Tactic.Abel

/-!
# The order of branches does not matter

However the branches of a walk take turns, a complete run ends with the same set of files, the same
unresolved references and the same failed files as the walk that visits one file after the other
(`schedules_eq_walk`). Different orders find a file through different importers and on routes of different
lengths, so what is in the middle of a run differs; what all runs share is kept in `Sound`.

Every file in the set was reached, and each of its children is in the set or is still on its way there. What
the branches still owe to the report and what is in it already make up what the files of the set contribute
(`Ledger`). The limit never cuts a branch off, as long as it is not smaller than the number of files that can
be reached: a file on a long route has as many other files in the set before it.
-/

namespace ModuleBundler

/-! ### Contributions -/

/-- Files that were read, files that failed, and references that lead nowhere, each as often as it occurs and
whatever the spelling of the file. -/
abbrev Ledger := Multiset (List Part) × Multiset (List Part) × Multiset (String × List Part)

/-- A reference that leads nowhere, whatever the spelling of the file it stands in. -/
def Unresolved.place (u : Unresolved) : String × List Part := (u.specifier, u.importer.parts)

/-- What a report tells of files and references. -/
def Report.ledger (report : Report) : Ledger :=
  (report.reads.map Path.parts, report.failed.map Path.parts, report.unresolved.map Unresolved.place)

section

variable (files : Files) (options : Options)

/-- The faults of the references of a file. -/
def danglings (p : Path) : List Unresolved :=
  match files.source p with
  | .error _ => []
  | .ok source => (references source).filterMap (dangling? files options p)

/-- What a file contributes to a report. -/
def contribution (p : Path) : Ledger :=
  ({p.parts}, (faults files p).map Path.parts, (danglings files options p).map Unresolved.place)

/-- What a branch still owes to the report. -/
def Branch.owes : Branch → Ledger
  | .follow p _ r => (0, 0, (dangling? files options p r).toList.map Unresolved.place)
  | .enter _ _ => 0
  | .read p _ => contribution files options p

/-- The branches of the references of a file owe what the references do. -/
theorem owes_follows (p : Path) (depth : Nat) :
    ((follows files p depth : Multiset Branch).map (Branch.owes files options)).sum =
      ((0, 0, (danglings files options p).map Unresolved.place) : Ledger) := by
  unfold follows danglings
  cases files.source p with
  | error e => rfl
  | ok source =>
    simp only
    induction references source with
    | nil => rfl
    | cons r rs ih =>
      simp only [Multiset.map_coe, Multiset.sum_coe, List.map_cons, List.sum_cons] at ih ⊢
      rw [ih]
      cases hr : dangling? files options p r <;> simp [Branch.owes, hr]

/-! ### What every run keeps -/

/-- The places that chains lead to from `entry`. -/
def reachable (entry : Path) : Set (List Part) :=
  {ps | ∃ n p, Chain (IsChild files options) n entry p ∧ p.parts = ps}

/-- Whether a branch may be pending when the files `met` are in the set. Its route is no longer than the number
of these files. -/
def Branch.Sound (entry : Path) (met : List Path) : Branch → Prop
  | .follow p depth r => p ∈ met ∧ depth < met.length ∧
      ∃ source, files.source p = .ok source ∧ r ∈ references source
  | .enter q depth => depth ≤ met.length ∧ (q = entry ∨ ∃ p ∈ met, q ∈ targets files options p)
  | .read p depth => p ∈ met ∧ depth < met.length

/-- Whether a branch is on its way to the child `q` of `p`. -/
def Branch.Brings (p q : Path) : Branch → Prop
  | .follow p' _ r => p' = p ∧ target? files options p r = some q
  | .enter q' _ => q' = q
  | .read p' _ => p' = p

/-- What is true of a walk from `entry` on its way. -/
structure Sound (entry : Path) (s : FanOut) : Prop where
  branches : ∀ b ∈ s.pool, b.Sound files options entry s.report.dependencies.paths
  /-- Every file in the set is reached from the entry. -/
  reached : ∀ p ∈ s.report.dependencies.paths, ∃ n, Chain (IsChild files options) n entry p
  /-- The entry is in the set, or it is on its way there. -/
  begun : s.report.dependencies.contains entry = true ∨ .enter entry 0 ∈ s.pool
  /-- A child of a file in the set is in the set, or it is on its way there. -/
  closing : ∀ p ∈ s.report.dependencies.paths, ∀ q, IsChild files options p q →
    s.report.dependencies.contains q = true ∨ ∃ b ∈ s.pool, b.Brings files options p q
  /-- The report and the debts of the branches are what the files in the set contribute. -/
  balance : s.report.ledger + (s.pool.map (Branch.owes files options)).sum =
    ((s.report.dependencies.paths : Multiset Path).map (contribution files options)).sum

variable {files options}

theorem Branch.Sound.mono {entry : Path} {met met' : List Path} (h : met <+: met') {b : Branch}
    (hb : b.Sound files options entry met) : b.Sound files options entry met' := by
  cases b with
  | follow p depth r => exact ⟨h.subset hb.1, hb.2.1.trans_le h.length_le, hb.2.2⟩
  | enter q depth =>
    refine ⟨hb.1.trans h.length_le, hb.2.imp_right ?_⟩
    rintro ⟨p, hp, hq⟩
    exact ⟨p, h.subset hp, hq⟩
  | read p depth => exact ⟨h.subset hb.1, hb.2.trans_le h.length_le⟩

/-! ### One branch -/

section

variable {entry p q : Path} {report : Report} {b : Branch}

theorem contains_mono {set set' : DependencySet} (h : set.paths <+: set'.paths)
    (hq : set.contains q = true) : set'.contains q = true := by
  rw [DependencySet.contains_eq_true_iff] at hq ⊢
  obtain ⟨p, hp, he⟩ := hq
  exact ⟨p, h.subset hp, he⟩

theorem contains_of_mem {set : DependencySet} (h : p ∈ set.paths) : set.contains p = true :=
  DependencySet.contains_eq_true_iff.mpr ⟨p, h, rfl⟩

variable (files) in
/-- A branch that enters a file within the limit puts it into the set, or there is a reason not to. -/
theorem run_enter_cases {depth : Nat} (hd : depth ≤ options.maxDepth.toNat) (report : Report) :
    ((options.ignores q = true ∨ report.dependencies.contains q = true) ∧
      (Branch.enter q depth).run files options report = (report, [])) ∨
    (options.ignores q = false ∧ (report.dependencies.insert q).paths = report.dependencies.paths ++ [q] ∧
      (Branch.enter q depth).run files options report =
        ({ report with dependencies := report.dependencies.insert q }, [.read q depth])) := by
  by_cases hc : options.ignores q = true ∨ report.dependencies.contains q = true
  · exact .inl ⟨hc, run_enter_old (hc.imp_right .inr)⟩
  · simp only [not_or, Bool.not_eq_true] at hc
    refine .inr ⟨hc.1, ?_, run_enter_new hc.1 hd hc.2⟩
    rw [DependencySet.paths_insert, if_neg (by simp [hc.2])]

/-- The branches that a branch leaves may be pending, and the set has grown by a file that is reached. -/
theorem Branch.Sound.run (hb : b.Sound files options entry report.dependencies.paths)
    (hlimit : report.dependencies.paths.length ≤ options.maxDepth.toNat)
    (hreached : ∀ p ∈ report.dependencies.paths, ∃ n, Chain (IsChild files options) n entry p) :
    report.dependencies.paths <+: (b.run files options report).1.dependencies.paths ∧
    (∀ b' ∈ (b.run files options report).2,
      b'.Sound files options entry (b.run files options report).1.dependencies.paths) ∧
    ∀ p ∈ (b.run files options report).1.dependencies.paths,
      p ∈ report.dependencies.paths ∨ (∃ n, Chain (IsChild files options) n entry p) ∧
        ∃ depth, .read p depth ∈ (b.run files options report).2 := by
  cases b with
  | follow p depth r =>
    obtain ⟨hp, hd, source, hs, hr⟩ := hb
    rw [run_follow]
    refine ⟨List.prefix_rfl, ?_, fun _ => .inl⟩
    intro b' hb'
    obtain ⟨q, hq, rfl⟩ := List.mem_map.mp hb'
    have hq : target? files options p r = some q := Option.mem_toList.mp hq
    refine ⟨hd, .inr ⟨p, hp, ?_⟩⟩
    unfold targets
    rw [hs]
    exact List.mem_filterMap.mpr ⟨r, hr, hq⟩
  | enter q depth =>
    obtain ⟨hd, hq⟩ := hb
    rcases run_enter_cases files (hd.trans hlimit) report with ⟨-, he⟩ | ⟨hi, hpaths, he⟩ <;>
      rw [he]
    · exact ⟨List.prefix_rfl, fun _ h => absurd h List.not_mem_nil, fun _ => .inl⟩
    · have hnew : ∃ n, Chain (IsChild files options) n entry q := by
        rcases hq with rfl | ⟨p, hp, hq⟩
        · exact ⟨0, .here q⟩
        · obtain ⟨n, hn⟩ := hreached p hp
          exact ⟨n + 1, hn.step (isChild_iff_mem_targets.mpr ⟨hq, hi⟩)⟩
      simp only [hpaths]
      refine ⟨List.prefix_append _ _, ?_, ?_⟩
      · intro b' hb'
        rw [List.mem_singleton] at hb'
        subst hb'
        exact ⟨by simp, by simpa using Nat.lt_succ_of_le hd⟩
      · intro p hp
        rcases List.mem_append.mp hp with hp | hp
        · exact .inl hp
        · rw [List.mem_singleton] at hp
          subst hp
          exact .inr ⟨hnew, depth, List.mem_singleton_self _⟩
  | read p depth =>
    rw [run_read]
    refine ⟨List.prefix_rfl, ?_, fun _ => .inl⟩
    intro b' hb'
    obtain ⟨source, r, hs, hr, rfl⟩ := exists_of_mem_follows hb'
    exact ⟨hb.1, hb.2, source, hs, hr⟩

/-- A branch that is on its way to a child brings it into the set, or leaves a branch that does. -/
theorem Branch.Brings.run (hb : b.Brings files options p q) (hq : IsChild files options p q)
    (hs : b.Sound files options entry report.dependencies.paths)
    (hlimit : report.dependencies.paths.length ≤ options.maxDepth.toNat) :
    (b.run files options report).1.dependencies.contains q = true ∨
      ∃ b' ∈ (b.run files options report).2, b'.Brings files options p q := by
  obtain ⟨source, hsource, r, hr, hpath, hres, hi⟩ := hq
  cases b with
  | follow p' depth r' =>
    obtain ⟨rfl, ht⟩ := hb
    rw [run_follow, ht]
    exact .inr ⟨.enter q (depth + 1), by simp, rfl⟩
  | enter q' depth =>
    obtain rfl : q' = q := hb
    rcases run_enter_cases files (hs.1.trans hlimit) report with ⟨hc, he⟩ | ⟨-, hpaths, he⟩ <;>
      rw [he]
    · rcases hc with hc | hc
      · rw [hi] at hc
        cases hc
      · exact .inl hc
    · exact .inl (contains_of_mem (by rw [hpaths]; simp))
  | read p' depth =>
    obtain rfl : p' = p := hb
    rw [run_read]
    refine .inr ⟨.follow p' depth r, ?_, rfl, target?_eq_some_iff.mpr ⟨hpath, hres⟩⟩
    unfold follows
    rw [hsource]
    exact List.mem_map_of_mem hr

variable (files options) in
/-- A branch adds to the report what it owes, but for what the branches that it leaves owe, and a new file in
the set adds its contribution to the debts. -/
theorem ledger_run (b : Branch) (report : Report) :
    ∃ gained, (b.run files options report).1.dependencies.paths = report.dependencies.paths ++ gained ∧
      (b.run files options report).1.ledger +
          (((b.run files options report).2 : Multiset Branch).map (Branch.owes files options)).sum =
        report.ledger + b.owes files options +
          ((gained : Multiset Path).map (contribution files options)).sum := by
  cases b with
  | follow p depth r =>
    refine ⟨[], by rw [run_follow]; simp, ?_⟩
    rw [run_follow]
    cases target? files options p r <;> simp [Report.ledger, Branch.owes]
  | enter q depth =>
    rw [Branch.run]
    split_ifs with hc
    · exact ⟨[], by simp, by simp [Branch.owes]⟩
    · have hnew : report.dependencies.contains q = false := by
        simp only [Bool.or_eq_true, not_or, Bool.not_eq_true] at hc
        exact hc.2
      refine ⟨[q], by rw [DependencySet.paths_insert, hnew]; rfl, ?_⟩
      simp [Report.ledger, Branch.owes]
  | read p depth =>
    refine ⟨[], by rw [run_read]; simp, ?_⟩
    rw [run_read, owes_follows]
    simp [Report.ledger, Branch.owes, contribution, ← Multiset.coe_add]

end

/-! ### Runs -/

section

variable {entry : Path} {s s' : FanOut}

/-- The set never outgrows the limit where no more files than that are within reach. -/
theorem Sound.length_le (h : Sound files options entry s)
    (hw : (reachable files options entry).encard ≤ options.maxDepth.toNat) :
    s.report.dependencies.paths.length ≤ options.maxDepth.toNat := by
  have hnodup : (s.report.dependencies.paths.map Path.parts).Nodup :=
    List.pairwise_map.mpr s.report.dependencies.distinct
  have hsub : ((s.report.dependencies.paths.map Path.parts).toFinset : Set (List Part)) ⊆
      reachable files options entry := by
    intro ps hps
    obtain ⟨p, hp, rfl⟩ := List.mem_map.mp (List.mem_toFinset.mp hps)
    obtain ⟨n, hn⟩ := h.reached p hp
    exact ⟨n, p, hn, rfl⟩
  have hcard := (Set.encard_le_encard hsub).trans hw
  rw [Set.encard_coe_eq_coe_finsetCard, List.toFinset_card_of_nodup hnodup, List.length_map] at hcard
  exact_mod_cast hcard

theorem sound_start (entry : Path) : Sound files options entry (.start entry) where
  branches := by
    intro b hb
    obtain rfl := Multiset.mem_singleton.mp hb
    exact ⟨Nat.zero_le _, .inl rfl⟩
  reached := fun _ h => absurd h List.not_mem_nil
  begun := .inr (Multiset.mem_singleton_self _)
  closing := fun _ h => absurd h List.not_mem_nil
  balance := by simp [FanOut.start, Report.ledger, Branch.owes, DependencySet.empty]

/-- A step keeps what is true of a walk on its way. -/
theorem Sound.step (h : Sound files options entry s)
    (hw : (reachable files options entry).encard ≤ options.maxDepth.toNat)
    (hi : options.ignores entry = false) (hstep : Step files options s s') :
    Sound files options entry s' := by
  have hlimit := h.length_le hw
  obtain ⟨b, rest, report⟩ := hstep
  have hb := h.branches b (Multiset.mem_cons_self b rest)
  obtain ⟨hgrows, hleft, hnew⟩ := hb.run hlimit h.reached
  refine ⟨?_, ?_, ?_, ?_, ?_⟩
  · intro b' hb'
    rcases Multiset.mem_add.mp hb' with hb' | hb'
    · exact hleft b' hb'
    · exact (h.branches b' (Multiset.mem_cons_of_mem hb')).mono hgrows
  · intro p hp
    rcases hnew p hp with hp | ⟨hp, -⟩
    · exact h.reached p hp
    · exact hp
  · rcases h.begun with he | he
    · exact .inl (contains_mono hgrows he)
    · rcases Multiset.mem_cons.mp he with rfl | he
      · rcases run_enter_cases files (q := entry) (Nat.zero_le options.maxDepth.toNat) report with
          ⟨hc, he⟩ | ⟨-, hpaths, he⟩
        · rw [hi] at hc
          exact .inl (by rw [he]; simpa using hc)
        · exact .inl (by rw [he]; exact contains_of_mem (by rw [hpaths]; simp))
      · exact .inr (Multiset.mem_add.mpr (.inr he))
  · intro p hp q hq
    rcases hnew p hp with hp | ⟨-, depth, hread⟩
    · rcases h.closing p hp q hq with hc | ⟨b', hb', hbrings⟩
      · exact .inl (contains_mono hgrows hc)
      · rcases Multiset.mem_cons.mp hb' with rfl | hb'
        · exact (hbrings.run hq hb hlimit).imp_right fun ⟨b'', hb'', h⟩ =>
            ⟨b'', Multiset.mem_add.mpr (.inl hb''), h⟩
        · exact .inr ⟨b', Multiset.mem_add.mpr (.inr hb'), hbrings⟩
    · -- a file that is new in the set has still to be read
      exact .inr ⟨_, Multiset.mem_add.mpr (.inl hread), rfl⟩
  · obtain ⟨gained, hpaths, hledger⟩ := ledger_run files options b report
    have hbalance := h.balance
    rw [Multiset.map_cons, Multiset.sum_cons] at hbalance
    rw [Multiset.map_add, Multiset.sum_add, ← add_assoc, hledger, hpaths, ← Multiset.coe_add,
      Multiset.map_add, Multiset.sum_add, ← hbalance]
    abel

/-- A run keeps what is true of a walk on its way. -/
theorem Sound.schedules (h : Sound files options entry s)
    (hw : (reachable files options entry).encard ≤ options.maxDepth.toNat)
    (hi : options.ignores entry = false) (hrun : Schedules files options s s') :
    Sound files options entry s' := by
  induction hrun with
  | refl => exact h
  | tail _ hstep ih => exact ih.step hw hi hstep

/-- No file is read a second time, at whatever point a run has come to. -/
theorem Sound.reads_distinct (h : Sound files options entry s) :
    s.report.reads.Pairwise fun p q => p.parts ≠ q.parts := by
  have hreads : (s.report.reads.map Path.parts : Multiset (List Part)) ≤
      s.report.dependencies.paths.map Path.parts := by
    have hpaths : (((s.report.dependencies.paths : Multiset Path).map (contribution files options)).sum).1 =
        s.report.dependencies.paths.map Path.parts := by
      induction s.report.dependencies.paths with
      | nil => rfl
      | cons p ps ih =>
        rw [← Multiset.cons_coe, Multiset.map_cons, Multiset.sum_cons, Prod.fst_add, ih]
        rfl
    rw [← hpaths, ← h.balance, Prod.fst_add]
    exact Multiset.le_add_right _ _
  have hnodup : (s.report.dependencies.paths.map Path.parts).Nodup :=
    List.pairwise_map.mpr s.report.dependencies.distinct
  exact List.pairwise_map.mp (Multiset.coe_nodup.mp (Multiset.nodup_of_le hreads hnodup))

end

end

/-! ### Complete runs -/

section

variable {store : FileStore} {options : Options} {entry : Path} {final final' : Report}

/-- A complete run has put every file that is reached into the set. -/
theorem Sound.contains_of_chain (h : Sound store.view options entry ⟨0, final⟩) {n : Nat} {q : Path}
    (hc : Chain (IsChild store.view options) n entry q) : final.dependencies.contains q = true := by
  refine hc.induct (P := fun q => final.dependencies.contains q = true) ?_ fun p q hp hq => ?_
  · exact h.begun.resolve_right (Multiset.notMem_zero _)
  · obtain ⟨p', hp', he⟩ := DependencySet.contains_eq_true_iff.mp hp
    rcases h.closing p' hp' q (isChild_congr store he.symm hq) with hq | ⟨b, hb, -⟩
    · exact hq
    · exact absurd hb (Multiset.notMem_zero b)

/-- Two complete runs have put the same files into the set. -/
theorem Sound.perm_paths (h : Sound store.view options entry ⟨0, final⟩)
    (h' : Sound store.view options entry ⟨0, final'⟩) :
    (final.dependencies.paths.map Path.parts).Perm (final'.dependencies.paths.map Path.parts) := by
  have hsub : ∀ {final final' : Report}, Sound store.view options entry ⟨0, final⟩ →
      Sound store.view options entry ⟨0, final'⟩ → ∀ ps, ps ∈ final.dependencies.paths.map Path.parts →
        ps ∈ final'.dependencies.paths.map Path.parts := by
    intro final final' h h' ps hps
    obtain ⟨p, hp, rfl⟩ := List.mem_map.mp hps
    obtain ⟨n, hn⟩ := h.reached p hp
    obtain ⟨q, hq, he⟩ := DependencySet.contains_eq_true_iff.mp (h'.contains_of_chain hn)
    exact List.mem_map.mpr ⟨q, hq, he⟩
  refine (List.perm_ext_iff_of_nodup ?_ ?_).mpr fun ps => ⟨hsub h h' ps, hsub h' h ps⟩
  · exact List.pairwise_map.mpr final.dependencies.distinct
  · exact List.pairwise_map.mpr final'.dependencies.distinct

/-- What a file in memory contributes is a matter of its place. -/
theorem contribution_congr {p p' : Path} (h : p.parts = p'.parts) :
    contribution store.view options p = contribution store.view options p' := by
  have hdang : ∀ r, (dangling? store.view options p r).map Unresolved.place =
      (dangling? store.view options p' r).map Unresolved.place := by
    intro r
    unfold dangling?
    rw [resolve_congr h]
    split_ifs
    · rfl
    · cases resolve store.view options p' r.specifier with
      | none => exact congrArg (fun ps => some (r.specifier, ps)) h
      | some _ => rfl
  unfold contribution faults danglings
  rw [h, FileStore.source_view_congr store h]
  cases store.view.source p' with
  | error e => simp [h]
  | ok source => simp only [List.map_filterMap, hdang]

/-- Two complete runs tell the same of files and references. -/
theorem Sound.ledger_eq (h : Sound store.view options entry ⟨0, final⟩)
    (h' : Sound store.view options entry ⟨0, final'⟩) : final.ledger = final'.ledger := by
  -- the contribution of a file as a function of its parts
  have hfactors : (contribution store.view options).FactorsThrough Path.parts :=
    fun _ _ => contribution_congr
  have hext : ∀ p : Path, contribution store.view options p =
      Function.extend Path.parts (contribution store.view options) 0 p.parts :=
    fun p => (hfactors.extend_apply 0 p).symm
  have hsum : ∀ {final : Report}, Sound store.view options entry ⟨0, final⟩ → final.ledger =
      ((final.dependencies.paths.map Path.parts : Multiset (List Part)).map
        (Function.extend Path.parts (contribution store.view options) 0)).sum := by
    intro final h
    have hb := h.balance
    rw [Multiset.map_zero, Multiset.sum_zero, add_zero] at hb
    rw [hb, ← Multiset.map_coe, Multiset.map_map]
    exact congrArg Multiset.sum (Multiset.map_congr rfl fun p _ => hext p)
  rw [hsum h, hsum h', Multiset.coe_eq_coe.mpr (h.perm_paths h')]

/-- **The order of branches does not matter.** A walk from a readable entry that is not ignored, with a limit
that is not smaller than the number of files within reach, succeeds, and it is one of the complete runs of the
branches. Every complete run ends with the set of files of this walk, and with its unresolved references and
its failed files, each as often as there. No run reads a file twice. -/
theorem schedules_eq_walk (store : FileStore) {options : Options} {entry p : Path} {source : String}
    (hp : entryPath store.view options entry = .ok p) (hi : options.ignores p = false)
    (hs : store.view.source p = .ok source)
    (hw : (reachable store.view options p).encard ≤ options.maxDepth.toNat) :
    ∃ report, walk store.view options entry = .ok report ∧
      Schedules store.view options (.start p) ⟨0, report⟩ ∧
      (∀ final, Schedules store.view options (.start p) ⟨0, final⟩ →
        final.dependencies.sameMembers report.dependencies = true ∧
        (final.unresolved.map Unresolved.place).Perm (report.unresolved.map Unresolved.place) ∧
        (final.failed.map Path.parts).Perm (report.failed.map Path.parts)) ∧
      ∀ s, Schedules store.view options (.start p) s →
        s.report.reads.Pairwise fun p q => p.parts ≠ q.parts := by
  have hsound : ∀ s, Schedules store.view options (.start p) s → Sound store.view options p s :=
    fun s => (sound_start p).schedules hw hi
  obtain ⟨report, hwalk, hrun⟩ := exists_walk_eq hp hs
  refine ⟨report, hwalk, hrun, fun final hfinal => ?_, fun s hrun => (hsound s hrun).reads_distinct⟩
  have h := hsound _ hfinal
  have h' := hsound _ hrun
  have hledger : final.ledger = report.ledger := h.ledger_eq h'
  refine ⟨?_, ?_, ?_⟩
  · have hlength : final.dependencies.size = report.dependencies.size := by
      simpa [DependencySet.size] using (h.perm_paths h').length_eq
    rw [DependencySet.sameMembers, hlength, beq_self_eq_true, Bool.true_and, List.all_eq_true]
    intro q hq
    obtain ⟨n, hn⟩ := h.reached q hq
    exact h'.contains_of_chain hn
  · exact Multiset.coe_eq_coe.mp (congrArg (·.2.2) hledger)
  · exact Multiset.coe_eq_coe.mp (congrArg (·.2.1) hledger)

/-- Files that hold the entry and all that their references lead to are at least as many as the files within
reach. -/
theorem encard_reachable_le {known : List Path} (he : entry ∈ known)
    (hclosed : ∀ p ∈ known, ∀ q ∈ targets store.view options p, q ∈ known) :
    (reachable store.view options entry).encard ≤ known.length := by
  have hsub : reachable store.view options entry ⊆ ((known.map Path.parts).toFinset : Set (List Part)) := by
    rintro ps ⟨n, p, hc, rfl⟩
    have hp : p.parts ∈ known.map Path.parts := by
      refine hc.induct (P := fun p => p.parts ∈ known.map Path.parts) (List.mem_map_of_mem he) ?_
      intro p q hp hq
      obtain ⟨p', hp', hparts⟩ := List.mem_map.mp hp
      have hq' := (isChild_iff_mem_targets.mp (isChild_congr store hparts.symm hq)).1
      exact List.mem_map_of_mem (hclosed p' hp' q hq')
    exact List.mem_toFinset.mpr hp
  have hcard := Set.encard_le_encard hsub
  rw [Set.encard_coe_eq_coe_finsetCard] at hcard
  refine hcard.trans ?_
  exact_mod_cast (List.toFinset_card_le _).trans_eq (List.length_map _)

/-- Files that lead to one another along several routes, with one file that cannot be read and references that
lead nowhere. -/
def tangle : FileStore where
  workingDirectory := ⟨"/app"⟩
  files :=
    [(⟨"/app/index.js"⟩, "import './a';import './b';".toUTF8),
      (⟨"/app/a.js"⟩, "import './c';import './b';import './gone';".toUTF8),
      (⟨"/app/b.js"⟩, "import './a';import './c';import './gone';".toUTF8),
      (⟨"/app/c.js"⟩, "".toUTF8)]
  unreadable := [⟨"/app/c.js"⟩]

/-- Options with a limit that all files of `tangle` just keep to. -/
def tangleOptions : Options := { extensions := [".js"], ignorePatterns := [], maxDepth := 4 }

/-- The paths of the files of `tangle`, as a walk finds them. -/
def tanglePaths : List Path := [⟨"/app/index.js"⟩, ⟨"/app/a.js"⟩, ⟨"/app/c.js"⟩, ⟨"/app/b.js"⟩]

theorem schedules_eq_walk_tangle :
    ∃ report, walk tangle.view tangleOptions ⟨"index.js"⟩ = .ok report ∧
      report.dependencies.paths = tanglePaths ∧
      Schedules tangle.view tangleOptions (.start ⟨"/app/index.js"⟩) ⟨0, report⟩ ∧
      ∀ final, Schedules tangle.view tangleOptions (.start ⟨"/app/index.js"⟩) ⟨0, final⟩ →
        final.dependencies.sameMembers report.dependencies = true ∧
        (final.unresolved.map Unresolved.place).Perm
          [("./gone", Path.parts ⟨"/app/b.js"⟩), ("./gone", Path.parts ⟨"/app/a.js"⟩)] ∧
        (final.failed.map Path.parts).Perm [Path.parts ⟨"/app/c.js"⟩] ∧
        final.reads.Pairwise fun p q => p.parts ≠ q.parts := by
  have hentry : entryPath tangle.view tangleOptions ⟨"index.js"⟩ = .ok ⟨"/app/index.js"⟩ := by
    decide +kernel
  have hsource : tangle.view.source ⟨"/app/index.js"⟩ =
      .ok "import './a';import './b';" := by decide +kernel
  have hclosed : ∀ p ∈ tanglePaths, ∀ q ∈ targets tangle.view tangleOptions p, q ∈ tanglePaths := by
    decide +kernel
  have hw : (reachable tangle.view tangleOptions ⟨"/app/index.js"⟩).encard ≤
      (tangleOptions.maxDepth.toNat : ENat) := by
    have hdepth : tangleOptions.maxDepth.toNat = tanglePaths.length := by decide
    rw [hdepth]
    exact encard_reachable_le (by decide) hclosed
  obtain ⟨report, hwalk, hrun, hfinal, hreads⟩ :=
    schedules_eq_walk tangle hentry (by decide +kernel) hsource hw
  have hreport : (walk tangle.view tangleOptions ⟨"index.js"⟩).map (fun report =>
      (report.dependencies.paths, report.unresolved, report.failed)) =
      .ok (tanglePaths, [⟨"./gone", ⟨"/app/b.js"⟩⟩, ⟨"./gone", ⟨"/app/a.js"⟩⟩], [⟨"/app/c.js"⟩]) := by
    decide +kernel
  rw [hwalk] at hreport
  have hreport := Except.ok.inj hreport
  have hpaths : report.dependencies.paths = tanglePaths := congrArg (·.1) hreport
  have hunresolved : report.unresolved = _ := congrArg (·.2.1) hreport
  have hfailed : report.failed = _ := congrArg (·.2.2) hreport
  refine ⟨report, hwalk, hpaths, hrun, fun final h => ?_⟩
  obtain ⟨hset, hu, hf⟩ := hfinal final h
  rw [hunresolved] at hu
  rw [hfailed] at hf
  exact ⟨hset, hu, hf, hreads _ h⟩

end

end ModuleBundler
