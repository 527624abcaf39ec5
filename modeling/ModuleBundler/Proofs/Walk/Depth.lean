import ModuleBundler.Proofs.Walk.Closure

/-!
# What the limit on references cuts off

The limit of a walk counts the references on the route on which a file is met first, and a file is met
once. A file that is met at the limit, on a long route, stays without its children, also when a shorter
route leads to it: the walk does not come back (`limit_is_no_distance`).

So the limit bounds how far away a file lies, and what it cuts off is what lies behind files that were
met too late. A walk finds exactly the files to which a chain within the limit leads from files that were
met before the limit, and it finds everything within the limit exactly when no file that was met at the
limit hides a child that a shorter chain leads to (`contains_walk_iff_chain`).
-/

namespace ModuleBundler

/-- What was met before the limit leads on: every file at the end of a chain that leaves such files only
was met. -/
theorem isMet_meetings_of_leaves {store : FileStore} {options : Options} {entry q : Path}
    (hi : options.ignores entry = false) {n : Nat}
    (hc : Chain (Leaves store.view options options.maxDepth.toNat (meetings store.view options entry))
      n entry q) : isMet (meetings store.view options entry) q = true := by
  refine hc.induct (P := fun q => isMet (meetings store.view options entry) q = true)
    (isMet_meet _ _ hi _) ?_
  rintro r q - ⟨hq, m, hm, he, hd⟩
  exact isMet_of_isChild (closed_meetings hm hd) he hq

/-- Every file within the limit was met, if no file that was met at the limit hides a child from a
shorter chain. -/
theorem isMet_meetings_of_le {store : FileStore} {options : Options} {entry : Path}
    (hi : options.ignores entry = false)
    (hlate : ∀ m ∈ meetings store.view options entry, m.depth = options.maxDepth.toNat →
      ∀ r, r.parts = m.path.parts → ∀ n < options.maxDepth.toNat,
        Chain (IsChild store.view options) n entry r →
          ∀ q, IsChild store.view options r q → isMet (meetings store.view options entry) q = true)
    {n : Nat} {q : Path} (hc : Chain (IsChild store.view options) n entry q) :
    n ≤ options.maxDepth.toNat → isMet (meetings store.view options entry) q = true := by
  induction hc with
  | here => exact fun _ => isMet_meet _ _ hi _
  | @step n _ r q hr hq ih =>
    intro hn
    obtain ⟨m, hm, he⟩ := isMet_eq_true_iff.mp (ih hi hlate (by omega))
    rcases Nat.lt_or_eq_of_le ((explored_meetings hi).within m hm) with hd | hd
    · exact isMet_of_isChild (closed_meetings hm hd) he hq
    · exact hlate m hm hd r he.symm n (by omega) hr q hq

/-- **What a walk finds within its limit.** Each file that a walk returns was met at the end of a route:
the entry at the end of the empty one, any other file one reference further away than an earlier file
that it is a child of. A file is returned if and only if a chain of no more steps than the limit leads to
it, each step from a file that was met before the limit. Every file to which some chain within the limit
leads is returned, if and only if the children of the files that were met at the limit, though a shorter
chain leads to them, are returned all the same. -/
theorem contains_walk_iff_chain (store : FileStore) {options : Options} {entry p : Path} {report : Report}
    (h : walk store.view options entry = .ok report)
    (hp : entryPath store.view options entry = .ok p) (hi : options.ignores p = false) :
    (meetings store.view options p).map (·.path) = report.dependencies.paths ∧
    (meetings store.view options p).head? = some ⟨p, 0⟩ ∧
    (∀ before m after, meetings store.view options p = before ++ m :: after → before ≠ [] →
      ∃ m₀ ∈ before, m.depth = m₀.depth + 1 ∧ IsChild store.view options m₀.path m.path) ∧
    (∀ q, report.dependencies.contains q = true ↔ ∃ q', q'.parts = q.parts ∧
      ∃ n ≤ options.maxDepth.toNat,
        Chain (Leaves store.view options options.maxDepth.toNat (meetings store.view options p)) n p q') ∧
    ((∀ n ≤ options.maxDepth.toNat, ∀ q, Chain (IsChild store.view options) n p q →
        report.dependencies.contains q = true) ↔
      ∀ m ∈ meetings store.view options p, m.depth = options.maxDepth.toNat →
        ∀ r, r.parts = m.path.parts → ∀ n < options.maxDepth.toNat,
          Chain (IsChild store.view options) n p r →
            ∀ q, IsChild store.view options r q → report.dependencies.contains q = true) := by
  have hag := agrees_walk h hp
  have hex : Explored store.view options p options.maxDepth.toNat (meetings store.view options p) :=
    explored_meetings hi
  refine ⟨hag.paths.symm, hex.first, hex.grounded, fun q => ?_, ?_⟩
  · rw [hag.contains]
    constructor
    · intro hq
      obtain ⟨m, hm, he⟩ := isMet_eq_true_iff.mp hq
      exact ⟨m.path, he, m.depth, hex.within m hm, hex.route m hm⟩
    · rintro ⟨q', he, n, -, hc⟩
      obtain ⟨m, hm, hm'⟩ := isMet_eq_true_iff.mp (isMet_meetings_of_leaves hi hc)
      exact isMet_eq_true_iff.mpr ⟨m, hm, hm'.trans he⟩
  · simp only [hag.contains]
    constructor
    · intro hall m _ _ r _ n hn hr q hq
      exact hall (n + 1) hn q (hr.step hq)
    · exact fun hlate n hn q hc => isMet_meetings_of_le hi hlate hc hn

/-- With a limit of three references, `near.js` is the last file that is met in `detour`. -/
theorem exists_walk_detour : ∃ report, walk detour.view { maxDepth := 3 } ⟨"index.js"⟩ = .ok report ∧
    report.dependencies.paths = detourPaths.take 4 := by
  have hpaths : (walk detour.view { maxDepth := 3 } ⟨"index.js"⟩).map (·.dependencies.paths) =
      .ok (detourPaths.take 4) := by decide +kernel
  cases h : walk detour.view { maxDepth := 3 } ⟨"index.js"⟩ with
  | error e => rw [h] at hpaths; cases hpaths
  | ok report =>
    rw [h] at hpaths
    exact ⟨report, rfl, Except.ok.inj hpaths⟩

/-- The files of `detour`, with the references of the entry in another order. -/
def shortcut : FileStore :=
  detour.insert ⟨"index.js"⟩ "import './near';\nimport './far';\nimport './index';".toUTF8

/-- A limit of three references takes `last.js` out of the set of `detour`, though two references lead to
it. A limit of two leaves it in, and so does another order of the references. -/
theorem limit_is_no_distance :
    entryPath detour.view { maxDepth := 3 } ⟨"index.js"⟩ = .ok ⟨"/app/index.js"⟩ ∧
    ({ maxDepth := 3 } : Options).ignores ⟨"/app/index.js"⟩ = false ∧
    Chain (IsChild detour.view { maxDepth := 3 }) 2 ⟨"/app/index.js"⟩ ⟨"/app/last.js"⟩ ∧
    (walk detour.view { maxDepth := 3 } ⟨"index.js"⟩).map (·.dependencies.contains ⟨"/app/last.js"⟩) =
      .ok false ∧
    (walk detour.view { maxDepth := 2 } ⟨"index.js"⟩).map (·.dependencies.contains ⟨"/app/last.js"⟩) =
      .ok true ∧
    (walk shortcut.view { maxDepth := 3 } ⟨"index.js"⟩).map (·.dependencies.contains ⟨"/app/last.js"⟩) =
      .ok true := by
  refine ⟨by decide +kernel, by decide +kernel, ?_, ?_, by decide +kernel, by decide +kernel⟩
  · have hnear : IsChild detour.view { maxDepth := 3 } ⟨"/app/index.js"⟩ ⟨"/app/near.js"⟩ :=
      isChild_iff_mem_targets.mpr ⟨by decide +kernel, by decide +kernel⟩
    have hlast : IsChild detour.view { maxDepth := 3 } ⟨"/app/near.js"⟩ ⟨"/app/last.js"⟩ :=
      isChild_iff_mem_targets.mpr ⟨by decide +kernel, by decide +kernel⟩
    exact ((Chain.here _).step hnear).step hlast
  · obtain ⟨report, h, hpaths⟩ := exists_walk_detour
    have hlast : report.dependencies.contains ⟨"/app/last.js"⟩ = false := by
      unfold DependencySet.contains
      rw [hpaths]
      decide +kernel
    rw [h]
    exact congrArg Except.ok hlast

theorem contains_walk_iff_chain_detour :
    ∃ report, walk detour.view { maxDepth := 3 } ⟨"index.js"⟩ = .ok report ∧
      report.dependencies.paths = detourPaths.take 4 ∧
      (meetings detour.view { maxDepth := 3 } ⟨"/app/index.js"⟩).map (·.depth) = [0, 1, 2, 3] ∧
      ∀ q, report.dependencies.contains q = true ↔ ∃ q', q'.parts = q.parts ∧ ∃ n ≤ 3,
        Chain (Leaves detour.view { maxDepth := 3 } 3
          (meetings detour.view { maxDepth := 3 } ⟨"/app/index.js"⟩)) n ⟨"/app/index.js"⟩ q' := by
  obtain ⟨report, h, hpaths⟩ := exists_walk_detour
  obtain ⟨-, -, -, hiff, -⟩ :=
    contains_walk_iff_chain detour h (p := ⟨"/app/index.js"⟩) (by decide +kernel) (by decide +kernel)
  exact ⟨report, h, hpaths, by decide +kernel, hiff⟩

end ModuleBundler
