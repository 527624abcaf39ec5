import ModuleBundler.Options.Validation
import ModuleBundler.Proofs.Walk.Candidate
import Mathlib.Data.List.Forall2
import Mathlib.Data.List.Infix

/-!
# References in a project that is moved

A project lies below a root, and the same project may lie below another one. `Moved R₁ R₂ p q` says that the
clean path `q` is to `R₂` what `p` is to `R₁`. A reference that stays below both roots leads to moved
candidates (`candidatePath_eq_landing`), and what is tried for moved candidates is moved (`probes_moved`).

The text of a candidate holds the root, but no ending reaches beyond its last name, because an extension
holds no slash (`endsInOneOf_along`).
-/

namespace ModuleBundler

open ModuleBundler.Path

/-! ### Moved paths -/

/-- The clean path `q` is to the root `R₂` what the clean path `p` is to the root `R₁`. -/
structure Moved (R₁ R₂ p q : Path) : Prop where
  left : p.IsPlace
  right : q.IsPlace
  below : ∃ parts, p.below? R₁ = some parts ∧ q.below? R₂ = some parts

theorem isWithin_of_below? {p base : Path} {parts : List Part} (h : p.below? base = some parts) :
    p.isWithin base = true := by
  unfold below? at h
  simp only [Option.ite_none_right_eq_some] at h
  exact h.1

theorem isWithin_along {ns rs : List String} (hn : Names ns) (hr : Names rs) :
    (along ns).isWithin (along rs) = true ↔ rs <+: ns := by
  unfold isWithin
  rw [parts_along hn, parts_along hr, List.isPrefixOf_iff_prefix, List.cons_prefix_cons,
    List.prefix_map_iff_of_injective fun _ _ h => Part.name.inj h]
  exact and_iff_right rfl

theorem below?_along {rs ns : List String} (hr : Names rs) (hn : Names ns) :
    (along (rs ++ ns)).below? (along rs) = some (ns.map .name) := by
  have h := names_append.mpr ⟨hr, hn⟩
  have hw := (isWithin_along h hr).mpr (List.prefix_append _ _)
  unfold isWithin at hw
  unfold below?
  simp only [hw, if_true, Option.some.injEq]
  rw [parts_along h, parts_along hr]
  simp

/-- Moved paths have the same names below the two roots. -/
theorem moved_iff {rs₁ rs₂ : List String} (h₁ : Names rs₁) (h₂ : Names rs₂) {p q : Path} :
    Moved (along rs₁) (along rs₂) p q ↔
      ∃ ns, Names ns ∧ p = along (rs₁ ++ ns) ∧ q = along (rs₂ ++ ns) := by
  constructor
  · rintro ⟨hp, hq, parts, hbp, hbq⟩
    obtain ⟨ps, hps, rfl⟩ := isPlace_iff.mp hp
    obtain ⟨qs, hqs, rfl⟩ := isPlace_iff.mp hq
    have hwithin : ∀ {rs ns : List String}, Names rs → Names ns → (along ns).below? (along rs) = some parts →
        ∃ ms, ns = rs ++ ms := by
      intro rs ns hr hn h
      obtain ⟨ms, hms⟩ := (isWithin_along hn hr).mp (isWithin_of_below? h)
      exact ⟨ms, hms.symm⟩
    obtain ⟨ns, rfl⟩ := hwithin h₁ hps hbp
    obtain ⟨ms, rfl⟩ := hwithin h₂ hqs hbq
    rw [below?_along h₁ (names_append.mp hps).2] at hbp
    rw [below?_along h₂ (names_append.mp hqs).2] at hbq
    obtain rfl : ns = ms := map_name_inj.mp (Option.some.inj (hbp.trans hbq.symm))
    exact ⟨ns, (names_append.mp hps).2, rfl, rfl⟩
  · rintro ⟨ns, hn, rfl, rfl⟩
    exact ⟨isPlace_iff.mpr ⟨_, names_append.mpr ⟨h₁, hn⟩, rfl⟩,
      isPlace_iff.mpr ⟨_, names_append.mpr ⟨h₂, hn⟩, rfl⟩,
      _, below?_along h₁ hn, below?_along h₂ hn⟩

section

variable {R₁ R₂ p q : Path} (h₁ : R₁.IsPlace) (h₂ : R₂.IsPlace)

include h₁ h₂

/-- Moving keeps paths apart, and it keeps them together. -/
theorem Moved.parts_eq_iff {p' q' : Path} (h : Moved R₁ R₂ p q) (h' : Moved R₁ R₂ p' q') :
    p.parts = p'.parts ↔ q.parts = q'.parts := by
  obtain ⟨rs₁, hr₁, rfl⟩ := isPlace_iff.mp h₁
  obtain ⟨rs₂, hr₂, rfl⟩ := isPlace_iff.mp h₂
  obtain ⟨ns, hn, rfl, rfl⟩ := (moved_iff hr₁ hr₂).mp h
  obtain ⟨ms, hm, rfl, rfl⟩ := (moved_iff hr₁ hr₂).mp h'
  rw [parts_along_inj (names_append.mpr ⟨hr₁, hn⟩) (names_append.mpr ⟨hr₁, hm⟩),
    parts_along_inj (names_append.mpr ⟨hr₂, hn⟩) (names_append.mpr ⟨hr₂, hm⟩),
    List.append_cancel_left_eq, List.append_cancel_left_eq]

theorem Moved.eq_iff {p' q' : Path} (h : Moved R₁ R₂ p q) (h' : Moved R₁ R₂ p' q') :
    p = p' ↔ q = q' := by
  rw [← h.left.parts_inj h'.left, ← h.right.parts_inj h'.right, h.parts_eq_iff h₁ h₂ h']

end

/-! ### Joined paths -/

/-- A relative path that does not lead above where it begins names moved paths below two roots. -/
theorem join_moved {R₁ R₂ p : Path} (h₁ : R₁.IsPlace) (h₂ : R₂.IsPlace) (hp : p.isAbsolute = false)
    (hc : ¬ p.Climbs) : Moved R₁ R₂ (R₁.join p).clean (R₂.join p).clean := by
  obtain ⟨rs₁, hr₁, rfl⟩ := isPlace_iff.mp h₁
  obtain ⟨rs₂, hr₂, rfl⟩ := isPlace_iff.mp h₂
  rw [climbs_iff, Nat.pos_iff_ne_zero, not_not] at hc
  refine (moved_iff hr₁ hr₂).mpr ⟨(way p.body).down, names_way_body p, ?_, ?_⟩
  · rw [(clean_join_along hr₁ hp).1, hc, Nat.sub_zero, List.take_length]
  · rw [(clean_join_along hr₂ hp).1, hc, Nat.sub_zero, List.take_length]

/-! ### Candidates -/

/-- A relative reference that leads strictly below the root of the project. -/
structure LeadsBelow (root importer : Path) (specifier : String) : Prop where
  relative : specifier.toList.head? = some '.'
  within : (candidatePath importer specifier).isWithin root = true
  strict : (candidatePath importer specifier).parts ≠ root.parts

/-- A relative reference that leads strictly below the root of the project, and on its way there not above
the root of the file system. -/
structure StaysBelow (root importer : Path) (specifier : String) : Prop
    extends LeadsBelow root importer specifier where
  level : ¬ ((importer.parent?.getD ⟨""⟩).join ⟨specifier⟩).Climbs

instance (root importer : Path) (specifier : String) : Decidable (LeadsBelow root importer specifier) :=
  decidable_of_iff (specifier.toList.head? = some '.' ∧ (candidatePath importer specifier).isWithin root = true ∧
    (candidatePath importer specifier).parts ≠ root.parts) ⟨fun h => ⟨h.1, h.2.1, h.2.2⟩, fun h => ⟨h.1, h.2, h.3⟩⟩

instance (root importer : Path) (specifier : String) : Decidable (StaysBelow root importer specifier) :=
  decidable_of_iff (LeadsBelow root importer specifier ∧
    ¬ ((importer.parent?.getD ⟨""⟩).join ⟨specifier⟩).Climbs) ⟨fun h => ⟨h.1, h.2⟩, fun h => ⟨h.1, h.2⟩⟩

/-- Where a way leads that begins at the file with these names below a root. -/
def landing (ns : List String) (w : Way) : List String :=
  if w.ups + 1 ≤ ns.length then ns.take (ns.length - (w.ups + 1)) ++ w.down
  else w.down.drop (w.ups + 1 - ns.length)

theorem names_landing {ns : List String} (hn : Names ns) (p : Path) : Names (landing ns (way p.body)) := by
  have hw := names_way_body p
  unfold landing
  split
  · exact names_append.mpr ⟨hn.of_subset (List.take_subset _ _), hw⟩
  · exact hw.of_subset (List.drop_subset _ _)

/-- What a relative reference names, seen from the directory of the file it stands in. -/
theorem candidatePath_along {ns : List String} (hn : Names ns) (hne : ns ≠ []) {specifier : String}
    (hrel : (⟨specifier⟩ : Path).isAbsolute = false) {w : Way} (hw : way (⟨specifier⟩ : Path).body = w) :
    candidatePath (along ns) specifier = along (ns.take (ns.length - (w.ups + 1)) ++ w.down) ∧
      ((((along ns).parent?.getD ⟨""⟩).join ⟨specifier⟩).Climbs ↔ ns.length < w.ups + 1) := by
  obtain ⟨directory, file, rfl⟩ := (List.eq_nil_or_concat' ns).resolve_left hne
  have hlen : (directory ++ [file]).length - (w.ups + 1) = directory.length - w.ups := by simp
  constructor
  · rw [candidatePath_eq_along hn, candidateNames, if_neg (by simp [hrel]), hw, hlen,
      List.take_append_of_le_length (Nat.sub_le _ _)]
  · rw [parent?_along hn, Option.getD_some, (clean_join_along (names_append.mp hn).1 hrel).2, hw, List.length_append,
      List.length_singleton]
    omega

/-- The root of the file system has no directory, and what is seen from nowhere lies below no root. -/
theorem ne_nil_of_staysBelow {rs ns : List String} (hr : Names rs) {specifier : String}
    (h : StaysBelow (along rs) (along ns) specifier) : ns ≠ [] := by
  rintro rfl
  have hnone : (along []).parent? = none := by decide
  have hrel : ((⟨""⟩ : Path).join ⟨specifier⟩).isAbsolute = false := by
    rw [isAbsolute_congr (q := ⟨specifier⟩) (by rw [parts_join]; simp)]
    simp [isAbsolute, h.relative]
  have hwithin := h.within
  unfold candidatePath isWithin at hwithin
  rw [hnone, Option.getD_none, parts_along hr, List.isPrefixOf_iff_prefix] at hwithin
  have habs := isAbsolute_eq_true_iff.mpr (hwithin.subset List.mem_cons_self)
  rw [isAbsolute_clean_of_relative hrel] at habs
  cases habs

/-- What goes up from a root and comes back to it has come back along the names of the root. -/
theorem take_append_of_prefix {rs down : List String} {ups : Nat} (hu : ups ≤ rs.length)
    (h : rs <+: rs.take (rs.length - ups) ++ down) :
    rs.take (rs.length - ups) ++ down = rs ++ down.drop ups := by
  obtain ⟨rest, hrest⟩ := h
  have hlen : (rs.take (rs.length - ups)).length = rs.length - ups := by simp
  have hdrop := congrArg (List.drop rs.length) hrest
  rw [List.drop_left, List.drop_append, hlen, List.drop_eq_nil_of_le (by omega), List.nil_append,
    show rs.length - (rs.length - ups) = ups by omega] at hdrop
  rw [← hrest, hdrop]

/-- Where a way leads does not depend on the root, if it leads below it. -/
theorem take_append_eq_landing {rs ns : List String} {w : Way} (hu : w.ups + 1 ≤ (rs ++ ns).length)
    (h : rs <+: (rs ++ ns).take ((rs ++ ns).length - (w.ups + 1)) ++ w.down) :
    (rs ++ ns).take ((rs ++ ns).length - (w.ups + 1)) ++ w.down = rs ++ landing ns w := by
  rw [List.length_append] at hu h ⊢
  unfold landing
  split
  next hn =>
    rw [List.take_append, List.take_of_length_le (by omega), List.append_assoc,
      show rs.length + ns.length - (w.ups + 1) - rs.length = ns.length - (w.ups + 1) by omega]
  next hn =>
    have hlen : rs.length + ns.length - (w.ups + 1) = rs.length - (w.ups + 1 - ns.length) := by omega
    rw [hlen, List.take_append_of_le_length (Nat.sub_le _ _)] at h ⊢
    exact take_append_of_prefix (by omega) h

/-- **Where a reference leads** that stays in its project does not depend on the root. -/
theorem candidatePath_eq_landing {rs ns : List String} (hr : Names rs) (hn : Names ns) {specifier : String}
    (h : StaysBelow (along rs) (along (rs ++ ns)) specifier) :
    candidatePath (along (rs ++ ns)) specifier =
        along (rs ++ landing ns (way (⟨specifier⟩ : Path).body)) ∧
      landing ns (way (⟨specifier⟩ : Path).body) ≠ [] := by
  have hrn : Names (rs ++ ns) := names_append.mpr ⟨hr, hn⟩
  have hrel : (⟨specifier⟩ : Path).isAbsolute = false := by simp [isAbsolute, h.relative]
  obtain ⟨hcand, hclimbs⟩ := candidatePath_along hrn (ne_nil_of_staysBelow hr h) hrel rfl
  have hlevel := h.level
  rw [hclimbs, not_lt] at hlevel
  have hwithin := h.within
  rw [hcand] at hwithin
  have hnames : Names ((rs ++ ns).take ((rs ++ ns).length - ((way (⟨specifier⟩ : Path).body).ups + 1)) ++
      (way (⟨specifier⟩ : Path).body).down) :=
    names_append.mpr ⟨hrn.of_subset (List.take_subset _ _), names_way_body _⟩
  rw [take_append_eq_landing hlevel ((isWithin_along hnames hr).mp hwithin)] at hcand
  refine ⟨hcand, fun he => h.strict ?_⟩
  rw [hcand, he, List.append_nil]

/-! ### Probes -/

/-- An extension that passes the check is a dot and at least one character after it, without slashes. -/
theorem toList_of_isExtension {ext : String} (h : isExtension ext = true) :
    '/' ∉ ext.toList ∧ ∃ c cs, ext.toList = '.' :: c :: cs := by
  unfold isExtension at h
  split at h
  next cs hext =>
    simp only [Bool.and_eq_true, Bool.not_eq_true', List.isEmpty_eq_false_iff, List.contains_eq_mem,
      decide_eq_false_iff_not] at h
    obtain ⟨c, cs', rfl⟩ := List.exists_cons_of_ne_nil h.1.1
    exact ⟨by rw [hext]; simpa using h.1.2, c, cs', hext⟩
  next => cases h

/-- A text that ends in an extension is a name, whatever stands before it without a slash. -/
theorem isName_append {s ext : String} (hs : '/' ∉ s.toList) (hne : s.toList ≠ [])
    (he : isExtension ext = true) : IsName (s ++ ext) := by
  obtain ⟨hslash, c, cs, hext⟩ := toList_of_isExtension he
  obtain ⟨d, ds, hd⟩ := List.exists_cons_of_ne_nil hne
  have hlen : 3 ≤ (s ++ ext).toList.length := by
    rw [String.toList_append, hd, hext]
    simp
    omega
  refine isName_iff.mpr ⟨?_, ?_, ?_, ?_⟩
  · rw [String.toList_append, List.mem_append, not_or]
    exact ⟨hs, hslash⟩
  all_goals
    intro h
    simp [h] at hlen

/-- The endings of a path that hold no slash are the endings of its last name. -/
theorem endsInOneOf_along {exts : List String} (he : ∀ ext ∈ exts, isExtension ext = true)
    (ns : List String) (s : String) :
    (along (ns ++ [s])).endsInOneOf exts = exts.any fun ext => ext.toList.isSuffixOf s.toList := by
  obtain ⟨before, htext⟩ := toList_along_last ns
  unfold endsInOneOf
  rw [Bool.eq_iff_iff, List.any_eq_true, List.any_eq_true]
  refine exists_congr fun ext => and_congr_right fun hm => ?_
  rw [List.isSuffixOf_iff_suffix, List.isSuffixOf_iff_suffix, htext]
  constructor
  · intro h
    rcases List.suffix_or_suffix_of_suffix h (List.suffix_append before _) with h | h
    · rcases List.suffix_cons_iff.mp h with h | h
      · exact absurd (by rw [h]; exact List.mem_cons_self) (toList_of_isExtension (he ext hm)).1
      · exact h
    · exact absurd (h.subset List.mem_cons_self) (toList_of_isExtension (he ext hm)).1
  · exact fun h => (h.trans (List.suffix_cons _ _)).trans (List.suffix_append _ _)

/-- The names that are tried for a candidate with this last name, below the directory of the candidate. -/
def probeNames (exts : List String) (s : String) : List (List String) :=
  if exts.any fun ext => ext.toList.isSuffixOf s.toList then [[s]]
  else exts.map (fun ext => [s ++ ext]) ++ exts.map fun ext => [s, "index" ++ ext]

theorem names_of_mem_probeNames {exts : List String} (he : ∀ ext ∈ exts, isExtension ext = true)
    {s : String} (hs : IsName s) {ns : List String} (h : ns ∈ probeNames exts s) : Names ns := by
  obtain ⟨hslash, hne, -⟩ := isName_iff.mp hs
  unfold probeNames at h
  split at h
  · rw [List.mem_singleton.mp h]
    simp [hs]
  · rcases List.mem_append.mp h with h | h <;> obtain ⟨ext, hm, rfl⟩ := List.mem_map.mp h
    · simpa using isName_append hslash hne (he ext hm)
    · have hi : IsName ("index" ++ ext) := isName_append (by decide) (by decide) (he ext hm)
      simp [hs, hi]

/-- What is tried for a candidate, below whatever directory it lies. -/
theorem probes_along {exts : List String} (he : ∀ ext ∈ exts, isExtension ext = true) {ns : List String}
    {s : String} (hn : Names (ns ++ [s])) :
    probes exts (along (ns ++ [s])) = (probeNames exts s).map fun tail => along (ns ++ tail) := by
  rw [probes_eq hn, probeNames, endsInOneOf_along he]
  split_ifs
  · rfl
  · rw [List.map_append, List.map_map, List.map_map]
    congr 1
    · exact List.map_congr_left fun ext _ => append_along ns s ext
    · refine List.map_congr_left fun ext _ => ?_
      rw [append_along, List.append_assoc]
      rfl

/-! ### Resolving -/

section

variable {R₁ R₂ p q : Path} {specifier : String} (h₁ : R₁.IsPlace) (h₂ : R₂.IsPlace)

include h₁ h₂

/-- **What is tried for a reference** that stays in the project is moved with the project. -/
theorem probes_moved {exts : List String} (he : ∀ ext ∈ exts, isExtension ext = true)
    (h : Moved R₁ R₂ p q) (hp : StaysBelow R₁ p specifier) (hq : StaysBelow R₂ q specifier) :
    List.Forall₂ (Moved R₁ R₂) (probes exts (candidatePath p specifier))
      (probes exts (candidatePath q specifier)) := by
  obtain ⟨rs₁, hr₁, rfl⟩ := isPlace_iff.mp h₁
  obtain ⟨rs₂, hr₂, rfl⟩ := isPlace_iff.mp h₂
  obtain ⟨ns, hn, rfl, rfl⟩ := (moved_iff hr₁ hr₂).mp h
  obtain ⟨hp, hne⟩ := candidatePath_eq_landing hr₁ hn hp
  obtain ⟨hq, -⟩ := candidatePath_eq_landing hr₂ hn hq
  have hland := names_landing hn ⟨specifier⟩
  obtain ⟨ms, s, hms⟩ := (List.eq_nil_or_concat' _).resolve_left hne
  rw [hms] at hland
  obtain ⟨hm, hs⟩ := names_append.mp hland
  have hbelow : ∀ {rs : List String}, Names rs → Names (rs ++ ms ++ [s]) := fun hr =>
    names_append.mpr ⟨names_append.mpr ⟨hr, hm⟩, hs⟩
  rw [hp, hq, hms, ← List.append_assoc, ← List.append_assoc, probes_along he (hbelow hr₁),
    probes_along he (hbelow hr₂), List.forall₂_map_left_iff, List.forall₂_map_right_iff, List.forall₂_same]
  intro tail htail
  refine (moved_iff hr₁ hr₂).mpr ⟨ms ++ tail, ?_, ?_, ?_⟩
  · exact names_append.mpr ⟨hm, names_of_mem_probeNames he (names_cons.mp hs).1 htail⟩
  · rw [List.append_assoc]
  · rw [List.append_assoc]

end

end ModuleBundler
