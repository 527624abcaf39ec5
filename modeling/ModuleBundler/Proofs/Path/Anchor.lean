import ModuleBundler.Proofs.Path.Place

/-!
# Paths seen from an absolute directory

What is joined to an absolute path is absolute, and cleaning an absolute path gives a place. So everything that
is seen from a place is a place (`isPlace_clean_join`), and it does not matter whether the directory was cleaned
before something is joined to it (`clean_join_clean`).
-/

namespace ModuleBundler.Path

/-- The root of the file system. -/
def top : Path := ⟨"/"⟩

@[simp] theorem along_nil : along [] = top := rfl

theorem isPlace_along {ns : List String} (h : Names ns) : (along ns).IsPlace := isPlace_iff.mpr ⟨ns, h, rfl⟩

/-- Every absolute path leads to a place. -/
theorem isPlace_clean {p : Path} (h : p.isAbsolute = true) : p.clean.IsPlace := by
  rw [clean_of_isAbsolute h]
  exact isPlace_along (names_way_body p)

theorem text_ne_empty {p : Path} (h : p.isAbsolute = true) : p.text ≠ "" := by
  rintro he
  simp [isAbsolute, he] at h

/-- The parts of a relative path come after those of the directory. -/
theorem parts_join_of_relative {p q : Path} (hp : p.isAbsolute = true) (hq : q.isAbsolute = false) :
    (p.join q).parts = .root :: (p.body ++ q.body) := by
  rw [parts_join, if_neg (by simp [hq, text_ne_empty hp]), parts_of_isAbsolute hp, List.cons_append]

theorem isAbsolute_join {p : Path} (hp : p.isAbsolute = true) (q : Path) : (p.join q).isAbsolute = true := by
  cases hq : q.isAbsolute with
  | true => rw [join, if_pos hq, hq]
  | false =>
    refine isAbsolute_eq_true_iff.mpr ?_
    rw [parts_join_of_relative hp hq]
    exact List.mem_cons_self

/-- **Whatever is seen from an absolute path is a place** once it is cleaned. -/
theorem isPlace_clean_join {p : Path} (hp : p.isAbsolute = true) (q : Path) : (p.join q).clean.IsPlace :=
  isPlace_clean (isAbsolute_join hp q)

theorem body_join_of_relative {p q : Path} (hp : p.isAbsolute = true) (hq : q.isAbsolute = false) :
    (p.join q).body = p.body ++ q.body := by
  have hparts := parts_join_of_relative hp hq
  rw [parts_of_isAbsolute (isAbsolute_join hp q)] at hparts
  exact (List.cons.inj hparts).2

/-- The steps of a path go on from where the steps before them have come to. -/
theorem down_append {ps qs : List Part} (hp : .root ∉ ps) (hq : .root ∉ qs) :
    (way (ps ++ qs)).down = (way ((way ps).down.map .name ++ qs)).down := by
  have hroot : .root ∉ ps ++ qs := by simp [hp, hq]
  have hnames : .root ∉ (way ps).down.map Part.name ++ qs := by simp [hq]
  have hwhole := foldl_pushPart_root hroot []
  have hafter := foldl_pushPart_root hnames []
  have hbefore := foldl_pushPart_root hp []
  have hdown : ((way ps).down.map Part.name).foldl pushPart (([] : List String).map .name ++ [.root]) = _ :=
    foldl_pushPart_root (by simp) []
  have hway : (way ((way ps).down.map .name)).down = (way ps).down := by
    have h := way_names_append (way ps).down []
    rw [List.append_nil] at h
    simp [h, way]
  rw [hway] at hdown
  simp only [List.map_nil, List.nil_append, List.drop_nil, List.append_nil] at hwhole hafter hbefore hdown
  rw [List.foldl_append, hbefore, ← hdown, ← List.foldl_append, hafter] at hwhole
  have hmap := List.append_cancel_right hwhole
  exact (List.reverse_injective (map_name_inj.mp hmap)).symm

/-- **A directory may be cleaned before something is joined to it.** -/
theorem clean_join_clean {p : Path} (hp : p.isAbsolute = true) (q : Path) :
    (p.clean.join q).clean = (p.join q).clean := by
  have hc := (isPlace_clean hp).absolute
  cases hq : q.isAbsolute with
  | true => rw [join, join, if_pos hq, if_pos hq]
  | false =>
    have hbody : p.clean.body = (way p.body).down.map .name := by
      rw [clean_of_isAbsolute hp, body_along (names_way_body p)]
    rw [clean_of_isAbsolute (isAbsolute_join hc q), clean_of_isAbsolute (isAbsolute_join hp q),
      body_join_of_relative hc hq, body_join_of_relative hp hq, hbody,
      ← down_append (root_not_mem_body p) (root_not_mem_body q)]

end ModuleBundler.Path
