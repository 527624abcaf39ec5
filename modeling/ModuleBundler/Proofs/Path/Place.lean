import ModuleBundler.Proofs.Path.Join
import ModuleBundler.Proofs.Text.Search

/-!
# Places

A clean absolute path is spelled by the names along it, and by nothing else (`isPlace_iff`). What a
relative path adds to a directory comes down to going up so many times and then down along some names, the
same for every directory (`way`). At the root of the file system going up has no effect
(`clean_of_isAbsolute`), and this is the only thing that a relative path can tell about where it is used.
-/

namespace ModuleBundler

/-! ### Names -/

/-- Whether a text is the name of a file or a directory: a segment that says something. -/
def IsName (s : String) : Prop := '/' ∉ s.toList ∧ Part.ofSegment s.toList = some (.name s)

/-- A segment that says something is a name, unless it is a dot or two. -/
theorem isName_iff {s : String} :
    IsName s ↔ '/' ∉ s.toList ∧ s.toList ≠ [] ∧ s.toList ≠ ['.'] ∧ s.toList ≠ ['.', '.'] := by
  unfold IsName Part.ofSegment
  by_cases h₁ : s.toList = [] ∨ s.toList = ['.']
  · rcases h₁ with h | h <;> simp [h]
  · by_cases h₂ : s.toList = ['.', '.']
    · simp [h₂]
    · rw [not_or] at h₁
      simp [h₁.1, h₁.2, h₂]

instance (s : String) : Decidable (IsName s) := decidable_of_iff _ isName_iff.symm

/-- Names, one below the other. -/
def Names (ns : List String) : Prop := ∀ s ∈ ns, IsName s

instance (ns : List String) : Decidable (Names ns) := inferInstanceAs (Decidable (∀ s ∈ ns, IsName s))

@[simp] theorem names_nil : Names [] := fun _ h => absurd h List.not_mem_nil

@[simp] theorem names_cons {s : String} {ns : List String} : Names (s :: ns) ↔ IsName s ∧ Names ns :=
  List.forall_mem_cons

@[simp] theorem names_append {ns ms : List String} : Names (ns ++ ms) ↔ Names ns ∧ Names ms :=
  List.forall_mem_append

theorem Names.of_subset {ns ms : List String} (h : Names ns) (hs : ms ⊆ ns) : Names ms :=
  fun s hm => h s (hs hm)

/-! ### Segments of names -/

theorem segments_of_not_mem {cs : List Char} (h : '/' ∉ cs) : segments cs = [cs] := Text.splitOn_of_not_mem h

theorem not_mem_of_mem_segments {cs segment : List Char} (h : segment ∈ segments cs) : '/' ∉ segment := by
  unfold segments at h
  induction cs generalizing segment with
  | nil =>
    rw [Text.splitOn, List.mem_singleton] at h
    simp [h]
  | cons c cs ih =>
    rw [Text.splitOn] at h
    split_ifs at h with hc
    · rcases List.mem_cons.mp h with rfl | h
      · simp
      · exact ih h
    · cases hs : Text.splitOn '/' cs with
      | nil => exact absurd hs (segments_ne_nil cs)
      | cons s rest =>
        simp only [hs, List.mem_cons] at h
        rcases h with rfl | h
        · rw [List.mem_cons, not_or]
          exact ⟨Ne.symm hc, ih (by rw [hs]; exact List.mem_cons_self)⟩
        · exact ih (by rw [hs]; exact List.mem_cons_of_mem _ h)

/-- The steps that segments stand for go up, or down to a name. -/
theorem Path.mem_body_cases {p : Path} {part : Part} (h : part ∈ p.body) :
    part = .up ∨ ∃ s, IsName s ∧ part = .name s := by
  obtain ⟨segment, hm, e⟩ := List.mem_filterMap.mp h
  have hslash := not_mem_of_mem_segments hm
  have e' := e
  unfold Part.ofSegment at e
  split_ifs at e with h₁ h₂
  · exact .inl (Option.some.inj e).symm
  · obtain rfl := Option.some.inj e
    exact .inr ⟨_, ⟨by simpa using hslash, by simpa using e'⟩, rfl⟩

theorem spellParts_names_cons (s : String) {ns : List String} (h : ns ≠ []) :
    spellParts (.name s :: ns.map .name) = s.toList ++ '/' :: spellParts (ns.map .name) := by
  cases ns with
  | nil => exact absurd rfl h
  | cons n ns => rfl

/-- Names are spelled one after the other, with a slash in between. -/
theorem spellParts_names_append {ns ms : List String} (hn : ns ≠ []) (hm : ms ≠ []) :
    spellParts ((ns ++ ms).map .name) = spellParts (ns.map .name) ++ '/' :: spellParts (ms.map .name) := by
  induction ns with
  | nil => exact absurd rfl hn
  | cons n ns ih =>
    rw [List.cons_append, List.map_cons, spellParts_names_cons n (List.append_ne_nil_of_right_ne_nil ns hm)]
    by_cases hns : ns = []
    · subst hns
      rfl
    · rw [ih hns, List.map_cons, spellParts_names_cons n hns, List.append_assoc]
      rfl

theorem segments_spellParts {ns : List String} (h : Names ns) (hne : ns ≠ []) :
    segments (spellParts (ns.map .name)) = ns.map String.toList := by
  induction ns with
  | nil => exact absurd rfl hne
  | cons s ns ih =>
    rw [names_cons] at h
    by_cases hns : ns = []
    · subst hns
      exact segments_of_not_mem h.1.1
    · rw [List.map_cons, spellParts_names_cons s hns, segments_append_slash, segments_of_not_mem h.1.1,
        ih h.2 hns]
      rfl

theorem filterMap_ofSegment_names {ns : List String} (h : Names ns) :
    (ns.map String.toList).filterMap Part.ofSegment = ns.map .name := by
  rw [List.filterMap_map, ← List.filterMap_eq_map]
  exact List.filterMap_congr fun s hs => (h s hs).2

namespace Path

/-! ### Along names -/

/-- The absolute path along these names. -/
def along (ns : List String) : Path := ofParts (.root :: ns.map .name)

theorem toList_along (ns : List String) : (along ns).text.toList = '/' :: spellParts (ns.map .name) := by
  cases ns <;> simp [along, ofParts, spellParts, Part.text]

@[simp] theorem isAbsolute_along (ns : List String) : (along ns).isAbsolute = true := by
  simp [isAbsolute, toList_along]

theorem body_along {ns : List String} (h : Names ns) : (along ns).body = ns.map .name := by
  have hslash : segments ('/' :: spellParts (ns.map .name)) = [] :: segments (spellParts (ns.map .name)) :=
    segments_append_slash [] _
  unfold body
  rw [toList_along, hslash, List.filterMap_cons_none (by rfl)]
  by_cases hns : ns = []
  · subst hns
    rfl
  · rw [segments_spellParts h hns, filterMap_ofSegment_names h]

theorem parts_along {ns : List String} (h : Names ns) : (along ns).parts = .root :: ns.map .name := by
  rw [parts_of_isAbsolute (isAbsolute_along ns), body_along h]

theorem map_name_inj {ns ms : List String} : ns.map Part.name = ms.map Part.name ↔ ns = ms :=
  (List.map_injective_iff.mpr fun _ _ h => Part.name.inj h).eq_iff

theorem parts_along_inj {ns ms : List String} (hn : Names ns) (hm : Names ms) :
    (along ns).parts = (along ms).parts ↔ ns = ms := by
  rw [parts_along hn, parts_along hm, List.cons.injEq, map_name_inj]
  exact and_iff_right rfl

theorem along_inj {ns ms : List String} (hn : Names ns) (hm : Names ms) : along ns = along ms ↔ ns = ms :=
  ⟨fun h => (parts_along_inj hn hm).mp (congrArg parts h), congrArg along⟩

/-- One name more is written after a slash. -/
theorem text_along_concat {ns : List String} (h : ns ≠ []) (s : String) :
    (along (ns ++ [s])).text = (along ns).text ++ "/" ++ s := by
  have hspell : spellParts ((ns ++ [s]).map .name) = spellParts (ns.map .name) ++ '/' :: s.toList :=
    spellParts_names_append h (List.cons_ne_nil s [])
  apply String.toList_inj.mp
  rw [toList_along, hspell]
  simp [toList_along]

/-- The last name of a path is what is written after its last slash. -/
theorem toList_along_last (ns : List String) :
    ∃ before, ∀ s, (along (ns ++ [s])).text.toList = before ++ '/' :: s.toList := by
  by_cases h : ns = []
  · subst h
    exact ⟨[], fun s => toList_along [s]⟩
  · exact ⟨(along ns).text.toList, fun s => by simp [text_along_concat h]⟩

/-- A path below the root of the file system does not end in a slash. -/
theorem endsInSlash_along_concat (ns : List String) {s : String} (hs : IsName s) :
    (along (ns ++ [s])).text.toList.getLast?.all (· == '/') = false := by
  obtain ⟨before, htext⟩ := toList_along_last ns
  obtain ⟨hslash, hne, -⟩ := isName_iff.mp hs
  rw [htext, List.getLast?_append_of_ne_nil _ (by simp), List.getLast?_cons,
    List.getLast?_eq_some_getLast hne, Option.getD_some, Option.all_some, beq_eq_false_iff_ne]
  exact fun h => hslash (h ▸ List.getLast_mem hne)

/-- The directory of a file is spelled by the names before its own. -/
theorem parent?_along {ns : List String} {s : String} (h : Names (ns ++ [s])) :
    (along (ns ++ [s])).parent? = some (along ns) := by
  unfold parent?
  rw [parts_along h]
  simp [along]

end Path

/-! ### Ways -/

/-- A relative way: up so many times, then down along names. -/
structure Way where
  ups : Nat
  down : List String
  deriving DecidableEq, Repr

/-- The way that steps come down to: a step up takes back the step down before it. -/
def way : List Part → Way
  | [] => ⟨0, []⟩
  | .up :: ps => ⟨(way ps).ups + 1, (way ps).down⟩
  | .name s :: ps =>
    match way ps with
    | ⟨0, down⟩ => ⟨0, s :: down⟩
    | ⟨ups + 1, down⟩ => ⟨ups, down⟩
  | _ :: ps => way ps

theorem way_name_cons (s : String) (ps : List Part) :
    way (.name s :: ps) =
      ⟨(way ps).ups - 1, if (way ps).ups = 0 then s :: (way ps).down else (way ps).down⟩ := by
  rw [way]
  split <;> next h => simp [h]

/-- Names before a way are taken back by its steps up, the last one first. -/
theorem way_names_append (ns : List String) (ps : List Part) :
    way (ns.map .name ++ ps) =
      ⟨(way ps).ups - ns.length, ns.take (ns.length - (way ps).ups) ++ (way ps).down⟩ := by
  induction ns with
  | nil => simp
  | cons n ns ih =>
    rw [List.map_cons, List.cons_append, way_name_cons, ih, List.length_cons]
    by_cases h : (way ps).ups ≤ ns.length
    · rw [if_pos (by simp [h]), Nat.succ_sub h, List.take_succ_cons]
      simp only [List.cons_append, Way.mk.injEq, and_true]
      omega
    · rw [if_neg (by simp only; omega)]
      have h₁ : ns.length - (way ps).ups = 0 := by omega
      have h₂ : ns.length + 1 - (way ps).ups = 0 := by omega
      simp only [h₁, h₂, List.take_zero, List.nil_append, Way.mk.injEq, and_true]
      omega

theorem names_way {ps : List Part} (h : ∀ s, .name s ∈ ps → IsName s) : Names (way ps).down := by
  induction ps with
  | nil => exact names_nil
  | cons part ps ih =>
    have ih := ih fun s hs => h s (List.mem_cons_of_mem _ hs)
    cases part with
    | root => exact ih
    | here => exact ih
    | up => exact ih
    | name s =>
      rw [way_name_cons]
      simp only
      split
      · exact names_cons.mpr ⟨h s List.mem_cons_self, ih⟩
      · exact ih

namespace Path

/-- Cleaning steps below the root of the file system: what would lead above it is dropped. -/
theorem foldl_pushPart_root {ps : List Part} (h : .root ∉ ps) (stack : List String) :
    ps.foldl pushPart (stack.map .name ++ [.root]) =
      ((way ps).down.reverse ++ stack.drop (way ps).ups).map .name ++ [.root] := by
  induction ps generalizing stack with
  | nil => simp [way]
  | cons part ps ih =>
    rw [List.mem_cons, not_or] at h
    rw [List.foldl_cons]
    cases part with
    | root => exact absurd rfl h.1
    | here => exact ih h.2 stack
    | up =>
      have hup : pushPart (stack.map .name ++ [.root]) .up = (stack.drop 1).map .name ++ [.root] := by
        cases stack <;> rfl
      rw [hup, ih h.2, way, List.drop_drop, Nat.add_comm]
    | name s =>
      have hname : pushPart (stack.map .name ++ [.root]) (.name s) = (s :: stack).map .name ++ [.root] := by
        cases stack <;> rfl
      rw [hname, ih h.2, way_name_cons]
      cases hu : (way ps).ups with
      | zero => simp
      | succ ups => simp

/-- Cleaning steps below nothing: what leads above it stays. -/
theorem foldl_pushPart_ups {ps : List Part} (h : .root ∉ ps) (stack : List String) (above : Nat) :
    ps.foldl pushPart (stack.map .name ++ List.replicate above .up) =
      ((way ps).down.reverse ++ stack.drop (way ps).ups).map .name ++
        List.replicate (above + ((way ps).ups - stack.length)) .up := by
  induction ps generalizing stack above with
  | nil => simp [way]
  | cons part ps ih =>
    rw [List.mem_cons, not_or] at h
    rw [List.foldl_cons]
    cases part with
    | root => exact absurd rfl h.1
    | here =>
      have hhere : pushPart (stack.map .name ++ List.replicate above .up) .here =
          stack.map .name ++ List.replicate above .up := rfl
      rw [hhere]
      exact ih h.2 stack above
    | up =>
      cases stack with
      | nil =>
        have hup : pushPart (([] : List String).map .name ++ List.replicate above .up) .up =
            ([] : List String).map .name ++ List.replicate (above + 1) .up := by
          cases above <;> rfl
        rw [hup, ih h.2, way]
        simp only [List.drop_nil, List.length_nil]
        congr 2
        omega
      | cons s stack =>
        have hup : pushPart ((s :: stack).map .name ++ List.replicate above .up) .up =
            stack.map .name ++ List.replicate above .up := rfl
        rw [hup, ih h.2, way]
        simp
    | name s =>
      have hname : pushPart (stack.map .name ++ List.replicate above .up) (.name s) =
          (s :: stack).map .name ++ List.replicate above .up := by
        cases stack <;> cases above <;> rfl
      rw [hname, ih h.2, way_name_cons]
      cases hu : (way ps).ups with
      | zero => simp
      | succ ups => simp

theorem root_not_mem_body (p : Path) : .root ∉ p.body := fun h => (mem_body_ne h).1 rfl

theorem names_way_body (p : Path) : Names (way p.body).down := by
  refine names_way fun s hs => ?_
  rcases mem_body_cases hs with h | ⟨t, ht, h⟩
  · cases h
  · obtain rfl := Part.name.inj h
    exact ht

/-- What an absolute path comes down to: going up has no effect at the root of the file system. -/
theorem clean_of_isAbsolute {p : Path} (h : p.isAbsolute = true) : p.clean = along (way p.body).down := by
  have hfold : cleanParts p.parts = .root :: (way p.body).down.map .name := by
    have := foldl_pushPart_root (root_not_mem_body p) []
    unfold cleanParts
    rw [parts_of_isAbsolute h, List.foldl_cons]
    simp only [pushPart]
    simpa using congrArg List.reverse this
  unfold clean
  rw [hfold]
  rfl

theorem clean_along {ns : List String} (h : Names ns) : (along ns).clean = along ns := by
  have hway := way_names_append ns []
  rw [List.append_nil] at hway
  rw [clean_of_isAbsolute (isAbsolute_along ns), body_along h, hway]
  simp [way]

/-! ### Clean absolute paths -/

/-- A clean absolute path. -/
structure IsPlace (p : Path) : Prop where
  absolute : p.isAbsolute = true
  clean : p.clean = p

instance (p : Path) : Decidable p.IsPlace :=
  decidable_of_iff (p.isAbsolute = true ∧ p.clean = p) ⟨fun h => ⟨h.1, h.2⟩, fun h => ⟨h.1, h.2⟩⟩

/-- **A clean absolute path is spelled by the names along it.** -/
theorem isPlace_iff {p : Path} : p.IsPlace ↔ ∃ ns, Names ns ∧ p = along ns := by
  constructor
  · intro h
    exact ⟨_, names_way_body p, by rw [← clean_of_isAbsolute h.absolute, h.clean]⟩
  · rintro ⟨ns, hn, rfl⟩
    exact ⟨isAbsolute_along ns, clean_along hn⟩

/-- A clean path is told by its parts. -/
theorem IsPlace.parts_inj {p q : Path} (hp : p.IsPlace) (hq : q.IsPlace) : p.parts = q.parts ↔ p = q := by
  obtain ⟨ns, hn, rfl⟩ := isPlace_iff.mp hp
  obtain ⟨ms, hm, rfl⟩ := isPlace_iff.mp hq
  rw [parts_along_inj hn hm, along_inj hn hm]

/-- Whether the steps of a path lead above where they begin, for an absolute path above the root of the
file system. -/
def Climbs (p : Path) : Prop := .up ∈ cleanParts p.body

instance (p : Path) : Decidable p.Climbs := inferInstanceAs (Decidable (_ ∈ _))

/-- What the steps of a path come down to is to be seen when they are cleaned on their own. -/
theorem cleanParts_body (p : Path) :
    cleanParts p.body = List.replicate (way p.body).ups .up ++ (way p.body).down.map .name := by
  have hfold := congrArg List.reverse (foldl_pushPart_ups (root_not_mem_body p) [] 0)
  simpa [cleanParts] using hfold

theorem climbs_iff (p : Path) : p.Climbs ↔ 0 < (way p.body).ups := by
  unfold Climbs
  rw [cleanParts_body]
  simp [Nat.pos_iff_ne_zero]

example : (⟨"lib/../../a.js"⟩ : Path).Climbs ∧ ¬ (⟨"lib/../a.js"⟩ : Path).Climbs := by decide

/-! ### Relative paths -/

/-- A path that begins with a step up or with a name is relative. -/
theorem isAbsolute_ofParts_cons {part : Part} (h : part = .up ∨ ∃ s, IsName s ∧ part = .name s)
    (rest : List Part) : (ofParts (part :: rest)).isAbsolute = false := by
  have hfirst : part ≠ .root ∧ ∃ c cs, part.text.toList = c :: cs ∧ c ≠ '/' := by
    rcases h with rfl | ⟨s, hs, rfl⟩
    · exact ⟨by decide, '.', ['.'], rfl, by decide⟩
    · obtain ⟨hslash, hne, -⟩ := isName_iff.mp hs
      obtain ⟨c, cs, hc⟩ := List.exists_cons_of_ne_nil hne
      rw [hc, List.mem_cons, not_or] at hslash
      exact ⟨by simp, c, cs, hc, Ne.symm hslash.1⟩
  obtain ⟨hroot, c, cs, hc, hslash⟩ := hfirst
  have hspell : ∃ after, spellParts (part :: rest) = c :: after := by
    cases rest with
    | nil => exact ⟨cs, hc⟩
    | cons next rest =>
      refine ⟨cs ++ '/' :: spellParts (next :: rest), ?_⟩
      cases part with
      | root => exact absurd rfl hroot
      | _ => simp only [spellParts, hc, List.cons_append]
  obtain ⟨after, hafter⟩ := hspell
  unfold isAbsolute ofParts
  rw [String.toList_ofList, hafter]
  simpa using hslash

theorem isAbsolute_ofParts_names {ns : List String} (h : Names ns) :
    (ofParts (ns.map .name)).isAbsolute = false := by
  cases ns with
  | nil => rfl
  | cons s ns => exact isAbsolute_ofParts_cons (.inr ⟨s, (names_cons.mp h).1, rfl⟩) _

/-- What a relative path is cleaned to is to be seen from its steps alone. -/
theorem cleanParts_of_relative {p : Path} (h : p.isAbsolute = false) :
    cleanParts p.parts = List.replicate (way p.body).ups .up ++ (way p.body).down.map .name := by
  rw [← cleanParts_body]
  rcases parts_of_not_isAbsolute h with e | e <;> rw [e]
  rfl

/-- A relative path that is cleaned stays relative. -/
theorem isAbsolute_clean_of_relative {p : Path} (h : p.isAbsolute = false) : p.clean.isAbsolute = false := by
  have hparts := cleanParts_of_relative h
  unfold clean
  split
  next => rfl
  next hne =>
    obtain ⟨part, rest, hps⟩ := List.exists_cons_of_ne_nil hne
    have hmem : part ∈ cleanParts p.parts := by
      rw [hps]
      exact List.mem_cons_self
    rw [hps]
    refine isAbsolute_ofParts_cons ?_ rest
    rw [hparts, List.mem_append, List.mem_replicate, List.mem_map] at hmem
    rcases hmem with ⟨-, rfl⟩ | ⟨s, hs, rfl⟩
    · exact .inl rfl
    · exact .inr ⟨s, names_way_body p s hs, rfl⟩

/-- **Names that are joined to a place go on from there.** -/
theorem along_join_ofParts {rs ns : List String} (hr : Names rs) (hn : Names ns) (hne : ns ≠ []) :
    (along rs).join (ofParts (ns.map .name)) = along (rs ++ ns) := by
  have hrel := isAbsolute_ofParts_names hn
  have htext : (along (rs ++ ns)).text.toList = '/' :: spellParts ((rs ++ ns).map .name) := toList_along _
  unfold join
  rw [if_neg (by simp [hrel])]
  by_cases hrs : rs = []
  · -- at the root of the file system the directory ends in the slash
    subst hrs
    rw [if_pos (by decide)]
    refine congrArg Path.mk (String.toList_inj.mp (Eq.trans ?_ htext.symm))
    simp [toList_along, spellParts, ofParts]
  · have hlast : (along rs).text.toList.getLast?.all (· == '/') = false := by
      obtain ⟨ms, s, rfl⟩ := (List.eq_nil_or_concat' rs).resolve_left hrs
      exact endsInSlash_along_concat ms (names_cons.mp (names_append.mp hr).2).1
    rw [if_neg (by simp [hlast])]
    refine congrArg Path.mk (String.toList_inj.mp (Eq.trans ?_ htext.symm))
    rw [spellParts_names_append hrs hne]
    simp [toList_along, ofParts]

end Path

end ModuleBundler
