import ModuleBundler.Reference.Scan
import ModuleBundler.Proofs.Reference.Form

/-!
# Occurrences of references

A form occurs in a text wherever its pattern can be read from one place to another, and it can occur in places that
overlap: the text of one reference may hold another one. What is listed are the occurrences that a reader from the
left comes upon who goes on after the end of each (`ReferenceKind.Leftmost`). They are one list only
(`ReferenceKind.Leftmost.eq`), and the references of a source are told by it, form by form (`references_eq_leftmost`).
-/

namespace ModuleBundler

open Text Pattern

/-! ### Places in a text -/

namespace Cursor

variable {source : List Char} {i : Nat}

/-- What is read in a text ends in the text. -/
theorem exists_into_of_reads {p : Pattern} {found : List Char} {y : Cursor} (h : p.Reads (into source i) found y) :
    ∃ n, y = into source (i + n) ∧ p.least ≤ n ∧ n ≤ source.length - i := by
  obtain ⟨s, hafter, hbefore⟩ := h.span
  have hleast := h.least_le
  obtain ⟨before, after⟩ := y
  obtain hafter : source.drop i = s ++ after := hafter
  obtain hbefore : before = s.reverse ++ (source.take i).reverse := hbefore
  have hlength := congrArg List.length hafter
  rw [List.length_drop, List.length_append] at hlength
  simp only [into, List.length_drop] at hleast
  refine ⟨s.length, ?_, by omega, by omega⟩
  rw [hbefore, ← List.reverse_append, into, List.take_add, hafter, List.take_left, ← List.drop_drop, hafter,
    List.drop_left]

/-- The character directly before a place. -/
theorem head?_before_into (h : i < source.length) : (into source (i + 1)).before.head? = source[i]? := by
  rw [into, List.head?_reverse, List.getLast?_take, if_neg (Nat.succ_ne_zero i), Nat.add_sub_cancel,
    List.getElem?_eq_getElem h]
  rfl

end Cursor

/-! ### Occurrences -/

/-- A stretch of a text, and the specifier in it. -/
structure Occurrence where
  start : Nat
  stop : Nat
  specifier : List Char

namespace ReferenceKind

variable {kind : ReferenceKind} {source : List Char} {i n : Nat} {o o' : Occurrence}

/-- The pattern of the form can be read from the begin of the stretch to its end, with the specifier in its group. -/
def OccursAt (kind : ReferenceKind) (source : List Char) (o : Occurrence) : Prop :=
  o.stop ≤ source.length ∧ kind.pattern.Reads (.into source o.start) o.specifier (.into source o.stop)

theorem one_le_least_pattern (kind : ReferenceKind) : 1 ≤ kind.pattern.least := by
  cases kind <;> decide

theorem OccursAt.start_lt (h : kind.OccursAt source o) : o.start < o.stop := by
  have hleast := h.2.least_le
  have hpos := one_le_least_pattern kind
  simp only [Cursor.into, List.length_drop] at hleast
  omega

/-- Where a form occurs it occurs in one way. -/
theorem OccursAt.eq (h : kind.OccursAt source o) (h' : kind.OccursAt source o') (hs : o.start = o'.start) :
    o = o' := by
  obtain ⟨start, stop, specifier⟩ := o
  obtain ⟨start', stop', specifier'⟩ := o'
  obtain rfl : start = start' := hs
  have hread := kind.takes_iff.mp ⟨_, h.2, rfl⟩
  have hread' := kind.takes_iff.mp ⟨_, h'.2, rfl⟩
  obtain ⟨rfl, hdrop⟩ := Prod.mk.inj (Option.some.inj (hread.2.symm.trans hread'.2))
  have hlength := congrArg List.length hdrop
  have hstop : stop ≤ source.length := h.1
  have hstop' : stop' ≤ source.length := h'.1
  simp only [Cursor.into, List.length_drop] at hlength
  obtain rfl : stop = stop' := by omega
  rfl

theorem matchAt_eq_some_iff (h : i ≤ source.length) {specifier : List Char} :
    kind.matchAt (Cursor.into source i).before.head? (source.drop i) = some (specifier, n) ↔
      kind.OccursAt source ⟨i, i + n, specifier⟩ := by
  have hmatch : kind.matchAt (Cursor.into source i).before.head? (source.drop i) = some (specifier, n) ↔
      ∃ y, kind.pattern.Reads (.into source i) specifier y ∧ (source.drop i).length - y.after.length = n := by
    simp only [matchAt, Option.ite_none_right_eq_some, Option.map_eq_some_iff, Prod.exists, Prod.mk.injEq]
    constructor
    · rintro ⟨hopens, found, rest, hread, rfl, rfl⟩
      obtain ⟨y, hy, rfl⟩ := kind.takes_iff.mpr ⟨hopens, hread⟩
      exact ⟨y, hy, rfl⟩
    · rintro ⟨y, hy, rfl⟩
      obtain ⟨hopens, hread⟩ := kind.takes_iff.mp ⟨y, hy, rfl⟩
      exact ⟨hopens, specifier, y.after, hread, rfl, rfl⟩
  rw [hmatch]
  constructor
  · rintro ⟨y, hy, rfl⟩
    obtain ⟨m, rfl, hleast, hm⟩ := Cursor.exists_into_of_reads hy
    have hsize : (source.drop i).length - (Cursor.into source (i + m)).after.length = m := by
      simp only [Cursor.into, List.length_drop]
      omega
    rw [hsize]
    exact ⟨Nat.add_le_of_le_sub' h hm, hy⟩
  · rintro ⟨hstop, hy⟩
    refine ⟨_, hy, ?_⟩
    have hstop : i + n ≤ source.length := hstop
    simp only [Cursor.into, List.length_drop]
    omega

/-! ### Reading from the left -/

/-- The occurrences that a reader from the left comes upon who begins at `i` and goes on after the end of each: they
lie one after the other, and no other occurrence begins where none of them is. -/
structure Leftmost (kind : ReferenceKind) (source : List Char) (i : Nat) (found : List Occurrence) : Prop where
  occurs : ∀ o ∈ found, kind.OccursAt source o
  from_le : ∀ o ∈ found, i ≤ o.start
  apart : found.Pairwise fun o o' => o.stop ≤ o'.start
  covers : ∀ o, kind.OccursAt source o → i ≤ o.start → ∃ o' ∈ found, o'.start ≤ o.start ∧ o.start < o'.stop

namespace Leftmost

variable {found found' : List Occurrence}

theorem nil (h : source.length ≤ i) : kind.Leftmost source i [] where
  occurs := by simp
  from_le := by simp
  apart := .nil
  covers o ho hi := by
    have hlt := ho.start_lt
    have hstop := ho.1
    omega

/-- No occurrence begins here. -/
theorem skip (hn : ∀ o, kind.OccursAt source o → o.start ≠ i) (h : kind.Leftmost source (i + 1) found) :
    kind.Leftmost source i found where
  occurs := h.occurs
  from_le o ho := Nat.le_of_succ_le (h.from_le o ho)
  apart := h.apart
  covers o ho hi := h.covers o ho (Nat.lt_of_le_of_ne hi (Ne.symm (hn o ho)))

/-- An occurrence begins here. -/
theorem cons (ho : kind.OccursAt source o) (h : kind.Leftmost source o.stop found) :
    kind.Leftmost source o.start (o :: found) where
  occurs := List.forall_mem_cons.mpr ⟨ho, h.occurs⟩
  from_le := List.forall_mem_cons.mpr ⟨Nat.le_refl _, fun o' ho' =>
    Nat.le_trans (Nat.le_of_lt ho.start_lt) (h.from_le o' ho')⟩
  apart := List.pairwise_cons.mpr ⟨h.from_le, h.apart⟩
  covers p hp hi := by
    by_cases hlt : p.start < o.stop
    · exact ⟨o, List.mem_cons_self, hi, hlt⟩
    · obtain ⟨o', ho', hcover⟩ := h.covers p hp (Nat.le_of_not_lt hlt)
      exact ⟨o', List.mem_cons_of_mem _ ho', hcover⟩

/-- After the first occurrence come the ones after its end. -/
theorem tail (h : kind.Leftmost source i (o :: found)) : kind.Leftmost source o.stop found where
  occurs := (List.forall_mem_cons.mp h.occurs).2
  from_le := (List.pairwise_cons.mp h.apart).1
  apart := (List.pairwise_cons.mp h.apart).2
  covers p hp hi := by
    have hlt := (h.occurs o List.mem_cons_self).start_lt
    have hfrom := h.from_le o List.mem_cons_self
    obtain ⟨o', ho', hcover⟩ := h.covers p hp (by omega)
    rcases List.mem_cons.mp ho' with rfl | ho'
    · omega
    · exact ⟨o', ho', hcover⟩

/-- No occurrence begins before the first one. -/
theorem head_start_le (h : kind.Leftmost source i (o :: found)) {p : Occurrence} (hp : kind.OccursAt source p)
    (hi : i ≤ p.start) : o.start ≤ p.start := by
  obtain ⟨o', ho', hle, -⟩ := h.covers p hp hi
  rcases List.mem_cons.mp ho' with rfl | ho'
  · exact hle
  · have hlt := (h.occurs o List.mem_cons_self).start_lt
    have hapart := h.tail.from_le o' ho'
    omega

/-- A reader from the left comes upon one list of occurrences only. -/
theorem eq (h : kind.Leftmost source i found) (h' : kind.Leftmost source i found') : found = found' := by
  induction found generalizing i found' with
  | nil =>
    refine (List.eq_nil_iff_forall_not_mem.mpr fun o ho => ?_).symm
    obtain ⟨o', ho', -⟩ := h.covers o (h'.occurs o ho) (h'.from_le o ho)
    cases ho'
  | cons o found ih =>
    have ho := h.occurs o List.mem_cons_self
    have hi := h.from_le o List.mem_cons_self
    cases found' with
    | nil =>
      obtain ⟨o', ho', -⟩ := h'.covers o ho hi
      cases ho'
    | cons o' found' =>
      have ho' := h'.occurs o' List.mem_cons_self
      have hi' := h'.from_le o' List.mem_cons_self
      obtain rfl := ho.eq ho' (Nat.le_antisymm (h.head_start_le ho' hi') (h'.head_start_le ho hi))
      rw [ih h.tail h'.tail]

end Leftmost

/-! ### What is listed -/

/-- The specifiers of a text from a place on. -/
def specifiersFrom (kind : ReferenceKind) (source : List Char) (i : Nat) : List (List Char) :=
  kind.specifiers (Cursor.into source i).before.head? (source.drop i)

theorem specifiersFrom_skip (h : i < source.length)
    (hm : kind.matchAt (Cursor.into source i).before.head? (source.drop i) = none) :
    kind.specifiersFrom source i = kind.specifiersFrom source (i + 1) := by
  unfold specifiersFrom
  rw [List.drop_eq_getElem_cons h] at hm ⊢
  rw [specifiers, hm, Cursor.head?_before_into h, List.getElem?_eq_getElem h]

theorem specifiersFrom_cons {specifier : List Char} (hn : 1 ≤ n) (h : i + n ≤ source.length)
    (hm : kind.matchAt (Cursor.into source i).before.head? (source.drop i) = some (specifier, n)) :
    kind.specifiersFrom source i = specifier :: kind.specifiersFrom source (i + n) := by
  have hi : i < source.length := by omega
  obtain ⟨m, rfl⟩ := Nat.exists_eq_add_of_le' hn
  have hbefore : (source.drop i)[m]? = (Cursor.into source (i + (m + 1))).before.head? := by
    rw [← Nat.add_assoc, Cursor.head?_before_into (by omega), List.getElem?_drop]
  have hafter : (source.drop (i + 1)).drop m = source.drop (i + (m + 1)) := by
    rw [List.drop_drop, Nat.add_assoc, Nat.add_comm 1]
  unfold specifiersFrom
  rw [List.drop_eq_getElem_cons hi] at hm hbefore ⊢
  rw [specifiers, hm]
  simp only [Nat.add_sub_cancel, hbefore, hafter]

/-- What is listed from a place on are the specifiers of the occurrences from there on. -/
theorem exists_leftmost (kind : ReferenceKind) (source : List Char) {i : Nat} (h : i ≤ source.length) :
    ∃ found, kind.Leftmost source i found ∧ kind.specifiersFrom source i = found.map (·.specifier) := by
  induction hk : source.length - i using Nat.strongRecOn generalizing i with
  | ind k ih =>
    rcases Nat.lt_or_eq_of_le h with hlt | heq
    · cases hmatch : kind.matchAt (Cursor.into source i).before.head? (source.drop i) with
      | none =>
        obtain ⟨found, hfound, hspecifiers⟩ := ih _ (by omega) hlt rfl
        refine ⟨found, hfound.skip ?_, (specifiersFrom_skip hlt hmatch).trans hspecifiers⟩
        rintro ⟨start, stop, specifier⟩ ho rfl
        have hstop : start < stop := ho.start_lt
        obtain ⟨n, rfl⟩ := Nat.exists_eq_add_of_le (Nat.le_of_lt hstop)
        rw [(matchAt_eq_some_iff h).mpr ho] at hmatch
        cases hmatch
      | some v =>
        obtain ⟨specifier, n⟩ := v
        have ho := (matchAt_eq_some_iff h).mp hmatch
        have hstart : i < i + n := ho.start_lt
        have hstop : i + n ≤ source.length := ho.1
        obtain ⟨found, hfound, hspecifiers⟩ := ih _ (by omega) hstop rfl
        refine ⟨_, .cons ho hfound, ?_⟩
        rw [specifiersFrom_cons (by omega) hstop hmatch, hspecifiers]
        rfl
    · refine ⟨[], .nil (Nat.le_of_eq heq.symm), ?_⟩
      rw [specifiersFrom, heq, List.drop_length, specifiers]
      rfl

/-! ### Specifiers -/

/-- The quotes around the specifier of a form. -/
def quotes : ReferenceKind → List Char
  | .require => callQuotes
  | .dynamicImport => callQuotes
  | _ => declarationQuotes

theorem speaker_pattern (kind : ReferenceKind) :
    kind.pattern.speaker = .group (.run 1 (isInside kind.quotes)) := by
  cases kind <;> rfl

/-- A specifier is not empty, and holds no line feed and none of the quotes around it. -/
theorem OccursAt.specifier (h : kind.OccursAt source o) :
    o.specifier ≠ [] ∧ '\n' ∉ o.specifier ∧ ∀ q ∈ kind.quotes, q ∉ o.specifier := by
  obtain ⟨x, y, hxy⟩ := h.2.speaker
  rw [speaker_pattern, reads_group_run_iff] at hxy
  obtain ⟨-, -, hl, ha⟩ := hxy
  have hinside : ∀ c ∈ o.specifier, c ∉ kind.quotes ∧ c ≠ '\n' := by
    intro c hc
    simpa [isInside] using List.all_eq_true.mp ha c hc
  exact ⟨List.ne_nil_of_length_pos hl, fun hn => (hinside _ hn).2 rfl, fun q hq hm => (hinside q hm).1 hq⟩

end ReferenceKind

/-- **The references of a source are the occurrences of each form that a reader from the left comes upon.** They are
listed form by form, and repeated ones are kept: those of a form come one after the other from stretches of the source
that do not overlap, outside of these no occurrence of the form begins, and no other list of occurrences is like this.
A specifier is not empty, and holds no line feed and none of the quotes of its form. -/
theorem references_eq_leftmost (source : String) :
    ∃ found : ReferenceKind → List Occurrence,
      references source = [.require, .importFrom, .sideEffectImport, .dynamicImport, .reExport].flatMap
        (fun kind => (found kind).map fun o => ⟨String.ofList o.specifier, kind⟩) ∧
      ∀ kind : ReferenceKind,
        kind.Leftmost source.toList 0 (found kind) ∧
        (∀ found', kind.Leftmost source.toList 0 found' → found' = found kind) ∧
        ∀ o ∈ found kind, o.start < o.stop ∧ o.specifier ≠ [] ∧
          '\x27' ∉ o.specifier ∧ '\x22' ∉ o.specifier ∧ '\n' ∉ o.specifier ∧
          (kind = .require ∨ kind = .dynamicImport → '\x60' ∉ o.specifier) := by
  have hlisted : ∀ kind : ReferenceKind, ∃ found, kind.Leftmost source.toList 0 found ∧
      kind.specifiers none source.toList = found.map (·.specifier) :=
    fun kind => kind.exists_leftmost source.toList (Nat.zero_le _)
  choose found hfound hspecifiers using hlisted
  refine ⟨found, ?_, fun kind => ⟨hfound kind, fun found' h => h.eq (hfound kind), fun o ho => ?_⟩⟩
  · unfold references
    simp only [hspecifiers, List.map_map]
    rfl
  · have hoccurs := (hfound kind).occurs o ho
    obtain ⟨hne, hfeed, hquotes⟩ := hoccurs.specifier
    have hdeclaration : declarationQuotes ⊆ kind.quotes := by
      cases kind with
      | require => exact List.subset_append_left declarationQuotes ['\x60']
      | dynamicImport => exact List.subset_append_left declarationQuotes ['\x60']
      | _ => exact List.Subset.refl _
    refine ⟨hoccurs.start_lt, hne, hquotes _ (hdeclaration (by decide)), hquotes _ (hdeclaration (by decide)),
      hfeed, ?_⟩
    rintro (rfl | rfl) <;> exact hquotes _ (by decide)

-- an occurrence begins at the second `import` too, but the one before reaches over it
example : references "import a\nimport b from \"./b\"" = [⟨"./b", .importFrom⟩] := by decide +kernel

end ModuleBundler
