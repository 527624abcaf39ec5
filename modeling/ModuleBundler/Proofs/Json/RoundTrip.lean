import ModuleBundler.Json.Parse
import ModuleBundler.Proofs.Json.Text

/-!
# JSON is read back

Every JSON value is read back from its compact text (`parse?_print`), so that two values with the same
text are the same (`print_injective`). What is said of one value holds whatever follows it, as long as a
number may end there; the bound on the calls of the readers is twice the length of the text.
-/

namespace ModuleBundler.Json

/-! ### Gaps and ends -/

theorem skipGap_cons {c : Char} (h : isGap c = false) (cs : List Char) : skipGap (c :: cs) = c :: cs := by
  rw [skipGap, List.dropWhile_cons_of_neg (by simp [h])]

/-- After an element stands a comma or a closing bracket. -/
theorem endsNumber_elementChars (vs : List Json) (rest : List Char) :
    EndsNumber (elementChars vs ++ rest) := by
  cases vs with
  | nil => rw [elementChars]; exact endsNumber_cons (by decide) _
  | cons v vs => rw [elementChars]; exact endsNumber_cons (by decide) _

/-- After a member stands a comma or a closing brace. -/
theorem endsNumber_memberChars (ms : List (Option String × Json)) (rest : List Char) :
    EndsNumber (memberChars ms ++ rest) := by
  cases ms with
  | nil => rw [memberChars]; exact endsNumber_cons (by decide) _
  | cons m ms => rw [memberChars]; exact endsNumber_cons (by decide) _

/-! ### Reading values back -/

/-- Whether a value is read back from its text, whatever follows it. -/
def ReadsBack (v : Json) : Prop :=
  ∀ (bound : Nat) (rest : List Char), 2 * (chars v).length ≤ bound → EndsNumber rest →
    readValue bound (chars v ++ rest) = some (v, rest)

/-- A value whose text begins with `c` is read back if it is read back for any positive bound. -/
theorem readsBack_of_succ {v : Json}
    (h : ∀ bound rest, 2 * (chars v).length ≤ bound + 1 → EndsNumber rest →
      readValue (bound + 1) (chars v ++ rest) = some (v, rest)) : ReadsBack v := by
  intro bound rest hb hr
  obtain ⟨c, cs, hc, -⟩ := chars_cons v
  cases bound with
  | zero => simp [hc] at hb
  | succ bound => exact h bound rest hb hr

theorem readsBack_null : ReadsBack .null := by
  refine readsBack_of_succ fun bound rest _ _ => ?_
  have hc : chars .null = 'n' :: "ull".toList := by decide
  rw [hc, List.cons_append, readValue, skipGap_cons (by decide)]
  simp [Text.dropWord?]

example : readValue 1 "null]".toList = some (.null, [']']) := by cbv

theorem readsBack_bool (b : Bool) : ReadsBack (.bool b) := by
  refine readsBack_of_succ fun bound rest _ _ => ?_
  cases b with
  | true =>
    have hc : chars (.bool true) = 't' :: "rue".toList := by decide
    rw [hc, List.cons_append, readValue, skipGap_cons (by decide)]
    simp [Text.dropWord?]
  | false =>
    have hc : chars (.bool false) = 'f' :: "alse".toList := by decide
    rw [hc, List.cons_append, readValue, skipGap_cons (by decide)]
    simp [Text.dropWord?]

theorem readsBack_number (n : JsonNumber) : ReadsBack (.number n) := by
  refine readsBack_of_succ fun bound rest _ hr => ?_
  obtain ⟨c, cs, hc, h⟩ := numberChars_cons n
  have hread := readNumber_numberChars n hr
  rw [hc, List.cons_append] at hread
  -- no other value begins with a character that begins a number
  have hq : c ≠ '\x22' := h.ne (by decide)
  have ha : c ≠ '[' := h.ne (by decide)
  have ho : c ≠ '\x7b' := h.ne (by decide)
  have hn : c ≠ 'n' := h.ne (by decide)
  have ht : c ≠ 't' := h.ne (by decide)
  have hf : c ≠ 'f' := h.ne (by decide)
  rw [chars, hc, List.cons_append, readValue, skipGap_cons h.isGap_eq_false]
  simp only [if_neg hq, if_neg ha, if_neg ho, if_neg hn, if_neg ht, if_neg hf, hread, Option.map_some]

theorem readsBack_string (s : Option String) : ReadsBack (.string s) := by
  refine readsBack_of_succ fun bound rest _ _ => ?_
  obtain ⟨body, hs, hread⟩ := readLiteral_stringChars s rest
  rw [chars, hs, List.cons_append, readValue, skipGap_cons (by decide)]
  simp only [if_pos, hread, Option.map_some]

/-! ### Arrays and objects -/

/-- The elements of an array are read back if each of them is. -/
theorem readElements_elements {vs : List Json} : ∀ {v : Json}, (∀ w ∈ v :: vs, ReadsBack w) →
    ∀ (bound : Nat) (rest : List Char), 2 * ((chars v).length + (elementChars vs).length) ≤ bound →
      readElements bound (chars v ++ (elementChars vs ++ rest)) = some (v :: vs, rest) := by
  induction vs with
  | nil =>
    intro v h bound rest hb
    rw [elementChars, List.length_singleton] at hb
    obtain ⟨bound, rfl⟩ : ∃ b, bound = b + 1 := ⟨bound - 1, by omega⟩
    have hv := h v List.mem_cons_self bound _ (by omega) (endsNumber_elementChars [] rest)
    rw [readElements, hv, elementChars]
    simp [skipGap_cons (c := ']') (by decide)]
  | cons w ws ih =>
    intro v h bound rest hb
    rw [elementChars, List.length_cons, List.length_append] at hb
    obtain ⟨bound, rfl⟩ : ∃ b, bound = b + 1 := ⟨bound - 1, by omega⟩
    have hv := h v List.mem_cons_self bound _ (by omega) (endsNumber_elementChars (w :: ws) rest)
    have hws := ih (v := w) (fun u hu => h u (List.mem_cons_of_mem _ hu)) bound rest (by omega)
    rw [readElements, hv, elementChars, List.cons_append, List.append_assoc]
    simp [skipGap_cons (c := ',') (by decide), hws]

theorem readsBack_array {vs : List Json} (h : ∀ v ∈ vs, ReadsBack v) : ReadsBack (.array vs) := by
  refine readsBack_of_succ fun bound rest hb _ => ?_
  cases vs with
  | nil =>
    rw [chars, List.cons_append, readValue, skipGap_cons (by decide)]
    simp [skipGap_cons (c := ']') (by decide)]
  | cons v vs =>
    rw [chars, List.length_cons, List.length_append] at hb
    have hvs := readElements_elements h bound rest (by omega)
    obtain ⟨c, cs, hc, hgap, hclose⟩ := chars_cons v
    have hskip : skipGap (chars v ++ (elementChars vs ++ rest)) = c :: (cs ++ (elementChars vs ++ rest)) := by
      rw [hc, List.cons_append, skipGap_cons hgap]
    rw [chars, List.cons_append, List.append_assoc, readValue, skipGap_cons (by decide)]
    simp [hskip, hclose, hvs]

/-- The members of an object are read back if the value of each of them is. -/
theorem readMembers_members {ms : List (Option String × Json)} :
    ∀ {k : Option String} {v : Json}, (∀ m ∈ (k, v) :: ms, ReadsBack m.2) →
    ∀ (bound : Nat) (rest : List Char), 2 * ((chars v).length + (memberChars ms).length) ≤ bound →
      readMembers bound (stringChars k ++ ':' :: (chars v ++ (memberChars ms ++ rest))) =
        some ((k, v) :: ms, rest) := by
  induction ms with
  | nil =>
    intro k v h bound rest hb
    rw [memberChars, List.length_singleton] at hb
    obtain ⟨bound, rfl⟩ : ∃ b, bound = b + 1 := ⟨bound - 1, by omega⟩
    have hback : ReadsBack v := h (k, v) List.mem_cons_self
    have hv := hback bound _ (by omega) (endsNumber_memberChars [] rest)
    obtain ⟨body, hk, hread⟩ := readLiteral_stringChars k (':' :: (chars v ++ (memberChars [] ++ rest)))
    rw [readMembers, hk, List.cons_append, skipGap_cons (by decide)]
    simp only [hread, Option.bind_eq_bind, Option.bind_some, skipGap_cons (c := ':') (by decide), hv]
    rw [memberChars]
    simp [skipGap_cons (c := '\x7d') (by decide)]
  | cons m ms ih =>
    intro k v h bound rest hb
    obtain ⟨l, w⟩ := m
    rw [memberChars, List.length_cons, List.length_append, List.length_cons, List.length_append] at hb
    obtain ⟨bound, rfl⟩ : ∃ b, bound = b + 1 := ⟨bound - 1, by omega⟩
    have hback : ReadsBack v := h (k, v) List.mem_cons_self
    have hv := hback bound _ (by omega) (endsNumber_memberChars ((l, w) :: ms) rest)
    have hms := ih (k := l) (v := w) (fun m hm => h m (List.mem_cons_of_mem _ hm)) bound rest
      (by omega)
    obtain ⟨body, hk, hread⟩ :=
      readLiteral_stringChars k (':' :: (chars v ++ (memberChars ((l, w) :: ms) ++ rest)))
    rw [readMembers, hk, List.cons_append, skipGap_cons (by decide)]
    simp only [hread, Option.bind_eq_bind, Option.bind_some, skipGap_cons (c := ':') (by decide), hv]
    rw [memberChars, List.cons_append, List.append_assoc, List.cons_append, List.append_assoc]
    simp [skipGap_cons (c := ',') (by decide), hms]

theorem readsBack_object {ms : List (Option String × Json)} (h : ∀ m ∈ ms, ReadsBack m.2) :
    ReadsBack (.object ms) := by
  refine readsBack_of_succ fun bound rest hb _ => ?_
  cases ms with
  | nil =>
    rw [chars, List.cons_append, readValue, skipGap_cons (by decide)]
    simp [skipGap_cons (c := '\x7d') (by decide)]
  | cons m ms =>
    obtain ⟨k, v⟩ := m
    rw [chars, List.length_cons, List.length_append, List.length_cons, List.length_append] at hb
    have hms := readMembers_members h bound rest (by omega)
    obtain ⟨body, hk, -⟩ := readLiteral_stringChars k []
    rw [hk, List.cons_append] at hms
    rw [chars, List.cons_append, List.append_assoc, List.cons_append, List.append_assoc, hk,
      List.cons_append, readValue, skipGap_cons (by decide)]
    simp [skipGap_cons (c := '\x22') (by decide), hms]

/-- Every value is read back from its text. -/
theorem readsBack (v : Json) : ReadsBack v := by
  induction v using induct with
  | null => exact readsBack_null
  | bool b => exact readsBack_bool b
  | number n => exact readsBack_number n
  | string s => exact readsBack_string s
  | array vs ih => exact readsBack_array ih
  | object ms ih => exact readsBack_object ih

/-- **JSON is read back**: every value is what its compact text spells. -/
theorem parse?_print (v : Json) : parse? v.print = some v := by
  have h := readsBack v (2 * (chars v).length + 1) [] (by omega) endsNumber_nil
  rw [List.append_nil] at h
  unfold parse? print
  simp only [String.toList_ofList, h, Option.bind_eq_bind, Option.bind_some]
  rfl

theorem print_injective {v w : Json} (h : v.print = w.print) : v = w :=
  Option.some.inj ((parse?_print v).symm.trans (h ▸ parse?_print w))

end ModuleBundler.Json
