/-!
# Searching and replacing in a text

Texts are lists of characters here, so that every function is a recursion on its text.
-/

namespace ModuleBundler.Text

/-- The rest of a text after the word it begins with. -/
def dropWord? (word cs : List Char) : Option (List Char) :=
  if word.isPrefixOf cs then some (cs.drop word.length) else none

theorem dropWord?_eq_some_iff {word cs rest : List Char} :
    dropWord? word cs = some rest ↔ cs = word ++ rest := by
  unfold dropWord?
  constructor
  · intro h
    split at h
    · next hp =>
      obtain ⟨t, rfl⟩ := List.isPrefixOf_iff_prefix.mp hp
      simpa using h
    · simp at h
  · rintro rfl
    simp [List.isPrefixOf_iff_prefix]

/-- The pieces of a text between the places of `separator`; one piece more than there are places. -/
def splitOn (separator : Char) : List Char → List (List Char)
  | [] => [[]]
  | c :: cs =>
    if c = separator then [] :: splitOn separator cs
    else match splitOn separator cs with
      | [] => [[c]]
      | s :: rest => (c :: s) :: rest

/-- Whether `pattern` stands somewhere in the text. -/
def occursIn (pattern : List Char) : List Char → Bool
  | [] => pattern.isEmpty
  | c :: cs => pattern.isPrefixOf (c :: cs) || occursIn pattern cs

/-- The text with every occurrence of `old` replaced by `new`: the first occurrence from the left,
then the first one after it. What is put in is not searched. An empty `old` is nowhere replaced. -/
def replaceAll (old new : List Char) : List Char → List Char
  | [] => []
  | c :: cs =>
    if !old.isEmpty && old.isPrefixOf (c :: cs) then
      new ++ replaceAll old new (cs.drop (old.length - 1))
    else c :: replaceAll old new cs
termination_by cs => cs.length

/-- A text that stands in another one stands between two other texts. -/
theorem occursIn_eq_true_iff {pattern s : List Char} :
    occursIn pattern s = true ↔ ∃ before after, s = before ++ pattern ++ after := by
  induction s with
  | nil =>
    simp only [occursIn, List.isEmpty_iff]
    constructor
    · rintro rfl
      exact ⟨[], [], rfl⟩
    · rintro ⟨b, a, h⟩
      simp_all
  | cons c cs ih =>
    simp only [occursIn, Bool.or_eq_true, ih, List.isPrefixOf_iff_prefix]
    constructor
    · rintro (⟨a, h⟩ | ⟨b, a, h⟩)
      · exact ⟨[], a, by simp [h]⟩
      · exact ⟨c :: b, a, by simp [h]⟩
    · rintro ⟨b, a, h⟩
      cases b with
      | nil => exact Or.inl ⟨a, by simpa using h.symm⟩
      | cons x b =>
        simp only [List.cons_append, List.cons.injEq] at h
        exact Or.inr ⟨b, a, h.2⟩

end ModuleBundler.Text
