import ModuleBundler.Proofs.Minify.Collapse

/-!
# Settled tokens

When gaps are dropped, the tokens of a source settle: the items stay, and so do the gaps between two items that must not
stand side by side. Tokens are spelled as they settle, each gap that is left as one space (`spell_eq_flatMap`).
-/

namespace ModuleBundler.Minify

/-! ### Items and literals -/

/-- The item that a token is, if it is one. -/
def Token.item? : Token → Option Item
  | .gap => none
  | .item i => some i

/-- The literal that a token is, if it is one. -/
def Token.literal? : Token → Option (List Char)
  | .item (.literal t) => some t
  | _ => none

/-! ### Settling -/

/-- The tokens `ts` without needless gaps. `left` is the edge of the item before `ts`, and `gap` tells
whether a gap was met after it. -/
def settle : Option Char → Bool → List Token → List Token
  | _, _, [] => []
  | left, _, .gap :: ts => settle left true ts
  | left, gap, .item i :: ts =>
    if gap && left.any (needsSpace · i.edge) then .gap :: .item i :: settle (some i.edge) false ts
    else .item i :: settle (some i.edge) false ts

/-- The piece that a token is where every gap is one space. -/
def Token.piece : Token → Piece
  | .gap => .code ' '
  | .item (.char c) => .code c
  | .item (.literal t) => .literal t

/-- Settled tokens are spelled as the tokens they come from. -/
theorem spell_settle (ts : List Token) : ∀ (left : Option Char) (gap : Bool),
    spell left false (settle left gap ts) = spell left gap ts := by
  induction ts with
  | nil => intro left gap; rfl
  | cons t ts ih =>
    intro left gap
    cases t with
    | gap => exact ih left true
    | item i =>
      rw [settle, spell]
      split_ifs with h
      · rw [Bool.and_eq_true] at h
        rw [spell, spell, if_pos (by simp [h.2]), ih]
      · rw [spell, if_neg (by simp), ih]

/-- Settling drops gaps only. -/
theorem filterMap_settle {α : Type} {f : Token → Option α} (hf : f .gap = none) (ts : List Token) :
    ∀ (left : Option Char) (gap : Bool), (settle left gap ts).filterMap f = ts.filterMap f := by
  induction ts with
  | nil => intro left gap; rfl
  | cons t ts ih =>
    intro left gap
    cases t with
    | gap => rw [settle, ih, List.filterMap_cons_none hf]
    | item i => rw [settle]; split_ifs <;> simp only [List.filterMap_cons, hf, ih]

theorem item?_settle (ts : List Token) (left : Option Char) (gap : Bool) :
    (settle left gap ts).filterMap Token.item? = ts.filterMap Token.item? := filterMap_settle rfl ts left gap

theorem literal?_settle (ts : List Token) (left : Option Char) (gap : Bool) :
    (settle left gap ts).filterMap Token.literal? = ts.filterMap Token.literal? := filterMap_settle rfl ts left gap

theorem item_mem_settle_iff {i : Item} (ts : List Token) (left : Option Char) (gap : Bool) :
    .item i ∈ settle left gap ts ↔ .item i ∈ ts := by
  have hmem : ∀ us : List Token, .item i ∈ us ↔ i ∈ us.filterMap Token.item? := by
    intro us
    rw [List.mem_filterMap]
    refine ⟨fun h => ⟨_, h, rfl⟩, ?_⟩
    rintro ⟨t, ht, he⟩
    cases t with
    | gap => cases he
    | item j => exact Option.some.inj he ▸ ht
  rw [hmem, hmem, item?_settle]

/-- A literal has the same neighbours as its number, so the same gaps are needed around it. -/
theorem settle_numberFrom (ts : List Token) : ∀ (n : Nat) (left : Option Char) (gap : Bool),
    settle left gap (numberFrom n ts) = numberFrom n (settle left gap ts) := by
  induction ts with
  | nil => intro n left gap; rfl
  | cons t ts ih =>
    intro n left gap
    rcases t with _ | i
    · exact ih n left true
    · rcases i with c | t
      · show settle left gap (.item (.char c) :: numberFrom n ts) = _
        rw [settle, settle, ih]
        split_ifs <;> rfl
      · show settle left gap (.item (.literal (placeholder n)) :: numberFrom (n + 1) ts) = _
        rw [settle, settle, Item.edge, Item.edge, ih]
        split_ifs <;> rfl

/-- A token as it is spelled, a gap as one space. -/
def Token.text (t : Token) : List Char := t.piece.text

theorem Token.text_item (i : Item) : Token.text (.item i) = i.text := by
  cases i <;> rfl

/-- Settled tokens are spelled one after the other. -/
theorem spell_eq_flatMap (ts : List Token) : ∀ (left : Option Char) (gap : Bool),
    spell left gap ts = (settle left gap ts).flatMap Token.text := by
  induction ts with
  | nil => intro left gap; rfl
  | cons t ts ih =>
    intro left gap
    cases t with
    | gap => exact ih left true
    | item i =>
      rw [spell, settle]
      split_ifs <;> simp only [List.flatMap_cons, Token.text_item, ← ih]
      rfl

/-- The tokens of a source as they are left when it is minified. -/
def settled (cs : List Char) : List Token := settle none false (tokens cs)

end ModuleBundler.Minify
