import ModuleBundler.Proofs.Minify.Reading

/-!
# The course of a scan

The scan that drops comments and gaps goes through a masked text in turns. A turn takes one character, or the two
characters of a comment mark together. Here its course is written down character by character: in which state it is
when it takes the character, and whether it takes it as one of two (`visits`). What the scan writes is read off its
course, from whichever state it starts (`collapse_eq_write`), and the states of the course are those in which it goes on
(`collapse_at`).
-/

namespace ModuleBundler.Minify

open Text

/-! ### Visits -/

/-- How the scan takes a character. -/
structure Visit where
  char : Char
  /-- The state in which the turn begins that takes the character. -/
  scan : Scan
  /-- Whether the turn takes two characters, the opening mark or the closing mark of a comment. -/
  paired : Bool
  deriving DecidableEq, Repr

namespace Visit

/-- The visit to a character that the scan takes on its own. -/
def alone (scan : Scan) (c : Char) : Visit := ⟨c, scan, false⟩

@[simp] theorem char_alone (scan : Scan) (c : Char) : (alone scan c).char = c := rfl

@[simp] theorem char_comp_alone (scan : Scan) : Visit.char ∘ alone scan = id := rfl

/-- The scan is in code, and takes the character on its own. -/
def inCode (v : Visit) : Bool := v.scan == .code && !v.paired

/-- The scan leaves a line comment with the line feed after it. -/
def endsLine (v : Visit) : Bool := v.scan == .lineComment && !v.paired && v.char == '\n'

/-- The scan takes one of the marks of a comment, or is inside a comment. -/
def inComment (v : Visit) : Bool :=
  v.paired || v.scan == .blockComment || (v.scan == .lineComment && v.char != '\n')

/-- The scan writes the character. -/
def isKept (v : Visit) : Bool := v.inCode && !isBlank v.char

theorem inCode_eq_false_of_inComment {v : Visit} (h : v.inComment = true) : v.inCode = false := by
  obtain ⟨c, scan, paired⟩ := v
  cases scan <;> cases paired <;> simp_all [inComment, inCode]

theorem inCode_eq_false_of_endsLine {v : Visit} (h : v.endsLine = true) : v.inCode = false := by
  obtain ⟨c, scan, paired⟩ := v
  cases scan <;> simp_all [endsLine, inCode]

theorem inComment_eq_false_of_endsLine {v : Visit} (h : v.endsLine = true) : v.inComment = false := by
  obtain ⟨c, scan, paired⟩ := v
  cases scan <;> simp_all [endsLine, inComment]

theorem isBlank_of_isKept {v : Visit} (h : v.isKept = true) : isBlank v.char = false := by
  rw [isKept, Bool.and_eq_true, Bool.not_eq_true'] at h
  exact h.2

theorem char_of_endsLine {v : Visit} (h : v.endsLine = true) : v.char = '\n' := by
  rw [endsLine, Bool.and_eq_true, beq_iff_eq] at h
  exact h.2

end Visit

/-- The visits of a scan to the characters of a text. -/
def visits : Scan → List Char → List Visit
  | _, [] => []
  | .code, '/' :: '/' :: cs => ⟨'/', .code, true⟩ :: ⟨'/', .code, true⟩ :: visits .lineComment cs
  | .code, '/' :: '*' :: cs => ⟨'/', .code, true⟩ :: ⟨'*', .code, true⟩ :: visits .blockComment cs
  | .code, c :: cs => .alone .code c :: visits .code cs
  | .lineComment, c :: cs =>
    Visit.alone .lineComment c :: if c = '\n' then visits .code cs else visits .lineComment cs
  | .blockComment, '*' :: '/' :: cs =>
    ⟨'*', .blockComment, true⟩ :: ⟨'/', .blockComment, true⟩ :: visits .code cs
  | .blockComment, c :: cs => Visit.alone .blockComment c :: visits .blockComment cs

/-- What a scan writes in the course of its visits. `last` is the last character written so far, and `gap` tells
whether a gap was met after it. -/
def write : Option Char → Bool → List Visit → List Char
  | _, _, [] => []
  | last, gap, v :: vs =>
    if v.isKept then
      if gap && last.any (needsSpace · v.char) then ' ' :: v.char :: write (some v.char) false vs
      else v.char :: write (some v.char) false vs
    else write last (gap || v.scan == .code) vs

/-- Every character is visited, in order. -/
theorem map_char_visits (scan : Scan) (cs : List Char) : (visits scan cs).map Visit.char = cs := by
  fun_induction visits scan cs with
  | case5 c cs ih ih' => split_ifs <;> simp_all
  | _ => simp_all

example : visits .code "/**/c".toList =
    [⟨'/', .code, true⟩, ⟨'*', .code, true⟩, ⟨'*', .blockComment, true⟩, ⟨'/', .blockComment, true⟩,
      .alone .code 'c'] := by cbv

/-- At a character that is taken on its own the scan goes on in the state that its visit tells. -/
theorem drop_visits (scan : Scan) (cs : List Char) : ∀ {i : Nat} {v : Visit}, (visits scan cs)[i]? = some v →
    v.paired = false → (visits scan cs).drop i = visits v.scan (cs.drop i) := by
  fun_induction visits scan cs with
  | case1 => intro i v h; cases h
  -- the two characters of a mark
  | case2 cs ih | case3 cs ih | case6 cs ih =>
    intro i v h hv
    match i with
    | 0 | 1 => cases h; cases hv
    | i + 2 => exact ih h hv
  -- one character
  | case4 c cs _ _ ih =>
    intro i v h hv
    cases i with
    | zero =>
      cases h
      show Visit.alone .code c :: visits .code cs = visits .code (c :: cs)
      rw [visits] <;> assumption
    | succ i => exact ih h hv
  | case5 c cs ih ih' =>
    intro i v h hv
    cases i with
    | zero =>
      cases h
      show (Visit.alone .lineComment c :: if c = '\n' then visits .code cs else visits .lineComment cs) =
        visits .lineComment (c :: cs)
      rw [visits]
    | succ i =>
      rw [List.getElem?_cons_succ] at h
      rw [List.drop_succ_cons, List.drop_succ_cons]
      split_ifs at h ⊢
      · exact ih h hv
      · exact ih' h hv
  | case7 c cs _ ih =>
    intro i v h hv
    cases i with
    | zero =>
      cases h
      show Visit.alone .blockComment c :: visits .blockComment cs = visits .blockComment (c :: cs)
      rw [visits]
      assumption
    | succ i => exact ih h hv

/-! ### The course over parts of a text -/

/-- A character that opens no comment. -/
theorem visits_char {c : Char} {cs : List Char} (hs : c = '/' → cs.head? ≠ some '/' ∧ cs.head? ≠ some '*') :
    visits .code (c :: cs) = .alone .code c :: visits .code cs := by
  rw [visits]
  · rintro cs' rfl rfl
    exact (hs rfl).1 rfl
  · rintro cs' rfl rfl
    exact (hs rfl).2 rfl

/-- A text without slashes. -/
theorem visits_word {word : List Char} (h : '/' ∉ word) (cs : List Char) :
    visits .code (word ++ cs) = word.map (.alone .code) ++ visits .code cs := by
  induction word with
  | nil => rfl
  | cons c word ih =>
    rw [List.mem_cons, not_or] at h
    rw [List.cons_append, visits_char fun e => absurd e.symm h.1, ih h.2]
    rfl

theorem isBlank_of_isDigit {c : Char} (h : c.isDigit = true) : isBlank c = false := by
  have hd : ∀ n < 58, 48 ≤ n → inRanges blankRanges n = false := by decide
  simp only [Char.isDigit, Bool.and_eq_true, decide_eq_true_eq, ge_iff_le, UInt32.le_iff_toNat_le] at h
  exact hd c.toNat (Nat.lt_succ_of_le h.2) h.1

/-- The number of a literal and the marks around it hold no blank and no slash. -/
theorem plain_of_mem_placeholder {n : Nat} {c : Char} (h : c ∈ placeholder n) : isBlank c = false ∧ c ≠ '/' := by
  rw [placeholder, List.mem_cons, List.mem_append, List.mem_singleton] at h
  rcases h with rfl | hdigit | rfl
  · decide
  · have hdigit := isDigit_of_mem_toString hdigit
    refine ⟨isBlank_of_isDigit hdigit, ?_⟩
    rintro rfl
    exact absurd hdigit (by decide)
  · decide

/-- The number of a literal is read as code. -/
theorem visits_placeholder (n : Nat) (cs : List Char) :
    visits .code (placeholder n ++ cs) = (placeholder n).map (.alone .code) ++ visits .code cs :=
  visits_word (fun h => (plain_of_mem_placeholder h).2 rfl) cs

/-- The inside of a line comment. -/
theorem visits_line {body : List Char} (h : '\n' ∉ body) (cs : List Char) :
    visits .lineComment (body ++ cs) = body.map (.alone .lineComment) ++ visits .lineComment cs := by
  induction body with
  | nil => rfl
  | cons c body ih =>
    rw [List.mem_cons, not_or] at h
    rw [List.cons_append, visits, if_neg (Ne.symm h.1), ih h.2]
    rfl

theorem inComment_line {body : List Char} (h : '\n' ∉ body) :
    ∀ v ∈ body.map (Visit.alone .lineComment), v.inComment = true := by
  refine List.forall_mem_map.mpr fun c hc => ?_
  have hfeed : c ≠ '\n' := fun e => h (e ▸ hc)
  simp [Visit.inComment, Visit.alone, hfeed]

/-- A character inside a block comment. -/
theorem visits_block_cons {c : Char} {cs : List Char} (h : ¬ (c = '*' ∧ cs.head? = some '/')) :
    visits .blockComment (c :: cs) = .alone .blockComment c :: visits .blockComment cs := by
  rw [visits]
  rintro cs' rfl rfl
  exact h ⟨rfl, rfl⟩

/-- The inside of a block comment and its closing mark. -/
theorem visits_block {body : List Char} (h : ¬ ['*', '/'] <:+: body) (cs : List Char) :
    visits .blockComment (body ++ '*' :: '/' :: cs) =
      body.map (.alone .blockComment) ++
        ⟨'*', .blockComment, true⟩ :: ⟨'/', .blockComment, true⟩ :: visits .code cs := by
  induction body with
  | nil => rw [List.nil_append, visits]; rfl
  | cons c body ih =>
    rw [infix_cons_iff_of_closing, not_or] at h
    rw [List.cons_append, visits_block_cons (mt opensClosing_append_iff.mp h.1), ih h.2]
    rfl

/-- The inside of a block comment that is not closed. -/
theorem visits_openBlock {body : List Char} (h : ¬ ['*', '/'] <:+: body) :
    visits .blockComment body = body.map (.alone .blockComment) := by
  induction body with
  | nil => rfl
  | cons c body ih =>
    rw [infix_cons_iff_of_closing, not_or] at h
    rw [visits_block_cons h.1, ih h.2]
    rfl

theorem inComment_block (body : List Char) : ∀ v ∈ body.map (Visit.alone .blockComment), v.inComment = true :=
  List.forall_mem_map.mpr fun _ _ => rfl

/-! ### Writing -/

/-- In a comment nothing is written. -/
theorem write_inside {v : Visit} (h : v.scan ≠ .code) (last : Option Char) (gap : Bool) (vs : List Visit) :
    write last gap (v :: vs) = write last gap vs := by
  have hscan : (v.scan == .code) = false := beq_false_of_ne h
  rw [write, Visit.isKept, Visit.inCode, hscan, Bool.or_false, if_neg (by simp)]

/-- A blank or a mark that opens a comment makes a gap. -/
theorem write_gap {v : Visit} (h : v.scan = .code) (hk : v.isKept = false) (last : Option Char) (gap : Bool)
    (vs : List Visit) : write last gap (v :: vs) = write last true vs := by
  rw [write, hk, if_neg Bool.false_ne_true, h, beq_self_eq_true, Bool.or_true]

/-- A character of code is written, after a space where it needs one. -/
theorem write_kept {c : Char} (hb : isBlank c = false) (last : Option Char) (gap : Bool) (vs : List Visit) :
    write last gap (.alone .code c :: vs) =
      if gap && last.any (needsSpace · c) then ' ' :: c :: write (some c) false vs
      else c :: write (some c) false vs := by
  rw [write, if_pos]
  · rfl
  · simp [Visit.alone, Visit.isKept, Visit.inCode, hb]

/-- A word is written as it is. -/
theorem write_word {word : List Char} (h : ∀ c ∈ word, isBlank c = false) {m : Char} (hm : isBlank m = false)
    (vs : List Visit) : ∀ last : Option Char,
      write last false ((word ++ [m]).map (.alone .code) ++ vs) = word ++ m :: write (some m) false vs := by
  induction word with
  | nil => exact fun last => write_kept hm last false vs
  | cons c word ih =>
    intro last
    obtain ⟨hc, hword⟩ := List.forall_mem_cons.mp h
    rw [List.cons_append, List.map_cons, List.cons_append, write_kept hc, ih hword]
    rfl

/-- Of the inside of a comment nothing is written. -/
theorem write_comment {scan : Scan} (h : scan ≠ .code) (body : List Char) (last : Option Char) (gap : Bool)
    (vs : List Visit) : write last gap (body.map (.alone scan) ++ vs) = write last gap vs := by
  induction body with
  | nil => rfl
  | cons c body ih => rw [List.map_cons, List.cons_append, write_inside h, ih]

/-- **What the scan writes** is read off its course. -/
theorem collapse_eq_write (scan : Scan) (last : Option Char) (gap : Bool) (cs : List Char) :
    collapse scan last gap cs = write last gap (visits scan cs) := by
  have hline : Scan.lineComment ≠ .code := by decide
  have hblock : Scan.blockComment ≠ .code := by decide
  fun_induction collapse scan last gap cs with
  | case1 => rw [visits, write]
  -- a mark that opens a comment
  | case2 last gap cs ih => rw [visits, write_gap rfl rfl, write_gap rfl rfl, ih]
  | case3 last gap cs ih => rw [visits, write_gap rfl rfl, write_gap rfl rfl, ih]
  -- one character of code
  | case4 last gap c cs hl hb h ih =>
    rw [visits, write_gap rfl (by simp [Visit.isKept, h]), ih] <;> assumption
  | case5 last gap c cs hl hb h hn ih =>
    rw [visits, write_kept (Bool.eq_false_iff.mpr h), if_pos hn, ih] <;> assumption
  | case6 last gap c cs hl hb h hn ih =>
    rw [visits, write_kept (Bool.eq_false_iff.mpr h), if_neg hn, ih] <;> assumption
  -- the inside of a comment
  | case7 last gap cs ih => rw [visits, write_inside hline, if_pos rfl, ih]
  | case8 last gap c cs h ih => rw [visits, write_inside hline, if_neg h, ih]
  | case9 last gap cs ih => rw [visits, write_inside hblock, write_inside hblock, ih]
  | case10 last gap c cs h ih => rw [visits, write_inside hblock, ih]; exact h

/-- What is written over a part of the course does not depend on the rest of it. -/
theorem exists_write_append (us : List Visit) : ∀ (last : Option Char) (gap : Bool), ∃ last' gap', ∀ vs,
    write last gap (us ++ vs) = write last gap us ++ write last' gap' vs := by
  induction us with
  | nil => exact fun last gap => ⟨last, gap, fun _ => rfl⟩
  | cons v us ih =>
    intro last gap
    by_cases hv : v.isKept = true
    · obtain ⟨last', gap', hrest⟩ := ih (some v.char) false
      refine ⟨last', gap', fun vs => ?_⟩
      rw [List.cons_append, write, write, if_pos hv, if_pos hv, hrest]
      split_ifs <;> rfl
    · obtain ⟨last', gap', hrest⟩ := ih last (gap || v.scan == .code)
      refine ⟨last', gap', fun vs => ?_⟩
      rw [List.cons_append, write, write, if_neg hv, if_neg hv, hrest]

/-- **The states of the course are those of the scan**: at a character that is taken on its own, what the scan has
written so far is followed by what it writes from there in the state that the visit tells. -/
theorem collapse_at {scan : Scan} {cs : List Char} {i : Nat} {v : Visit} (h : (visits scan cs)[i]? = some v)
    (hv : v.paired = false) (last : Option Char) (gap : Bool) :
    ∃ last' gap', collapse scan last gap cs =
      write last gap ((visits scan cs).take i) ++ collapse v.scan last' gap' (cs.drop i) := by
  obtain ⟨last', gap', hwrite⟩ := exists_write_append ((visits scan cs).take i) last gap
  refine ⟨last', gap', ?_⟩
  rw [collapse_eq_write, collapse_eq_write, ← drop_visits scan cs h hv, ← hwrite, List.take_append_drop]

/-- Apart from its spaces, the scan writes the characters that it takes in code and that are no blanks. -/
theorem filter_write (last : Option Char) (gap : Bool) (vs : List Visit) :
    (write last gap vs).filter (!isBlank ·) = (vs.filter Visit.isKept).map Visit.char := by
  have hspace : isBlank ' ' = true := by decide
  fun_induction write last gap vs with
  | case1 => rfl
  | case2 last gap v vs hv _ ih => simp [hspace, Visit.isBlank_of_isKept hv, hv, ih]
  | case3 last gap v vs hv _ ih => simp [Visit.isBlank_of_isKept hv, hv, ih]
  | case4 last gap v vs hv ih => simp [hv, ih]

end ModuleBundler.Minify
