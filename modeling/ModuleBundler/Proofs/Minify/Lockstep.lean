import ModuleBundler.Proofs.Minify.Restore
import ModuleBundler.Proofs.Minify.Visit

/-!
# Two scanners in lockstep

Comments are looked for twice. The pieces of a source are found first, and the comments among them are copied into the
masked text as they stand; then the scan of the masked text looks for comments again. The two are written differently
and read different texts: where the one has passed over a literal, the other sees its number between two marks.

Here they are shown to agree at every character of the masked text. What was copied as code or stands for a literal is
taken by the scan in code, except that it leaves a line comment with the line feed after it; what was copied as part of
a comment, and nothing else, is taken in a comment or as one of its marks. So every literal keeps its place and no
character of a comment is written (`scanners_agree`).
-/

namespace ModuleBundler.Minify

open Text

/-! ### Origins -/

/-- What a character of a masked text was copied as. -/
inductive Origin where
  | code
  /-- A mark around the number of a literal, or a digit of the number. -/
  | placeholder
  | lineComment
  | blockComment
  deriving DecidableEq, Repr

namespace Origin

/-- What the text of a comment was copied as. -/
def ofComment : List Char → Origin
  | _ :: '/' :: _ => .lineComment
  | _ => .blockComment

/-- Whether a character `c` that was copied as `o` is one to keep: it stands for a literal, or it is code and no
blank. -/
def stays (c : Char) : Origin → Bool
  | .placeholder => true
  | .code => !isBlank c
  | .lineComment | .blockComment => false

/-- How the scan is to take a character that was copied as `o`, after one that was copied as `before`. -/
def Fits (before : Option Origin) (o : Origin) (v : Visit) : Prop :=
  match o with
  | .code => if before = some .lineComment then v.endsLine = true else v.inCode = true
  | .placeholder => v.inCode = true
  | .lineComment | .blockComment => v.inComment = true

theorem ofComment_ne_placeholder (t : List Char) : ofComment t ≠ .placeholder := by
  unfold ofComment
  split <;> simp

/-- What was copied as part of a comment is to be taken in a comment, whatever stands before it. -/
theorem fits_ofComment {t : List Char} {v : Visit} (h : v.inComment = true) (before : Option Origin) :
    (ofComment t).Fits before v := by
  unfold ofComment
  split <;> exact h

/-- A scan that fits is in a comment for the characters of comments only. -/
theorem Fits.inComment_iff {before : Option Origin} {o : Origin} {v : Visit} (h : o.Fits before v) :
    v.inComment = true ↔ o = .lineComment ∨ o = .blockComment := by
  have hcode : v.inCode = true → ¬ v.inComment = true := fun hv hc => by
    rw [Visit.inCode_eq_false_of_inComment hc] at hv
    cases hv
  cases o with
  | code =>
    rw [Fits] at h
    split_ifs at h
    · simp [Visit.inComment_eq_false_of_endsLine h]
    · simp [hcode h]
  | placeholder => simp [hcode h]
  | lineComment | blockComment =>
    have hcomment : v.inComment = true := h
    simp [hcomment]

/-- A scan that fits writes the characters to keep. -/
theorem Fits.isKept_eq {before : Option Origin} {o : Origin} {v : Visit} (h : o.Fits before v)
    (hb : o = .placeholder → isBlank v.char = false) : v.isKept = o.stays v.char := by
  have hfeed : isBlank '\n' = true := by decide
  rw [Visit.isKept]
  cases o with
  | code =>
    rw [Fits] at h
    split_ifs at h
    · rw [Visit.inCode_eq_false_of_endsLine h, stays, Visit.char_of_endsLine h, hfeed]
      rfl
    · rw [h, stays, Bool.true_and]
  | placeholder =>
    have hcode : v.inCode = true := h
    rw [hcode, hb rfl]
    rfl
  | lineComment | blockComment =>
    rw [Visit.inCode_eq_false_of_inComment h]
    rfl

end Origin

/-- The masked text of pieces, numbered from `n` on, with what each of its characters was copied as. -/
def originsFrom : Nat → List Piece → List (Char × Origin)
  | _, [] => []
  | n, .literal _ :: ps => (placeholder n).map (·, .placeholder) ++ originsFrom (n + 1) ps
  | n, .comment t :: ps => t.map (·, .ofComment t) ++ originsFrom n ps
  | n, .code c :: ps => (c, .code) :: originsFrom n ps

/-- The masked text of a source, with what each of its characters was copied as. -/
def origins (cs : List Char) : List (Char × Origin) := originsFrom 0 (pieces cs)

/-- What the character before the place `i` was copied as. -/
def originBefore (xs : List (Char × Origin)) (i : Nat) : Option Origin := ((xs.map Prod.snd).take i).getLast?

/-- The course of the scan over the masked text of a source. -/
def course (cs : List Char) : List Visit := visits .code (mask (pieces cs))

theorem map_fst_originsFrom (ps : List Piece) : ∀ n, (originsFrom n ps).map Prod.fst = maskFrom n ps := by
  have hmap : ∀ (o : Origin) (t : List Char), (t.map (·, o)).map Prod.fst = t := by
    intro o t
    rw [List.map_map]
    exact List.map_id t
  induction ps with
  | nil => intro n; rfl
  | cons p ps ih =>
    intro n
    cases p with
    | code c => rw [originsFrom, maskFrom_code, List.map_cons, ih]
    | literal t => rw [originsFrom, maskFrom, List.map_append, hmap, ih]
    | comment t => rw [originsFrom, maskFrom_comment, List.map_append, hmap, ih]

/-- The characters that stand for a literal are no blanks. -/
theorem isBlank_of_placeholder (ps : List Piece) : ∀ {n : Nat} {c : Char},
    (c, .placeholder) ∈ originsFrom n ps → isBlank c = false := by
  induction ps with
  | nil => intro n c h; cases h
  | cons p ps ih =>
    intro n c h
    cases p with
    | code d =>
      rcases List.mem_cons.mp h with h | h
      · cases h
      · exact ih h
    | literal t =>
      rcases List.mem_append.mp h with h | h
      · obtain ⟨d, hd, he⟩ := List.mem_map.mp h
        cases he
        exact (plain_of_mem_placeholder hd).1
      · exact ih h
    | comment t =>
      rcases List.mem_append.mp h with h | h
      · obtain ⟨d, -, he⟩ := List.mem_map.mp h
        exact absurd (congrArg Prod.snd he) (Origin.ofComment_ne_placeholder t)
      · exact ih h

/-! ### Lockstep -/

/-- `Lockstep before xs vs`: the scan takes the characters `xs` as it is to take them, after one that was copied as
`before`. -/
inductive Lockstep : Option Origin → List (Char × Origin) → List Visit → Prop where
  | nil {before : Option Origin} : Lockstep before [] []
  | cons {before : Option Origin} {o : Origin} {v : Visit} {xs : List (Char × Origin)} {vs : List Visit} :
      o.Fits before v → Lockstep (some o) xs vs → Lockstep before ((v.char, o) :: xs) (v :: vs)

namespace Lockstep

variable {before : Option Origin} {xs : List (Char × Origin)} {vs : List Visit}

/-- Characters of one origin, if they may be taken as they are whatever stands before them. -/
theorem span {o : Origin} {us : List Visit} (hne : us ≠ []) (hus : ∀ v ∈ us, ∀ before, o.Fits before v)
    (hrest : Lockstep (some o) xs vs) : Lockstep before (us.map (fun v => (v.char, o)) ++ xs) (us ++ vs) := by
  induction us generalizing before with
  | nil => exact absurd rfl hne
  | cons v us ih =>
    obtain ⟨hv, hus⟩ := List.forall_mem_cons.mp hus
    refine .cons (hv before) ?_
    cases us with
    | nil => exact hrest
    | cons w us => exact ih (List.cons_ne_nil w us) hus

/-- The number of a literal is taken in code. -/
theorem placeholder (n : Nat) (hrest : Lockstep (some .placeholder) xs vs) :
    Lockstep before ((Minify.placeholder n).map (·, .placeholder) ++ xs)
      ((Minify.placeholder n).map (.alone .code) ++ vs) := by
  have hne : (Minify.placeholder n).map (Visit.alone .code) ≠ [] := by simp [Minify.placeholder]
  have hcode : ∀ v ∈ (Minify.placeholder n).map (Visit.alone .code), ∀ before, Origin.placeholder.Fits before v :=
    List.forall_mem_map.mpr fun _ _ _ => rfl
  have hmap : (Minify.placeholder n).map (·, Origin.placeholder) =
      ((Minify.placeholder n).map (Visit.alone .code)).map fun v => (v.char, Origin.placeholder) := by
    rw [List.map_map]
    rfl
  rw [hmap]
  exact span hne hcode hrest

/-- A comment is taken in a comment. -/
theorem comment {t : List Char} {ws : List Visit} (us : List Visit) (hws : ws = us ++ vs) (ht : us.map Visit.char = t)
    (hne : us ≠ []) (hus : ∀ v ∈ us, v.inComment = true) (hrest : Lockstep (some (.ofComment t)) xs vs) :
    Lockstep before (t.map (·, .ofComment t) ++ xs) ws := by
  have hmap : t.map (·, Origin.ofComment t) = us.map fun v => (v.char, Origin.ofComment t) := by
    rw [← ht, List.map_map]
    rfl
  rw [hws, hmap]
  exact span hne (fun v hv => Origin.fits_ofComment (hus v hv)) hrest

theorem tail {x : Char × Origin} {v : Visit} (h : Lockstep before (x :: xs) (v :: vs)) :
    Lockstep (some x.2) xs vs := by
  cases h with
  | cons _ hrest => exact hrest

/-- In lockstep every character is taken as it is to be taken after the one before it. -/
theorem fits (h : Lockstep before xs vs) : ∀ {i : Nat} {c : Char} {o : Origin} {v : Visit},
    xs[i]? = some (c, o) → vs[i]? = some v → v.char = c ∧ o.Fits ((originBefore xs i).or before) v := by
  induction h with
  | nil => intro i c o v hx; cases hx
  | @cons before p w xs vs hfit _ ih =>
    intro i c o v hx hv
    cases i with
    | zero =>
      cases hx
      cases hv
      exact ⟨rfl, hfit⟩
    | succ i =>
      have hbefore : (originBefore ((w.char, p) :: xs) (i + 1)).or before = (originBefore xs i).or (some p) := by
        rw [originBefore, originBefore, List.map_cons, List.take_succ_cons, getLast?_cons_or]
      rw [hbefore]
      exact ih hx hv

/-- In lockstep the scan writes the characters to keep. -/
theorem filter_isKept (h : Lockstep before xs vs) (hb : ∀ c, (c, .placeholder) ∈ xs → isBlank c = false) :
    (vs.filter Visit.isKept).map Visit.char = (xs.filter fun x => x.2.stays x.1).map Prod.fst := by
  induction h with
  | nil => rfl
  | @cons before o v xs vs hfit _ ih =>
    have hkept : v.isKept = o.stays v.char := hfit.isKept_eq fun e => hb v.char (e ▸ List.mem_cons_self)
    have hrest := ih fun c hc => hb c (List.mem_cons_of_mem _ hc)
    rw [List.filter_cons, List.filter_cons, hkept]
    split_ifs
    · rw [List.map_cons, List.map_cons, hrest]
    · exact hrest

end Lockstep

/-! ### The scan over the pieces of a source -/

/-- A line comment is left with the line feed after it. -/
theorem lockstep_after_line {n : Nat} {rest : List Char} (hr : rest = [] ∨ rest.head? = some '\n')
    (h : Lockstep none (originsFrom n (pieces rest)) (visits .code (maskFrom n (pieces rest)))) :
    Lockstep (some .lineComment) (originsFrom n (pieces rest)) (visits .lineComment (maskFrom n (pieces rest))) := by
  rcases hr with rfl | hr
  · rw [pieces]
    exact .nil
  · obtain ⟨rest, rfl⟩ := List.head?_eq_some_iff.mp hr
    rw [pieces_code (by decide) fun e => absurd e (by decide), originsFrom, maskFrom_code] at h ⊢
    rw [visits_char fun e => absurd e (by decide)] at h
    rw [visits, if_pos rfl]
    exact .cons (v := .alone .lineComment '\n') rfl h.tail

/-- A character of code is taken in code. -/
theorem lockstep_code {n : Nat} {before : Option Origin} {c : Char} {rest : List Char} (hq : isQuote c = false)
    (hs : c = '/' → rest.head? ≠ some '/' ∧ rest.head? ≠ some '*') (hbefore : before ≠ some .lineComment)
    (h : Lockstep (some .code) (originsFrom n (pieces rest)) (visits .code (maskFrom n (pieces rest)))) :
    Lockstep before (originsFrom n (pieces (c :: rest))) (visits .code (maskFrom n (pieces (c :: rest)))) := by
  -- a slash before a literal stands before a mark in the masked text, which opens no comment either
  rw [pieces_code hq hs, originsFrom, maskFrom_code, visits_char (slash_maskFrom hs)]
  refine .cons (v := .alone .code c) ?_ h
  rw [Origin.Fits, if_neg hbefore]
  rfl

/-- **The scan keeps in lockstep with the pieces**, from any place between two of them at which no line comment ends. -/
theorem lockstep_pieces {cs : List Char} {ts : List Token} (h : Reads cs ts) :
    ∀ {n : Nat} {before : Option Origin}, before ≠ some .lineComment →
      Lockstep before (originsFrom n (pieces cs)) (visits .code (maskFrom n (pieces cs))) := by
  induction h with
  | nil =>
    intro n before _
    rw [pieces]
    exact .nil
  | literal hq hb _ ih =>
    intro n before _
    rw [pieces_literal hq hb, originsFrom, maskFrom, visits_placeholder]
    exact .placeholder n (ih (by simp))
  | openLiteral hq hb ht =>
    intro n before _
    rw [pieces_openLiteral hq hb ht, originsFrom, maskFrom, visits_placeholder]
    exact .placeholder n .nil
  | @lineComment body rest _ hb hr _ ih =>
    intro n before _
    rw [pieces_lineComment hb hr, originsFrom, maskFrom_comment]
    refine .comment (⟨'/', .code, true⟩ :: ⟨'/', .code, true⟩ :: body.map (.alone .lineComment))
      (by simp [visits, visits_line hb]) (by simp) (by simp) ?_ (lockstep_after_line hr (ih (by simp)))
    rw [List.forall_mem_cons, List.forall_mem_cons]
    exact ⟨rfl, rfl, inComment_line hb⟩
  | @blockComment body rest _ hb _ ih =>
    intro n before _
    rw [pieces_blockComment hb, originsFrom, maskFrom_comment]
    refine .comment (⟨'/', .code, true⟩ :: ⟨'*', .code, true⟩ :: (body.map (.alone .blockComment) ++
      [⟨'*', .blockComment, true⟩, ⟨'/', .blockComment, true⟩]))
      (by simp [visits, visits_block hb]) (by simp) (by simp) ?_ (ih (by simp [Origin.ofComment]))
    simp only [List.forall_mem_cons, List.forall_mem_append]
    exact ⟨rfl, rfl, inComment_block body, rfl, rfl, List.forall_mem_nil _⟩
  | @openComment body hb =>
    intro n before _
    rw [pieces_openComment hb, originsFrom, maskFrom_comment]
    refine .comment (⟨'/', .code, true⟩ :: ⟨'*', .code, true⟩ :: body.map (.alone .blockComment))
      (by simp [maskFrom, visits, visits_openBlock hb]) (by simp) (by simp) ?_ .nil
    rw [List.forall_mem_cons, List.forall_mem_cons]
    exact ⟨rfl, rfl, inComment_block body⟩
  | blank hc _ ih =>
    intro n before hbefore
    exact lockstep_code (isQuote_of_isBlank hc) (fun e => absurd e (ne_slash_of_isBlank hc)) hbefore (ih (by simp))
  | char hb hq hs _ ih =>
    intro n before hbefore
    exact lockstep_code hq hs hbefore (ih (by simp))

/-! ### Numbers of literals -/

/-- Each literal is represented by its number. -/
theorem placeholder_mem_numberFrom {ts : List Token} : ∀ {k n : Nat}, n < (ts.filterMap Token.literal?).length →
    .item (.literal (placeholder (k + n))) ∈ numberFrom k ts := by
  induction ts with
  | nil => intro k n h; cases h
  | cons t ts ih =>
    intro k n h
    rcases t with _ | i
    · exact List.mem_cons_of_mem _ (ih h)
    · rcases i with c | t
      · exact List.mem_cons_of_mem _ (ih h)
      · cases n with
        | zero => exact List.mem_cons_self
        | succ n =>
          have hmem := ih (k := k + 1) (Nat.lt_of_succ_lt_succ h)
          rw [Nat.add_right_comm] at hmem
          exact List.mem_cons_of_mem _ hmem

/-- The scan writes the number of every literal, in one piece. -/
theorem placeholder_infix_collapse {cs : List Char} {n : Nat} (h : n < (literals (pieces cs)).length) :
    placeholder n <:+: collapse .code none false (mask (pieces cs)) := by
  rw [literals_eq] at h
  have hmem := placeholder_mem_numberFrom (k := 0) h
  rw [Nat.zero_add, ← item_mem_settle_iff _ none false] at hmem
  obtain ⟨as, bs, hsettle⟩ := List.append_of_mem hmem
  rw [mask, collapse_maskFrom (reads_iff.mpr rfl) false fun _ => rfl, spell_eq_flatMap, hsettle, List.flatMap_append,
    List.flatMap_cons, ← List.append_assoc]
  exact List.infix_append _ _ _

/-! ### Agreement -/

/-- **The two scanners of comments agree** at every character of the masked text. The scan is in code where a character
stands for a literal or was copied as code, but for the line feed after a line comment, with which it leaves the
comment; it is in a comment, or takes one of its marks, where a character was copied as part of a comment and nowhere
else. These states are the ones in which it goes on from there. What it writes, apart from spaces, are the characters
that stand for literals and the characters of code that are no blanks, in their order, and the number of each literal is
written in one piece. -/
theorem scanners_agree (cs : List Char) :
    (origins cs).map Prod.fst = mask (pieces cs) ∧ (course cs).map Visit.char = mask (pieces cs) ∧
      (∀ (i : Nat) (c : Char) (o : Origin) (v : Visit), (origins cs)[i]? = some (c, o) → (course cs)[i]? = some v →
        (o = .placeholder → v.inCode = true) ∧
        (o = .code → if originBefore (origins cs) i = some .lineComment then c = '\n' ∧ v.endsLine = true
          else v.inCode = true) ∧
        (v.inComment = true ↔ o = .lineComment ∨ o = .blockComment)) ∧
      collapse .code none false (mask (pieces cs)) = write none false (course cs) ∧
      (∀ (i : Nat) (v : Visit), (course cs)[i]? = some v → v.paired = false → ∃ last gap,
        collapse .code none false (mask (pieces cs)) =
          write none false ((course cs).take i) ++ collapse v.scan last gap ((mask (pieces cs)).drop i)) ∧
      (collapse .code none false (mask (pieces cs))).filter (!isBlank ·) =
        ((origins cs).filter fun x => x.2.stays x.1).map Prod.fst ∧
      ∀ n < (literals (pieces cs)).length, placeholder n <:+: collapse .code none false (mask (pieces cs)) := by
  have hstep : Lockstep none (origins cs) (course cs) := lockstep_pieces (reads_iff.mpr rfl) (by simp)
  have hwrite : collapse .code none false (mask (pieces cs)) = write none false (course cs) :=
    collapse_eq_write .code none false _
  refine ⟨map_fst_originsFrom _ 0, map_char_visits _ _, fun i c o v ho hv => ?_, hwrite,
    fun i v hv hp => collapse_at hv hp none false, ?_, fun n hn => placeholder_infix_collapse hn⟩
  · obtain ⟨rfl, hfit⟩ := hstep.fits ho hv
    rw [Option.or_none] at hfit
    refine ⟨?_, ?_, hfit.inComment_iff⟩
    · rintro rfl
      exact hfit
    · rintro rfl
      rw [Origin.Fits] at hfit
      split_ifs at hfit ⊢
      · exact ⟨Visit.char_of_endsLine hfit, hfit⟩
      · exact hfit
  · rw [hwrite, filter_write]
    exact hstep.filter_isKept fun c hc => isBlank_of_placeholder _ hc

/-- A source with slashes and stars beside and inside literals, a block comment with a slash right after its opening
mark, a slash right after a comment, and a line comment that begins with a star. -/
def entwinedSource : List Char := "x/*/'*/'//'/**//y//*\n'/*'".toList

theorem scanners_agree_entwined :
    ((origins entwinedSource)[3]? = some ('/', .blockComment) ∧
        ∃ v, (course entwinedSource)[3]? = some v ∧ v.inComment = true) ∧
      ((origins entwinedSource)[14]? = some ('/', .code) ∧
        ∃ v, (course entwinedSource)[14]? = some v ∧ v.inCode = true) ∧
      ((origins entwinedSource)[19]? = some ('\n', .code) ∧
        ∃ v, (course entwinedSource)[19]? = some v ∧ v.endsLine = true ∧ v.paired = false ∧
          ∃ last gap, collapse .code none false (mask (pieces entwinedSource)) =
            write none false ((course entwinedSource).take 19) ++
              collapse .lineComment last gap ((mask (pieces entwinedSource)).drop 19)) ∧
      1 < (literals (pieces entwinedSource)).length ∧
      placeholder 1 <:+: collapse .code none false (mask (pieces entwinedSource)) := by
  obtain ⟨-, -, hagree, -, hstate, -, hnumber⟩ := scanners_agree entwinedSource
  have horigins : (origins entwinedSource)[3]? = some ('/', .blockComment) ∧
      (origins entwinedSource)[14]? = some ('/', .code) ∧ (origins entwinedSource)[19]? = some ('\n', .code) ∧
      originBefore (origins entwinedSource) 14 = some .blockComment ∧
      originBefore (origins entwinedSource) 19 = some .lineComment := by decide +kernel
  have hcourse : (course entwinedSource)[3]? = some (.alone .blockComment '/') ∧
      (course entwinedSource)[14]? = some (.alone .code '/') ∧
      (course entwinedSource)[19]? = some (.alone .lineComment '\n') ∧
      1 < (literals (pieces entwinedSource)).length := by decide +kernel
  obtain ⟨hinside, hslash, hfeed, hbeforeSlash, hbeforeFeed⟩ := horigins
  obtain ⟨hinside', hslash', hfeed', hcount⟩ := hcourse
  refine ⟨⟨hinside, _, hinside', ?_⟩, ⟨hslash, _, hslash', ?_⟩,
    ⟨hfeed, _, hfeed', ?_, rfl, hstate 19 _ hfeed' rfl⟩, hcount, hnumber 1 hcount⟩
  · exact (hagree 3 _ _ _ hinside hinside').2.2.mpr (.inr rfl)
  · have hcode := (hagree 14 _ _ _ hslash hslash').2.1 rfl
    rwa [hbeforeSlash, if_neg (by decide)] at hcode
  · have hends := (hagree 19 _ _ _ hfeed hfeed').2.1 rfl
    rw [hbeforeFeed, if_pos rfl] at hends
    exact hends.2

end ModuleBundler.Minify
