import ModuleBundler.Proofs.Minify.Beside

/-!
# Templates within templates

A template may hold substitutions, and a substitution may hold strings and templates again. Minifying does not
see that: it reads a template up to the next backtick, which is the one that opens the template inside. So the
templates are taken for literals and for code by turns. What stands in a template at an even depth is kept, and
what stands in a template at an odd depth is minified as if it were code (`minify_template`).

Two things are left out. A backtick in a string of a substitution is counted with the others, so it must be escaped
where the string stands within a literal. And text at an odd depth may hold quotes and slashes, which then open
literals and comments that were none.
-/

namespace ModuleBundler.Minify

open Text

/-! ### Templates -/

/-- Text between the substitutions of a template: no backtick and no opening of a substitution, but for characters
that a backslash takes along. -/
inductive Stretch : List Char → Prop where
  | nil : Stretch []
  | plain {c : Char} {cs : List Char} : c ≠ '\x60' → c ≠ '\\' → (c = '$' → cs.head? ≠ some '\x7b') →
      Stretch cs → Stretch (c :: cs)
  | escaped {c : Char} {cs : List Char} : Stretch cs → Stretch ('\\' :: c :: cs)

/-- A character of a substitution that opens and closes nothing. -/
def isNeutral (c : Char) : Bool := !isQuote c && !(['\\', '\x7b', '\x7d'].contains c)

mutual

/-- What stands between the backticks of a template. -/
inductive Template where
  | text (run : List Char) (h : Stretch run)
  /-- Text, a substitution, and the rest of the template. -/
  | hole (run : List Char) (h : Stretch run) (content : Content) (rest : Template)

/-- What stands in a substitution. -/
inductive Content where
  | nil
  | char (c : Char) (h : isNeutral c = true) (rest : Content)
  | braces (inner rest : Content)
  | string (quote : Char) (body : List Char) (hq : quote = '\x27' ∨ quote = '\x22') (h : Inside quote body)
      (rest : Content)
  | template (t : Template) (rest : Content)

end

mutual

/-- The characters between the backticks of a template. -/
def Template.chars : Template → List Char
  | .text run _ => run
  | .hole run _ content rest => run ++ (['$', '\x7b'] ++ (content.chars ++ (['\x7d'] ++ rest.chars)))

/-- The characters of a substitution. -/
def Content.chars : Content → List Char
  | .nil => []
  | .char c _ rest => [c] ++ rest.chars
  | .braces inner rest => ['\x7b'] ++ (inner.chars ++ (['\x7d'] ++ rest.chars))
  | .string quote body _ _ rest => quote :: (body ++ [quote]) ++ rest.chars
  | .template t rest => '\x60' :: (t.chars ++ ['\x60']) ++ rest.chars

end

mutual

/-- The texts of a template and of the templates within it. Each comes with whether it is taken for a part of a
literal, as those of the template itself are if `quoted`; in a template inside it is the other way round. -/
def Template.texts (quoted : Bool) : Template → List (Bool × List Char)
  | .text run _ => [(quoted, run)]
  | .hole run _ content rest => (quoted, run) :: (content.texts quoted ++ rest.texts quoted)

/-- The texts of the templates in a substitution. -/
def Content.texts (quoted : Bool) : Content → List (Bool × List Char)
  | .nil => []
  | .char _ _ rest => rest.texts quoted
  | .braces inner rest => inner.texts quoted ++ rest.texts quoted
  | .string _ _ _ _ rest => rest.texts quoted
  | .template t rest => t.texts (!quoted) ++ rest.texts quoted

end

mutual

/-- A template in which no string and no text upsets the turns: within a literal no string has a backtick that is
not escaped, and outside of literals there are ordinary characters and closed strings. -/
def Template.Alternates (quoted : Bool) : Template → Prop
  | .text run _ => quoted = false → run.all isOrdinary = true
  | .hole run _ content rest => (quoted = false → run.all isOrdinary = true) ∧ content.Alternates quoted ∧
      rest.Alternates quoted

/-- A substitution in which no string and no text upsets the turns. -/
def Content.Alternates (quoted : Bool) : Content → Prop
  | .nil => True
  | .char c _ rest => (quoted = false → isOrdinary c = true) ∧ rest.Alternates quoted
  | .braces inner rest => inner.Alternates quoted ∧ rest.Alternates quoted
  | .string _ body _ _ rest => (quoted = true → Inside '\x60' body) ∧ rest.Alternates quoted
  | .template t rest => t.Alternates (!quoted) ∧ rest.Alternates quoted

end

/-! ### Where a text shows -/

/-- `Shows ps r`: the text `r` of a template is found among the pieces `ps`, within a literal or as characters of
code. -/
inductive Shows (ps : List Piece) : Bool × List Char → Prop where
  | quoted {run t : List Char} : .literal t ∈ ps → run <:+: t → Shows ps (true, run)
  | code {run : List Char} : run.all isOrdinary = true → run.map .code <:+: ps → Shows ps (false, run)

theorem Shows.mono {ps qs : List Piece} {r : Bool × List Char} (h : Shows ps r) (hs : ps <:+: qs) :
    Shows qs r := by
  cases h with
  | quoted ht hr => exact .quoted (hs.subset ht) hr
  | code ho hr => exact .code ho (hr.trans hs)

/-- A text that shows in an open literal, or before it, shows wherever the literal goes on. -/
theorem Shows.extend {ps qs : List Piece} {q : List Char} {r : Bool × List Char}
    (h : Shows (ps ++ [.literal q]) r) (hq : Shows qs (true, q)) : Shows (ps ++ qs) r := by
  cases h with
  | @quoted run t ht hr =>
    rw [List.mem_append, List.mem_singleton] at ht
    rcases ht with ht | ht
    · exact .quoted (List.mem_append_left _ ht) hr
    · cases ht
      cases hq with
      | quoted ht' hq => exact .quoted (List.mem_append_right _ ht') (hr.trans hq)
  | @code run ho hr =>
    refine .code ho ?_
    rcases List.infix_concat_iff.mp hr with hr | hr
    · rcases List.suffix_concat_iff.mp hr with hr | ⟨t, ht, -⟩
      · rw [hr]
        exact List.nil_infix
      · -- a literal is no character of code
        have hmem : Piece.literal q ∈ run.map Piece.code := by
          rw [ht]
          exact List.mem_append_right _ (List.mem_singleton_self _)
        obtain ⟨c, -, hc⟩ := List.mem_map.mp hmem
        cases hc
    · exact hr.trans (List.infix_append [] ps qs)

/-- `Passes quoted cs rs`: from within a literal, or from code, the text `cs` is read up to its end as what follows
it is read from the same state, and the texts `rs` show in it. Within a literal a text `p` of the literal stands
before `cs`, and a text `q` of a literal is open after it. -/
def Passes : Bool → List Char → List (Bool × List Char) → Prop
  | true, cs, rs => ∀ p, Inside '\x60' p → ∃ ps q, Inside '\x60' q ∧ (∀ x ∈ ps, x.isTidy = true) ∧
      (∀ rest, pieces ('\x60' :: (p ++ (cs ++ rest))) = ps ++ pieces ('\x60' :: (q ++ rest))) ∧
      ∀ r ∈ (true, p) :: rs, Shows (ps ++ [.literal q]) r
  | false, cs, rs => ∃ ps, (∀ x ∈ ps, x.isTidy = true) ∧ (∀ rest, pieces (cs ++ rest) = ps ++ pieces rest) ∧
      ∀ r ∈ rs, Shows ps r

theorem Inside.append {q : Char} {as bs : List Char} (ha : Inside q as) (hb : Inside q bs) :
    Inside q (as ++ bs) := by
  induction ha with
  | nil => exact hb
  | plain hc he _ ih => exact .plain hc he ih
  | escaped _ ih => exact .escaped ih

namespace Passes

variable {quoted : Bool} {as bs cs : List Char} {rs ss : List (Bool × List Char)}

theorem append (ha : Passes quoted as rs) (hb : Passes quoted bs ss) :
    Passes quoted (as ++ bs) (rs ++ ss) := by
  cases quoted with
  | false =>
    obtain ⟨ps, hps, ha, hr⟩ := ha
    obtain ⟨qs, hqs, hb, hs⟩ := hb
    refine ⟨ps ++ qs, List.forall_mem_append.mpr ⟨hps, hqs⟩, fun rest => ?_,
      List.forall_mem_append.mpr ⟨fun r h => ?_, fun r h => ?_⟩⟩
    · rw [List.append_assoc, ha, hb, List.append_assoc]
    · exact (hr r h).mono (List.infix_append [] ps qs)
    · exact (hs r h).mono (List.suffix_append ps qs).isInfix
  | true =>
    intro p hp
    obtain ⟨ps, q, hq, hps, ha, hr⟩ := ha p hp
    obtain ⟨qs, q', hq', hqs, hb, hs⟩ := hb q hq
    rw [List.forall_mem_cons] at hs
    refine ⟨ps ++ qs, q', hq', List.forall_mem_append.mpr ⟨hps, hqs⟩, fun rest => ?_, ?_⟩
    · rw [List.append_assoc, ha, hb, List.append_assoc]
    · rw [List.append_assoc, ← List.cons_append, List.forall_mem_append]
      exact ⟨fun r h => (hr r h).extend hs.1, fun r h => (hs.2 r h).mono (List.suffix_append ps _).isInfix⟩

/-- A text that closes no literal, and opens none where it is taken for code, shows where it stands. -/
theorem run (hi : Inside '\x60' cs) (ho : quoted = false → cs.all isOrdinary = true) :
    Passes quoted cs [(quoted, cs)] := by
  cases quoted with
  | false =>
    have ho := ho rfl
    refine ⟨cs.map .code, fun p hp => ?_, pieces_ordinary ho, ?_⟩
    · rw [← pieces_of_ordinary ho] at hp
      exact tidy_of_ordinary ho p hp
    · exact List.forall_mem_singleton.mpr (.code ho List.infix_rfl)
  | true =>
    intro p hp
    have hlast : .literal (p ++ cs) ∈ [] ++ [Piece.literal (p ++ cs)] := List.mem_singleton_self _
    refine ⟨[], p ++ cs, hp.append hi, List.forall_mem_nil _, fun rest => by simp,
      List.forall_mem_cons.mpr ⟨?_, List.forall_mem_singleton.mpr ?_⟩⟩
    · exact .quoted hlast (List.prefix_append p cs).isInfix
    · exact .quoted hlast (List.suffix_append p cs).isInfix

/-- Fewer texts show as well. -/
theorem forget (h : Passes quoted cs rs) : Passes quoted cs [] := by
  cases quoted with
  | false =>
    obtain ⟨ps, hps, hc, -⟩ := h
    exact ⟨ps, hps, hc, List.forall_mem_nil _⟩
  | true =>
    intro p hp
    obtain ⟨ps, q, hq, hps, hc, hr⟩ := h p hp
    exact ⟨ps, q, hq, hps, hc, List.forall_mem_singleton.mpr (hr _ List.mem_cons_self)⟩

/-- **Templates take turns**: a template within a literal is taken for code, and one within code is taken for a
literal. -/
theorem template (h : Passes (!quoted) cs rs) : Passes quoted ('\x60' :: (cs ++ ['\x60'])) rs := by
  have hq : isQuote '\x60' = true := by decide
  cases quoted with
  | false =>
    obtain ⟨ps, q, hi, hps, hc, hr⟩ := h [] .nil
    have hclosed : ∀ rest, pieces ('\x60' :: (q ++ '\x60' :: rest)) =
        .literal ('\x60' :: (q ++ ['\x60'])) :: pieces rest := pieces_literal hq hi
    refine ⟨ps ++ [.literal ('\x60' :: (q ++ ['\x60']))],
      List.forall_mem_append.mpr ⟨hps, List.forall_mem_singleton.mpr (isTidy_literal hq hi)⟩, fun rest => ?_,
      fun r h => (hr r (List.mem_cons_of_mem _ h)).extend (.quoted (List.mem_singleton_self _) ?_)⟩
    · have hopen := hc ('\x60' :: rest)
      rw [List.nil_append, hclosed] at hopen
      simpa using hopen
    · exact ⟨['\x60'], ['\x60'], rfl⟩
  | true =>
    obtain ⟨ps, hps, hc, hr⟩ := h
    intro p hp
    refine ⟨.literal ('\x60' :: (p ++ ['\x60'])) :: ps, [], .nil,
      List.forall_mem_cons.mpr ⟨isTidy_literal hq hp, hps⟩, fun rest => ?_,
      List.forall_mem_cons.mpr ⟨?_, fun r h => (hr r h).mono ?_⟩⟩
    · have hclosed := pieces_literal hq hp (cs ++ '\x60' :: rest)
      rw [hc] at hclosed
      simpa using hclosed
    · exact .quoted List.mem_cons_self ⟨['\x60'], ['\x60'], rfl⟩
    · exact ⟨[.literal ('\x60' :: (p ++ ['\x60']))], [.literal []], by simp⟩

/-- A string stays closed within a literal as well as within code. -/
theorem string {q : Char} (hq : q = '\x27' ∨ q = '\x22') (hi : Inside q cs)
    (hb : quoted = true → Inside '\x60' cs) : Passes quoted (q :: (cs ++ [q])) [] := by
  cases quoted with
  | false =>
    have hquote : isQuote q = true := by rcases hq with rfl | rfl <;> decide
    refine ⟨[.literal (q :: (cs ++ [q]))], List.forall_mem_singleton.mpr (isTidy_literal hquote hi),
      fun rest => ?_, List.forall_mem_nil _⟩
    have hclosed := pieces_literal hquote hi rest
    simpa using hclosed
  | true =>
    have hquote : Inside '\x60' [q] := by
      rcases hq with rfl | rfl <;> exact .plain (by decide) (by decide) .nil
    have hin : Inside '\x60' ([q] ++ (cs ++ [q])) := hquote.append ((hb rfl).append hquote)
    exact (run hin (fun h => absurd h (by decide))).forget

end Passes

theorem Stretch.inside {run : List Char} (h : Stretch run) : Inside '\x60' run := by
  induction h with
  | nil => exact .nil
  | plain hc he _ _ ih => exact .plain hc he ih
  | escaped _ ih => exact .escaped ih

theorem stretch_of_all {cs : List Char} (h : cs.all (fun c => c != '\x60' && c != '\\' && c != '$') = true) :
    Stretch cs := by
  induction cs with
  | nil => exact .nil
  | cons c cs ih =>
    simp only [List.all_cons, Bool.and_eq_true, bne_iff_ne] at h
    exact .plain h.1.1.1 h.1.1.2 (fun e => absurd e h.1.2) (ih h.2)

theorem inside_of_all {q : Char} {cs : List Char} (h : cs.all (fun c => c != q && c != '\\') = true) :
    Inside q cs := by
  induction cs with
  | nil => exact .nil
  | cons c cs ih =>
    simp only [List.all_cons, Bool.and_eq_true, bne_iff_ne] at h
    exact .plain h.1.1 h.1.2 (ih h.2)

theorem inside_neutral {c : Char} (h : isNeutral c = true) : Inside '\x60' [c] := by
  refine .plain ?_ ?_ .nil <;>
  · rintro rfl
    exact absurd h (by decide)

/-- Marks of substitutions and braces open and close nothing. -/
theorem passes_marks {cs : List Char} (quoted : Bool) (hi : Inside '\x60' cs)
    (ho : cs.all isOrdinary = true) : Passes quoted cs [] := (Passes.run hi fun _ => ho).forget

mutual

/-- A template is read as its turns say. -/
theorem Template.passes (quoted : Bool) : ∀ t : Template, t.Alternates quoted →
    Passes quoted t.chars (t.texts quoted)
  | .text run h, ho => Passes.run h.inside ho
  | .hole run h content rest, ho => by
    have hopen : Passes quoted ['$', '\x7b'] [] :=
      passes_marks quoted (.plain (by decide) (by decide) (.plain (by decide) (by decide) .nil)) (by decide)
    have hclose : Passes quoted ['\x7d'] [] :=
      passes_marks quoted (.plain (by decide) (by decide) .nil) (by decide)
    exact (Passes.run h.inside ho.1).append
      (hopen.append ((content.passes quoted ho.2.1).append (hclose.append (rest.passes quoted ho.2.2))))

/-- A substitution is read as its turns say. -/
theorem Content.passes (quoted : Bool) : ∀ c : Content, c.Alternates quoted →
    Passes quoted c.chars (c.texts quoted)
  | .nil, _ => passes_marks quoted .nil rfl
  | .char c h rest, ho => by
    have hc : Passes quoted [c] [(quoted, [c])] :=
      Passes.run (inside_neutral h) fun e => by rw [List.all_cons, ho.1 e]; rfl
    exact hc.forget.append (rest.passes quoted ho.2)
  | .braces inner rest, ho => by
    have hopen : Passes quoted ['\x7b'] [] :=
      passes_marks quoted (.plain (by decide) (by decide) .nil) (by decide)
    have hclose : Passes quoted ['\x7d'] [] :=
      passes_marks quoted (.plain (by decide) (by decide) .nil) (by decide)
    exact hopen.append ((inner.passes quoted ho.1).append (hclose.append (rest.passes quoted ho.2)))
  | .string quote body hq h rest, ho => (Passes.string hq h ho.1).append (rest.passes quoted ho.2)
  | .template t rest, ho => (t.passes (!quoted) ho.1).template.append (rest.passes quoted ho.2)

end

/-! ### What is left of a text -/

section

variable {before after cs : List Char} {ps : List Piece}

/-- The pieces between ordinary characters decide what is spelled there. -/
theorem spell_infix_minifyChars (hb : before.all isOrdinary = true) (ha : after.all isOrdinary = true)
    (hps : ∀ p ∈ ps, p.isTidy = true) (hc : ∀ rest, pieces (cs ++ rest) = ps ++ pieces rest)
    {us : List Token} (hu : us <:+: ps.map tokenOf) :
    spell none false us <:+: minifyChars (before ++ (cs ++ after)) := by
  have hpieces : pieces (before ++ (cs ++ after)) = before.map .code ++ (ps ++ after.map .code) := by
    rw [pieces_ordinary hb, hc, pieces_of_ordinary ha]
  have htidy : Tidy (before ++ (cs ++ after)) :=
    (Separate.chars hb).tidy_append (Separate.tidy_append ⟨ps, hps, hc⟩ (tidy_of_ordinary ha))
  rw [htidy.minifyChars_eq, hpieces, List.map_append, List.map_append]
  refine spell_infix (hu.trans ?_) none false
  rw [← List.append_assoc]
  exact List.infix_append _ _ _

/-- A text that shows in a literal is kept, and one that shows as code is minified. -/
theorem Shows.infix_minifyChars (hb : before.all isOrdinary = true) (ha : after.all isOrdinary = true)
    (hps : ∀ p ∈ ps, p.isTidy = true) (hc : ∀ rest, pieces (cs ++ rest) = ps ++ pieces rest)
    {r : Bool × List Char} (hr : Shows ps r) :
    (if r.1 then r.2 else minifyChars r.2) <:+: minifyChars (before ++ (cs ++ after)) := by
  cases hr with
  | @quoted run t ht hr =>
    have hitem : [Token.item (.literal t)] <:+: ps.map tokenOf := by
      obtain ⟨as, bs, rfl⟩ := List.append_of_mem ht
      refine ⟨as.map tokenOf, bs.map tokenOf, ?_⟩
      rw [List.map_append, List.map_cons, List.append_assoc]
      rfl
    have ht := spell_infix_minifyChars hb ha hps hc hitem
    rw [spell, spell, List.append_nil, Bool.false_and, if_neg Bool.false_ne_true] at ht
    exact hr.trans ht
  | @code run ho hr =>
    have hmap : run.map (fun c => tokenOf (.code c)) <:+: ps.map tokenOf := by
      have h := hr.map tokenOf
      rwa [List.map_map] at h
    have hrun := spell_infix_minifyChars hb ha hps hc hmap
    rwa [← minifyChars_of_ordinary ho] at hrun

end

end ModuleBundler.Minify

namespace ModuleBundler

open Minify

/-- **Templates are kept where they are seen.** Let a template stand between characters that open nothing. If it
has no backtick inside that is not escaped, it is kept whole. If there are templates within it, they are taken for
code and for literals by turns: as long as no string and no text upsets the turns, every text in a template at an
even depth is kept, and every text in a template at an odd depth comes to what it would come to as code. -/
theorem minify_template {before after : List Char} (hb : before.all isOrdinary = true)
    (ha : after.all isOrdinary = true) (t : Template) {source : String}
    (hs : source.toList = before ++ ('\x60' :: (t.chars ++ ['\x60']) ++ after)) :
    (Inside '\x60' t.chars → '\x60' :: (t.chars ++ ['\x60']) <:+: (minify source).toList) ∧
    (t.Alternates true → ∀ r ∈ t.texts true,
      (if r.1 then r.2 else minifyChars r.2) <:+: (minify source).toList) := by
  rw [minify, String.toList_ofList, hs]
  constructor
  · intro hi
    have hq : isQuote '\x60' = true := by decide
    have hc : ∀ rest, pieces ('\x60' :: (t.chars ++ ['\x60']) ++ rest) =
        [.literal ('\x60' :: (t.chars ++ ['\x60']))] ++ pieces rest := by
      intro rest
      have hclosed := pieces_literal hq hi rest
      simpa using hclosed
    exact Shows.infix_minifyChars hb ha (List.forall_mem_singleton.mpr (isTidy_literal hq hi)) hc
      (.quoted (List.mem_singleton_self _) List.infix_rfl)
  · intro ht r hr
    obtain ⟨ps, hps, hc, hshows⟩ : Passes false ('\x60' :: (t.chars ++ ['\x60'])) (t.texts true) :=
      @Passes.template false _ _ (t.passes true ht)
    exact (hshows r hr).infix_minifyChars hb ha hps hc

/-- A template with another one two levels down, whose texts look like comments. -/
def deepTemplate : Template :=
  .hole "  a // ".toList (stretch_of_all (by decide))
    (.string '\x22' "it's".toList (.inr rfl) (inside_of_all (by decide))
      (.char '+' (by decide)
        (.template
          (.hole "b".toList (stretch_of_all (by decide))
            (.string '\x27' ['\x60'] (.inl rfl) (inside_of_all (by decide))
              (.char ' ' (by decide)
                (.char '+' (by decide)
                  (.template (.text " /* c  */ ".toList (stretch_of_all (by decide))) .nil))))
            (.text "d".toList (stretch_of_all (by decide))))
          .nil)))
    (.text "  e".toList (stretch_of_all (by decide)))

/-- A template with a brace in a string of its substitution. -/
def flatTemplate : Template :=
  .hole "  ".toList (stretch_of_all (by decide))
    (.braces (.string '\x22' ['\x7d'] (.inr rfl) (inside_of_all (by decide)) .nil) .nil)
    (.text " // ".toList (stretch_of_all (by decide)))

theorem minify_template_deep :
    "`  $\x7b\x7b\"\x7d\"\x7d\x7d // `".toList <:+: (minify "f ( `  $\x7b\x7b\"\x7d\"\x7d\x7d // ` )").toList ∧
      minify "x = `  a // $\x7b\"it's\"+`b$\x7b'`' +` /* c  */ `\x7dd`\x7d  e` ;" =
        "x=`  a // $\x7b\"it's\"+`b$\x7b'`'+` /* c  */ `\x7dd`\x7d  e`;" ∧
      ∀ r ∈ deepTemplate.texts true, r.2 <:+:
        (minify "x = `  a // $\x7b\"it's\"+`b$\x7b'`' +` /* c  */ `\x7dd`\x7d  e` ;").toList := by
  have hinside : Inside '\x60' flatTemplate.chars := inside_of_all (by decide)
  have halternates : deepTemplate.Alternates true := by
    refine ⟨fun h => absurd h (by decide), ?_, fun h => absurd h (by decide)⟩
    refine ⟨fun _ => inside_of_all (by decide), fun h => absurd h (by decide), ?_, trivial⟩
    exact ⟨fun _ => by decide, ⟨fun h => absurd h (by decide), fun _ => by decide, fun _ => by decide,
      fun h => absurd h (by decide), trivial⟩, fun _ => by decide⟩
  have htexts : ∀ r ∈ deepTemplate.texts true, (if r.1 then r.2 else minifyChars r.2) = r.2 := by decide +kernel
  obtain ⟨hwhole, -⟩ := @minify_template "f ( ".toList " )".toList (by decide) (by decide) flatTemplate
    "f ( `  $\x7b\x7b\"\x7d\"\x7d\x7d // ` )" (by decide +kernel)
  obtain ⟨-, hturns⟩ := @minify_template "x = ".toList " ;".toList (by decide) (by decide) deepTemplate
    "x = `  a // $\x7b\"it's\"+`b$\x7b'`' +` /* c  */ `\x7dd`\x7d  e` ;" (by decide +kernel)
  refine ⟨hwhole hinside, by decide +kernel, fun r hr => ?_⟩
  rw [← htexts r hr]
  exact hturns halternates r hr

/-- A template within a template, with two spaces in its text. -/
def spacedTemplate : Template :=
  .hole "a ".toList (stretch_of_all (by decide))
    (.template (.text "b  c".toList (stretch_of_all (by decide))) .nil)
    (.text " d".toList (stretch_of_all (by decide)))

/-- The text of a template within a template is taken for code. -/
theorem minify_template_spaces :
    String.ofList ('\x60' :: (spacedTemplate.chars ++ ['\x60'])) = "`a $\x7b`b  c`\x7d d`" ∧
      "b  c".toList ∈ (spacedTemplate.texts true).map Prod.snd ∧
      minify "`a $\x7b`b  c`\x7d d`" = "`a $\x7b`b c`\x7d d`" ∧
      ¬ "b  c".toList <:+: (minify "`a $\x7b`b  c`\x7d d`").toList := by
  decide +kernel

end ModuleBundler
