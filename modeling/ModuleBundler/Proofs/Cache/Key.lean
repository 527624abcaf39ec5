import ModuleBundler.Cache.Key
import ModuleBundler.Proofs.Options.RoundTrip

/-!
# Cache keys tell requests apart

The bytes that a key is the digest of determine the entry and the options (`keyBytes_injective`). The
text of the options holds no zero byte, so the last zero byte is the one that stands between the two,
whatever the entry is. Two requests with one key are the same request unless their bytes collide.
-/

namespace ModuleBundler

namespace Digest

/-! ### Bytes of texts -/

/-- Different texts have different bytes. -/
theorem utf8_injective {a b : String} (h : utf8 a = utf8 b) : a = b := by
  have hbytes : ∀ s : String, s.toByteArray = (utf8 s).toByteArray := fun s => String.utf8Encode_toList.symm
  exact String.toByteArray_inj.mp (by rw [hbytes, hbytes, h])

/-- Only the null character has a zero byte. -/
theorem ne_zero_of_mem_utf8EncodeChar {c : Char} (hc : 0 < c.toNat) {b : UInt8}
    (hb : b ∈ String.utf8EncodeChar c) : b ≠ 0 := by
  obtain ⟨n, rfl, hpos, hlt⟩ : ∃ n, b = UInt8.ofNat n ∧ 0 < n ∧ n < 256 := by
    have hv : 0 < c.val.toNat := hc
    unfold String.utf8EncodeChar at hb
    extract_lets at hb
    split_ifs at hb with h₁ h₂ h₃
    · simp only [List.mem_singleton] at hb
      exact ⟨_, hb, hv, by omega⟩
    all_goals
      simp only [List.mem_cons, List.not_mem_nil, or_false] at hb
    · rcases hb with hb | hb <;> exact ⟨_, hb, by omega, by omega⟩
    · rcases hb with hb | hb | hb <;> exact ⟨_, hb, by omega, by omega⟩
    · rcases hb with hb | hb | hb | hb <;> exact ⟨_, hb, by omega, by omega⟩
  intro h
  have h := congrArg UInt8.toNat h
  rw [UInt8.toNat_ofNat', Nat.mod_eq_of_lt hlt] at h
  exact absurd h (by simpa using Nat.pos_iff_ne_zero.mp hpos)

theorem zero_notMem_utf8 {s : String} (h : Json.Plain s.toList) : 0 ∉ utf8 s := by
  intro h0
  obtain ⟨c, hc, hb⟩ := List.mem_flatMap.mp h0
  exact ne_zero_of_mem_utf8EncodeChar (Nat.lt_of_lt_of_le (by decide) (h c hc)) hb rfl

/-- Different bytes have different hexadecimal digits. -/
theorem hex_injective {as bs : List UInt8} (h : hex as = hex bs) : as = bs := by
  have h := congrArg (Text.bytesOfHex? ·.toList) h
  simpa [hex, Text.bytesOfHex?_hexOfBytes] using h

end Digest

/-! ### Keys -/

/-- The bytes of a key, with those of the options taken from their characters. -/
theorem keyBytes_eq (entry : Path) (options : Options) :
    keyBytes entry options =
      Digest.utf8 entry.text ++ 0 :: options.toJson.chars.flatMap String.utf8EncodeChar := by
  rw [keyBytes, Digest.utf8, Digest.utf8, Options.jsonText, Json.print, String.toList_ofList]

theorem zero_notMem_jsonText (options : Options) : 0 ∉ Digest.utf8 options.jsonText := by
  refine Digest.zero_notMem_utf8 ?_
  rw [Options.jsonText, Json.print, String.toList_ofList]
  exact Json.plain_chars _

/-- The last place of `a` in a text is found from what stands after it. -/
theorem eq_of_append_cons_eq {α : Type} {a : α} {as bs xs ys : List α} (hx : a ∉ xs) (hy : a ∉ ys)
    (h : as ++ a :: xs = bs ++ a :: ys) : as = bs ∧ xs = ys := by
  rcases List.append_eq_append_iff.mp h with ⟨c, rfl, hc⟩ | ⟨c, rfl, hc⟩
  · cases c with
    | nil => exact ⟨by simp, (List.cons.inj hc).2⟩
    | cons d c => exact absurd ((List.cons.inj hc).2 ▸ by simp) hx
  · cases c with
    | nil => exact ⟨by simp, (List.cons.inj hc).2.symm⟩
    | cons d c => exact absurd ((List.cons.inj hc).2 ▸ by simp) hy

/-- Paths of one text are one path. -/
theorem Path.text_injective : Function.Injective Path.text := by
  rintro ⟨a⟩ ⟨b⟩ h
  exact congrArg Path.mk h

/-- **The bytes of a key tell requests apart.** -/
theorem keyBytes_injective {entry other : Path} {options options' : Options}
    (h : keyBytes entry options = keyBytes other options') : entry = other ∧ options = options' := by
  obtain ⟨he, ho⟩ := eq_of_append_cons_eq (zero_notMem_jsonText options) (zero_notMem_jsonText options') h
  exact ⟨Path.text_injective (Digest.utf8_injective he), Options.jsonText_injective (Digest.utf8_injective ho)⟩

/-- Two keys are the same text if and only if the digests of their bytes are the same. -/
theorem cacheKey_eq_iff {entry other : Path} {options options' : Options} :
    cacheKey entry options = cacheKey other options' ↔
      Digest.bytes (keyBytes entry options) = Digest.bytes (keyBytes other options') :=
  ⟨Digest.hex_injective, congrArg Digest.hex⟩

/-- Two requests with one key are one request, unless the digests of their bytes collide. -/
theorem eq_of_cacheKey_eq {entry other : Path} {options options' : Options}
    (hc : Digest.bytes (keyBytes entry options) = Digest.bytes (keyBytes other options') →
      keyBytes entry options = keyBytes other options')
    (h : cacheKey entry options = cacheKey other options') : entry = other ∧ options = options' :=
  keyBytes_injective (hc (cacheKey_eq_iff.mp h))

/-- **What a key is the digest of is unambiguous.** Keys differ as the digests of their bytes do, and two requests have
the same bytes only if their entries are the same text, whatever characters it has, and their options agree in every
field: lists in length, order and each of their texts, and a root in its text or in its absence. -/
theorem keyBytes_eq_iff (entry other : Path) (options options' : Options) :
    (cacheKey entry options = cacheKey other options' ↔
      Digest.bytes (keyBytes entry options) = Digest.bytes (keyBytes other options')) ∧
    (keyBytes entry options = keyBytes other options' ↔
      entry.text = other.text ∧ options.extensions = options'.extensions ∧ options.maxDepth = options'.maxDepth ∧
        options.ignorePatterns = options'.ignorePatterns ∧ options.minify = options'.minify ∧
        options.comments = options'.comments ∧ options.target = options'.target ∧
        options.hydrate = options'.hydrate ∧ options.root.map Path.text = options'.root.map Path.text) := by
  refine ⟨cacheKey_eq_iff, fun h => ?_, ?_⟩
  · obtain ⟨rfl, rfl⟩ := keyBytes_injective h
    exact ⟨rfl, rfl, rfl, rfl, rfl, rfl, rfl, rfl, rfl⟩
  · rintro ⟨hentry, hextensions, hdepth, hpatterns, hminify, hcomments, htarget, hhydrate, hroot⟩
    have hoptions : options = options' := by
      cases options
      cases options'
      simp_all [(Option.map_injective Path.text_injective).eq_iff]
    rw [Path.text_injective hentry, hoptions]

end ModuleBundler
