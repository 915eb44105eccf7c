import TcpLike.Packet
import TcpLike.Lib.BigEndian

/-!
# What the field decoders compute

The binary texts of the bytes, put one after the other, spell their big-endian number, so a decoder
returns that number if it is an `int`, and throws otherwise (`decodeField_range`). The decimal
detour of each byte changes nothing, as it stays within eight digits.
-/

namespace TcpLike

theorem parseDigits_append (radix : ℕ) :
    ∀ (s t : List Char) (n : ℕ),
      parseDigits radix n (s ++ t) = (parseDigits radix n s).bind (parseDigits radix · t)
  | [], t, n => rfl
  | c :: s, t, n => by
    simp only [List.cons_append, parseDigits]
    split
    · exact parseDigits_append radix s t _
    · rfl

theorem parseDigits_from (radix : ℕ) :
    ∀ (s : List Char) (n : ℕ),
      parseDigits radix n s = (parseDigits radix 0 s).map (n * radix ^ s.length + ·)
  | [], n => by simp [parseDigits]
  | c :: s, n => by
    simp only [parseDigits]
    split
    · rename_i d _
      rw [parseDigits_from radix s (n * radix + d), parseDigits_from radix s (0 * radix + d),
        Option.map_map]
      congr 1
      funext m
      simp only [Function.comp_apply, List.length_cons, pow_succ]
      ring
    · rfl

/-- A fact about every byte, checked by its number. -/
theorem of_byte_table {p : ℕ → UInt8 → Prop} (h : ∀ n < 256, p n (UInt8.ofNat n)) (b : UInt8) :
    p b.toNat b := by
  have := h b.toNat b.toNat_lt
  rwa [UInt8.ofNat_toNat] at this

/-- The text of a byte has eight binary digits, which spell it. -/
theorem binary8_table :
    ∀ n < 256, parseDigits 2 0 (binary8 (UInt8.ofNat n)) = some n ∧
      (binary8 (UInt8.ofNat n)).length = 8 ∧
      (binary8 (UInt8.ofNat n)).head? ≠ some '-' ∧ (binary8 (UInt8.ofNat n)).head? ≠ some '+' := by
  decide +kernel

theorem binary8_spec (b : UInt8) :
    parseDigits 2 0 (binary8 b) = some b.toNat ∧ (binary8 b).length = 8 ∧
      (binary8 b).head? ≠ some '-' ∧ (binary8 b).head? ≠ some '+' :=
  of_byte_table (p := fun n b => parseDigits 2 0 (binary8 b) = some n ∧ (binary8 b).length = 8 ∧
    (binary8 b).head? ≠ some '-' ∧ (binary8 b).head? ≠ some '+') binary8_table b

theorem parseDigits_binary8 (b : UInt8) (n : ℕ) :
    parseDigits 2 n (binary8 b) = some (n * 256 + b.toNat) := by
  obtain ⟨hv, hl, -⟩ := binary8_spec b
  rw [parseDigits_from, hv, hl]
  rfl

theorem parseDigits_flatMap :
    ∀ (bs : Bytes) (n : ℕ),
      parseDigits 2 n (bs.flatMap binary8) = some (BigEndian.readFrom n bs)
  | [], n => rfl
  | b :: bs, n => by
    rw [List.flatMap_cons, parseDigits_append, parseDigits_binary8]
    exact parseDigits_flatMap bs _

/-- A field as an `int`: its top bit makes it throw. -/
def ofField (v : ℕ) : Java ℤ := if v < 2 ^ 31 then .ok v else .error .numberFormat

theorem ofField_of_lt {v : ℕ} (h : v < 2 ^ 31) : ofField v = .ok v := if_pos h

theorem ofField_of_not_lt {v : ℕ} (h : ¬ v < 2 ^ 31) : ofField v = .error .numberFormat :=
  if_neg h

theorem ofField_eq_ok {v : ℕ} {x : ℤ} : ofField v = .ok x ↔ v < 2 ^ 31 ∧ x = v := by
  by_cases h : v < 2 ^ 31
  · rw [ofField_of_lt h, Except.ok.injEq, eq_comm]
    exact (and_iff_right h).symm
  · rw [ofField, if_neg h]
    exact ⟨fun hx => (nomatch hx), fun hx => absurd hx.1 h⟩

theorem signedDigits_unsigned {c : Char} {s : List Char} (radix : ℕ) (hm : c ≠ '-')
    (hp : c ≠ '+') :
    signedDigits radix (c :: s) = (parseDigits radix 0 (c :: s)).map fun n : ℕ => (n : ℤ) := by
  unfold signedDigits
  split <;> simp_all

theorem parseInt_unsigned {c : Char} {s : List Char} {radix n : ℕ} (hm : c ≠ '-') (hp : c ≠ '+')
    (h : parseDigits radix 0 (c :: s) = some n) : parseInt (c :: s) radix = ofField n := by
  unfold parseInt ofField
  rw [signedDigits_unsigned radix hm hp, h]
  simp only [Option.map_some]
  refine if_congr ?_ rfl rfl
  omega

theorem parseInt_flatMap {bs : Bytes} (h : bs ≠ []) :
    parseInt (bs.flatMap binary8) 2 = ofField (BigEndian.value bs) := by
  have hd := parseDigits_flatMap bs 0
  obtain ⟨b, bs, rfl⟩ := List.exists_cons_of_ne_nil h
  obtain ⟨-, hl, hm, hp⟩ := binary8_spec b
  rcases hb : binary8 b with _ | ⟨c, t⟩
  · rw [hb] at hl
    simp at hl
  · rw [List.flatMap_cons, hb, List.cons_append] at hd ⊢
    rw [hb, List.head?_cons, Ne, Option.some.injEq] at hm hp
    exact parseInt_unsigned hm hp hd

theorem getByte_of_lt {d : Bytes} {i : ℕ} (h : i < d.length) : getByte d i = .ok d[i] := by
  simp [getByte, h]

theorem mapM_getByte (d : Bytes) :
    ∀ (n i : ℕ), i + n ≤ d.length →
      (List.range' i n).mapM (getByte d) = .ok ((d.drop i).take n)
  | 0, i, _ => by simp
  | n + 1, i, h => by
    have hi : i < d.length := by omega
    rw [List.range'_succ, List.mapM_cons, getByte_of_lt hi, mapM_getByte d n (i + 1) (by omega),
      List.drop_eq_getElem_cons hi]
    rfl

theorem length_of_getByte {d : Bytes} {i : ℕ} {b : UInt8} (h : getByte d i = .ok b) :
    i < d.length := by
  unfold getByte at h
  split at h
  · rename_i hb
    exact (List.getElem?_eq_some_iff.1 hb).1
  · cases h

theorem length_of_mapM_getByte {d : Bytes} :
    ∀ (n i : ℕ) {bs : Bytes}, (List.range' i (n + 1)).mapM (getByte d) = .ok bs →
      i + (n + 1) ≤ d.length
  | 0, i, bs, h => by
    rw [List.range'_succ, List.mapM_cons, java_bind_eq_ok] at h
    obtain ⟨b, hb, -⟩ := h
    have := length_of_getByte hb
    omega
  | n + 1, i, bs, h => by
    rw [List.range'_succ, List.mapM_cons, java_bind_eq_ok] at h
    obtain ⟨b, -, h⟩ := h
    rw [java_bind_eq_ok] at h
    obtain ⟨bs', hbs, -⟩ := h
    have := length_of_mapM_getByte n (i + 1) hbs
    omega

/-- A decoder returns the big-endian number of its bytes, if that is an `int`. -/
theorem decodeField_range {d : Bytes} {i n : ℕ} (hn : 0 < n) (h : i + n ≤ d.length) :
    decodeField d (List.range' i n) = ofField (BigEndian.value ((d.drop i).take n)) := by
  have hne : (d.drop i).take n ≠ [] := by
    intro h0
    have := congrArg List.length h0
    simp only [List.length_take, List.length_drop, List.length_nil] at this
    omega
  unfold decodeField
  rw [mapM_getByte d n i h]
  exact parseInt_flatMap hne

theorem length_of_decodeField {d : Bytes} {i n : ℕ} {v : ℤ}
    (h : decodeField d (List.range' i (n + 1)) = .ok v) : i + (n + 1) ≤ d.length := by
  unfold decodeField at h
  rw [java_bind_eq_ok] at h
  obtain ⟨bs, hbs, -⟩ := h
  exact length_of_mapM_getByte n i hbs

end TcpLike
