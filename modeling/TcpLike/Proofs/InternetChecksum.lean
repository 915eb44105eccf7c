import TcpLike.Proofs.Checksum
import TcpLike.Lib.OnesComplement

/-!
# `generateChecksum` is the Internet checksum

The summing loop adds the words of the datagram without an overflow, 32768 words being less than
2^31, and taking 65535 off until the sum fits is folding it (`carryLoop_eq`).
-/

namespace TcpLike

open Finset OnesComplement

/-- The array that is summed: bytes 16 and 17 are word 8. -/
def summed (byteArray : Bytes) : Bytes := blank (padEven byteArray) 8

/-- The accumulator of the summing loop after `n` rounds. -/
def accumulator (byteArray : Bytes) (n : ℕ) : ℤ := sumLoop 0 ((summed byteArray).take (2 * n))

theorem sumLoop_eq :
    ∀ (n : ℕ) {bs : Bytes} {s : ℕ}, bs.length % 2 = 0 →
      s + ∑ k ∈ range n, word bs k < 2 ^ 31 →
        sumLoop s (bs.take (2 * n)) = ((s + ∑ k ∈ range n, word bs k : ℕ) : ℤ)
  | 0, bs, s, _, _ => by simp [sumLoop]
  | n + 1, [], s, _, _ => by simp [sumLoop]
  | n + 1, [x], s, he, _ => by simp at he
  | n + 1, x :: y :: bs, s, he, hlt => by
    rw [sum_range_succ'] at hlt ⊢
    simp only [word_cons_cons_zero, word_cons_cons_succ] at hlt ⊢
    have he' : bs.length % 2 = 0 := by
      rw [List.length_cons, List.length_cons] at he
      omega
    have ih := sumLoop_eq n (s := s + (x.toNat * 256 + y.toNat)) he' (by omega)
    have hstep : int32 (s + (x.toNat * 256 + y.toNat))
        = ((s + (x.toNat * 256 + y.toNat) : ℕ) : ℤ) := by
      rw [int32_of_lt (by omega) (by omega)]
      push_cast
      rfl
    rw [show 2 * (n + 1) = 2 * n + 1 + 1 by ring, List.take_succ_cons, List.take_succ_cons,
      sumLoop, hstep, ih]
    exact congrArg _ (by ring)

/-- The loop ends on the folded sum. -/
theorem carryLoop_eq :
    ∀ (fuel s : ℕ), s ≤ (fuel + 1) * 65535 → carryLoop fuel s = (fold 65536 s : ℤ)
  | 0, s, h => by rw [carryLoop, fold_of_lt (by omega)]
  | fuel + 1, s, h => by
    rw [carryLoop]
    split_ifs with hs
    · have hsub : (s : ℤ) - 65536 + 1 = ((s - (65536 - 1) : ℕ) : ℤ) := by omega
      rw [hsub, carryLoop_eq fuel _ (by omega), fold_sub (by norm_num) (by omega)]
    · rw [fold_of_lt (by omega)]

section Words

variable {d : Bytes}

theorem word_padEven (d : Bytes) (k : ℕ) : word (padEven d) k = word d k := by
  unfold padEven
  split_ifs
  · exact word_append_zero d k
  · rfl

theorem word_blank (d : Bytes) (j k : ℕ) :
    word (blank d k) j = if j = k then 0 else word d j := by
  split_ifs with h
  · rw [h, word_blank_self]
  · exact word_blank_of_ne d h

theorem word_summed (d : Bytes) (k : ℕ) : word (summed d) k = word (blank d 8) k := by
  rw [summed, word_blank, word_blank, word_padEven]

theorem wordSum_summed (d : Bytes) : wordSum (summed d) = wordSum (blank d 8) := by
  refine wordSum_congr ?_ (word_summed d)
  rw [summed, length_blank, length_blank, padEven]
  split_ifs
  · rw [List.length_append, List.length_singleton]
    omega
  · rfl

theorem wordSum_lt (h : d.length ≤ 65536) : wordSum (blank d 8) < 2 ^ 31 := by
  have := wordSum_le (blank d 8)
  rw [length_blank] at this
  omega

theorem even_length_summed (d : Bytes) : (summed d).length % 2 = 0 := by
  rw [summed, length_blank, even_length_padEven]

theorem accumulator_eq (h : d.length ≤ 65536) (n : ℕ) :
    ∑ k ∈ range n, word (blank d 8) k < 2 ^ 31 ∧
      accumulator d n = ((∑ k ∈ range n, word (blank d 8) k : ℕ) : ℤ) := by
  have hlt : ∑ k ∈ range n, word (blank d 8) k < 2 ^ 31 :=
    (sum_word_le _ n).trans_lt (wordSum_lt h)
  have hsum : ∑ k ∈ range n, word (summed d) k = ∑ k ∈ range n, word (blank d 8) k :=
    sum_congr rfl fun k _ => word_summed d k
  refine ⟨hlt, ?_⟩
  have := sumLoop_eq n (s := 0) (even_length_summed d) (by omega)
  rwa [zero_add, hsum] at this

theorem sumLoop_summed (h : d.length ≤ 65536) :
    sumLoop 0 (summed d) = (wordSum (blank d 8) : ℤ) := by
  have he := even_length_summed d
  obtain ⟨-, hacc⟩ := accumulator_eq h (((summed d).length + 1) / 2)
  rw [accumulator, List.take_of_length_le (by omega)] at hacc
  rw [hacc, ← wordSum_summed, wordSum]
  exact congrArg _ (sum_congr rfl fun k _ => (word_summed d k).symm)

theorem generateChecksum_fold (hl : 17 ≤ d.length) (h : d.length ≤ 65536) :
    generateChecksum d = .ok (65535 - (fold 65536 (wordSum (blank d 8)) : ℤ)) := by
  have he := even_length_padEven d
  have hpad := length_padEven d
  have hsum : sumLoop 0 (((padEven d).set 16 0).set 17 0) = (wordSum (blank d 8) : ℤ) :=
    sumLoop_summed h
  have hfold := fold_lt (b := 65536) (by norm_num) (wordSum (blank d 8))
  unfold generateChecksum
  simp only []
  rw [if_neg (by omega), hsum, Int.toNat_natCast, carryLoop_eq _ _ (by omega)]
  congr 1
  omega

/-- The checksum of RFC 1071, with the checksum field taken as zero: no round overflows, the carry
loop ends, and the result is the complement of the folded sum. -/
theorem generateChecksum_eq (hl : 17 ≤ d.length) (h : d.length ≤ 65536) :
    (∀ n, ∑ k ∈ range n, word (blank d 8) k < 2 ^ 31 ∧
      accumulator d n = ((∑ k ∈ range n, word (blank d 8) k : ℕ) : ℤ)) ∧
    carryLoop (sumLoop 0 (summed d)).toNat (sumLoop 0 (summed d)) ≤ 65535 ∧
    generateChecksum d = .ok (65535 - (fold 65536 (wordSum (blank d 8)) : ℤ)) ∧
    fold 65536 (wordSum (blank d 8)) ≤ 65535 ∧
    ∀ x y, generateChecksum ((d.set 16 x).set 17 y) = generateChecksum d := by
  have hfold := fold_lt (b := 65536) (by norm_num) (wordSum (blank d 8))
  refine ⟨accumulator_eq h, ?_, generateChecksum_fold hl h, by omega, fun x y => ?_⟩
  · rw [sumLoop_summed h, Int.toNat_natCast, carryLoop_eq _ _ (by omega)]
    omega
  · have hblank : blank ((d.set 16 x).set 17 y) 8 = blank d 8 := by
      have hcomm : (((d.set 16 x).set 17 y).set 16 0) = (d.set 16 0).set 17 y := by
        rw [List.set_comm _ _ (by norm_num), List.set_set]
      rw [blank, hcomm, List.set_set, blank]
    rw [generateChecksum_fold (by simpa using hl) (by simpa using h), hblank,
      generateChecksum_fold hl h]

theorem generateChecksum_ones :
    generateChecksum (List.replicate 17 255)
      = .ok (65535 - (fold 65536 (wordSum (blank (List.replicate 17 255) 8)) : ℤ)) :=
  (generateChecksum_eq (by decide) (by decide)).2.2.1

end Words

end TcpLike
