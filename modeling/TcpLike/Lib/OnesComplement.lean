import Mathlib.Algebra.BigOperators.Intervals
import Mathlib.Algebra.Group.Action.Defs
import Mathlib.Algebra.Order.BigOperators.Group.Finset
import Mathlib.Algebra.Order.Ring.Nat
import Mathlib.Data.List.GetD
import Mathlib.Data.Nat.ModEq
import Mathlib.Tactic.Ring

/-!
# One's-complement sums

A sum in base `b` with end-around carry: what is carried out at the top is added at the bottom. The
result is the number below `b` that agrees with the sum modulo `b - 1`, and is zero for the sum zero
only (`eq_fold`), so it tells apart any two words but the two zeros, 0 and `b - 1`
(`modEq_cases`). Behind it, the 16-bit words of a string of bytes and how a change of one of them
shows in their sum.
-/

namespace OnesComplement

open Finset

section Fold

variable {b s : ℕ}

theorem div_add_mod_lt (hb : 2 ≤ b) (hs : b ≤ s) : s / b + s % b < s := by
  have hq : 0 < s / b := Nat.div_pos hs (by omega)
  have hlt : s / b < b * (s / b) := lt_mul_of_one_lt_left hq (by omega)
  have := Nat.div_add_mod s b
  omega

/-- The high part of `s` added to its low part, until there is no high part left. -/
def fold (b s : ℕ) : ℕ := if 2 ≤ b ∧ b ≤ s then fold b (s / b + s % b) else s
termination_by s
decreasing_by
  rename_i h
  exact div_add_mod_lt h.1 h.2

theorem fold_lt (hb : 2 ≤ b) (s : ℕ) : fold b s < b := by
  fun_induction fold b s with
  | case1 s h ih => exact ih
  | case2 s h => omega

theorem div_add_mod_modEq (hb : 2 ≤ b) (s : ℕ) : s / b + s % b ≡ s [MOD b - 1] := by
  have h1 : 1 ≡ b [MOD b - 1] := (Nat.modEq_iff_dvd' (by omega)).2 dvd_rfl
  have h := (h1.mul_right (s / b)).add_right (s % b)
  rwa [one_mul, Nat.div_add_mod] at h

theorem fold_modEq (b s : ℕ) : fold b s ≡ s [MOD b - 1] := by
  fun_induction fold b s with
  | case1 s h ih => exact ih.trans (div_add_mod_modEq h.1 s)
  | case2 s h => rfl

theorem fold_eq_zero : fold b s = 0 ↔ s = 0 := by
  fun_induction fold b s with
  | case1 s h ih =>
    have hq : 0 < s / b := Nat.div_pos h.2 (by omega)
    rw [ih]
    omega
  | case2 s h => rfl

/-- Below `b`, only the two zeros agree modulo `b - 1`. -/
theorem modEq_cases {x y : ℕ} (hx : x < b) (hy : y < b) (h : x ≡ y [MOD b - 1]) :
    x = y ∨ (x = 0 ∧ y = b - 1) ∨ (x = b - 1 ∧ y = 0) := by
  rcases lt_trichotomy x y with hlt | heq | hlt
  · have := Nat.le_of_dvd (by omega) ((Nat.modEq_iff_dvd' hlt.le).1 h)
    omega
  · exact .inl heq
  · have := Nat.le_of_dvd (by omega) ((Nat.modEq_iff_dvd' hlt.le).1 h.symm)
    omega

/-- However the carries were taken in, the result is the folded sum. -/
theorem eq_fold (hb : 2 ≤ b) {r : ℕ} (hr : r < b) (hm : r ≡ s [MOD b - 1])
    (h0 : r = 0 ↔ s = 0) : r = fold b s := by
  have hz : fold b s = 0 ↔ s = 0 := fold_eq_zero
  rcases modEq_cases hr (fold_lt hb s) (hm.trans (fold_modEq b s).symm) with h | h | h <;> omega

theorem fold_of_lt (h : s < b) : fold b s = s := by
  rw [fold, if_neg (by omega)]

/-- Taking `b - 1` off a sum that does not fit takes in one carry. -/
theorem fold_sub (hb : 2 ≤ b) (h : b ≤ s) : fold b (s - (b - 1)) = fold b s := by
  have hmod : s - (b - 1) ≡ s [MOD b - 1] := by
    refine (Nat.modEq_iff_dvd' (by omega)).2 ?_
    rw [show s - (s - (b - 1)) = b - 1 by omega]
  have hz : fold b (s - (b - 1)) = 0 ↔ s - (b - 1) = 0 := fold_eq_zero
  exact eq_fold hb (fold_lt hb _) ((fold_modEq b _).trans hmod) (by omega)

theorem modEq_of_fold_eq {s' : ℕ} (h : fold b s = fold b s') : s ≡ s' [MOD b - 1] :=
  (fold_modEq b s).symm.trans (h ▸ fold_modEq b s')

end Fold

/-! ## Words -/

/-- Word `k`, most significant byte first. Past its end a string reads as zeros. -/
def word (bs : List UInt8) (k : ℕ) : ℕ :=
  (bs.getD (2 * k) 0).toNat * 256 + (bs.getD (2 * k + 1) 0).toNat

/-- The sum of the words, an odd last byte padded with a zero byte. -/
def wordSum (bs : List UInt8) : ℕ := ∑ k ∈ range ((bs.length + 1) / 2), word bs k

variable {bs bs' : List UInt8} {k : ℕ}

theorem word_lt (bs : List UInt8) (k : ℕ) : word bs k < 65536 := by
  have h1 := (bs.getD (2 * k) 0).toNat_lt
  have h2 := (bs.getD (2 * k + 1) 0).toNat_lt
  unfold word
  omega

@[simp] theorem word_nil (k : ℕ) : word [] k = 0 := by simp [word]

@[simp] theorem word_cons_cons_zero (x y : UInt8) :
    word (x :: y :: bs) 0 = x.toNat * 256 + y.toNat := by
  simp [word]

@[simp] theorem word_cons_cons_succ (x y : UInt8) (k : ℕ) :
    word (x :: y :: bs) (k + 1) = word bs k := by
  simp [word, mul_add]

theorem lt_of_word_ne_zero (h : word bs k ≠ 0) : k < (bs.length + 1) / 2 := by
  by_contra hk
  refine h ?_
  rw [word, List.getD_eq_default _ _ (by omega), List.getD_eq_default _ _ (by omega)]
  rfl

theorem sum_word_le (bs : List UInt8) (n : ℕ) : ∑ k ∈ range n, word bs k ≤ wordSum bs :=
  sum_le_sum_of_ne_zero fun _ _ h => mem_range.2 (lt_of_word_ne_zero h)

theorem wordSum_le (bs : List UInt8) : wordSum bs ≤ (bs.length + 1) / 2 * 65535 := by
  have h := sum_le_card_nsmul (range ((bs.length + 1) / 2)) (word bs) 65535
    fun k _ => Nat.le_of_lt_succ (word_lt bs k)
  rwa [card_range, smul_eq_mul] at h

theorem word_congr (h : ∀ i, i / 2 = k → bs[i]? = bs'[i]?) : word bs k = word bs' k := by
  simp only [word, List.getD_eq_getElem?_getD]
  rw [h (2 * k) (by omega), h (2 * k + 1) (by omega)]

theorem word_append_zero (bs : List UInt8) (k : ℕ) : word (bs ++ [0]) k = word bs k := by
  have key : ∀ i, (bs ++ [0]).getD i 0 = bs.getD i 0 := by
    intro i
    rcases lt_or_ge i bs.length with h | h
    · rw [List.getD_append _ _ _ _ h]
    · rw [List.getD_append_right _ _ _ _ h, List.getD_eq_default _ _ h]
      rcases i - bs.length with _ | j <;> simp
  rw [word, key, key, word]

/-- The string with word `k` blanked. -/
def blank (bs : List UInt8) (k : ℕ) : List UInt8 := (bs.set (2 * k) 0).set (2 * k + 1) 0

@[simp] theorem length_blank (bs : List UInt8) (k : ℕ) : (blank bs k).length = bs.length := by
  simp [blank]

theorem word_blank_self (bs : List UInt8) (k : ℕ) : word (blank bs k) k = 0 := by
  have hset : ∀ (bs : List UInt8) (i : ℕ), (bs.set i 0)[i]?.getD 0 = 0 := by
    intro bs i
    rw [List.getElem?_set_self']
    rcases bs[i]? with _ | x <;> rfl
  have h0 : (blank bs k).getD (2 * k) 0 = 0 := by
    rw [blank, List.getD_eq_getElem?_getD, List.getElem?_set_ne (by omega), hset]
  have h1 : (blank bs k).getD (2 * k + 1) 0 = 0 := by
    rw [blank, List.getD_eq_getElem?_getD, hset]
  rw [word, h0, h1]
  rfl

theorem word_blank_of_ne (bs : List UInt8) {j : ℕ} (h : j ≠ k) :
    word (blank bs k) j = word bs j := by
  refine word_congr fun i hi => ?_
  rw [blank, List.getElem?_set_ne (by omega), List.getElem?_set_ne (by omega)]

/-- A change of one word changes the sum by the difference. -/
theorem wordSum_add_word (hl : bs'.length = bs.length) (hk : k < (bs.length + 1) / 2)
    (h : ∀ j, j ≠ k → word bs' j = word bs j) :
    wordSum bs' + word bs k = wordSum bs + word bs' k := by
  have hmem : k ∈ range ((bs.length + 1) / 2) := mem_range.2 hk
  have hrest : ∑ j ∈ (range ((bs.length + 1) / 2)).erase k, word bs' j
      = ∑ j ∈ (range ((bs.length + 1) / 2)).erase k, word bs j :=
    sum_congr rfl fun j hj => h j (ne_of_mem_erase hj)
  rw [wordSum, wordSum, hl, ← add_sum_erase _ _ hmem, ← add_sum_erase _ (word bs) hmem, hrest]
  ring

theorem wordSum_congr (hl : (bs'.length + 1) / 2 = (bs.length + 1) / 2)
    (h : ∀ j, word bs' j = word bs j) : wordSum bs' = wordSum bs := by
  rw [wordSum, wordSum, hl]
  exact sum_congr rfl fun j _ => h j

/-- The words spell the string. -/
theorem eq_of_word_eq (hl : bs'.length = bs.length) (h : ∀ j, word bs' j = word bs j) :
    bs' = bs := by
  refine List.ext_getElem? fun i => ?_
  have hbyte : bs'.getD i 0 = bs.getD i 0 := by
    have hw := h (i / 2)
    have h1 := (bs.getD (2 * (i / 2) + 1) 0).toNat_lt
    have h2 := (bs'.getD (2 * (i / 2) + 1) 0).toNat_lt
    unfold word at hw
    rcases Nat.mod_two_eq_zero_or_one i with he | ho
    · rw [← UInt8.toNat_inj, show i = 2 * (i / 2) by omega]
      omega
    · rw [← UInt8.toNat_inj, show i = 2 * (i / 2) + 1 by omega]
      omega
  rcases lt_or_ge i bs.length with hi | hi
  · rw [List.getD_eq_getElem _ _ (by omega), List.getD_eq_getElem _ _ hi] at hbyte
    rw [List.getElem?_eq_getElem (by omega), List.getElem?_eq_getElem hi, hbyte]
  · rw [List.getElem?_eq_none (by omega), List.getElem?_eq_none hi]

end OnesComplement
