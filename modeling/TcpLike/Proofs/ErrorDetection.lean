import TcpLike.Proofs.InternetChecksum
import TcpLike.Proofs.ReceiverStep

/-!
# Errors the checksum detects

A datagram altered within one of its words fails the receiver's test (`altered_refused`): a change
of the checksum field leaves the sum, a change of any other word moves the sum within its class
modulo 65535 only from one zero to the other.
-/

namespace TcpLike

open OnesComplement

/-- `d'` is `d` altered within word `k`, and not from 0x0000 to 0xFFFF or back. -/
structure AltersWord (d d' : Bytes) (k : ℕ) : Prop where
  length : d'.length = d.length
  ne : d' ≠ d
  others : ∀ i, i / 2 ≠ k → d'[i]? = d[i]?
  zeros : ¬ (word d k = 0 ∧ word d' k = 65535)
  ones : ¬ (word d k = 65535 ∧ word d' k = 0)

/-- The two checksums the receiver compares, of the datagram received into `p`. -/
structure Compares (p : DatagramPacket) (d : Bytes) (test_1 test_2 : ℤ) : Prop where
  inHeader : getCheckSum (p.receive d) = .ok test_1
  taken : (copyOfRange (p.receive d).data 0 (p.receive d).length >>= generateChecksum) = .ok test_2

def PassesTest (p : DatagramPacket) (d : Bytes) : Prop := ∃ test, Compares p d test test

def FailsTest (p : DatagramPacket) (d : Bytes) : Prop :=
  ∃ test_1 test_2, Compares p d test_1 test_2 ∧ test_1 ≠ test_2

/-- The datagram with bit `j` of byte `i` inverted. -/
def flipBit (d : Bytes) (i j : ℕ) : Bytes := d.set i (d.getD i 0 ^^^ UInt8.ofNat (2 ^ j))

theorem checksumField_eq_word {d : Bytes} (h : 18 ≤ d.length) : checksumField d = word d 8 := by
  rw [checksumField, field_succ (by omega), field_succ (by omega), field_zero, zero_mul, zero_add]
  rfl

section Altered

variable {d d' : Bytes} {k : ℕ}

theorem AltersWord.word_of_ne (h : AltersWord d d' k) {j : ℕ} (hj : j ≠ k) :
    word d' j = word d j :=
  word_congr fun i hi => h.others i (by omega)

theorem AltersWord.word_ne (h : AltersWord d d' k) : word d' k ≠ word d k := by
  intro he
  refine h.ne (eq_of_word_eq h.length fun j => ?_)
  by_cases hj : j = k
  · rw [hj, he]
  · exact h.word_of_ne hj

theorem AltersWord.lt (h : AltersWord d d' k) : k < (d.length + 1) / 2 := by
  by_contra hk
  have h0 : word d k = 0 := by
    by_contra h0
    exact hk (lt_of_word_ne_zero h0)
  have h0' : word d' k = 0 := by
    by_contra h0'
    exact hk (h.length ▸ lt_of_word_ne_zero h0')
  exact h.word_ne (h0'.trans h0.symm)

/-- The words of an altered datagram do not agree modulo 65535. -/
theorem AltersWord.not_modEq (h : AltersWord d d' k) : ¬ word d k ≡ word d' k [MOD 65535] := by
  intro hm
  rcases modEq_cases (word_lt d k) (word_lt d' k) hm with he | hz | ho
  · exact h.word_ne he.symm
  · exact h.zeros hz
  · exact h.ones ho

/-- An alteration outside the checksum field alters the folded sum. -/
theorem AltersWord.fold_ne (h : AltersWord d d' k) (hk : k ≠ 8) :
    fold 65536 (wordSum (blank d' 8)) ≠ fold 65536 (wordSum (blank d 8)) := by
  intro he
  have hsum : wordSum (blank d' 8) + word d k = wordSum (blank d 8) + word d' k := by
    have hadd : wordSum (blank d' 8) + word (blank d 8) k
        = wordSum (blank d 8) + word (blank d' 8) k := by
      refine wordSum_add_word (by rw [length_blank, length_blank, h.length]) ?_ ?_
      · rw [length_blank]
        exact h.lt
      · intro j hj
        rw [word_blank, word_blank, h.word_of_ne hj]
    rwa [word_blank_of_ne d hk, word_blank_of_ne d' hk] at hadd
  have hmod : wordSum (blank d' 8) ≡ wordSum (blank d 8) [MOD 65535] := modEq_of_fold_eq he
  have hadd : wordSum (blank d' 8) + word d k ≡ wordSum (blank d 8) + word d' k [MOD 65535] := by
    rw [hsum]
  exact h.not_modEq (hmod.add_left_cancel hadd)

/-- An alteration of the checksum field leaves the sum as it is. -/
theorem AltersWord.wordSum_blank (h : AltersWord d d' 8) :
    wordSum (blank d' 8) = wordSum (blank d 8) := by
  refine wordSum_congr (by rw [length_blank, length_blank, h.length]) fun j => ?_
  rw [word_blank, word_blank]
  split_ifs with hj
  · rfl
  · exact h.word_of_ne hj

/-- A datagram whose checksum is right has a wrong one behind an alteration. -/
theorem AltersWord.checksum_ne (h : AltersWord d d' k) (hl : 18 ≤ d.length)
    (hl' : d.length ≤ 65536) (hd : generateChecksum d = .ok (checksumField d : ℤ)) :
    generateChecksum d' ≠ .ok (checksumField d' : ℤ) := by
  have hlen := h.length
  intro hd'
  rw [generateChecksum_fold (by omega) (by omega), Except.ok.injEq,
    checksumField_eq_word (by omega)] at hd hd'
  by_cases hk : k = 8
  · subst hk
    have hne := h.word_ne
    rw [h.wordSum_blank] at hd'
    omega
  · have hne := h.fold_ne hk
    rw [h.word_of_ne (Ne.symm hk)] at hd'
    omega

theorem compares_iff {p : DatagramPacket} (hp : d.length ≤ p.data.length) (hl : 18 ≤ d.length)
    {test_1 test_2 : ℤ} : Compares p d test_1 test_2 ↔
      (checksumField d : ℤ) = test_1 ∧ generateChecksum d = .ok test_2 := by
  have hck : checksumField (p.receive d).data = checksumField d :=
    field_congr (take_receive hl (by omega)) (by omega)
  have h1 : getCheckSum (p.receive d) = .ok (checksumField d : ℤ) := by
    rw [getCheckSum_eq (by rw [length_receive]; omega), hck]
  have h2 : (copyOfRange (p.receive d).data 0 (p.receive d).length >>= generateChecksum)
      = generateChecksum d := by
    rw [copyOfRange_start (p.receive d).length_le, take_length_receive hp, java_ok_bind]
  constructor
  · rintro ⟨ht1, ht2⟩
    rw [h1, Except.ok.injEq] at ht1
    exact ⟨ht1, h2 ▸ ht2⟩
  · rintro ⟨ht1, ht2⟩
    exact ⟨ht1 ▸ h1, h2 ▸ ht2⟩

theorem failsTest_of_ne {p : DatagramPacket} (hp : d.length ≤ p.data.length) (hl : 18 ≤ d.length)
    (hne : generateChecksum d ≠ .ok (checksumField d : ℤ)) : FailsTest p d := by
  obtain ⟨k, hk⟩ := generateChecksum_ok (d := d) (by omega)
  refine ⟨_, k, (compares_iff hp hl).2 ⟨rfl, hk⟩, fun he => hne ?_⟩
  rw [hk, he]

/-- Another byte in one place alters one word, and the word's other byte keeps it from going all the
way from one zero to the other. -/
theorem altersWord_set {i : ℕ} {x : UInt8} (hi : i < d.length) (hx : x ≠ d.getD i 0) :
    AltersWord d (d.set i x) (i / 2) := by
  have hself : (d.set i x).getD i 0 = x := by
    rw [List.getD_eq_getElem _ _ (by simpa using hi), List.getElem_set_self]
  have hother : ∀ j, j ≠ i → (d.set i x).getD j 0 = d.getD j 0 := by
    intro j hj
    rw [List.getD_eq_getElem?_getD, List.getElem?_set_ne (Ne.symm hj),
      List.getD_eq_getElem?_getD]
  have hk : 2 * (i / 2) ≠ i ∨ 2 * (i / 2) + 1 ≠ i := by omega
  have h1 := (d.getD (2 * (i / 2)) 0).toNat_lt
  have h2 := (d.getD (2 * (i / 2) + 1) 0).toNat_lt
  have h3 := ((d.set i x).getD (2 * (i / 2)) 0).toNat_lt
  have h4 := ((d.set i x).getD (2 * (i / 2) + 1) 0).toNat_lt
  refine ⟨List.length_set, fun he => hx ?_, fun j hj => ?_, ?_, ?_⟩
  · rw [← hself, he]
  · exact List.getElem?_set_ne (by intro h; omega)
  · rintro ⟨hz, ho⟩
    unfold word at hz ho
    rcases hk with hk | hk <;> rw [hother _ hk] at ho <;> omega
  · rintro ⟨ho, hz⟩
    unfold word at hz ho
    rcases hk with hk | hk <;> rw [hother _ hk] at hz <;> omega

theorem flip_ne (x : UInt8) {j : ℕ} (hj : j < 8) : x ^^^ UInt8.ofNat (2 ^ j) ≠ x := by
  intro he
  have hbit : ∀ j < 8, UInt8.ofNat (2 ^ j) ≠ 0 := by decide
  have h0 : x ^^^ UInt8.ofNat (2 ^ j) = x ^^^ 0 := by rw [he, UInt8.xor_zero]
  exact hbit j hj ((UInt8.xor_right_inj x).1 h0)

end Altered

section Sent

variable {sp dp seq ack off fl win ck urg size sum : ℤ} {data : Bytes}

/-- A datagram the sender has put its checksum into is right. -/
theorem checksum_sent
    (h : generateChecksum (byteMerge (tcpHeader sp dp seq ack off fl win ck urg size) data)
      = .ok sum) :
    generateChecksum (byteMerge (tcpHeader sp dp seq ack off fl win sum urg size) data)
      = .ok (checksumField
          (byteMerge (tcpHeader sp dp seq ack off fl win sum urg size) data) : ℤ) := by
  obtain ⟨h0, h1⟩ := generateChecksum_range h
  have htake : (byteMerge (tcpHeader sp dp seq ack off fl win sum urg size) data).take 24
      = tcpHeader sp dp seq ack off fl win sum urg size := List.take_left' rfl
  have hf := checksumField_header htake
  rw [Int.emod_eq_of_lt h0 (by omega)] at hf
  rw [hf, ← h]
  exact generateChecksum_header _ _ _ _ _ _ _ _ _ _ _ _

/-- No error within one word of a datagram the sender has built passes the test, but the exchange of
the two zeros. -/
theorem altered_refused
    (h : generateChecksum (byteMerge (tcpHeader sp dp seq ack off fl win ck urg size) data)
      = .ok sum)
    (hl : 24 + data.length ≤ 65507) {p : DatagramPacket} (hp : 24 + data.length ≤ p.data.length) :
    let d := byteMerge (tcpHeader sp dp seq ack off fl win sum urg size) data
    (∀ d' k, AltersWord d d' k → FailsTest p d') ∧
      ∀ i j, i < d.length → j < 8 → FailsTest p (flipBit d i j) := by
  intro d
  have hd : d.length = 24 + data.length := by simp [d, byteMerge]
  have hfails : ∀ d' k, AltersWord d d' k → FailsTest p d' := by
    intro d' k ha
    have hd' : d'.length = d.length := ha.length
    exact failsTest_of_ne (by omega) (by omega)
      (ha.checksum_ne (by omega) (by omega) (checksum_sent h))
  exact ⟨hfails, fun i j hi hj => hfails _ _ (altersWord_set hi (flip_ne _ hj))⟩

end Sent

/-- The last bit of a segment of 25 bytes. -/
theorem altered_refused_last :
    FailsTest (.new 25) (flipBit (byteMerge (tcpHeader 1 2 0 1 5 16 25 43217 0 1) [7]) 24 0) := by
  have h : generateChecksum (byteMerge (tcpHeader 1 2 0 1 5 16 25 0 0 1) [7]) = .ok 43217 := by
    decide +kernel
  exact (altered_refused h (by decide) (by decide)).2 24 0 (by decide) (by decide)

end TcpLike
