import TcpLike.Proofs.Fields

/-!
# The test of the ACK bit

`isValidAck` reads the flags byte in decimal and the text of it in hexadecimal: what it looks at is
the tens digit of a flags byte below 100, whether one below 128 is from 120 on, and nothing of one
with its top bit set (`ackBit_eq`).
-/

namespace TcpLike

/-- What the test of the ACK bit looks at. -/
def ackBitRead (b : ℕ) : Bool :=
  if b < 100 then b / 10 % 2 = 1 else 120 ≤ b

/-- The test of the ACK bit finds what is there. -/
def ReadsAckBit (b : ℕ) : Prop :=
  if b < 100 then b / 10 % 2 = b / 16 % 2
  else if b < 128 then b < 112 ∨ 120 ≤ b
  else b / 16 % 2 = 1

instance (b : ℕ) : Decidable (ReadsAckBit b) :=
  inferInstanceAs (Decidable (if b < 100 then _ else if b < 128 then _ else _))

theorem ackBit_table : ∀ n < 128, ackBit (UInt8.ofNat n) = .ok (ackBitRead n) := by
  decide +kernel

/-- A negative byte is printed in 32 binary digits, and every such text is the same `double`. -/
theorem signed_table : ∀ n < 256, 128 ≤ n →
    (parseInt (byteToString (UInt8.ofNat n)) 16).map (fun i => parseDouble (toBinaryString i))
      = .ok 11111111111111111957551335342080 := by
  decide +kernel

theorem ackBit_of_signed {b : UInt8} (h : 128 ≤ b.toNat) : ackBit b = .ok true := by
  have hd := signed_table b.toNat b.toNat_lt h
  have hbit : (decimalFormat 8 11111111111111111957551335342080)[3]? = some '1' := by
    decide +kernel
  rw [UInt8.ofNat_toNat] at hd
  unfold ackBit
  rcases hp : parseInt (byteToString b) 16 with e | i <;> rw [hp] at hd
  · cases hd
  · have hi : parseDouble (toBinaryString i) = 11111111111111111957551335342080 :=
      Except.ok.inj hd
    simp only [java_ok_bind, java_pure]
    rw [hi, hbit]
    rfl

/-- The test throws nothing. -/
theorem ackBit_eq (b : UInt8) : ackBit b = .ok (ackBitRead b.toNat) := by
  rcases Nat.lt_or_ge b.toNat 128 with h | h
  · have := ackBit_table b.toNat h
    rwa [UInt8.ofNat_toNat] at this
  · have hread : ackBitRead b.toNat = true := by
      rw [ackBitRead, if_neg (by omega)]
      exact decide_eq_true (by omega)
    rw [ackBit_of_signed h, hread]

theorem and_sixteen_table :
    ∀ n < 256, UInt8.ofNat n &&& 16 ≠ 0 ↔ n / 16 % 2 = 1 := by
  decide +kernel

theorem and_sixteen (b : UInt8) : b &&& 16 ≠ 0 ↔ b.toNat / 16 % 2 = 1 :=
  of_byte_table (p := fun n b => b &&& 16 ≠ 0 ↔ n / 16 % 2 = 1) and_sixteen_table b

theorem readsAckBit_iff (b : UInt8) :
    ReadsAckBit b.toNat ↔ (ackBitRead b.toNat = true ↔ b &&& 16 ≠ 0) := by
  have hlt := b.toNat_lt
  rw [and_sixteen, ackBitRead, ReadsAckBit]
  split_ifs with h1 h2 <;> rw [decide_eq_true_eq] <;> omega

section IsValidAck

variable {p : DatagramPacket}

theorem isValidAck_eq_ok (hl : 14 ≤ p.data.length) (ha : ackField p.data < 2 ^ 31) (n : ℕ) :
    isValidAck p n = .ok (ackBitRead (flagsByte p.data).toNat && decide (ackField p.data = n)) := by
  rw [isValidAck_eq hl, ackBit_eq, ofField_of_lt ha]
  simp only [java_ok_bind]
  cases ackBitRead (flagsByte p.data).toNat
  · rfl
  · simp

/-- `isValidAck` decides whether the ACK bit is set and the number the one expected, unless the
number is and the bit is misread. -/
theorem isValidAck_iff (hl : p.data.length = 24) (ha : ackField p.data < 2 ^ 31) (n : ℕ) :
    isValidAck p n = .ok (decide (flagsByte p.data &&& 16 ≠ 0 ∧ ackField p.data = n)) ↔
      ackField p.data ≠ n ∨ ReadsAckBit (flagsByte p.data).toNat := by
  rw [isValidAck_eq_ok (by omega) ha, Except.ok.injEq, readsAckBit_iff]
  by_cases hn : ackField p.data = n
  · cases hb : ackBitRead (flagsByte p.data).toNat <;> simp [hn]
  · simp [hn]

end IsValidAck

/-- An ack with these flags and this number. -/
def ackPacket (flags : UInt8) (ack : ℤ) : DatagramPacket :=
  ⟨(tcpHeader 12001 12010 0 ack 5 0 25 0 0 24).set 13 flags, 24, le_rfl⟩

theorem isValidAck_sixteen :
    isValidAck (ackPacket 16 1) 1
      = .ok (decide (flagsByte (ackPacket 16 1).data &&& 16 ≠ 0
          ∧ ackField (ackPacket 16 1).data = 1)) :=
  (isValidAck_iff rfl (by decide) 1).2 (.inr (by decide))

/-- Flags 20 have the ACK bit, and are refused. -/
theorem not_isValidAck : ¬ ∀ (p : DatagramPacket) (n : ℕ), p.data.length = 24 →
    ackField p.data < 2 ^ 31 →
      isValidAck p n = .ok (decide (flagsByte p.data &&& 16 ≠ 0 ∧ ackField p.data = n)) := by
  intro hall
  have h := hall (ackPacket 20 1) 1 rfl (by decide)
  have hrefused : isValidAck (ackPacket 20 1) 1 = .ok false := by decide +kernel
  rw [hrefused] at h
  exact absurd h (by decide)

end TcpLike
