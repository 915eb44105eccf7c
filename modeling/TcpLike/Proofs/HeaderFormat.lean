import TcpLike.Proofs.Fields

/-!
# Decoding undoes encoding

The decoders give back what a `tcpHeader` was built from, as long as both numbers are an `int`: the
top half of the 32-bit numbers is written and cannot be read (`decodes_iff`).
-/

namespace TcpLike

/-- The decoders return these values on the packet in hand, and none of them throws. -/
structure Decodes (p : DatagramPacket) (seq ack fl win ck size : ℤ) : Prop where
  getSeqNum : getSeqNum p = .ok seq
  getAckNum : getAckNum p = .ok ack
  getWindowSize : getWindowSize p = .ok win
  getCheckSum : getCheckSum p = .ok ck
  getPacketSize : getPacketSize p = .ok size
  getFlags : getFlags p = .ok (fl % 64).toNat

section Header

variable {p : DatagramPacket} {d : Bytes} {sp dp seq ack off fl win ck urg size : ℤ}

theorem ofField_eq_ok_iff {v : ℕ} {x : ℤ} (hv : (v : ℤ) = x % 2 ^ 32) (h0 : 0 ≤ x)
    (h : x < 2 ^ 32) : ofField v = .ok x ↔ x < 2 ^ 31 := by
  rw [Int.emod_eq_of_lt h0 h] at hv
  rw [ofField_eq_ok]
  omega

theorem flagsField_header (h : d.take 24 = tcpHeader sp dp seq ack off fl win ck urg size) :
    flagsField d = (fl % 64).toNat := by
  have hb := octet_toNat (fl % 64) 0
  rw [flagsField, flagsByte_header h]
  omega

/-- Every value of the format is read back but the sequence and ack numbers from 2^31 on. -/
theorem decodes_iff (h : p.data.take 24 = tcpHeader sp dp seq ack off fl win ck urg size)
    (hseq : 0 ≤ seq ∧ seq < 2 ^ 32) (hack : 0 ≤ ack ∧ ack < 2 ^ 32) (hwin : 0 ≤ win ∧ win < 2 ^ 16)
    (hck : 0 ≤ ck ∧ ck < 2 ^ 16) (hsize : 0 ≤ size ∧ size < 2 ^ 31) :
    Decodes p seq ack fl win ck size ↔ seq < 2 ^ 31 ∧ ack < 2 ^ 31 := by
  have hl : 24 ≤ p.data.length := by
    have := congrArg List.length h
    rw [List.length_take, length_tcpHeader] at this
    omega
  have hseq' : getSeqNum p = .ok seq ↔ seq < 2 ^ 31 := by
    rw [getSeqNum_eq (by omega)]
    exact ofField_eq_ok_iff (seqField_header h) hseq.1 hseq.2
  have hack' : getAckNum p = .ok ack ↔ ack < 2 ^ 31 := by
    rw [getAckNum_eq (by omega)]
    exact ofField_eq_ok_iff (ackField_header h) hack.1 hack.2
  have hsize' : getPacketSize p = .ok size := by
    rw [getPacketSize_eq hl]
    exact (ofField_eq_ok_iff (sizeField_header h) hsize.1 (by omega)).2 hsize.2
  have hwin' : getWindowSize p = .ok win := by
    rw [getWindowSize_eq (by omega), windowField_header h, Int.emod_eq_of_lt hwin.1 hwin.2]
  have hck' : getCheckSum p = .ok ck := by
    rw [getCheckSum_eq (by omega), checksumField_header h, Int.emod_eq_of_lt hck.1 hck.2]
  have hfl : getFlags p = .ok (fl % 64).toNat := by
    rw [getFlags_eq (by omega), flagsField_header h]
  exact ⟨fun hd => ⟨hseq'.1 hd.getSeqNum, hack'.1 hd.getAckNum⟩,
    fun hlt => ⟨hseq'.2 hlt.1, hack'.2 hlt.2, hwin', hck', hsize', hfl⟩⟩

end Header

theorem le_length_tcpHeader (sp dp seq ack off fl win ck urg size : ℤ) :
    24 ≤ (tcpHeader sp dp seq ack off fl win ck urg size).length :=
  (length_tcpHeader ..).ge

/-- A packet that holds a header and nothing else. -/
def headerPacket (sp dp seq ack off fl win ck urg size : ℤ) : DatagramPacket :=
  ⟨tcpHeader sp dp seq ack off fl win ck urg size, 24,
    le_length_tcpHeader sp dp seq ack off fl win ck urg size⟩

theorem decodes_last :
    Decodes (headerPacket 12010 12001 (2 ^ 31 - 1) 1 5 80 65535 65535 0 (2 ^ 31 - 1))
      (2 ^ 31 - 1) 1 80 65535 65535 (2 ^ 31 - 1) :=
  (decodes_iff rfl (by decide) (by decide) (by decide) (by decide) (by decide)).2 (by decide)

/-- The sequence number 2^31 is written, and throws when it is read. -/
theorem not_decodes : ¬ ∀ sp dp seq ack off fl win ck urg size : ℤ,
    0 ≤ seq ∧ seq < 2 ^ 32 → 0 ≤ ack ∧ ack < 2 ^ 32 → 0 ≤ win ∧ win < 2 ^ 16 →
    0 ≤ ck ∧ ck < 2 ^ 16 → 0 ≤ size ∧ size < 2 ^ 31 →
      Decodes (headerPacket sp dp seq ack off fl win ck urg size) seq ack fl win ck size := by
  intro hall
  have h := (hall 12010 12001 (2 ^ 31) 1 5 16 25 0 0 0 (by decide) (by decide) (by decide)
    (by decide) (by decide)).getSeqNum
  have hthrow : getSeqNum (headerPacket 12010 12001 (2 ^ 31) 1 5 16 25 0 0 0)
      = .error .numberFormat := by decide +kernel
  rw [hthrow] at h
  cases h

end TcpLike
