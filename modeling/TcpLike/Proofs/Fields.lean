import Mathlib.Data.List.GetD
import TcpLike.Tool
import TcpLike.Proofs.Decode

/-!
# The header fields of a datagram

A datagram read as numbers: its fields depend on its first 24 bytes only, the decoders of a packet
return the fields of what the packet was last given, and the fields of a `tcpHeader` are the values
it was built from.
-/

namespace TcpLike

/-- The big-endian number of `n` bytes from byte `i` on. -/
def field (d : Bytes) (i n : ℕ) : ℕ := BigEndian.value ((d.drop i).take n)

def seqField (d : Bytes) : ℕ := field d 4 4

def ackField (d : Bytes) : ℕ := field d 8 4

def windowField (d : Bytes) : ℕ := field d 14 2

def checksumField (d : Bytes) : ℕ := field d 16 2

def sizeField (d : Bytes) : ℕ := field d 20 4

/-- Byte 13, which holds the flags. -/
def flagsByte (d : Bytes) : UInt8 := d.getD 13 0

def flagsField (d : Bytes) : ℕ := (flagsByte d).toNat % 64

theorem field_lt (d : Bytes) (i n : ℕ) : field d i n < 256 ^ n := by
  have hl : ((d.drop i).take n).length ≤ n := by simp
  exact (BigEndian.value_lt _).trans_le (Nat.pow_le_pow_right (by omega) hl)

@[simp] theorem field_zero (d : Bytes) (i : ℕ) : field d i 0 = 0 := by
  simp [field, BigEndian.value]

theorem field_succ {d : Bytes} {i n : ℕ} (h : i + n < d.length) :
    field d i (n + 1) = field d i n * 256 + (d.getD (i + n) 0).toNat := by
  have hn : n < (d.drop i).length := by
    rw [List.length_drop]
    omega
  rw [field, List.take_add_one, List.getElem?_eq_getElem hn, List.getElem_drop, Option.toList_some,
    BigEndian.value, BigEndian.readFrom_concat, List.getD_eq_getElem _ _ h]
  rfl

section Prefix

variable {d d' : Bytes} {m : ℕ}

theorem field_congr (h : d.take m = d'.take m) {i n : ℕ} (hin : i + n ≤ m) :
    field d i n = field d' i n := by
  have key : ∀ d : Bytes, (d.drop i).take n = ((d.take m).drop i).take n := by
    intro d
    rw [List.drop_take, List.take_take, min_eq_left (by omega)]
  unfold field
  rw [key d, key d', h]

theorem flagsByte_congr (h : d.take m = d'.take m) (hm : 13 < m) : flagsByte d = flagsByte d' := by
  have key : ∀ d : Bytes, d.getD 13 0 = (d.take m).getD 13 0 := by
    intro d
    simp only [List.getD_eq_getElem?_getD]
    rw [List.getElem?_take_of_lt hm]
  unfold flagsByte
  rw [key d, key d', h]

/-- The fields the flags test and the log look at agree. -/
theorem fields_congr (h : d.take m = d'.take m) (hm : 13 < m) :
    seqField d = seqField d' ∧ ackField d = ackField d' ∧ flagsField d = flagsField d' := by
  refine ⟨field_congr h (by omega), field_congr h (by omega), ?_⟩
  rw [flagsField, flagsField, flagsByte_congr h hm]

end Prefix

section Receive

variable {p : DatagramPacket} {d : Bytes}

@[simp] theorem length_receive (p : DatagramPacket) (d : Bytes) :
    (p.receive d).data.length = p.data.length := by
  simp only [DatagramPacket.receive, List.length_append, List.length_take, List.length_drop]
  omega

@[simp] theorem length_new (n : ℕ) : (DatagramPacket.new n).data.length = n := by
  simp [DatagramPacket.new]

theorem data_receive (h : d.length ≤ p.data.length) :
    (p.receive d).data = d ++ p.data.drop d.length := by
  simp only [DatagramPacket.receive]
  rw [List.take_of_length_le h]

theorem data_receive_of_eq (h : d.length = p.data.length) : (p.receive d).data = d := by
  rw [data_receive h.le, h, List.drop_length, List.append_nil]

theorem take_receive {m : ℕ} (hd : m ≤ d.length) (hp : m ≤ p.data.length) :
    (p.receive d).data.take m = d.take m := by
  simp only [DatagramPacket.receive]
  rw [List.take_append_of_le_length (by rw [List.length_take]; omega), List.take_take,
    min_eq_left hp]

theorem take_length_receive (h : d.length ≤ p.data.length) :
    (p.receive d).data.take (p.receive d).length = d := by
  rw [data_receive h]
  simp only [DatagramPacket.receive]
  rw [min_eq_left h, List.take_left]

end Receive

section Getters

variable {p : DatagramPacket}

theorem getSeqNum_eq (h : 8 ≤ p.data.length) : getSeqNum p = ofField (seqField p.data) :=
  decodeField_range (i := 4) (n := 4) (by omega) h

theorem getAckNum_eq (h : 12 ≤ p.data.length) : getAckNum p = ofField (ackField p.data) :=
  decodeField_range (i := 8) (n := 4) (by omega) h

theorem getPacketSize_eq (h : 24 ≤ p.data.length) : getPacketSize p = ofField (sizeField p.data) :=
  decodeField_range (i := 20) (n := 4) (by omega) h

theorem getCheckSum_eq (h : 18 ≤ p.data.length) :
    getCheckSum p = .ok (checksumField p.data : ℤ) := by
  have hlt := field_lt p.data 16 2
  exact (decodeField_range (i := 16) (n := 2) (by omega) h).trans
    (ofField_of_lt (hlt.trans (by omega)))

theorem getWindowSize_eq (h : 16 ≤ p.data.length) :
    getWindowSize p = .ok (windowField p.data : ℤ) := by
  have hlt := field_lt p.data 14 2
  exact (decodeField_range (i := 14) (n := 2) (by omega) h).trans
    (ofField_of_lt (hlt.trans (by omega)))

theorem getByte_flags (h : 14 ≤ p.data.length) : getByte p.data 13 = .ok (flagsByte p.data) := by
  rw [getByte_of_lt (by omega), flagsByte, List.getD_eq_getElem?_getD,
    List.getElem?_eq_getElem (by omega), Option.getD_some]

theorem getFlags_eq (h : 14 ≤ p.data.length) : getFlags p = .ok (flagsField p.data) := by
  unfold getFlags
  rw [getByte_flags h]
  rfl

theorem isValidAck_eq (h : 14 ≤ p.data.length) (seqNum : ℕ) :
    isValidAck p seqNum = do
      if ← ackBit (flagsByte p.data) then
        let ack ← ofField (ackField p.data)
        return ack = seqNum
      else
        return false := by
  have hd : decodeField p.data [8, 9, 10, 11] = ofField (ackField p.data) :=
    getAckNum_eq (by omega)
  unfold isValidAck
  rw [getByte_flags h, hd]
  rfl

/-- The buffer alone decides. -/
theorem isValidAck_congr {p' : DatagramPacket} (h : p.data = p'.data) (seqNum : ℕ) :
    isValidAck p seqNum = isValidAck p' seqNum := by
  unfold isValidAck
  rw [h]

theorem ackField_of_isValidAck (h : 14 ≤ p.data.length) {seqNum : ℕ}
    (hv : isValidAck p seqNum = .ok true) : ackField p.data = seqNum ∧ seqNum < 2 ^ 31 := by
  rw [isValidAck_eq h] at hv
  obtain ⟨bit, -, hv⟩ := java_bind_eq_ok.1 hv
  split_ifs at hv
  · obtain ⟨ack, ha, hv⟩ := java_bind_eq_ok.1 hv
    rw [ofField_eq_ok] at ha
    have he : ack = seqNum := by simpa using hv
    omega
  · simp at hv

theorem getSeqNum_eq_ok {x : ℤ} (h : getSeqNum p = .ok x) :
    seqField p.data < 2 ^ 31 ∧ x = seqField p.data := by
  have hl : 4 + 4 ≤ p.data.length := length_of_decodeField (i := 4) (n := 3) h
  rwa [getSeqNum_eq hl, ofField_eq_ok] at h

theorem getAckNum_eq_ok {x : ℤ} (h : getAckNum p = .ok x) :
    ackField p.data < 2 ^ 31 ∧ x = ackField p.data := by
  have hl : 8 + 4 ≤ p.data.length := length_of_decodeField (i := 8) (n := 3) h
  rwa [getAckNum_eq hl, ofField_eq_ok] at h

theorem getPacketSize_eq_ok {x : ℤ} (h : getPacketSize p = .ok x) :
    24 ≤ p.data.length ∧ sizeField p.data < 2 ^ 31 ∧ x = sizeField p.data := by
  have hl : 20 + 4 ≤ p.data.length := length_of_decodeField (i := 20) (n := 3) h
  rw [getPacketSize_eq hl, ofField_eq_ok] at h
  exact ⟨hl, h⟩

theorem getPacketSize_short (h : p.data.length < 24) : ∃ e, getPacketSize p = .error e := by
  rcases hp : getPacketSize p with e | size
  · exact ⟨e, rfl⟩
  · have := (getPacketSize_eq_ok hp).1
    omega

theorem getWindowSize_eq_ok {x : ℤ} (h : getWindowSize p = .ok x) : x = windowField p.data := by
  have hl : 14 + 2 ≤ p.data.length := length_of_decodeField (i := 14) (n := 1) h
  rw [getWindowSize_eq hl, Except.ok.injEq] at h
  exact h.symm

theorem getFlags_eq_ok {f : ℕ} (h : getFlags p = .ok f) :
    14 ≤ p.data.length ∧ f = flagsField p.data := by
  have h' := h
  unfold getFlags at h'
  rw [java_bind_eq_ok] at h'
  obtain ⟨b, hb, -⟩ := h'
  have hl := length_of_getByte hb
  rw [getFlags_eq (by omega), Except.ok.injEq] at h
  exact ⟨by omega, h.symm⟩

end Getters

/-! ## The fields of a header -/

theorem octet_toNat (x : ℤ) (s : ℕ) : ((octet x s).toNat : ℤ) = x / 2 ^ s % 256 := by
  unfold octet
  rw [UInt8.toNat_ofNat', Int.shiftRight_eq_div_pow]
  push_cast
  omega

theorem value_octets4 (x : ℤ) :
    (BigEndian.value [octet x 24, octet x 16, octet x 8, octet x 0] : ℤ) = x % 2 ^ 32 := by
  simp only [BigEndian.value, BigEndian.readFrom_cons, BigEndian.readFrom_nil]
  push_cast
  simp only [octet_toNat]
  omega

theorem value_octets2 (x : ℤ) :
    (BigEndian.value [octet x 8, octet x 0] : ℤ) = x % 2 ^ 16 := by
  simp only [BigEndian.value, BigEndian.readFrom_cons, BigEndian.readFrom_nil]
  push_cast
  simp only [octet_toNat]
  omega

section Header

variable {d : Bytes} {sp dp seq ack off fl win ck urg size : ℤ}
  (h : d.take 24 = tcpHeader sp dp seq ack off fl win ck urg size)
include h

theorem field_header {i n : ℕ} (hin : i + n ≤ 24) :
    field d i n = field (tcpHeader sp dp seq ack off fl win ck urg size) i n :=
  field_congr h hin

theorem seqField_header : (seqField d : ℤ) = seq % 2 ^ 32 := by
  rw [seqField, field_header h (by omega)]
  exact value_octets4 seq

theorem ackField_header : (ackField d : ℤ) = ack % 2 ^ 32 := by
  rw [ackField, field_header h (by omega)]
  exact value_octets4 ack

theorem sizeField_header : (sizeField d : ℤ) = size % 2 ^ 32 := by
  rw [sizeField, field_header h (by omega)]
  exact value_octets4 size

theorem windowField_header : (windowField d : ℤ) = win % 2 ^ 16 := by
  rw [windowField, field_header h (by omega)]
  exact value_octets2 win

theorem checksumField_header : (checksumField d : ℤ) = ck % 2 ^ 16 := by
  rw [checksumField, field_header h (by omega)]
  exact value_octets2 ck

theorem flagsByte_header : flagsByte d = octet (fl % 64) 0 := by
  have h' : d.take 24 = (tcpHeader sp dp seq ack off fl win ck urg size).take 24 := h
  rw [flagsByte_congr h' (by omega)]
  rfl

end Header

end TcpLike
