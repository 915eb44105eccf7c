import TcpLike.Receiver
import TcpLike.Proofs.Checksum

/-!
# What a step of the receiver does

A round of the receive loop does one of six things (`LoopStep`), told apart by the fields of the
packet in hand. Only an accepted segment touches the data file, `ackFlag` or `outData`.
-/

namespace TcpLike

theorem copyOfRange_start {a : Bytes} {n : ℕ} (h : n ≤ a.length) :
    copyOfRange a 0 n = .ok (a.take n) := by
  unfold copyOfRange
  rw [if_neg (by omega), if_neg (by omega)]
  simp [List.takeD_eq_take _ h]

/-- The copy of a payload: a size whose end is no `int` throws. -/
theorem copyOfRange_payload {a : Bytes} (h : 24 ≤ a.length) {size : ℕ} (hs : size < 2 ^ 31) :
    copyOfRange a 24 (int32 (24 + size)) =
      if size + 24 < 2 ^ 31 then .ok ((a.drop 24).takeD size 0) else .error .illegalArgument := by
  unfold copyOfRange
  by_cases hz : size + 24 < 2 ^ 31
  · rw [int32_of_lt (by omega) (by omega), if_pos hz, if_neg (by omega), if_neg (by omega)]
    congr 2
    omega
  · rw [if_neg hz, if_pos]
    rw [int32_eq]
    split_ifs <;> omega

theorem decodeField_header {b : Bytes} (h : 24 ≤ b.length) :
    decodeField (b.take 24) [4, 5, 6, 7] = ofField (seqField b) ∧
      decodeField (b.take 24) [8, 9, 10, 11] = ofField (ackField b) := by
  have hl : (b.take 24).length = 24 := by
    rw [List.length_take]
    omega
  have ht : (b.take 24).take 24 = b.take 24 := by rw [List.take_take, min_self]
  have hs : decodeField (b.take 24) [4, 5, 6, 7] = ofField (seqField (b.take 24)) :=
    decodeField_range (i := 4) (n := 4) (by omega) (by omega)
  have ha : decodeField (b.take 24) [8, 9, 10, 11] = ofField (ackField (b.take 24)) :=
    decodeField_range (i := 8) (n := 4) (by omega) (by omega)
  obtain ⟨h1, h2, -⟩ := fields_congr ht (by omega)
  rw [hs, ha, h1, h2]
  exact ⟨rfl, rfl⟩

namespace Receiver

variable (c : ReceiverConfig) (r : Receiver) (w : WriteOutcome)

/-- The reply to the segment in hand. -/
def reply : Bytes :=
  tcpHeader c.SRC_PORT c.DEST_PORT (ackField r.inPacket.data)
    (int32 (seqField r.inPacket.data + r.inPacket.data.length - 24)) 5 16 r.WINDOW_SIZE 0 0 24

/-- The payload of the segment in hand, as long as its size field says. -/
def payload : Bytes := (r.inPacket.data.drop 24).takeD (sizeField r.inPacket.data) 0

/-- The receiver once it has accepted the segment in hand. -/
def accepted : Receiver :=
  { r with
    ackNum := int32 (seqField r.inPacket.data + r.inPacket.data.length - 24)
    file := r.file ++ w.stored r.payload
    seqNum := ackField r.inPacket.data
    outData := some (r.reply c)
    ackFlag := r.ackFlag + 1 }

/-- The checksum in the packet in hand is the one of the datagram it was given. -/
def Intact : Prop :=
  generateChecksum (r.inPacket.data.take r.inPacket.length)
    = .ok (checksumField r.inPacket.data : ℤ)

/-- What a round of the receive loop that throws nothing does with the packet in hand. -/
inductive LoopStep : Receiver × List Bytes → Prop
  | sizeReply (hb : r.inPacket.data.length = 24) : LoopStep (r, [sizeReply])
  | fin (hb : 14 ≤ r.inPacket.data.length) (hf : flagsField r.inPacket.data = 1) :
      LoopStep (r.closeProcess c)
  | ignored : LoopStep (r, [])
  | repeated {m : Bytes} (hf : flagsField r.inPacket.data ≠ 1) (hi : r.Intact)
      (ha : ackField r.inPacket.data ≤ r.ackFlag) (hm : r.outData = some m) :
      LoopStep (r, [m])
  | accepted (hb : 24 ≤ r.inPacket.data.length) (hf : flagsField r.inPacket.data ≠ 1)
      (hs : seqField r.inPacket.data < 2 ^ 31) (ha : ackField r.inPacket.data < 2 ^ 31)
      (hi : r.Intact) (hlt : r.ackFlag < ackField r.inPacket.data) :
      LoopStep (r.accepted c w, [r.reply c])

variable {c r w}

theorem accept_eq (hb : 24 ≤ r.inPacket.data.length) (hs : seqField r.inPacket.data < 2 ^ 31)
    (ha : ackField r.inPacket.data < 2 ^ 31) (hz : sizeField r.inPacket.data < 2 ^ 31) :
    r.accept c (sizeField r.inPacket.data) w =
      if sizeField r.inPacket.data + 24 < 2 ^ 31 then .ok (r.accepted c w)
      else .error .illegalArgument := by
  obtain ⟨hseq, hack⟩ := decodeField_header hb
  have hl : (r.inPacket.data.take 24).length = 24 := by
    rw [List.length_take]
    omega
  have hhd : copyOfRange r.inPacket.data 0 24 = .ok (r.inPacket.data.take 24) :=
    copyOfRange_start hb
  unfold accept responseData writeData accepted
  simp only [hhd, java_ok_bind, hseq, hack, ofField_of_lt hs, ofField_of_lt ha, hl,
    copyOfRange_payload hb hz]
  split_ifs <;> rfl

theorem intact_iff (hb : 18 ≤ r.inPacket.data.length) {temp : Bytes} {test_1 test_2 : ℤ}
    (h1 : getCheckSum r.inPacket = .ok test_1)
    (ht : copyOfRange r.inPacket.data 0 r.inPacket.length = .ok temp)
    (h2 : generateChecksum temp = .ok test_2) : r.Intact ↔ test_1 = test_2 := by
  rw [copyOfRange_start r.inPacket.length_le, Except.ok.injEq] at ht
  rw [getCheckSum_eq hb, Except.ok.injEq] at h1
  rw [Intact, ht, h2, Except.ok.injEq, ← h1, eq_comm]

theorem loopBody_cases {res : Receiver × List Bytes} (h : r.loopBody c w = .ok res) :
    LoopStep c r w res := by
  unfold loopBody at h
  obtain ⟨flags, hflags, h⟩ := java_bind_eq_ok.1 h
  obtain ⟨seq, hseq, h⟩ := java_bind_eq_ok.1 h
  obtain ⟨ack, hack, h⟩ := java_bind_eq_ok.1 h
  obtain ⟨hb, rfl⟩ := getFlags_eq_ok hflags
  obtain ⟨hs, rfl⟩ := getSeqNum_eq_ok hseq
  obtain ⟨ha, rfl⟩ := getAckNum_eq_ok hack
  split_ifs at h with hz hf
  · cases h
    exact .sizeReply hz.1
  · cases h
    exact .fin hb hf
  · obtain ⟨size, hsize, h⟩ := java_bind_eq_ok.1 h
    obtain ⟨test_1, h1, h⟩ := java_bind_eq_ok.1 h
    obtain ⟨temp, ht, h⟩ := java_bind_eq_ok.1 h
    obtain ⟨test_2, h2, h⟩ := java_bind_eq_ok.1 h
    obtain ⟨hb, hzl, rfl⟩ := getPacketSize_eq_ok hsize
    have hi := intact_iff (by omega) h1 ht h2
    split_ifs at h with he
    · obtain ⟨r', hr, h⟩ := java_bind_eq_ok.1 h
      unfold acceptNew at hr
      split_ifs at hr with hlt
      · rw [accept_eq hb hs ha hzl] at hr
        split_ifs at hr
        cases hr
        cases h
        exact .accepted hb hf hs ha (hi.2 he) (by exact_mod_cast hlt)
      · cases hr
        split at h
        · rename_i m hm
          cases h
          exact .repeated hf (hi.2 he) (by omega) hm
        · cases h
    · cases h
      exact .ignored

theorem receiveLoop_of_ok {d : Bytes} {res : Receiver × List Bytes}
    (h : (r.receive d).loopBody c w = .ok res) : r.receiveLoop c d w = res := by
  unfold receiveLoop
  simp only [h]

instance (r : Receiver) : Decidable r.Intact :=
  inferInstanceAs (Decidable (generateChecksum _ = _))

/-- The part of a round behind the FIN test. -/
def segmentBody (c : ReceiverConfig) (r : Receiver) (w : WriteOutcome) (ack : ℤ) :
    Java (Receiver × List Bytes) := do
  let size ← getPacketSize r.inPacket
  let test_1 ← getCheckSum r.inPacket
  let temp ← copyOfRange r.inPacket.data 0 r.inPacket.length
  let test_2 ← generateChecksum temp
  if test_1 = test_2 then
    let r ← r.acceptNew c ack size w
    match r.outData with
    | some outData => return (r, [outData])
    | none => throw .nullPointer
  else
    return (r, [])

theorem loopBody_eq_segmentBody (hb : 14 ≤ r.inPacket.data.length) :
    r.loopBody c w =
      if seqField r.inPacket.data < 2 ^ 31 ∧ ackField r.inPacket.data < 2 ^ 31 then
        if r.inPacket.data.length = 24 ∧ ackField r.inPacket.data ≠ 0 then .ok (r, [sizeReply])
        else if flagsField r.inPacket.data = 1 then .ok (r.closeProcess c)
        else r.segmentBody c w (ackField r.inPacket.data)
      else .error .numberFormat := by
  unfold loopBody
  rw [getFlags_eq hb, getSeqNum_eq (by omega), getAckNum_eq (by omega)]
  by_cases hs : seqField r.inPacket.data < 2 ^ 31
  · by_cases ha : ackField r.inPacket.data < 2 ^ 31
    · rw [ofField_of_lt hs, ofField_of_lt ha, if_pos ⟨hs, ha⟩]
      simp only [java_ok_bind, Ne, Int.natCast_eq_zero]
      split_ifs <;> rfl
    · rw [ofField_of_lt hs, ofField_of_not_lt ha, if_neg fun h => ha h.2]
      rfl
  · rw [ofField_of_not_lt hs, if_neg fun h => hs h.1]
    rfl

/-- Behind the size, the checksums are compared first. -/
theorem segmentBody_eq (hb : 24 ≤ r.inPacket.data.length)
    (hz : sizeField r.inPacket.data < 2 ^ 31) (hl : 17 ≤ r.inPacket.length) (ack : ℤ) :
    r.segmentBody c w ack =
      if r.Intact then do
        let r' ← r.acceptNew c ack (sizeField r.inPacket.data) w
        match r'.outData with
        | some outData => .ok (r', [outData])
        | none => .error .nullPointer
      else .ok (r, []) := by
  have hle := r.inPacket.length_le
  obtain ⟨k, hk⟩ := generateChecksum_ok (d := r.inPacket.data.take r.inPacket.length)
    (by rw [List.length_take]; omega)
  have hi := intact_iff (by omega) (getCheckSum_eq (by omega)) (copyOfRange_start hle) hk
  unfold segmentBody
  rw [getPacketSize_eq hb, ofField_of_lt hz, getCheckSum_eq (by omega), copyOfRange_start hle]
  simp only [java_ok_bind, hk]
  by_cases he : r.Intact
  · rw [if_pos (hi.1 he), if_pos he]
    rfl
  · rw [if_neg fun h => he (hi.2 h), if_neg he]
    rfl

/-- The tests of a round, on the fields of the packet in hand. -/
theorem loopBody_eq (hb : 24 < r.inPacket.data.length) (hl : 17 ≤ r.inPacket.length) :
    r.loopBody c w =
      if seqField r.inPacket.data < 2 ^ 31 ∧ ackField r.inPacket.data < 2 ^ 31 then
        if flagsField r.inPacket.data = 1 then .ok (r.closeProcess c)
        else if sizeField r.inPacket.data < 2 ^ 31 then
          if r.Intact then do
            let r' ← r.acceptNew c (ackField r.inPacket.data) (sizeField r.inPacket.data) w
            match r'.outData with
            | some outData => .ok (r', [outData])
            | none => .error .nullPointer
          else .ok (r, [])
        else .error .numberFormat
      else .error .numberFormat := by
  have hwindow : ¬ (r.inPacket.data.length = 24 ∧ ackField r.inPacket.data ≠ 0) := by omega
  rw [loopBody_eq_segmentBody (by omega), if_neg hwindow]
  by_cases hz : sizeField r.inPacket.data < 2 ^ 31
  · rw [segmentBody_eq hb.le hz hl, if_pos hz]
  · rw [segmentBody, getPacketSize_eq hb.le, ofField_of_not_lt hz, if_neg hz]
    rfl

theorem receiveLoop_cases (c : ReceiverConfig) (r : Receiver) (d : Bytes) (w : WriteOutcome) :
    r.receiveLoop c d w = ({ r.receive d with pc := .aborted }, [])
      ∨ LoopStep c (r.receive d) w (r.receiveLoop c d w) := by
  unfold receiveLoop
  simp only []
  split
  · exact .inl rfl
  · rename_i res h
    exact .inr (loopBody_cases h)

end Receiver

end TcpLike
