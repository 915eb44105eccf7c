import TcpLike.Proofs.SenderStep

/-!
# The steps of the sender

`Sender.Step` lists what one step of the sender can do, with the datagrams it sends; every
`senderStep` is one of them (`senderStep_cases`). The first transmission of a chunk is its
`segment`: a header with the checksum of the whole, then the chunk.
-/

namespace TcpLike

variable (c : SenderConfig)

/-- The bytes of a full chunk. -/
def SenderConfig.chunkSize : ℕ := c.WINDOW_SIZE - 24

/-- The header of a segment that carries `data`, with the checksum given. -/
def segmentHeader (seqNum ackNum : ℤ) (data : Bytes) (sum : ℤ) : Bytes :=
  tcpHeader c.SRC_PORT c.DEST_PORT seqNum ackNum 5 16 c.WINDOW_SIZE sum 0 data.length

/-- The checksum of a segment that carries `data`. -/
def segmentSum (seqNum ackNum : ℤ) (data : Bytes) : ℤ :=
  (generateChecksum (segmentHeader c seqNum ackNum data 0 ++ data)).toOption.getD 0

/-- The datagram that carries `data`. -/
def segment (seqNum ackNum : ℤ) (data : Bytes) : Bytes :=
  segmentHeader c seqNum ackNum data (segmentSum c seqNum ackNum data) ++ data

@[simp] theorem length_segment (seqNum ackNum : ℤ) (data : Bytes) :
    (segment c seqNum ackNum data).length = 24 + data.length := by
  simp [segment, segmentHeader]

theorem take_segment (seqNum ackNum : ℤ) (data : Bytes) :
    (segment c seqNum ackNum data).take 24
      = segmentHeader c seqNum ackNum data (segmentSum c seqNum ackNum data) :=
  List.take_left' rfl

theorem drop_segment (seqNum ackNum : ℤ) (data : Bytes) :
    (segment c seqNum ackNum data).drop 24 = data :=
  List.drop_left' rfl

/-- Whatever checksum the header holds, the checksum taken is the segment's. -/
theorem generateChecksum_segment (seqNum ackNum : ℤ) (data : Bytes) (sum : ℤ) :
    generateChecksum (segmentHeader c seqNum ackNum data sum ++ data)
      = .ok (segmentSum c seqNum ackNum data) := by
  have h0 : generateChecksum (segmentHeader c seqNum ackNum data sum ++ data)
      = generateChecksum (segmentHeader c seqNum ackNum data 0 ++ data) :=
    generateChecksum_header _ _ _ _ _ _ _ _ _ _ _ _
  have hl : 17 ≤ (segmentHeader c seqNum ackNum data 0 ++ data).length := by
    simp [segmentHeader]
    omega
  obtain ⟨k, hk⟩ := generateChecksum_ok hl
  rw [h0, segmentSum, hk]
  rfl

theorem checksumField_segment (seqNum ackNum : ℤ) (data : Bytes) :
    generateChecksum (segment c seqNum ackNum data)
      = .ok (checksumField (segment c seqNum ackNum data) : ℤ) := by
  have hsum := generateChecksum_segment c seqNum ackNum data
    (segmentSum c seqNum ackNum data)
  obtain ⟨h0, h1⟩ := generateChecksum_range hsum
  have hf := checksumField_header (take_segment c seqNum ackNum data)
  rw [segment, hsum, ← segment, hf]
  congr 1
  omega

namespace Sender

/-- The segment in hand is the one the first transmission sent. -/
structure Holds (s : Sender) (seqNum ackNum : ℤ) (chunk : Bytes) : Prop where
  data : s.data = chunk
  flag : s.flag = 16
  size : s.PACKET_SIZE = chunk.length
  sum : s.CHECKSUM = segmentSum c seqNum ackNum chunk
  seqNum : (s.seqNum : ℤ) - chunk.length = seqNum
  ackNum : (s.ackNum : ℤ) - 1 = ackNum

variable {c}

theorem Holds.current {s : Sender} {seqNum ackNum : ℤ} {data : Bytes}
    (h : s.Holds c seqNum ackNum data) : s.current c = segment c seqNum ackNum data := by
  unfold Sender.current message segment segmentHeader byteMerge
  rw [h.data, h.flag, h.size, h.sum, h.seqNum, h.ackNum]

theorem Holds.of_kept {s s' : Sender} {seqNum ackNum : ℤ} {data : Bytes}
    (h : s.Holds c seqNum ackNum data) (hk : Kept s s') : s'.Holds c seqNum ackNum data where
  data := hk.data.trans h.data
  flag := hk.flag.trans h.flag
  size := hk.PACKET_SIZE.trans h.size
  sum := hk.CHECKSUM.trans h.sum
  seqNum := hk.seqNum ▸ h.seqNum
  ackNum := hk.ackNum ▸ h.ackNum

variable (c)

/-- The sender with its next chunk read, sent and counted. -/
def withChunk (s : Sender) : Sender :=
  let data := s.fis.take c.chunkSize
  { s with
    fis := s.fis.drop data.length
    TOTAL_BYTE := int32 (s.TOTAL_BYTE + data.length)
    SEGMENT_NUM := int32 (s.SEGMENT_NUM + 1)
    data := data
    PACKET_SIZE := data.length
    flag := 16
    CHECKSUM := segmentSum c s.seqNum s.ackNum data
    ackNum := s.ackNum + 1
    seqNum := s.seqNum + data.length
    pc := .firstReceive }

theorem holds_withChunk (s : Sender) :
    (s.withChunk c).Holds c s.seqNum s.ackNum (s.fis.take c.chunkSize) where
  data := rfl
  flag := rfl
  size := rfl
  sum := rfl
  seqNum := by simp [withChunk]
  ackNum := by simp [withChunk]

variable {c}

theorem readChunk_eof {s : Sender} (hW : 24 < c.WINDOW_SIZE) (h : s.fis = []) :
    s.readChunk c = ({ s with pc := .leftLoop }, []) := by
  unfold readChunk fisRead
  rw [if_neg (by omega), if_pos h]

/-- A window with no room for data makes every chunk an empty one. -/
theorem readChunk_data {s : Sender} (h : c.WINDOW_SIZE ≤ 24 ∨ s.fis ≠ []) :
    s.readChunk c
      = (s.withChunk c, [segment c s.seqNum s.ackNum (s.fis.take c.chunkSize)]) := by
  have hsum := generateChecksum_segment c s.seqNum s.ackNum (s.fis.take c.chunkSize) s.CHECKSUM
  unfold segmentHeader at hsum
  have hread : fisRead (c.WINDOW_SIZE - 24) s.fis = some (s.fis.take c.chunkSize) := by
    unfold fisRead SenderConfig.chunkSize
    by_cases hW : c.WINDOW_SIZE - 24 = 0
    · rw [if_pos hW, hW, List.take_zero]
    · rw [if_neg hW, if_neg (h.resolve_left (by omega))]
  unfold readChunk
  rw [hread]
  simp only [Sender.message, byteMerge]
  rw [hsum]
  rfl

/-- What a step of the sender does. -/
inductive Step (c : SenderConfig) (s : Sender) : SenderInput → Sender → List Bytes → Prop
  | resend {o : Outcome} (hpc : s.pc = .handshake) :
      Step c s (.receive o) { s with inPacket := s.packetAfter o } [windowDatagram c]
  | passOver {d : Bytes} (hpc : s.pc = .handshake) :
      Step c s (.receive (.datagram d)) (s.receive d) []
  | answered {d : Bytes} (hpc : s.pc = .handshake)
      (ha : isSizeReply (s.receive d).inPacket = .ok true) :
      Step c s (.receive (.datagram d)) { s.receive d with pc := .fileLoop } []
  | eof (hpc : s.pc = .fileLoop) (hf : s.fis = []) : Step c s .run { s with pc := .leftLoop } []
  | read (hpc : s.pc = .fileLoop) (hf : s.fis ≠ []) :
      Step c s .run (s.withChunk c) [segment c s.seqNum s.ackNum (s.fis.take c.chunkSize)]
  | ack {o : Outcome} {s' : Sender} {out : List Bytes} (hw : s.pc.waiting)
      (h : AckStep c s o (s', out)) : Step c s (.receive o) s' out
  | failed (hpc : s.pc = .leftLoop) (hb : s.isBroken = true) :
      Step c s .run { s with pc := .failed } []
  | close (hpc : s.pc = .leftLoop) (hb : s.isBroken = false) :
      Step c s .run { s with flag := 1, pc := .closeAck } [finDatagram c]
  | closeTimeout (hpc : s.pc = .closeAck ∨ s.pc = .closeFin) :
      Step c s (.receive .timeout) { s with pc := .delivered } []
  | closeThrows {d : Bytes} (hpc : s.pc = .closeAck ∨ s.pc = .closeFin) :
      Step c s (.receive (.datagram d)) { s.receive d with pc := .aborted } []
  | closeAcked {d : Bytes} (hpc : s.pc = .closeAck)
      (ha : ackField (s.receive d).inPacket.data = 1)
      (hf : flagsField (s.receive d).inPacket.data = 16) :
      Step c s (.receive (.datagram d)) { s.receive d with pc := .closeFin } []
  | closeOther {d : Bytes} (hpc : s.pc = .closeAck)
      (hs : seqField (s.receive d).inPacket.data < 2 ^ 31)
      (ha : ackField (s.receive d).inPacket.data < 2 ^ 31)
      (hn : ¬ (ackField (s.receive d).inPacket.data = 1
        ∧ flagsField (s.receive d).inPacket.data = 16)) :
      Step c s (.receive (.datagram d)) { s.receive d with pc := .delivered } []
  | closeFin {d : Bytes} (hpc : s.pc = .closeFin)
      (hf : flagsField (s.receive d).inPacket.data = 1) :
      Step c s (.receive (.datagram d)) { s.receive d with flag := 16, pc := .delivered }
        [finalAck c (seqField (s.receive d).inPacket.data)]
  | finOther {d : Bytes} (hpc : s.pc = .closeFin)
      (hs : seqField (s.receive d).inPacket.data < 2 ^ 31)
      (ha : ackField (s.receive d).inPacket.data < 2 ^ 31)
      (hf : flagsField (s.receive d).inPacket.data ≠ 1) :
      Step c s (.receive (.datagram d)) { s.receive d with pc := .delivered } []

theorem closeFields_eq_ok {s : Sender} {seq ack : ℤ} {flags : ℕ}
    (h : s.closeFields = .ok (seq, ack, flags)) :
    seqField s.inPacket.data < 2 ^ 31 ∧ ackField s.inPacket.data < 2 ^ 31 ∧
      seq = seqField s.inPacket.data ∧ ack = ackField s.inPacket.data ∧
      flags = flagsField s.inPacket.data := by
  unfold closeFields at h
  obtain ⟨seq', hs, h⟩ := java_bind_eq_ok.1 h
  obtain ⟨ack', ha, h⟩ := java_bind_eq_ok.1 h
  obtain ⟨flags', hf, h⟩ := java_bind_eq_ok.1 h
  cases h
  obtain ⟨hs1, hs2⟩ := getSeqNum_eq_ok hs
  obtain ⟨ha1, ha2⟩ := getAckNum_eq_ok ha
  exact ⟨hs1, ha1, hs2, ha2, (getFlags_eq_ok hf).2⟩

theorem handshake_cases {s : Sender} (hpc : s.pc = .handshake) (o : Outcome) :
    Step c s (.receive o) (s.handshake c o).1 (s.handshake c o).2 := by
  cases o with
  | timeout => exact .resend (o := .timeout) hpc
  | datagram d =>
    unfold handshake
    simp only []
    split
    · rename_i h
      exact .answered hpc h
    · exact .passOver hpc
    · exact .resend (o := .datagram d) hpc

theorem closeAck_cases {s : Sender} (hpc : s.pc = .closeAck) (o : Outcome) :
    Step c s (.receive o) (s.closeAck o).1 (s.closeAck o).2 := by
  cases o with
  | timeout => exact .closeTimeout (.inl hpc)
  | datagram d =>
    unfold Sender.closeAck
    simp only []
    split
    · exact .closeThrows (.inl hpc)
    · rename_i seq ack flags h
      obtain ⟨hs, ha, -, hack, hflags⟩ := closeFields_eq_ok h
      split_ifs with hif <;> rw [hack, hflags] at hif
      · exact .closeAcked hpc (by exact_mod_cast hif.1) hif.2
      · exact .closeOther hpc hs ha (by exact_mod_cast hif)

theorem closeFin_cases {s : Sender} (hpc : s.pc = .closeFin) (o : Outcome) :
    Step c s (.receive o) (s.closeFin c o).1 (s.closeFin c o).2 := by
  cases o with
  | timeout => exact .closeTimeout (.inr hpc)
  | datagram d =>
    unfold Sender.closeFin
    simp only []
    split
    · exact .closeThrows (.inr hpc)
    · rename_i seq ack flags h
      obtain ⟨hs, ha, rfl, -, rfl⟩ := closeFields_eq_ok h
      split_ifs with hif
      · exact .closeFin hpc hif
      · exact .finOther hpc hs ha hif

/-- The one step that is none of these: a chunk read through a window with no room for data. -/
theorem senderStep_cases_or {s s' : Sender} {i : SenderInput} {out : List Bytes}
    (hT : s.TriesInv) (h : senderStep c s i = some (s', out)) :
    Step c s i s' out ∨ (c.WINDOW_SIZE ≤ 24 ∧ s.pc = .fileLoop ∧ s' = s.withChunk c ∧
      out = [segment c s.seqNum s.ackNum (s.fis.take c.chunkSize)]) := by
  cases i with
  | run =>
    unfold senderStep at h
    rcases hpc : s.pc <;> rw [hpc] at h <;> simp only [reduceCtorEq, Option.some.injEq] at h
    · rcases Nat.lt_or_ge 24 c.WINDOW_SIZE with hW | hW
      · by_cases hf : s.fis = []
        · rw [readChunk_eof hW hf] at h
          cases h
          exact .inl (.eof hpc hf)
        · rw [readChunk_data (.inr hf)] at h
          cases h
          exact .inl (.read hpc hf)
      · rw [readChunk_data (.inl hW)] at h
        cases h
        exact .inr ⟨hW, rfl, rfl, rfl⟩
    · unfold finalDecision at h
      split_ifs at h with hb
      · cases h
        exact .inl (.failed hpc hb)
      · cases h
        exact .inl (.close hpc (by simpa using hb))
  | receive o =>
    refine .inl ?_
    by_cases hw : s.pc.waiting
    · exact .ack hw (senderStep_waiting hw hT h)
    · unfold senderStep at h
      rcases hpc : s.pc <;> rw [hpc] at h hw <;>
        simp only [reduceCtorEq, Option.some.injEq, SenderPc.waiting, not_true] at h hw
      · have := handshake_cases (c := c) hpc o
        rwa [h] at this
      · have := closeAck_cases (c := c) hpc o
        rwa [h] at this
      · have := closeFin_cases (c := c) hpc o
        rwa [h] at this

theorem senderStep_cases {s s' : Sender} {i : SenderInput} {out : List Bytes}
    (hW : 24 < c.WINDOW_SIZE) (hT : s.TriesInv) (h : senderStep c s i = some (s', out)) :
    Step c s i s' out :=
  (senderStep_cases_or hT h).resolve_right fun hno => absurd hno.1 (by omega)

end Sender

end TcpLike
