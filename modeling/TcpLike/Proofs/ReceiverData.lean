import TcpLike.Proofs.CloseInv

/-!
# The receiver and the segments

What the receiver answers to the segment of chunk `i` is the same datagram each time, numbered as if
the chunk were a full one (`ackDatagram`): the size it adds is its buffer's. A window-size datagram
that passes the checksum test is answered as chunk 0 is, and stores nothing.
-/

namespace TcpLike

variable (c : Config)

/-- The bytes of a full chunk. -/
abbrev Config.chunkSize : ℕ := c.sender.chunkSize

/-- The ack of the chunk `i`. -/
def ackDatagram (i : ℕ) : Bytes :=
  tcpHeader c.receiver.SRC_PORT c.receiver.DEST_PORT (i + 1 : ℕ)
    (int32 ((i + 1) * c.chunkSize : ℕ)) 5 16 c.sender.WINDOW_SIZE 0 0 24

section Ack

variable {c} {i : ℕ}

@[simp] theorem length_ackDatagram : (ackDatagram c i).length = 24 := rfl

theorem flagsByte_ackDatagram : flagsByte (ackDatagram c i) = 16 := rfl

@[simp] theorem flagsField_ackDatagram : flagsField (ackDatagram c i) = 16 := rfl

theorem ackField_ackDatagram (h : (i + 1) * c.chunkSize < 2 ^ 32) :
    ackField (ackDatagram c i) = (i + 1) * c.chunkSize := by
  have := ackField_header (d := ackDatagram c i) rfl
  rw [int32_emod] at this
  omega

theorem seqField_ackDatagram (h : i + 1 < 2 ^ 32) : seqField (ackDatagram c i) = i + 1 := by
  have := seqField_header (d := ackDatagram c i) rfl
  omega

end Ack

namespace Receiver

/-- The receiver's data agree with its count of segments. -/
structure Data (r : Receiver) : Prop where
  outData : r.outData = if r.ackFlag = 0 then none else some (ackDatagram c (r.ackFlag - 1))
  fresh : r.pc = .handshake → r.ackFlag = 0 ∧ r.file = [] ∧ r.inPacket.data.length = 24
  window : r.pc ≠ .handshake → r.WINDOW_SIZE = c.sender.WINDOW_SIZE
  buffer : r.pc ≠ .handshake → r.inPacket.data.length = c.sender.WINDOW_SIZE

/-- The receiver once it has accepted chunk `i`, with `data` as its payload. -/
def stores (r : Receiver) (i : ℕ) (data : Bytes) (w : WriteOutcome) : Receiver :=
  { r with
    ackNum := int32 ((i + 1) * c.chunkSize : ℕ)
    file := r.file ++ w.stored data
    seqNum := (i + 1 : ℕ)
    outData := some (ackDatagram c i)
    ackFlag := r.ackFlag + 1 }

variable {c} {file : Bytes} {r : Receiver} {d : Bytes} {w : WriteOutcome}

theorem length_le_buffer (hW : 24 < c.sender.WINDOW_SIZE) (i : ℕ) :
    (dataSegment c.sender file i).length ≤ c.sender.WINDOW_SIZE := by
  rw [length_dataSegment, length_chunk, SenderConfig.chunkSize]
  omega

theorem fields_receive (h24 : 24 ≤ r.inPacket.data.length) (hd : 24 ≤ d.length) :
    seqField (r.receive d).inPacket.data = seqField d ∧
      ackField (r.receive d).inPacket.data = ackField d ∧
      flagsField (r.receive d).inPacket.data = flagsField d ∧
      sizeField (r.receive d).inPacket.data = sizeField d ∧
      checksumField (r.receive d).inPacket.data = checksumField d := by
  have ht : (r.receive d).inPacket.data.take 24 = d.take 24 := take_receive hd h24
  obtain ⟨h1, h2, h3⟩ := fields_congr ht (by omega)
  exact ⟨h1, h2, h3, field_congr ht (by omega), field_congr ht (by omega)⟩

/-- What is accepted is stored as the chunk of its sequence number. -/
theorem accepted_eq (hW : 24 < c.sender.WINDOW_SIZE) (hr : r.Data c)
    (hpc : r.pc = .receiveLoop) (hd : 24 ≤ d.length) (hl : d.length ≤ c.sender.WINDOW_SIZE)
    {i : ℕ} (hseq : seqField d = i * c.chunkSize) (hack : ackField d = i + 1) {data : Bytes}
    (hsize : sizeField d = data.length) (hdata : d.drop 24 = data) :
    (r.receive d).accepted c.receiver w = (r.receive d).stores c i data w ∧
      (r.receive d).reply c.receiver = ackDatagram c i := by
  have hb : r.inPacket.data.length = c.sender.WINDOW_SIZE := hr.buffer (by simp [hpc])
  have hwin : (r.receive d).WINDOW_SIZE = c.sender.WINDOW_SIZE := hr.window (by simp [hpc])
  obtain ⟨h1, h2, -, h4, -⟩ := fields_receive (r := r) (by omega) hd
  have hlen : (r.receive d).inPacket.data.length = c.sender.WINDOW_SIZE :=
    (length_receive _ _).trans hb
  have hnum : ((i * c.chunkSize : ℕ) : ℤ) + c.sender.WINDOW_SIZE - 24
      = ((i + 1) * c.chunkSize : ℕ) := by
    have : c.chunkSize + 24 = c.sender.WINDOW_SIZE := by
      unfold Config.chunkSize SenderConfig.chunkSize
      omega
    rw [add_one_mul, ← this]
    push_cast
    ring
  have hpay : (r.receive d).payload = data := by
    have hdr : (r.receive d).inPacket.data.drop 24 = data ++ r.inPacket.data.drop d.length := by
      have he : (r.receive d).inPacket.data = d ++ r.inPacket.data.drop d.length :=
        data_receive (by omega)
      rw [he, List.drop_append_of_le_length hd, hdata]
    rw [payload, h4, hsize, hdr, List.takeD_eq_take _ (by simp), List.take_left]
  have hreply : (r.receive d).reply c.receiver = ackDatagram c i := by
    rw [reply, h1, h2, hseq, hack, hlen, hnum, hwin, ackDatagram]
  refine ⟨?_, hreply⟩
  rw [accepted, hreply, hpay, h1, h2, hseq, hack, hlen, hnum, stores]

variable (file) in
theorem accepted_dataSegment (hW : 24 < c.sender.WINDOW_SIZE) (hW' : c.sender.WINDOW_SIZE < 2 ^ 16)
    (hr : r.Data c) (hpc : r.pc = .receiveLoop) {i : ℕ} (hi : i * c.chunkSize < 2 ^ 31) :
    (r.receive (dataSegment c.sender file i)).accepted c.receiver w
        = (r.receive (dataSegment c.sender file i)).stores c i (chunk c.sender file i) w ∧
      (r.receive (dataSegment c.sender file i)).reply c.receiver = ackDatagram c i := by
  have hlt : i < 2 ^ 31 := lt_of_mul_chunkSize_lt hW hi
  have hlen : (chunk c.sender file i).length < 2 ^ 32 := by
    rw [length_chunk, SenderConfig.chunkSize]
    omega
  exact accepted_eq hW hr hpc (by simp) (length_le_buffer hW i) (seqField_dataSegment hi)
    (ackField_dataSegment hlt) (sizeField_dataSegment hlen) (drop_segment _ _ _ _)

theorem accepted_windowDatagram (hW : 24 < c.sender.WINDOW_SIZE) (hr : r.Data c)
    (hpc : r.pc = .receiveLoop) :
    (r.receive (windowDatagram c.sender)).accepted c.receiver w
        = (r.receive (windowDatagram c.sender)).stores c 0 [] w ∧
      (r.receive (windowDatagram c.sender)).reply c.receiver = ackDatagram c 0 := by
  have hseq : seqField (windowDatagram c.sender) = 0 * c.chunkSize := by
    rw [zero_mul]
    rfl
  exact accepted_eq (d := windowDatagram c.sender) (i := 0) hW hr hpc le_rfl hW.le hseq rfl rfl rfl

variable (file) in
/-- The round on a data segment: stored the first time, and acked each time. -/
theorem receiveLoop_dataSegment (hW : 24 < c.sender.WINDOW_SIZE)
    (hW' : c.sender.WINDOW_SIZE < 2 ^ 16) (hr : r.Data c) (hpc : r.pc = .receiveLoop) {i : ℕ}
    (hi : i * c.chunkSize < 2 ^ 31) (hi' : i + 1 < 2 ^ 31) :
    r.receiveLoop c.receiver (dataSegment c.sender file i) w =
      if r.ackFlag < i + 1 then
        ((r.receive (dataSegment c.sender file i)).stores c i (chunk c.sender file i) w,
          [ackDatagram c i])
      else (r.receive (dataSegment c.sender file i), [ackDatagram c (r.ackFlag - 1)]) := by
  have hb : r.inPacket.data.length = c.sender.WINDOW_SIZE := hr.buffer (by simp [hpc])
  have hlen : (r.receive (dataSegment c.sender file i)).inPacket.data.length
      = c.sender.WINDOW_SIZE := (length_receive _ _).trans hb
  have hl : (dataSegment c.sender file i).length ≤ c.sender.WINDOW_SIZE := length_le_buffer hW i
  have hl24 : 24 ≤ (dataSegment c.sender file i).length := by simp
  have hcl : (chunk c.sender file i).length < 2 ^ 16 := by
    rw [length_chunk, SenderConfig.chunkSize]
    omega
  obtain ⟨h1, h2, h3, h4, h5⟩ := fields_receive (r := r) (d := dataSegment c.sender file i)
    (by omega) hl24
  rw [seqField_dataSegment hi] at h1
  rw [ackField_dataSegment (by omega)] at h2
  rw [flagsField_dataSegment] at h3
  rw [sizeField_dataSegment (by omega)] at h4
  have hint : (r.receive (dataSegment c.sender file i)).Intact := by
    have hdata := take_length_receive (p := r.inPacket) (d := dataSegment c.sender file i)
      (by omega)
    have hsum : generateChecksum (dataSegment c.sender file i)
        = .ok (checksumField (dataSegment c.sender file i) : ℤ) := checksumField_segment _ _ _ _
    rw [Intact, h5]
    exact hdata.symm ▸ hsum
  have hplen : 17 ≤ (r.receive (dataSegment c.sender file i)).inPacket.length := by
    have : (r.receive (dataSegment c.sender file i)).inPacket.length
        = min (dataSegment c.sender file i).length r.inPacket.data.length := rfl
    omega
  have hbody := loopBody_eq (c := c.receiver) (r := r.receive (dataSegment c.sender file i))
    (w := w) (by omega) hplen
  have hacc := accept_eq (c := c.receiver) (r := r.receive (dataSegment c.sender file i)) (w := w)
    (by omega) (h1.trans_lt hi) (by omega) (by omega)
  obtain ⟨ha1, -⟩ := accepted_dataSegment file (w := w) hW hW' hr hpc hi
  rw [h4, if_pos (by omega), ha1] at hacc
  rw [h1, h2, h3, h4, if_pos ⟨hi, hi'⟩, if_neg (by decide), if_pos (by omega), if_pos hint] at hbody
  refine receiveLoop_of_ok (hbody.trans ?_)
  unfold acceptNew
  by_cases hlt : r.ackFlag < i + 1
  · have hlt' : ((r.receive (dataSegment c.sender file i)).ackFlag : ℤ) < (i + 1 : ℕ) := by
      exact_mod_cast hlt
    rw [if_pos hlt', hacc, if_pos hlt]
    rfl
  · have hlt' : ¬ ((r.receive (dataSegment c.sender file i)).ackFlag : ℤ) < (i + 1 : ℕ) := by
      exact_mod_cast hlt
    have hout : (r.receive (dataSegment c.sender file i)).outData
        = some (ackDatagram c (r.ackFlag - 1)) := hr.outData.trans (if_neg (by omega))
    rw [if_neg hlt', if_neg hlt, java_ok_bind, hout]

/-- A round of the receive loop, by the fields of the datagram received. -/
inductive Round (c : Config) (r : Receiver) (d : Bytes) (w : WriteOutcome) :
    Receiver × List Bytes → Prop
  | aborted : Round c r d w ({ r.receive d with pc := .aborted }, [])
  | ignored : Round c r d w (r.receive d, [])
  | fin (hf : flagsField d = 1) : Round c r d w ((r.receive d).closeProcess c.receiver)
  | repeated (hf : flagsField d ≠ 1) (h0 : 0 < r.ackFlag) (ha : ackField d ≤ r.ackFlag) :
      Round c r d w (r.receive d, [ackDatagram c (r.ackFlag - 1)])
  | accepted (hf : flagsField d ≠ 1) (hs : seqField d < 2 ^ 31) (ha : ackField d < 2 ^ 31)
      (hi : generateChecksum d = .ok (checksumField d : ℤ)) (hlt : r.ackFlag < ackField d) :
      Round c r d w
        ((r.receive d).accepted c.receiver w, [(r.receive d).reply c.receiver])

theorem round_cases (hW : 24 < c.sender.WINDOW_SIZE) (hr : r.Data c) (hpc : r.pc = .receiveLoop)
    (hd : 24 ≤ d.length) (hl : d.length ≤ c.sender.WINDOW_SIZE) (w : WriteOutcome) :
    Round c r d w (r.receiveLoop c.receiver d w) := by
  have hb : r.inPacket.data.length = c.sender.WINDOW_SIZE := hr.buffer (by simp [hpc])
  have hlen : (r.receive d).inPacket.data.length = c.sender.WINDOW_SIZE :=
    (length_receive _ _).trans hb
  have hout : (r.receive d).outData = r.outData := rfl
  have hflag : (r.receive d).ackFlag = r.ackFlag := rfl
  obtain ⟨h1, h2, h3, -, h5⟩ := fields_receive (r := r) (by omega) hd
  rcases receiveLoop_cases c.receiver r d w with h | h
  · rw [h]
    exact .aborted
  · generalize r.receiveLoop c.receiver d w = res at h
    cases h with
    | sizeReply hb' => omega
    | fin _ hf => exact .fin (h3 ▸ hf)
    | ignored => exact .ignored
    | repeated hf _ ha hm =>
      rw [h3] at hf
      rw [h2, hflag] at ha
      rw [hout, hr.outData] at hm
      split_ifs at hm with h0
      cases hm
      exact .repeated hf (by omega) ha
    | accepted _ hf hs ha hi hlt =>
      rw [h3] at hf
      rw [h1] at hs
      rw [h2] at ha hlt
      have hdata : (r.receive d).inPacket.data.take (r.receive d).inPacket.length = d :=
        take_length_receive (by omega)
      rw [Intact, hdata, h5] at hi
      exact .accepted hf hs ha hi hlt

end Receiver

end TcpLike
