import TcpLike.Proofs.SenderCases

/-!
# The invariant of the sender

The sender's counters say how much of the file it has read (`Sender.Inv`): `k` chunks, and while it
waits, the last of them is in hand. Whatever it has sent is the window-size datagram, the segment of
a chunk read, the FIN or the final ACK (`Sender.Sent`).
-/

namespace TcpLike

variable (c : SenderConfig) (file : Bytes)

/-- Chunk `i` of the file. -/
def chunk (i : ℕ) : Bytes := (file.drop (i * c.chunkSize)).take c.chunkSize

/-- The datagram that carries chunk `i`. -/
def dataSegment (i : ℕ) : Bytes :=
  segment c (i * c.chunkSize : ℕ) (i + 1 : ℕ) (chunk c file i)

section Chunk

variable {c file} {i : ℕ}

theorem length_chunk :
    (chunk c file i).length = min c.chunkSize (file.length - i * c.chunkSize) := by
  simp [chunk]

theorem length_chunk_pos (hW : 24 < c.WINDOW_SIZE) (h : i * c.chunkSize < file.length) :
    0 < (chunk c file i).length := by
  rw [length_chunk, SenderConfig.chunkSize] at *
  omega

theorem chunk_end (h : i * c.chunkSize ≤ file.length) :
    i * c.chunkSize + (chunk c file i).length = min ((i + 1) * c.chunkSize) file.length := by
  rw [length_chunk, add_one_mul]
  omega

theorem take_append_chunk (i : ℕ) :
    file.take (i * c.chunkSize) ++ chunk c file i = file.take ((i + 1) * c.chunkSize) := by
  rw [chunk, add_one_mul, List.take_add]

theorem lt_of_mul_chunkSize_lt (hW : 24 < c.WINDOW_SIZE) {m : ℕ} (h : i * c.chunkSize < m) :
    i < m :=
  (Nat.le_mul_of_pos_right i (by unfold SenderConfig.chunkSize; omega)).trans_lt h

variable (c file i) in
theorem take_dataSegment : (dataSegment c file i).take 24 = segmentHeader c (i * c.chunkSize : ℕ)
    (i + 1 : ℕ) (chunk c file i)
    (segmentSum c (i * c.chunkSize : ℕ) (i + 1 : ℕ) (chunk c file i)) :=
  take_segment c _ _ _

theorem seqField_dataSegment (h : i * c.chunkSize < 2 ^ 31) :
    seqField (dataSegment c file i) = i * c.chunkSize := by
  have := seqField_header (take_dataSegment c file i)
  omega

theorem ackField_dataSegment (h : i < 2 ^ 31) : ackField (dataSegment c file i) = i + 1 := by
  have := ackField_header (take_dataSegment c file i)
  omega

theorem sizeField_dataSegment (h : (chunk c file i).length < 2 ^ 32) :
    sizeField (dataSegment c file i) = (chunk c file i).length := by
  have := sizeField_header (take_dataSegment c file i)
  omega

theorem flagsByte_dataSegment : flagsByte (dataSegment c file i) = 16 :=
  flagsByte_header (take_dataSegment c file i)

end Chunk

namespace SenderPc

/-- The sender has left its file loop, or ended in it. -/
def past : SenderPc → Bool
  | .leftLoop | .closeAck | .closeFin | .delivered | .failed | .aborted => true
  | _ => false

theorem not_waiting_of_past {pc : SenderPc} (h : pc.past) : ¬ pc.waiting := by
  cases pc <;> simp_all [past, waiting]

end SenderPc

namespace Sender

/-- How many chunks the sender has read. -/
def chunksRead (s : Sender) : ℕ := s.ackNum - 1

structure Inv (s : Sender) : Prop where
  ackNum : 0 < s.ackNum
  fis : s.fis = file.drop (s.chunksRead * c.chunkSize)
  seqNum : s.seqNum = min (s.chunksRead * c.chunkSize) file.length
  FILE_SIZE : s.FILE_SIZE = min (file.length : ℤ) (2 ^ 31 - 1)
  inPacket : s.inPacket.data.length = 24
  tries : s.TriesInv
  handshake : s.pc = .handshake → s.chunksRead = 0
  /-- past the first chunk of 2 GB no ack is a valid one -/
  small : s.pc = .fileLoop → s.seqNum < 2 ^ 31
  read : ∀ i < s.chunksRead, i * c.chunkSize < file.length ∧ i * c.chunkSize < 2 ^ 31
  held : s.pc.waiting → ∃ i, s.chunksRead = i + 1 ∧
    s.Holds c (i * c.chunkSize : ℕ) (i + 1 : ℕ) (chunk c file i)

/-- What the sender may have sent by now. -/
inductive Sent (s : Sender) : Bytes → Prop
  | window : Sent s (windowDatagram c)
  | data {i : ℕ} (hi : i < s.chunksRead) : Sent s (dataSegment c file i)
  | fin (hpc : s.pc.past) (hb : s.isBroken = false) : Sent s (finDatagram c)
  | finalAck (x : ℕ) (hpc : s.pc = .delivered) : Sent s (finalAck c x)

/-- The two states agree on what has been read. -/
structure Level (s s' : Sender) : Prop where
  fis : s'.fis = s.fis
  FILE_SIZE : s'.FILE_SIZE = s.FILE_SIZE
  seqNum : s'.seqNum = s.seqNum
  ackNum : s'.ackNum = s.ackNum
  inPacket : s'.inPacket.data.length = s.inPacket.data.length

section Steps

variable {c file} {s s' : Sender} {i : SenderInput} {o : Outcome} {out : List Bytes}

theorem Kept.level (h : Kept s s') (hp : s'.inPacket = s.packetAfter o) : Level s s' := by
  refine ⟨h.fis, h.FILE_SIZE, h.seqNum, h.ackNum, ?_⟩
  rw [hp]
  cases o <;> simp [packetAfter]

theorem Level.chunksRead (h : Level s s') : s'.chunksRead = s.chunksRead := by
  rw [Sender.chunksRead, h.ackNum, Sender.chunksRead]

theorem Inv.of_level (hs : s.Inv c file) (h : Level s s') (tries : s'.TriesInv)
    (handshake : s'.pc = .handshake → s.pc = .handshake)
    (small : s'.pc = .fileLoop → s.seqNum < 2 ^ 31)
    (held : s'.pc.waiting → ∃ i, s.chunksRead = i + 1 ∧
      s'.Holds c (i * c.chunkSize : ℕ) (i + 1 : ℕ) (chunk c file i)) : s'.Inv c file where
  ackNum := h.ackNum ▸ hs.ackNum
  fis := by rw [h.fis, h.chunksRead, hs.fis]
  seqNum := by rw [h.seqNum, h.chunksRead, hs.seqNum]
  FILE_SIZE := h.FILE_SIZE.trans hs.FILE_SIZE
  inPacket := h.inPacket.trans hs.inPacket
  tries := tries
  handshake hpc := h.chunksRead.trans (hs.handshake (handshake hpc))
  small hpc := h.seqNum ▸ small hpc
  read := h.chunksRead ▸ hs.read
  held := h.chunksRead ▸ held

theorem triesInv_of_past (h : s.pc.past) : s.TriesInv := by
  refine ⟨fun hpc => ?_, fun hpc => ?_, fun hpc => ?_⟩
  · rcases hpc with hpc | hpc | hpc <;> rw [hpc] at h <;> simp [SenderPc.past] at h
  · rcases hpc with hpc | hpc <;> rw [hpc] at h <;> simp [SenderPc.past] at h
  · rw [hpc] at h
    simp [SenderPc.past] at h

theorem triesInv_withChunk (hT : s.TriesInv) (hpc : s.pc = .fileLoop) :
    (s.withChunk c).TriesInv := by
  refine ⟨fun _ => hT.next (.inr (.inl hpc)), ?_, ?_⟩ <;> simp [withChunk]

theorem Step.triesInv (hT : s.TriesInv) (h : Step c s i s' out) : s'.TriesInv := by
  cases h with
  | resend hpc | passOver hpc | answered hpc =>
    refine ⟨fun _ => hT.next (.inl hpc), ?_, ?_⟩ <;> simp [receive, hpc]
  | read hpc => exact triesInv_withChunk hT hpc
  | ack _ h =>
    cases h with
    | retry _ _ _ hT | next _ _ _ hT => exact hT
    | left _ _ hpc => exact triesInv_of_past (by rw [hpc]; rfl)
  | _ => exact triesInv_of_past rfl

theorem Inv.of_past (hs : s.Inv c file) (h : Level s s') (hp : s'.pc.past) : s'.Inv c file := by
  refine hs.of_level h (triesInv_of_past hp) (fun hpc => ?_) (fun hpc => ?_)
    fun hw => absurd hw (SenderPc.not_waiting_of_past hp)
  · simp [hpc, SenderPc.past] at hp
  · simp [hpc, SenderPc.past] at hp

theorem inv_init : (Sender.init file).Inv c file where
  ackNum := one_pos
  fis := by simp [Sender.init, chunksRead]
  seqNum := by simp [Sender.init, chunksRead]
  FILE_SIZE := rfl
  inPacket := rfl
  tries := ⟨by simp [Sender.init, MAXTRIES], by simp [Sender.init], by simp [Sender.init]⟩
  handshake _ := rfl
  small _ := by simp [Sender.init]
  read i hi := by simp [Sender.init, chunksRead] at hi
  held h := by simp [Sender.init, SenderPc.waiting] at h

theorem Inv.ackNum_eq (hs : s.Inv c file) : s.ackNum = s.chunksRead + 1 := by
  have := hs.ackNum
  unfold chunksRead
  omega

theorem Inv.fis_ne_nil (hs : s.Inv c file) :
    s.fis ≠ [] ↔ s.chunksRead * c.chunkSize < file.length := by
  rw [hs.fis, Ne, List.drop_eq_nil_iff]
  omega

theorem chunksRead_withChunk (hs : s.Inv c file) :
    (s.withChunk c).chunksRead = s.chunksRead + 1 := by
  have := hs.ackNum_eq
  simp only [chunksRead, withChunk] at this ⊢
  omega

theorem Inv.segment_eq (hs : s.Inv c file) (hf : s.fis ≠ []) :
    segment c s.seqNum s.ackNum (s.fis.take c.chunkSize) = dataSegment c file s.chunksRead := by
  have hk := hs.fis_ne_nil.1 hf
  rw [hs.seqNum, hs.ackNum_eq, hs.fis, dataSegment, chunk, min_eq_left hk.le]

theorem inv_withChunk (hs : s.Inv c file) (hpc : s.pc = .fileLoop) (hf : s.fis ≠ []) :
    (s.withChunk c).Inv c file := by
  have hk := hs.fis_ne_nil.1 hf
  have hread := chunksRead_withChunk hs
  have hseq : s.seqNum = s.chunksRead * c.chunkSize := by rw [hs.seqNum, min_eq_left hk.le]
  have hdata : s.fis.take c.chunkSize = chunk c file s.chunksRead := by rw [hs.fis, chunk]
  have hend := chunk_end hk.le
  refine ⟨Nat.succ_pos _, ?_, ?_, hs.FILE_SIZE, hs.inPacket, ?_, ?_, ?_, ?_, ?_⟩
  · rw [hread]
    have hd : (s.withChunk c).fis = s.fis.drop (s.fis.take c.chunkSize).length := rfl
    rw [hd, hdata, hs.fis, List.drop_drop, hend]
    rcases le_total ((s.chunksRead + 1) * c.chunkSize) file.length with h | h
    · rw [min_eq_left h]
    · rw [min_eq_right h, List.drop_length, List.drop_eq_nil_of_le h]
  · rw [hread, ← hend, ← hdata, ← hseq]
    rfl
  · exact triesInv_withChunk hs.tries hpc
  · simp [withChunk]
  · simp [withChunk]
  · intro i hi
    rw [hread] at hi
    rcases Nat.lt_succ_iff_lt_or_eq.1 hi with hi | rfl
    · exact hs.read i hi
    · exact ⟨hk, hseq ▸ hs.small hpc⟩
  · intro _
    refine ⟨s.chunksRead, hread, ?_⟩
    have h := holds_withChunk c s
    rwa [hdata, hseq, hs.ackNum_eq] at h

theorem AckStep.small (hs : s.Inv c file) (hv : isValidAck s'.inPacket s.seqNum = .ok true ∨
    (s.pc = .firstReceive ∧ (s.seqNum : ℤ) = s.FILE_SIZE ∧
      isValidAck s'.inPacket s.seqNum = .ok false))
    (hin : s'.inPacket.data.length = 24) : s.seqNum < 2 ^ 31 := by
  rcases hv with hv | ⟨-, hsz, -⟩
  · exact (ackField_of_isValidAck (by omega) hv).2
  · have := hs.FILE_SIZE
    omega

theorem Inv.ackStep (hs : s.Inv c file) (hw : s.pc.waiting) (h : AckStep c s o (s', out)) :
    s'.Inv c file := by
  obtain ⟨i, hi, hh⟩ := hs.held hw
  cases h with
  | retry hk hp hpc hT =>
    refine hs.of_level (hk.level hp) hT (fun h => ?_) (fun h => ?_)
      fun _ => ⟨i, hi, hh.of_kept hk⟩
    · rcases hpc with hpc | hpc <;> rw [hpc] at h <;> cases h
    · rcases hpc with hpc | hpc <;> rw [hpc] at h <;> cases h
  | next hk hp hpc hT _ hv =>
    have hl := hk.level hp
    exact hs.of_level hl hT (by simp [hpc])
      (fun _ => AckStep.small hs hv (hl.inPacket.trans hs.inPacket))
      (by simp [hpc, SenderPc.waiting])
  | left hk hp hpc => exact hs.of_past (hk.level hp) (by simp [hpc, SenderPc.past])

/-- In the handshake, and out of it, nothing but the packet changes. -/
theorem Inv.of_handshake (hs : s.Inv c file) (hpc : s.pc = .handshake) (hl : Level s s')
    (hT : s'.TriesInv) (hpc' : s'.pc = .handshake ∨ s'.pc = .fileLoop) : s'.Inv c file := by
  have hseq : s.seqNum = 0 := by simp [hs.seqNum, hs.handshake hpc]
  refine hs.of_level hl hT (fun _ => hpc) (by simp [hseq]) ?_
  rcases hpc' with h | h <;> simp [h, SenderPc.waiting]

theorem Inv.step (hs : s.Inv c file) (h : Step c s i s' out) : s'.Inv c file := by
  have hT := h.triesInv hs.tries
  cases h with
  | @resend o hpc =>
    refine hs.of_handshake hpc ⟨rfl, rfl, rfl, rfl, ?_⟩ hT (.inl hpc)
    cases o <;> simp [packetAfter]
  | passOver hpc =>
    exact hs.of_handshake hpc ⟨rfl, rfl, rfl, rfl, length_receive _ _⟩ hT (.inl hpc)
  | answered hpc =>
    exact hs.of_handshake hpc ⟨rfl, rfl, rfl, rfl, length_receive _ _⟩ hT (.inr rfl)
  | eof hpc => exact hs.of_past ⟨rfl, rfl, rfl, rfl, rfl⟩ rfl
  | read hpc hf => exact inv_withChunk hs hpc hf
  | ack hw h => exact hs.ackStep hw h
  | failed | close | closeTimeout => exact hs.of_past ⟨rfl, rfl, rfl, rfl, rfl⟩ rfl
  | closeThrows | closeAcked | closeOther | closeFin | finOther =>
    exact hs.of_past ⟨rfl, rfl, rfl, rfl, length_receive _ _⟩ rfl

/-! ## What the sender has sent -/

theorem AckStep.kept (h : AckStep c s o (s', out)) : Kept s s' := by
  cases h <;> assumption

theorem AckStep.chunksRead (h : AckStep c s o (s', out)) : s'.chunksRead = s.chunksRead := by
  rw [Sender.chunksRead, h.kept.ackNum, Sender.chunksRead]

theorem AckStep.pc_cases (h : AckStep c s o (s', out)) :
    (s'.pc = .wrongAck ∨ s'.pc = .noResponse) ∨ s'.pc = .fileLoop ∨ s'.pc = .leftLoop := by
  cases h with
  | retry _ _ hpc => exact .inl hpc
  | next _ _ hpc => exact .inr (.inl hpc)
  | left _ _ hpc => exact .inr (.inr hpc)

/-- The file loop goes on behind a valid ack, or at the end of the file behind any datagram. -/
theorem AckStep.of_fileLoop (h : AckStep c s o (s', out)) (hpc : s'.pc = .fileLoop) :
    ((o = .timeout → s.pc = .wrongAck) ∧ isValidAck (s.packetAfter o) s.seqNum = .ok true) ∨
      ∃ d, o = .datagram d ∧ s.pc = .firstReceive ∧ (s.seqNum : ℤ) = s.FILE_SIZE ∧
        isValidAck (s.inPacket.receive d) s.seqNum = .ok false := by
  cases h with
  | retry _ _ hpc' => rcases hpc' with h | h <;> rw [h] at hpc <;> cases hpc
  | left _ _ hpc' =>
    rw [hpc'] at hpc
    cases hpc
  | next _ hp _ _ hto hv =>
    rw [hp] at hv
    rcases hv with hv | ⟨hfirst, hsz, hv⟩
    · exact .inl ⟨hto, hv⟩
    · cases o with
      | timeout => simp [hto rfl] at hfirst
      | datagram d => exact .inr ⟨d, rfl, hfirst, hsz, hv⟩

theorem AckStep.looks (h : AckStep c s o (s', out)) (hpc : s'.pc = .fileLoop) : s.Looks o := by
  cases h with
  | retry _ _ hpc' => rcases hpc' with h | h <;> rw [h] at hpc <;> cases hpc
  | left _ _ hpc' =>
    rw [hpc'] at hpc
    cases hpc
  | next _ _ _ _ _ _ hl => exact hl

theorem AckStep.mem_out (h : AckStep c s o (s', out)) {d : Bytes} (hd : d ∈ out) :
    d = s.current c := by
  cases h with
  | retry => exact List.mem_singleton.1 hd
  | next | left => simp at hd

theorem Step.past (h : Step c s i s' out) (hp : s.pc.past) :
    s'.pc.past ∧ s'.isBroken = s.isBroken := by
  cases h with
  | resend hpc | passOver hpc | answered hpc | eof hpc | read hpc =>
    rw [hpc] at hp
    simp [SenderPc.past] at hp
  | ack hw => exact absurd hw (SenderPc.not_waiting_of_past hp)
  | failed | close | closeTimeout | closeThrows | closeAcked | closeOther | closeFin | finOther =>
    exact ⟨rfl, rfl⟩

theorem Step.not_delivered (h : Step c s i s' out) : s.pc ≠ .delivered := by
  intro hpc
  cases h <;> simp_all [SenderPc.waiting]

theorem Step.chunksRead_le (hs : s.Inv c file) (h : Step c s i s' out) :
    s.chunksRead ≤ s'.chunksRead := by
  cases h with
  | read => exact (Nat.le_succ _).trans (chunksRead_withChunk hs).ge
  | ack hw h => exact h.chunksRead.ge
  | _ => exact le_rfl

theorem Sent.mono (hs : s.Inv c file) (h : Step c s i s' out) {d : Bytes}
    (hd : s.Sent c file d) : s'.Sent c file d := by
  cases hd with
  | window => exact .window
  | data hi => exact .data (hi.trans_le (h.chunksRead_le hs))
  | fin hpc hb => exact .fin (h.past hpc).1 ((h.past hpc).2.trans hb)
  | finalAck x hpc => exact absurd hpc h.not_delivered

theorem sent_of_mem_out (hs : s.Inv c file) (h : Step c s i s' out) {d : Bytes} (hd : d ∈ out) :
    s'.Sent c file d := by
  cases h with
  | resend =>
    rw [List.mem_singleton.1 hd]
    exact .window
  | read hpc hf =>
    rw [List.mem_singleton.1 hd, hs.segment_eq hf]
    exact .data ((chunksRead_withChunk hs).symm ▸ Nat.lt_succ_self _)
  | ack hw h =>
    obtain ⟨k, hk, hh⟩ := hs.held hw
    rw [h.mem_out hd, hh.current]
    refine .data ?_
    rw [h.chunksRead, hk]
    exact Nat.lt_succ_self k
  | close hpc hb =>
    rw [List.mem_singleton.1 hd]
    exact .fin rfl hb
  | closeFin =>
    rw [List.mem_singleton.1 hd]
    exact .finalAck _ rfl
  | _ => simp at hd

end Steps

end Sender

end TcpLike
