import TcpLike.Proofs.Stored

/-!
# The number of an ack

The sender waits for the number at the end of the bytes it has read, the receiver adds the size of
its buffer: they agree on full segments, and on no shorter one (`ack_accepted_iff`).
-/

namespace TcpLike

variable {c : Config} {file : Bytes} {s : System}

theorem ackBit_sixteen : ackBit 16 = .ok true := by decide +kernel

section IsValidAck

variable {p : DatagramPacket} {i : ℕ}

theorem isValidAck_ackDatagram_eq (hp : p.data = ackDatagram c i)
    (hi : (i + 1) * c.chunkSize < 2 ^ 31) (n : ℕ) :
    isValidAck p n = .ok (decide ((i + 1) * c.chunkSize = n)) := by
  rw [isValidAck_eq (by rw [hp, length_ackDatagram]; omega), hp, flagsByte_ackDatagram,
    ackBit_sixteen, ackField_ackDatagram (by omega), ofField_of_lt hi]
  simp only [java_ok_bind, if_true, java_pure]
  congr 2
  exact propext Int.ofNat_inj

theorem isValidAck_ackDatagram (hp : p.data = ackDatagram c i)
    (hi : (i + 1) * c.chunkSize < 2 ^ 32) (n : ℕ) (hn : n < 2 ^ 31) :
    isValidAck p n = .ok true ↔ (i + 1) * c.chunkSize = n := by
  by_cases h : (i + 1) * c.chunkSize < 2 ^ 31
  · rw [isValidAck_ackDatagram_eq hp h, Except.ok.injEq, decide_eq_true_eq]
  · refine ⟨fun hv => ?_, fun he => by omega⟩
    have hf := (ackField_of_isValidAck (by rw [hp, length_ackDatagram]; omega) hv).1
    rwa [hp, ackField_ackDatagram hi] at hf

end IsValidAck

/-- What the receiver answers to the segment the sender waits on is accepted just when the segment
is a full one. -/
theorem ack_accepted_iff (hW : 24 < c.sender.WINDOW_SIZE) (hW' : c.sender.WINDOW_SIZE ≤ 65507)
    (hn : file.length < 2 ^ 31)
    (h : Run c (fun _ a => a.unaltered) (System.init c file) s) (hw : s.sender.pc.waiting)
    (hpc : s.receiver.pc = .receiveLoop) {w : WriteOutcome} {rcv : Receiver} {out : List Bytes}
    (hrcv : receiverStep c.receiver s.receiver (s.sender.current c.sender) w = some (rcv, out)) :
    (∃ m, out = [m] ∧
      isValidAck (s.sender.inPacket.receive m) s.sender.seqNum = .ok true) ↔
      s.sender.data.length = c.chunkSize := by
  have hW' : c.sender.WINDOW_SIZE < 2 ^ 16 := by omega
  have hs := (System.unalteredInv_of_run hW hW' h).transfer
  obtain ⟨j, hj, hh⟩ := hs.side.inv.held hw
  obtain ⟨hjn, hjs⟩ : j * c.chunkSize < file.length ∧ j * c.chunkSize < 2 ^ 31 :=
    hs.side.inv.read j (by omega)
  have hjlt : j < file.length := lt_of_mul_chunkSize_lt hW hjn
  have hcur : s.sender.current c.sender = dataSegment c.sender file j := hh.current
  have hloop := Receiver.receiveLoop_dataSegment file (w := w) hW hW' hs.data hpc hjs (by omega)
  have hout : out = [ackDatagram c j] := by
    have hupper := hs.upper
    unfold receiverStep at hrcv
    rw [hpc] at hrcv
    simp only [hcur, hloop, Option.some.injEq] at hrcv
    split_ifs at hrcv with hlt
    · cases hrcv
      rfl
    · have hflag : s.receiver.ackFlag - 1 = j := by omega
      cases hrcv
      rw [hflag]
  have hdata : (s.sender.inPacket.receive (ackDatagram c j)).data = ackDatagram c j :=
    data_receive_of_eq hs.side.inv.inPacket.symm
  have hlen : s.sender.data.length = min c.chunkSize (file.length - j * c.chunkSize) := by
    rw [hh.data, length_chunk]
  have hseq : s.sender.seqNum = min ((j + 1) * c.chunkSize) file.length := by
    rw [hs.side.inv.seqNum, hj]
  have hmul : (j + 1) * c.chunkSize = j * c.chunkSize + c.chunkSize := add_one_mul _ _
  have hL : c.chunkSize < 2 ^ 16 := by
    rw [Config.chunkSize, SenderConfig.chunkSize]
    omega
  have hvalid := isValidAck_ackDatagram hdata (by omega) s.sender.seqNum (by omega)
  rw [hlen]
  constructor
  · rintro ⟨m, hm, hv⟩
    rw [hout, List.singleton_inj] at hm
    rw [← hm] at hv
    have := hvalid.1 hv
    omega
  · intro hfull
    exact ⟨_, hout, hvalid.2 (by omega)⟩

/-- The two programs, with two bytes to a segment. -/
def twoBytes : Config := ⟨⟨12010, 12001, 26⟩, ⟨12001, 12010⟩⟩

/-- The handshake of `twoBytes`, and the first segment sent. -/
def twoBytesSent : List Action :=
  [.toReceiver (windowDatagram twoBytes.sender) .written, .toSender sizeReply, .senderRun]

theorem ack_accepted_twoBytes :
    ∃ (s : System) (rcv : Receiver) (m : Bytes), s.sender.pc = .firstReceive ∧
      receiverStep twoBytes.receiver s.receiver (s.sender.current twoBytes.sender) .written
        = some (rcv, [m]) ∧
      isValidAck (s.sender.inPacket.receive m) s.sender.seqNum = .ok true := by
  have h : ∃ s, Run twoBytes (fun _ a => a.unaltered) (System.init twoBytes [7, 8]) s ∧
      decide (s.sender.pc = .firstReceive ∧ s.receiver.pc = .receiveLoop ∧
        s.sender.data.length = 2) :=
    Transition.Run.exists_of_exec twoBytesSent _ (by decide +kernel)
  obtain ⟨s, h, hp⟩ := h
  obtain ⟨hs, hr, hlen⟩ := of_decide_eq_true hp
  obtain ⟨⟨rcv, out⟩, hrcv⟩ : ∃ x, receiverStep twoBytes.receiver s.receiver
      (s.sender.current twoBytes.sender) .written = some x := by
    unfold receiverStep
    rw [hr]
    exact ⟨_, rfl⟩
  obtain ⟨m, rfl, hv⟩ := (ack_accepted_iff (by decide) (by decide) (by decide) h
    (by simp [hs, SenderPc.waiting]) hr hrcv).2 hlen
  exact ⟨s, rcv, m, hs, hrcv, hv⟩

/-- The ack of a file of one byte has number 2. -/
theorem not_ack_accepted : ¬ ∀ (c : Config) (file : Bytes) (s : System) (w : WriteOutcome)
    (rcv : Receiver) (out : List Bytes), 24 < c.sender.WINDOW_SIZE →
    c.sender.WINDOW_SIZE ≤ 65507 → file.length < 2 ^ 31 →
    Run c (fun _ a => a.unaltered) (System.init c file) s → s.sender.pc.waiting →
    s.receiver.pc = .receiveLoop →
    receiverStep c.receiver s.receiver (s.sender.current c.sender) w = some (rcv, out) →
      ∃ m, out = [m] ∧ isValidAck (s.sender.inPacket.receive m) s.sender.seqNum = .ok true := by
  intro hall
  have h : ∃ s, Run twoBytes (fun _ a => a.unaltered) (System.init twoBytes [7]) s ∧
      decide (s.sender.pc.waiting ∧ s.receiver.pc = .receiveLoop ∧
        (receiverStep twoBytes.receiver s.receiver (s.sender.current twoBytes.sender) .written).any
          fun x => x.2.all fun m =>
            isValidAck (s.sender.inPacket.receive m) s.sender.seqNum ≠ .ok true) :=
    Transition.Run.exists_of_exec twoBytesSent _ (by decide +kernel)
  obtain ⟨s, h, hp⟩ := h
  obtain ⟨hs, hr, hx⟩ := of_decide_eq_true hp
  obtain ⟨⟨rcv, out⟩, hrcv, hno⟩ := (Option.any_eq_true ..).1 hx
  obtain ⟨m, rfl, hv⟩ := hall _ _ s _ rcv out (by decide) (by decide) (by decide) h hs hr hrcv
  simp [hv] at hno

end TcpLike
