import TcpLike.Proofs.ReceiverData

/-!
# Corrupted datagrams

The receive loop decodes both numbers, looks at the flags and parses the size before it compares the
checksums: a corrupted datagram is dropped unless one of these trips over it (`dropped_iff`).
-/

namespace TcpLike

namespace Receiver

variable {c : ReceiverConfig} {r r' : Receiver} {d : Bytes} {w : WriteOutcome}

/-- The receiver by itself, given any datagrams at all. -/
def alone (c : ReceiverConfig) (r : Receiver) (a : Bytes × WriteOutcome) : Option Receiver :=
  (receiverStep c r a.1 a.2).map Prod.fst

/-- The states the receiver can get to. -/
abbrev Reachable (c : ReceiverConfig) (r : Receiver) : Prop :=
  Transition.Run (alone c) (fun _ _ => True) Receiver.init r

/-- The buffer of the receive loop has the size of the window. -/
def Buffered (r : Receiver) : Prop :=
  r.pc = .receiveLoop → (r.inPacket.data.length : ℤ) = r.WINDOW_SIZE

theorem receiveLoop_buffer (c : ReceiverConfig) (r : Receiver) (d : Bytes) (w : WriteOutcome) :
    (r.receiveLoop c d w).1.inPacket = r.inPacket.receive d ∧
      (r.receiveLoop c d w).1.WINDOW_SIZE = r.WINDOW_SIZE := by
  rcases receiveLoop_cases c r d w with h | h
  · rw [h]
    exact ⟨rfl, rfl⟩
  · generalize r.receiveLoop c d w = res at h
    cases h <;> exact ⟨rfl, rfl⟩

theorem Buffered.step (hr : r.Buffered) {a : Bytes × WriteOutcome} (h : alone c r a = some r') :
    r'.Buffered := by
  simp only [alone, Option.map_eq_some_iff] at h
  obtain ⟨⟨r', out⟩, h, rfl⟩ := h
  unfold receiverStep at h
  intro hpc
  split at h
  · unfold handshake at h
    simp only [Option.some.injEq] at h
    split at h <;> cases h
    · simp at hpc
    · rename_i size hsize
      have hsize := getWindowSize_eq_ok hsize
      simp [DatagramPacket.new, hsize]
  · rename_i hloop
    obtain ⟨hp, hw⟩ := receiveLoop_buffer c r a.1 a.2
    rw [Option.some.inj h] at hp hw
    rw [hp, hw, length_receive]
    exact hr hloop
  · cases h
    rcases closing_cases r a.1 with ⟨he, -⟩ | he <;> rw [he] at hpc <;> simp at hpc
  · cases h

theorem buffered_of_reachable (h : Reachable c r) : r.Buffered :=
  h.invariant (fun _ _ _ hr _ hstep => hr.step hstep) fun hpc => by simp [init] at hpc

/-- The round has dropped the datagram: back in the loop, nothing sent, nothing changed. -/
def Drops (c : ReceiverConfig) (r : Receiver) (d : Bytes) (w : WriteOutcome) : Prop :=
  ∃ r', receiverStep c r d w = some (r', []) ∧ r'.pc = .receiveLoop ∧ r'.file = r.file ∧
    r'.ackFlag = r.ackFlag ∧ r'.seqNum = r.seqNum ∧ r'.ackNum = r.ackNum ∧
    r'.outData = r.outData

/-- A datagram with a wrong checksum is dropped just when none of the earlier tests minds its
numbers, its flags or its size. -/
theorem dropped_iff (h : Reachable c r) (hpc : r.pc = .receiveLoop) (hW : 24 < r.WINDOW_SIZE)
    (hd : 24 ≤ d.length) (hd' : (d.length : ℤ) ≤ r.WINDOW_SIZE)
    (hck : generateChecksum d ≠ .ok (checksumField d : ℤ)) (w : WriteOutcome) :
    r.Drops c d w ↔ seqField d < 2 ^ 31 ∧ ackField d < 2 ^ 31 ∧ flagsField d ≠ 1 ∧
      sizeField d < 2 ^ 31 := by
  have hbuf : (r.inPacket.data.length : ℤ) = r.WINDOW_SIZE := buffered_of_reachable h hpc
  have hlen : (r.receive d).inPacket.data.length = r.inPacket.data.length := length_receive _ _
  have hl : (r.receive d).inPacket.length = min d.length r.inPacket.data.length := rfl
  obtain ⟨h1, h2, h3, h4, h5⟩ := fields_receive (r := r) (by omega) hd
  have hno : ¬ (r.receive d).Intact := by
    have hdata : (r.receive d).inPacket.data.take (r.receive d).inPacket.length = d :=
      take_length_receive (by omega)
    rwa [Intact, hdata, h5]
  have hbody := loopBody_eq (c := c) (r := r.receive d) (w := w) (by omega) (by omega)
  rw [h1, h2, h3, h4, if_neg hno] at hbody
  have hstep : receiverStep c r d w = some (r.receiveLoop c d w) := by
    unfold receiverStep
    rw [hpc]
  unfold Drops
  rw [hstep, receiveLoop, hbody]
  constructor
  · rintro ⟨r', hr, hpc', -⟩
    split_ifs at hr with hdec hf hz
    · simp [closeProcess] at hr
    · exact ⟨hdec.1, hdec.2, hf, hz⟩
    · cases hr
      simp at hpc'
    · cases hr
      simp at hpc'
  · rintro ⟨hs, ha, hf, hz⟩
    rw [if_pos ⟨hs, ha⟩, if_neg hf, if_pos hz]
    exact ⟨r.receive d, rfl, hpc, rfl, rfl, rfl, rfl, rfl⟩

/-- The receiver of `oneByte` at the head of its loop. -/
def atLoop : Receiver := (Receiver.init.handshake (windowDatagram Config.oneByte.sender)).1

theorem reachable_atLoop : Reachable Config.oneByte.receiver atLoop :=
  .single (a := (windowDatagram Config.oneByte.sender, .written)) trivial rfl

theorem dropped_iff_zeros :
    atLoop.Drops Config.oneByte.receiver (List.replicate 24 0) .written :=
  (dropped_iff reachable_atLoop (by decide +kernel) (by decide +kernel) (by decide)
    (by decide +kernel) (by decide +kernel) _).2 (by decide +kernel)

/-- A datagram with sequence number 2^32 - 1 ends the loop, corrupted or not. -/
theorem not_dropped : ¬ ∀ (c : ReceiverConfig) (c' : SenderConfig) (r : Receiver) (d : Bytes)
    (w : WriteOutcome), Reachable c r → r.pc = .receiveLoop → 24 < r.WINDOW_SIZE →
    24 ≤ d.length → (d.length : ℤ) ≤ r.WINDOW_SIZE → d ≠ windowDatagram c' →
    d ≠ Sender.finDatagram c' → generateChecksum d ≠ .ok (checksumField d : ℤ) →
      r.Drops c d w := by
  intro hall
  obtain ⟨r', hr, hpc, -⟩ := hall Config.oneByte.receiver Config.oneByte.sender atLoop
    (tcpHeader 12010 12001 (-1) 1 5 16 25 0 0 0) .written reachable_atLoop (by decide +kernel)
    (by decide +kernel) (by decide) (by decide +kernel) (by decide +kernel) (by decide +kernel)
    (by decide +kernel)
  have hend : (receiverStep Config.oneByte.receiver atLoop
      (tcpHeader 12010 12001 (-1) 1 5 16 25 0 0 0) .written).all
        fun x => x.1.pc ≠ .receiveLoop := by decide +kernel
  rw [hr] at hend
  simp [hpc] at hend

end Receiver

end TcpLike
