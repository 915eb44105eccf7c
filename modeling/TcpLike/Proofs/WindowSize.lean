import TcpLike.Proofs.Corruption
import TcpLike.Proofs.RetryEnd

/-!
# One window size

The receiver makes its buffer as large as the window field of the first datagram it receives says.
Where that field has arrived as the sender wrote it and holds the whole of `WINDOW_SIZE`, the buffer
has `WINDOW_SIZE` bytes by the time the sender leaves its handshake, and takes whatever the sender
sends, the network free to do the rest as it likes (`window_agreed`).
-/

namespace TcpLike

namespace Sender

variable {c : SenderConfig} {s s' : Sender} {i : SenderInput} {out : List Bytes}

theorem length_current (s : Sender) : (s.current c).length = 24 + s.data.length := by
  simp [current, message, byteMerge]

/-- No chunk is larger than the data buffer, and what is sent is a header with at most a chunk. -/
theorem length_of_step (hT : s.TriesInv) (hd : s.data.length ≤ c.chunkSize)
    (h : senderStep c s i = some (s', out)) :
    s'.data.length ≤ c.chunkSize ∧ ∀ m ∈ out, m.length ≤ 24 + c.chunkSize := by
  have hread : (s.withChunk c).data.length ≤ c.chunkSize ∧
      ∀ m ∈ [segment c s.seqNum s.ackNum (s.fis.take c.chunkSize)],
        m.length ≤ 24 + c.chunkSize := by
    have hlen : (s.fis.take c.chunkSize).length ≤ c.chunkSize := List.length_take_le _ _
    refine ⟨hlen, fun m hm => ?_⟩
    rw [List.mem_singleton.1 hm, length_segment]
    omega
  rcases senderStep_cases_or hT h with h | ⟨-, -, rfl, rfl⟩
  · cases h with
    | read => exact hread
    | ack _ h =>
      refine ⟨h.kept.data ▸ hd, fun m hm => ?_⟩
      rw [h.mem_out hm, length_current]
      omega
    | resend | close | closeFin =>
      refine ⟨hd, fun m hm => ?_⟩
      rw [List.mem_singleton.1 hm]
      simp
    | _ => exact ⟨hd, by simp⟩
  · exact hread

/-- Without a datagram to receive the sender stays in its handshake. -/
theorem handshake_of_step (hpc : s.pc = .handshake)
    (hi : ∀ d, i ≠ .receive (.datagram d)) (h : senderStep c s i = some (s', out)) :
    s'.pc = .handshake := by
  rcases i with _ | _ | d
  · simp [senderStep, hpc] at h
  · simp only [senderStep, hpc, handshake, Option.some.injEq] at h
    cases h
    exact hpc
  · exact absurd rfl (hi d)

end Sender

namespace System

variable {c : Config} {s s' : System} {a : Action}

/-- The datagram the receiver takes its window from has the sender's window field. -/
def KeepsWindow (c : Config) (s : System) : Action → Prop
  | .toReceiver d _ => s.receiver.pc = .handshake →
    windowField (s.receiver.receive d).inPacket.data = windowField (windowDatagram c.sender)
  | _ => True

instance (c : Config) (s : System) (a : Action) : Decidable (s.KeepsWindow c a) :=
  match a with
  | .toReceiver _ _ => inferInstanceAs (Decidable (_ → _))
  | .senderRun | .timeout | .toSender _ | .faultToSender _ | .faultToReceiver _ => .isTrue trivial

structure WindowInv (c : Config) (s : System) : Prop where
  tries : s.sender.TriesInv
  data : s.sender.data.length ≤ c.sender.chunkSize
  sent : ∀ d ∈ s.toReceiver.sent, d.length ≤ c.sender.WINDOW_SIZE
  start : s.receiver.pc = .handshake → s.sender.pc = .handshake ∧ s.toSender.inFlight = [] ∧
    s.receiver.inPacket.data.length = 24
  buffer : s.receiver.pc ≠ .handshake →
    s.receiver.inPacket.data.length = c.sender.WINDOW_SIZE

theorem windowField_windowDatagram (hW' : c.sender.WINDOW_SIZE < 2 ^ 16) :
    windowField (windowDatagram c.sender) = c.sender.WINDOW_SIZE := by
  have h : (windowField (windowDatagram c.sender) : ℤ) = c.sender.WINDOW_SIZE % 2 ^ 16 :=
    windowField_header rfl
  omega

/-- The answer to the first datagram, whatever it is. -/
theorem handshake_eq {r : Receiver} (hr : r.inPacket.data.length = 24) (d : Bytes) :
    r.handshake d = ({ r.receive d with
      pc := .receiveLoop
      WINDOW_SIZE := windowField (r.receive d).inPacket.data
      inPacket := .new (windowField (r.receive d).inPacket.data) }, [sizeReply]) := by
  have hl : (r.receive d).inPacket.data.length = 24 := (length_receive _ _).trans hr
  unfold Receiver.handshake
  simp only [getWindowSize_eq (p := (r.receive d).inPacket) (by omega), Int.toNat_natCast]

/-- Past its handshake the receiver keeps its buffer. -/
theorem buffer_of_step {r r' : Receiver} {cr : ReceiverConfig} {d : Bytes} {w : WriteOutcome}
    {out : List Bytes} (hpc : r.pc ≠ .handshake) (h : receiverStep cr r d w = some (r', out)) :
    r'.pc ≠ .handshake ∧ r'.inPacket.data.length = r.inPacket.data.length := by
  unfold receiverStep at h
  split at h
  · rename_i hh
    exact absurd hh hpc
  · rename_i hloop
    have hstep := Option.some.inj h
    have hbuf := (Receiver.receiveLoop_buffer cr r d w).1
    have hpc' := Receiver.receiveLoop_pc cr r d w
    rw [hstep] at hbuf hpc'
    refine ⟨?_, by rw [hbuf, length_receive]⟩
    rcases hpc' with h | h | h <;> rw [h] <;> simp [hloop]
  · cases h
    rcases Receiver.closing_cases r d with ⟨he, -⟩ | he <;> rw [he] <;>
      exact ⟨by simp, length_receive _ _⟩
  · cases h

theorem windowInv_init (file : Bytes) (hW : 24 ≤ c.sender.WINDOW_SIZE) :
    (System.init c file).WindowInv c := by
  refine ⟨Sender.triesInv_init, Nat.zero_le _, fun d hd => ?_, fun _ => ⟨rfl, rfl, rfl⟩,
    fun h => absurd rfl h⟩
  rw [List.mem_singleton.1 hd]
  simpa using hW

theorem WindowInv.sender (hW : 24 ≤ c.sender.WINDOW_SIZE) (hs : s.WindowInv c) {i : SenderInput}
    {ch : Channel Bytes} {snd : Sender} {out : List Bytes} (ht : s.Takes a i ch)
    (h : senderStep c.sender s.sender i = some (snd, out)) :
    WindowInv c ⟨snd, s.receiver, s.toReceiver.send out, ch⟩ := by
  have hlen := Sender.length_of_step hs.tries hs.data h
  refine ⟨Sender.triesInv_step hs.tries h, hlen.1, fun d hd => ?_, fun hr => ?_, hs.buffer⟩
  · rcases List.mem_append.1 hd with hd | hd
    · exact hs.sent d hd
    · have := hlen.2 d hd
      unfold SenderConfig.chunkSize at this
      omega
  · obtain ⟨hpc, hempty, hbuf⟩ := hs.start hr
    have hno : ∀ d, i ≠ .receive (.datagram d) := by
      rintro d rfl
      have := ht.mem.2
      simp [hempty] at this
    refine ⟨Sender.handshake_of_step hpc hno h, ?_, hbuf⟩
    exact List.subset_nil.1 (hempty ▸ ht.inFlight)

theorem WindowInv.receiver (hW' : c.sender.WINDOW_SIZE < 2 ^ 16) (hs : s.WindowInv c) {d : Bytes}
    {w : WriteOutcome} (hd : s.KeepsWindow c (.toReceiver d w)) {ch : Channel Bytes}
    {rcv : Receiver} {out : List Bytes} (hch : s.toReceiver.deliver d = some ch)
    (h : receiverStep c.receiver s.receiver d w = some (rcv, out)) :
    WindowInv c ⟨s.sender, rcv, ch, s.toSender.send out⟩ := by
  have hsent : ∀ d ∈ ch.sent, d.length ≤ c.sender.WINDOW_SIZE :=
    (Channel.sent_deliver hch).symm ▸ hs.sent
  by_cases hpc : s.receiver.pc = .handshake
  · unfold receiverStep at h
    rw [hpc] at h
    simp only [Option.some.injEq] at h
    rw [handshake_eq (hs.start hpc).2.2, hd hpc, windowField_windowDatagram hW'] at h
    cases h
    exact ⟨hs.tries, hs.data, hsent, fun h => absurd h (by simp), fun _ => length_new _⟩
  · obtain ⟨hpc', hbuf⟩ := buffer_of_step hpc h
    exact ⟨hs.tries, hs.data, hsent, fun h => absurd h hpc', fun _ => hbuf.trans (hs.buffer hpc)⟩

theorem WindowInv.step (hW : 24 ≤ c.sender.WINDOW_SIZE) (hW' : c.sender.WINDOW_SIZE < 2 ^ 16)
    (hs : s.WindowInv c) (ha : s.KeepsWindow c a) (h : s.step c a = some s') :
    s'.WindowInv c := by
  cases step_cases h with
  | sender ht hsnd => exact hs.sender hW ht hsnd
  | receiver hd hrcv => exact hs.receiver hW' ha hd hrcv
  | faultToSender hf =>
    refine ⟨hs.tries, hs.data, hs.sent, fun hr => ?_, hs.buffer⟩
    exact absurd (hs.start hr).2.1 (Channel.fault_eq_some hf).1
  | faultToReceiver hf =>
    exact ⟨hs.tries, hs.data, (Channel.fault_eq_some hf).2.symm ▸ hs.sent, hs.start, hs.buffer⟩

end System

variable {c : Config} {file : Bytes} {s : System}

/-- The window the receiver takes is the sender's, and no datagram the sender sends is cut. -/
theorem window_agreed (hW : 24 ≤ c.sender.WINDOW_SIZE) (hW' : c.sender.WINDOW_SIZE < 2 ^ 16)
    (h : Run c (fun s a => s.KeepsWindow c a) (System.init c file) s)
    (hpc : s.sender.pc ≠ .handshake) :
    s.receiver.inPacket.data.length = c.sender.WINDOW_SIZE ∧
      ∀ d ∈ s.toReceiver.sent, (s.receiver.inPacket.receive d).length = d.length := by
  have hs : s.WindowInv c := h.invariant (I := System.WindowInv c)
    (fun _ _ _ hs ha hst => hs.step hW hW' ha hst) (System.windowInv_init file hW)
  have hbuf := hs.buffer fun hr => hpc (hs.start hr).1
  refine ⟨hbuf, fun d hd => ?_⟩
  have := hs.sent d hd
  simp only [DatagramPacket.receive, hbuf]
  omega

/-- The handshake with nothing lost. -/
def shake (c : Config) : List Action :=
  [.toReceiver (windowDatagram c.sender) .written, .toSender sizeReply]

theorem window_agreed_oneByte :
    ∃ s : System, s.sender.pc ≠ .handshake ∧ s.receiver.inPacket.data.length = 25 := by
  have h : ∃ s, Run .oneByte (fun s a => s.KeepsWindow .oneByte a) (System.init .oneByte [7]) s ∧
      decide (s.sender.pc ≠ .handshake) :=
    Transition.Run.exists_of_exec (shake .oneByte) _ (by decide +kernel)
  obtain ⟨s, h, hp⟩ := h
  have hpc := of_decide_eq_true hp
  exact ⟨s, hpc, (window_agreed (by decide) (by decide) h hpc).1⟩

/-- A window of 65560 bytes, which a field of 16 bits makes 24. -/
def wideWindow : Config := ⟨⟨12010, 12001, 65560⟩, ⟨12001, 12010⟩⟩

/-- A window from 2^16 on is cut in its field, on the best of networks. -/
theorem not_window_agreed : ¬ ∀ (c : Config) (file : Bytes) (s : System),
    24 ≤ c.sender.WINDOW_SIZE → Run c (fun _ _ => True) (System.init c file) s →
    s.sender.pc ≠ .handshake →
      s.receiver.inPacket.data.length = c.sender.WINDOW_SIZE ∧
        ∀ d ∈ s.toReceiver.sent, (s.receiver.inPacket.receive d).length = d.length := by
  intro hall
  have h : ∃ s, Run wideWindow (fun _ _ => True) (System.init wideWindow [7]) s ∧
      decide (s.sender.pc ≠ .handshake ∧ s.receiver.inPacket.data.length = 24) :=
    Transition.Run.exists_of_exec (shake wideWindow) _ (by decide +kernel)
  obtain ⟨s, h, hp⟩ := h
  obtain ⟨hpc, hlen⟩ := of_decide_eq_true hp
  have hbuf := (hall _ _ s (by decide) h hpc).1
  rw [hlen] at hbuf
  exact absurd hbuf (by decide)

end TcpLike
