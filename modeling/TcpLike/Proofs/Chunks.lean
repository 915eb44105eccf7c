import TcpLike.Proofs.Stored

/-!
# The received file, chunk by chunk

Behind a completed handshake the data file is the first `ackFlag` chunks of the sent file, each once
and in order, and `ackFlag` is the number of chunks read or one less (`received_chunks`). A repeated
window-size datagram that passes the checksum test is counted as a segment, though, where it comes
before the sender has left its handshake (`not_received_chunks`).
-/

namespace TcpLike

variable {c : Config} {file : Bytes} {s t : System} {a : Action}

theorem flatten_chunks (c : SenderConfig) (file : Bytes) (m : ℕ) :
    ((List.range m).map (chunk c file)).flatten = file.take (m * c.chunkSize) := by
  induction m with
  | zero => simp
  | succ m ih =>
    rw [List.range_succ, List.map_append, List.flatten_append, ih, List.map_singleton,
      List.flatten_singleton, take_append_chunk]

/-- The handshake is completed: the sender has left it, both sides use the same window, and no
window-size datagram is left on its way. -/
structure HandshakeDone (c : Config) (s : System) : Prop where
  pc : s.sender.pc ≠ .handshake
  WINDOW_SIZE : s.receiver.WINDOW_SIZE = c.sender.WINDOW_SIZE
  noWindow : windowDatagram c.sender ∉ s.toReceiver.inFlight

/-- No repeated window-size datagram is counted as the first segment. -/
def IgnoresWindow (c : Config) (s : System) : Action → Prop
  | .toReceiver d _ => s.receiver.pc = .receiveLoop → s.receiver.ackFlag = 0 →
      d = windowDatagram c.sender → generateChecksum d ≠ .ok 0
  | _ => True

instance (s : System) : ∀ a, Decidable (IgnoresWindow c s a)
  | .toReceiver _ _ => inferInstanceAs (Decidable (_ → _ → _ → _))
  | .senderRun | .timeout | .toSender _ | .faultToSender _ | .faultToReceiver _ =>
    inferInstanceAs (Decidable True)

theorem IgnoresWindow.refuses (h : IgnoresWindow c s a) : s.RefusesWindow c file a := by
  cases a with
  | toReceiver => exact fun hpc h0 hd hsum => absurd hsum (h hpc h0 hd)
  | _ => trivial

/-- What is not in flight is not delivered. -/
theorem ignoresWindow_of_notMem (hn : windowDatagram c.sender ∉ s.toReceiver.inFlight)
    (h : s.step c a = some t) : IgnoresWindow c s a := by
  cases System.step_cases h with
  | receiver hd => exact fun _ _ he => absurd (he ▸ (Channel.deliver_eq_some hd).1) hn
  | sender ht => cases ht <;> trivial
  | faultToSender | faultToReceiver => trivial

theorem Sender.Step.not_window {c : SenderConfig} {s s' : Sender} {i : SenderInput}
    {out : List Bytes} (hs : s.Inv c file) (hpc : s.pc ≠ .handshake) (h : Step c s i s' out) :
    s'.pc ≠ .handshake ∧ windowDatagram c ∉ out := by
  have hflags : flagsField (windowDatagram c) = 0 := rfl
  cases h with
  | resend h | passOver h | answered h => exact absurd h hpc
  | read _ hf =>
    refine ⟨by simp [withChunk], fun hm => ?_⟩
    rw [List.mem_singleton.1 hm, hs.segment_eq hf] at hflags
    simp at hflags
  | ack hw h =>
    refine ⟨?_, fun hm => ?_⟩
    · rcases h.pc_cases with (hpc | hpc) | hpc | hpc <;> simp [hpc]
    · obtain ⟨k, -, hh⟩ := hs.held hw
      have hcur : s.current c = dataSegment c file k := hh.current
      rw [h.mem_out hm, hcur] at hflags
      simp at hflags
  | close | closeFin =>
    refine ⟨by simp, fun hm => ?_⟩
    rw [List.mem_singleton.1 hm] at hflags
    simp at hflags
  | _ => simp

/-- What a step keeps as long as nothing but segments is counted. -/
structure Counted (c : Config) (file : Bytes) (s : System) : Prop where
  inv : s.UnalteredInv c file
  stored : s.Stored c file
  upper : s.receiver.ackFlag ≤ s.sender.chunksRead

theorem Counted.upper_receiver (hW : 24 < c.sender.WINDOW_SIZE)
    (hW' : c.sender.WINDOW_SIZE < 2 ^ 16) (hs : Counted c file s) {d : Bytes}
    (hd : d ∈ s.toReceiver.inFlight) {w : WriteOutcome}
    (hok : IgnoresWindow c s (.toReceiver d w)) {rcv : Receiver} {out : List Bytes}
    (h : receiverStep c.receiver s.receiver d w = some (rcv, out)) :
    rcv.ackFlag ≤ s.sender.chunksRead := by
  unfold receiverStep at h
  split at h
  · rename_i hpc
    rw [hs.inv.transfer.handshake_keeps hW hW' hpc hd] at h
    cases h
    exact hs.upper
  · rename_i hpc
    have hr := hs.inv.transfer.reception_of_mem hW hW' hpc hd hs.inv.no_stray w
    rw [Option.some.inj h] at hr
    cases hr with
    | aborted | ignored | fin | repeated => exact hs.upper
    | window hd' h0 hsum => exact absurd hsum (hok hpc h0 hd')
    | segment _ hlt => exact hlt
  · cases h
    rcases Receiver.closing_cases s.receiver d with ⟨he, -⟩ | he <;> rw [he] <;> exact hs.upper
  · cases h

theorem Counted.step (hW : 24 < c.sender.WINDOW_SIZE) (hW' : c.sender.WINDOW_SIZE < 2 ^ 16)
    (hs : Counted c file s) (ha : a.unaltered) (hw : a.writes) (hok : IgnoresWindow c s a)
    (h : s.step c a = some t) : Counted c file t where
  inv := hs.inv.step hW hW' ha h
  stored := hs.stored.step hW hW' hs.inv.transfer hw hok.refuses hs.inv.no_stray h
  upper := by
    cases System.step_cases h with
    | sender ht hsnd =>
      have hstep := hs.inv.close.side.senderStep hW hsnd
      exact hs.upper.trans (hstep.chunksRead_le hs.inv.close.side.inv)
    | receiver hd hrcv =>
      exact hs.upper_receiver hW hW' (Channel.deliver_eq_some hd).1 hok hrcv
    | faultToSender | faultToReceiver => exact hs.upper

theorem counted_init (file : Bytes) : Counted c file (System.init c file) where
  inv := System.unalteredInv_init file
  stored := System.stored_init file
  upper := Nat.zero_le _

/-- No window-size datagram is sent behind the handshake, and none comes up again. -/
theorem Counted.noWindow_step (hW : 24 < c.sender.WINDOW_SIZE) (hs : Counted c file s)
    (hpc : s.sender.pc ≠ .handshake) (hn : windowDatagram c.sender ∉ s.toReceiver.inFlight)
    (ha : a.unaltered) (h : s.step c a = some t) :
    t.sender.pc ≠ .handshake ∧ windowDatagram c.sender ∉ t.toReceiver.inFlight := by
  cases System.step_cases h with
  | sender ht hsnd =>
    have hstep := hs.inv.close.side.senderStep hW hsnd
    obtain ⟨hpc, hout⟩ := hstep.not_window hs.inv.close.side.inv hpc
    exact ⟨hpc, fun hm => (List.mem_append.1 hm).elim hn hout⟩
  | receiver hd => exact ⟨hpc, fun hm => hn (Channel.inFlight_deliver hd hm)⟩
  | faultToSender => exact ⟨hpc, hn⟩
  | faultToReceiver hf => exact ⟨hpc, fun hm => hn (Channel.inFlight_fault ha hf hm)⟩

/-- No loss, duplication or reordering: the data file is the first `ackFlag` chunks, and those are
all the chunks read or all but one. -/
structure ReceivedChunks (c : Config) (file : Bytes) (s : System) : Prop where
  chunks : s.receiver.file = ((List.range s.receiver.ackFlag).map (chunk c.sender file)).flatten
  read : ∀ i < s.receiver.ackFlag, i * c.chunkSize < file.length
  count : s.receiver.ackFlag = s.sender.chunksRead ∨ s.receiver.ackFlag = s.sender.chunksRead - 1

theorem Counted.receivedChunks (hW : 24 < c.sender.WINDOW_SIZE) (hn : file.length < 2 ^ 31)
    (hs : Counted c file s) : ReceivedChunks c file s := by
  have hread := hs.inv.close.side.inv.read
  have hk : s.sender.chunksRead < 2 ^ 31 := by
    rcases Nat.eq_zero_or_pos s.sender.chunksRead with h | h
    · omega
    · have := lt_of_mul_chunkSize_lt hW (hread (s.sender.chunksRead - 1) (by omega)).1
      omega
  have hlower := hs.inv.transfer.lower
  have hupper := hs.upper
  refine ⟨?_, fun i hi => (hread i (by omega)).1, by omega⟩
  rw [flatten_chunks, hs.stored]

/-- Behind a handshake in which no repeated window-size datagram was counted, the received file is
right in every state. -/
theorem received_chunks (hW : 24 < c.sender.WINDOW_SIZE) (hW' : c.sender.WINDOW_SIZE ≤ 65507)
    (hn : file.length < 2 ^ 31)
    (h0 : Run c (fun s a => a.unaltered ∧ a.writes ∧ IgnoresWindow c s a) (System.init c file) s)
    (hd : HandshakeDone c s) (h : Run c (fun _ a => a.unaltered ∧ a.writes) s t) :
    ReceivedChunks c file t := by
  have hW' : c.sender.WINDOW_SIZE < 2 ^ 16 := by omega
  have hs : Counted c file s := h0.invariant
    (fun _ _ _ hs hok hst => hs.step hW hW' hok.1 hok.2.1 hok.2.2 hst) (counted_init file)
  have ht : Counted c file t ∧ t.sender.pc ≠ .handshake ∧
      windowDatagram c.sender ∉ t.toReceiver.inFlight := by
    refine h.invariant (I := fun s => Counted c file s ∧ s.sender.pc ≠ .handshake ∧
      windowDatagram c.sender ∉ s.toReceiver.inFlight) (fun s a t hI hok hst => ?_)
      ⟨hs, hd.pc, hd.noWindow⟩
    obtain ⟨hs, hpc, hnone⟩ := hI
    exact ⟨hs.step hW hW' hok.1 hok.2 (ignoresWindow_of_notMem hnone hst) hst,
      hs.noWindow_step hW hpc hnone hok.1 hst⟩
  exact ht.1.receivedChunks hW hn

/-- The state behind a handshake without a loss. -/
def shaken (c : Config) (file : Bytes) : System where
  sender := { Sender.init file with
    pc := .fileLoop
    inPacket := (DatagramPacket.new 24).receive sizeReply }
  receiver := { Receiver.init with
    pc := .receiveLoop
    WINDOW_SIZE := c.sender.WINDOW_SIZE
    inPacket := .new c.sender.WINDOW_SIZE }
  toReceiver := ⟨[windowDatagram c.sender], []⟩
  toSender := ⟨[sizeReply], []⟩

theorem received_chunks_oneByte : ∃ t : System, t.receiver.ackFlag = 2 ∧
    ReceivedChunks .oneByte [7, 8] t := by
  have h0 : Run .oneByte (fun s a => a.unaltered ∧ a.writes ∧ IgnoresWindow .oneByte s a)
      (System.init .oneByte [7, 8]) (shaken .oneByte [7, 8]) :=
    Transition.Run.of_actions
      [.toReceiver (windowDatagram Config.oneByte.sender) .written, .toSender sizeReply]
      (by decide +kernel)
  have hd : HandshakeDone .oneByte (shaken .oneByte [7, 8]) := ⟨by decide, rfl, by decide⟩
  have h : ∃ t, Run .oneByte (fun _ a => a.unaltered ∧ a.writes) (shaken .oneByte [7, 8]) t ∧
      decide (t.receiver.ackFlag = 2) :=
    Transition.Run.exists_of_exec
      [.senderRun, .toReceiver (dataSegment Config.oneByte.sender [7, 8] 0) .written,
        .toSender (ackDatagram .oneByte 0), .senderRun,
        .toReceiver (dataSegment Config.oneByte.sender [7, 8] 1) .written] _ (by decide +kernel)
  obtain ⟨t, h, hp⟩ := h
  exact ⟨t, of_decide_eq_true hp,
    received_chunks (by decide) (by decide) (by decide) h0 hd h⟩

/-- Ports and a window whose window-size datagram passes the checksum test. -/
def passingWindow : Config := ⟨⟨12010, 33019, 25⟩, ⟨33019, 12010⟩⟩

/-- The window-size datagram is sent twice, and both copies arrive before the size reply does: the
second is counted as the first segment. -/
theorem not_received_chunks : ¬ ∀ (c : Config) (file : Bytes) (s t : System),
    24 < c.sender.WINDOW_SIZE → c.sender.WINDOW_SIZE ≤ 65507 → file.length < 2 ^ 31 →
    Run c (fun _ a => a.unaltered ∧ a.writes) (System.init c file) s → HandshakeDone c s →
    Run c (fun _ a => a.unaltered ∧ a.writes) s t → ReceivedChunks c file t := by
  intro hall
  have h : ∃ s, Run passingWindow (fun _ a => a.unaltered ∧ a.writes)
      (System.init passingWindow [7]) s ∧
      decide (s.sender.pc ≠ .handshake ∧ s.receiver.WINDOW_SIZE = passingWindow.sender.WINDOW_SIZE ∧
        windowDatagram passingWindow.sender ∉ s.toReceiver.inFlight ∧ s.receiver.ackFlag = 1 ∧
        s.sender.chunksRead = 0) :=
    Transition.Run.exists_of_exec
      [.timeout, .toReceiver (windowDatagram passingWindow.sender) .written,
        .toReceiver (windowDatagram passingWindow.sender) .written, .toSender sizeReply] _
      (by decide +kernel)
  obtain ⟨s, h, hp⟩ := h
  obtain ⟨hpc, hwin, hnone, hflag, hread⟩ := of_decide_eq_true hp
  have hcount := (hall _ _ s s (by decide) (by decide) (by decide) h ⟨hpc, hwin, hnone⟩
    (.refl _)).count
  rw [hflag, hread] at hcount
  simp at hcount

end TcpLike
