import TcpLike.Proofs.Delivery

/-!
# Altered acks

The sender looks at the flags and the number of an ack, and at no checksum: an old datagram altered
on its way to the sender passes for the ack of a segment that never arrived
(`not_read_stored`). What the sender reads on stays behind what is stored as long as the sender goes
on, with bytes still to read, only once a valid ack was sent (`read_stored`).
-/

namespace TcpLike

variable {c : Config} {file : Bytes} {s t : System} {a : Action}

/-- A sender that goes on from byte 2147483647 of a longer file on a packet that is no valid ack
does so once one was sent. -/
def StopsAtMaxInt (s : System) : Action → Prop
  | .toSender d => s.sender.pc = .firstReceive → (s.sender.seqNum : ℤ) = s.sender.FILE_SIZE →
      s.sender.fis ≠ [] → s.sender.Looks (.datagram d) →
        isValidAck (s.sender.inPacket.receive d) s.sender.seqNum = .ok false → s.AckSent
  | _ => True

instance (s : System) : ∀ a, Decidable (StopsAtMaxInt s a)
  | .toSender _ => inferInstanceAs (Decidable (_ → _ → _ → _ → _ → _))
  | .senderRun | .timeout | .toReceiver _ _ | .faultToSender _ | .faultToReceiver _ =>
    inferInstanceAs (Decidable True)

instance (s : System) (o : Outcome) : Decidable (s.Unforged o) :=
  inferInstanceAs (Decidable (_ → _ → _ → _ → _))

instance (s : System) : ∀ a, Decidable (s.TakesSent a)
  | .toSender d => inferInstanceAs (Decidable (s.Unforged (.datagram d)))
  | .timeout => inferInstanceAs (Decidable (s.Unforged .timeout))
  | .senderRun | .toReceiver _ _ | .faultToSender _ | .faultToReceiver _ =>
    inferInstanceAs (Decidable True)

/-- While the sender is in its file loop: the transfer is sound, and before a chunk is read those
before it are accepted. -/
structure InLoop (c : Config) (file : Bytes) (s : System) : Prop where
  transfer : s.TransferInv c file
  stored : s.Stored c file
  next : s.sender.pc = .fileLoop → s.sender.fis ≠ [] →
    s.sender.chunksRead ≤ s.receiver.ackFlag

theorem InLoop.next_sender (hW : 24 < c.sender.WINDOW_SIZE)
    (hW' : c.sender.WINDOW_SIZE < 2 ^ 16) (hs : InLoop c file s) (hgen : s.TakesSent a)
    (hmax : StopsAtMaxInt s a) {i : SenderInput} {ch : Channel Bytes} {snd : Sender}
    {out : List Bytes} (ht : s.Takes a i ch) (h : Sender.Step c.sender s.sender i snd out) :
    snd.pc = .fileLoop → snd.fis ≠ [] → snd.chunksRead ≤ s.receiver.ackFlag := by
  intro hpc hf
  cases h with
  | resend hpc' | passOver hpc' => simp [hpc', Sender.receive] at hpc
  | answered hpc' => exact (hs.transfer.side.inv.handshake hpc').trans_le (Nat.zero_le _)
  | @ack o _ _ hw h =>
    rw [h.kept.fis] at hf
    refine h.chunksRead.trans_le (hs.transfer.of_ackSent hW hW' hw ?_)
    rcases h.of_fileLoop hpc with ⟨-, hv⟩ | ⟨d, rfl, hfirst, hsz, hv⟩
    · exact hgen.unforged ht hw hf (h.looks hpc) hv
    · obtain ⟨rfl, -⟩ := ht.mem
      exact hmax hfirst hsz hf (h.looks hpc) hv
  | _ => simp [Sender.withChunk] at hpc

/-- The condition on a step: `Stores`, and a sender that goes on with bytes still to read does so
once the receiver has sent a valid ack of the segment in hand. -/
def TakesAcks (c : Config) (file : Bytes) (s : System) (a : Action) : Prop :=
  Stores c file s a ∧ s.TakesSent a ∧ StopsAtMaxInt s a

instance (s : System) (a : Action) : Decidable (TakesAcks c file s a) :=
  inferInstanceAs (Decidable (_ ∧ _ ∧ _))

theorem past_of_step (hW : 24 < c.sender.WINDOW_SIZE) (hs : s.SenderSide c file)
    (hp : s.sender.pc.past) (h : s.step c a = some t) : t.sender.pc.past := by
  cases System.step_cases h with
  | sender ht hsnd => exact ((hs.senderStep hW hsnd).past hp).1
  | receiver | faultToSender | faultToReceiver => exact hp

theorem InLoop.step (hW : 24 < c.sender.WINDOW_SIZE) (hW' : c.sender.WINDOW_SIZE < 2 ^ 16)
    (hs : InLoop c file s) (hp : ¬ s.sender.pc.past) (ha : a.altersOnlyAcks)
    (hok : TakesAcks c file s a) (h : s.step c a = some t) : InLoop c file t := by
  have hside := hs.transfer.side
  have hstray : s.NoStray c := fun x _ hx => by
    simp [(hside.inFlight hx).of_finalAck hW hside.inv, SenderPc.past] at hp
  refine ⟨hs.transfer.step hW hW' (by rintro f rfl; exact ha) hok.2.1 hstray h,
    hs.stored.step hW hW' hs.transfer hok.1.1 hok.1.2 hstray h, ?_⟩
  cases System.step_cases h with
  | sender ht hsnd => exact hs.next_sender hW hW' hok.2.1 hok.2.2 ht (hside.senderStep hW hsnd)
  | receiver hd hrcv =>
    have hmem := (Channel.deliver_eq_some hd).1
    have hmono := (hs.transfer.receiver_keeps hW hW' hmem hstray hrcv).mono
    exact fun hpc hf => (hs.next hpc hf).trans hmono
  | faultToSender | faultToReceiver => exact hs.next

theorem inLoop_init (file : Bytes) : InLoop c file (System.init c file) where
  transfer := System.transferInv_init file
  stored := System.stored_init file
  next h := by simp [System.init, Sender.init] at h

/-- Before the sender reads on, the chunks it has read are in the data file, in a run that makes up
no ack, whatever else becomes of the datagrams on their way to the sender. -/
theorem read_stored (hW : 24 < c.sender.WINDOW_SIZE) (hW' : c.sender.WINDOW_SIZE ≤ 65507)
    (h : Run c (fun s a => a.altersOnlyAcks ∧ TakesAcks c file s a) (System.init c file) s)
    (hpc : s.sender.pc = .fileLoop) (hf : s.sender.fis ≠ []) :
    file.take (s.sender.chunksRead * c.chunkSize) <+: s.receiver.file := by
  have hW' : c.sender.WINDOW_SIZE < 2 ^ 16 := by omega
  have hinv : s.SenderSide c file ∧ (¬ s.sender.pc.past → InLoop c file s) := by
    refine h.invariant (I := fun s => s.SenderSide c file ∧ (¬ s.sender.pc.past → InLoop c file s))
      (fun s a t hs hok hst => ⟨?_, fun hp => ?_⟩)
      ⟨System.senderSide_init file, fun _ => inLoop_init file⟩
    · exact hs.1.step hW (by rintro f rfl; exact hok.1) hst
    · have hp' : ¬ s.sender.pc.past := fun h => hp (past_of_step hW hs.1 h hst)
      exact (hs.2 hp').step hW hW' hp' hok.1 hok.2 hst
  have hl := hinv.2 (by simp [hpc, SenderPc.past])
  rw [hl.stored]
  exact List.take_prefix_take_left (Nat.mul_le_mul_right _ (hl.next hpc hf))

theorem read_stored_oneByte :
    ∃ s : System, s.sender.pc = .fileLoop ∧ s.sender.chunksRead = 1 ∧ [1] <+: s.receiver.file := by
  have h : ∃ s, Run .oneByte (fun s a => a.altersOnlyAcks ∧ TakesAcks .oneByte [1, 2] s a)
      (System.init .oneByte [1, 2]) s ∧
      decide (s.sender.pc = .fileLoop ∧ s.sender.fis ≠ [] ∧ s.sender.chunksRead = 1) :=
    Transition.Run.exists_of_exec (firstSegment ++
      [.toReceiver (dataSegment Config.oneByte.sender [1, 2] 0) .written,
        .toSender (ackDatagram .oneByte 0)]) _ (by decide +kernel)
  obtain ⟨s, h, hp⟩ := h
  obtain ⟨hpc, hf, hk⟩ := of_decide_eq_true hp
  have := read_stored (by decide) (by decide) h hpc hf
  rw [hk] at this
  exact ⟨s, hpc, hk, this⟩

/-- The second copy of the size reply, altered into an ack of the first segment. -/
theorem not_read_stored : ¬ ∀ (c : Config) (file : Bytes) (s : System),
    24 < c.sender.WINDOW_SIZE → c.sender.WINDOW_SIZE ≤ 65507 →
    Run c (fun _ a => a.altersOnlyAcks ∧ a.writes) (System.init c file) s →
      s.sender.pc = .fileLoop → s.sender.fis ≠ [] →
      file.take (s.sender.chunksRead * c.chunkSize) <+: s.receiver.file := by
  intro hall
  have h : ∃ s, Run .oneByte (fun _ a => a.altersOnlyAcks ∧ a.writes)
      (System.init .oneByte [1, 2]) s ∧
      decide (s.sender.pc = .fileLoop ∧ s.sender.fis ≠ [] ∧ s.sender.chunksRead = 1 ∧
        s.receiver.file = []) :=
    Transition.Run.exists_of_exec
      [.toReceiver (windowDatagram Config.oneByte.sender) .written,
        .faultToSender (.duplicate sizeReply), .toSender sizeReply, .senderRun,
        .faultToSender (.alter sizeReply (ackDatagram .oneByte 0)),
        .toSender (ackDatagram .oneByte 0)] _ (by decide +kernel)
  obtain ⟨s, h, hp⟩ := h
  obtain ⟨hpc, hf, hk, hfile⟩ := of_decide_eq_true hp
  have hpre := hall _ _ s (by decide) (by decide) h hpc hf
  rw [hk, hfile, List.prefix_nil] at hpre
  exact absurd hpre (by decide)

end TcpLike
