import TcpLike.Proofs.Stored

/-!
# What the acks promise, and what success means

A data ack sent means bytes stored, as long as no write fails: `writeData` swallows the exception,
and the segment is counted all the same (`ack_stored`). The sender leaves its file loop with nothing
broken only behind a complete file, as long as no stale ack ends the last segment, and no valid one
comes with the hundredth try (`delivered_file`).
-/

namespace TcpLike

variable {c : Config} {file : Bytes} {s t : System} {a : Action}

theorem isAck_ackDatagram {i : ℕ} (h : i + 1 < 2 ^ 32) : IsAck (ackDatagram c i) where
  length := rfl
  flags := rfl
  seq := by
    rw [seqField_ackDatagram h]
    exact Nat.succ_pos i

/-- The conditions on a step that keep the data file right. -/
def Stores (c : Config) (file : Bytes) (s : System) (a : Action) : Prop :=
  a.writes ∧ s.RefusesWindow c file a

instance (s : System) (a : Action) : Decidable (Stores c file s a) :=
  inferInstanceAs (Decidable (_ ∧ _))

theorem stored_of_run (hW : 24 < c.sender.WINDOW_SIZE) (hW' : c.sender.WINDOW_SIZE < 2 ^ 16)
    (h : Run c (fun s a => a.unaltered ∧ Stores c file s a) (System.init c file) s) :
    s.UnalteredInv c file ∧ s.Stored c file := by
  refine h.invariant (I := fun s => s.UnalteredInv c file ∧ s.Stored c file)
    (fun s a t hs hok hst => ⟨hs.1.step hW hW' hok.1 hst, ?_⟩)
    ⟨System.unalteredInv_init file, System.stored_init file⟩
  exact hs.2.step hW hW' hs.1.transfer hok.2.1 hok.2.2 hs.1.no_stray hst

/-! ## Acks -/

/-- Every data ack sent has its bytes in the data file, in a run whose writes are all done. -/
theorem ack_stored (hW : 24 < c.sender.WINDOW_SIZE) (hW' : c.sender.WINDOW_SIZE < 2 ^ 16)
    (h : Run c (fun s a => a.unaltered ∧ Stores c file s a) (System.init c file) s) {m : Bytes}
    (hm : m ∈ s.toSender.sent) (ha : IsAck m) : file.take (ackField m) <+: s.receiver.file := by
  obtain ⟨hs, hst⟩ := stored_of_run hW hW' h
  rcases hs.transfer.sent m hm with rfl | ⟨i, hi, rfl⟩ | ⟨-, hno⟩
  · exact absurd ha.seq (lt_irrefl 0)
  · have hup := hs.transfer.upper
    have hbound : i * c.chunkSize < 2 ^ 31 := by
      rcases Nat.eq_zero_or_pos i with rfl | hpos
      · rw [zero_mul]
        norm_num
      · exact (hs.transfer.side.inv.read i (by omega)).2
    have hfield : (i + 1) * c.chunkSize < 2 ^ 32 := by
      rw [add_one_mul, Config.chunkSize, SenderConfig.chunkSize] at *
      omega
    rw [ackField_ackDatagram hfield, hst]
    exact List.take_prefix_take_left (Nat.mul_le_mul_right _ hi)
  · exact absurd ha hno

/-- The handshake without a loss, and the first segment sent. -/
def firstSegment : List Action :=
  [.toReceiver (windowDatagram Config.oneByte.sender) .written, .toSender sizeReply, .senderRun]

theorem ack_stored_oneByte :
    ∃ s : System, s.receiver.ackFlag = 1 ∧ [7] <+: s.receiver.file := by
  have h : ∃ s, Run .oneByte (fun s a => a.unaltered ∧ Stores .oneByte [7] s a)
      (System.init .oneByte [7]) s ∧
      decide (s.receiver.ackFlag = 1 ∧ ackDatagram .oneByte 0 ∈ s.toSender.sent) :=
    Transition.Run.exists_of_exec (firstSegment ++
      [.toReceiver (dataSegment Config.oneByte.sender [7] 0) .written]) _ (by decide +kernel)
  obtain ⟨s, h, hp⟩ := h
  obtain ⟨h1, hm⟩ := of_decide_eq_true hp
  exact ⟨s, h1, ack_stored (by decide) (by decide) h hm (isAck_ackDatagram (by norm_num))⟩

/-- A segment whose write fails is acked. -/
theorem not_ack_stored : ¬ ∀ (c : Config) (file : Bytes) (s : System) (m : Bytes),
    24 < c.sender.WINDOW_SIZE → c.sender.WINDOW_SIZE ≤ 65507 →
    Run c (fun _ a => a.unaltered) (System.init c file) s → m ∈ s.toSender.sent → IsAck m →
      file.take (ackField m) <+: s.receiver.file := by
  intro hall
  have h : ∃ s, Run .oneByte (fun _ a => a.unaltered) (System.init .oneByte [7]) s ∧
      decide (ackDatagram .oneByte 0 ∈ s.toSender.sent ∧ s.receiver.file = []) :=
    Transition.Run.exists_of_exec (firstSegment ++
      [.toReceiver (dataSegment Config.oneByte.sender [7] 0) (.failed 0)]) _ (by decide +kernel)
  obtain ⟨s, h, hp⟩ := h
  obtain ⟨hm, hf⟩ := of_decide_eq_true hp
  have hpre := hall _ _ s _ (by decide) (by decide) h hm (isAck_ackDatagram (by norm_num))
  rw [hf, List.prefix_nil] at hpre
  exact absurd hpre (by decide)

/-! ## The end of the file loop -/

/-- What ends the last segment's wait is no stale ack, and the hundredth try of a wrong-ack loop
brings no valid one. -/
def EndsAcked (s : System) : Action → Prop
  | .toSender d =>
      (s.sender.pc = .firstReceive → (s.sender.seqNum : ℤ) = s.sender.FILE_SIZE →
        s.sender.seqNum < ackField d + s.sender.data.length) ∧
      (s.sender.pc = .wrongAck → s.sender.tries + 1 = MAXTRIES →
        isValidAck (s.sender.inPacket.receive d) s.sender.seqNum ≠ .ok true)
  | _ => True

instance (s : System) : ∀ a, Decidable (EndsAcked s a)
  | .toSender _ => inferInstanceAs (Decidable ((_ → _ → _) ∧ (_ → _ → _)))
  | .senderRun | .timeout | .toReceiver _ _ | .faultToSender _ | .faultToReceiver _ =>
    inferInstanceAs (Decidable True)

/-- All that was read is accepted whenever the sender is not waiting, but for a broken loop. -/
structure Ahead (s : System) : Prop where
  next : s.sender.pc = .fileLoop → s.sender.chunksRead ≤ s.receiver.ackFlag
  out : s.sender.pc = .leftLoop → s.sender.isBroken = false →
    s.sender.fis = [] ∧ s.sender.chunksRead ≤ s.receiver.ackFlag

theorem Ahead.sender (hW : 24 < c.sender.WINDOW_SIZE) (hW' : c.sender.WINDOW_SIZE < 2 ^ 16)
    (hs : s.UnalteredInv c file) (hA : Ahead s) (hend : EndsAcked s a) {i : SenderInput}
    {ch : Channel Bytes} {snd : Sender} {out : List Bytes} (ht : s.Takes a i ch)
    (h : Sender.Step c.sender s.sender i snd out) :
    Ahead ⟨snd, s.receiver, s.toReceiver.send out, ch⟩ := by
  have hinv := hs.transfer.side.inv
  cases h with
  | resend hpc | passOver hpc =>
    exact ⟨by simp [hpc, Sender.receive], by simp [hpc, Sender.receive]⟩
  | answered hpc => exact ⟨fun _ => (hinv.handshake hpc).trans_le (Nat.zero_le _), by simp⟩
  | eof hpc hf => exact ⟨by simp, fun _ _ => ⟨hf, hA.next hpc⟩⟩
  | read => exact ⟨by simp [Sender.withChunk], by simp [Sender.withChunk]⟩
  | @ack o _ _ hw h =>
    refine ⟨fun hpc => h.chunksRead.trans_le ?_, fun hpc hbroken => ?_⟩
    · rcases h.of_fileLoop hpc with ⟨hto, hv⟩ | ⟨d, rfl, hfirst, hsz, -⟩
      · exact hs.transfer.of_ackSent hW hW' hw (hs.ackSent hw ht hto hv)
      · -- the last segment: its number lies beyond the acks of the segments before
        obtain ⟨rfl, hd⟩ := ht.mem
        obtain ⟨j, hj, hh⟩ := hinv.held hw
        have hnum := hend.1 hfirst hsz
        have hseq := hh.seqNum
        rw [← hh.data] at hseq
        refine hs.transfer.acked hW hW' hw (hs.close.genuine d hd) hj ?_
        rw [Config.chunkSize]
        omega
    · cases h with
      | retry _ _ hpc' => rcases hpc' with h | h <;> rw [h] at hpc <;> cases hpc
      | next _ _ hpc' =>
        rw [hpc'] at hpc
        cases hpc
      | left hk hp _ ht' hb =>
        rcases hb with hb | ⟨ho, hwrong, htries, hv⟩
        · simp [hb] at hbroken
        · cases o with
          | timeout => exact absurd rfl ho
          | datagram d =>
            obtain ⟨rfl, -⟩ := ht.mem
            rw [hp] at hv
            exact absurd hv (hend.2 hwrong htries)
  | _ => exact ⟨by simp, by simp⟩

theorem Ahead.step (hW : 24 < c.sender.WINDOW_SIZE) (hW' : c.sender.WINDOW_SIZE < 2 ^ 16)
    (hs : s.UnalteredInv c file) (hA : Ahead s) (hend : EndsAcked s a)
    (h : s.step c a = some t) : Ahead t := by
  cases System.step_cases h with
  | sender ht hsnd =>
    exact hA.sender hW hW' hs hend ht (hs.close.side.senderStep hW hsnd)
  | receiver hd hrcv =>
    have hmem := (Channel.deliver_eq_some hd).1
    have hmono := (hs.transfer.receiver_keeps hW hW' hmem hs.no_stray hrcv).mono
    exact ⟨fun hpc => (hA.next hpc).trans hmono,
      fun hpc hb => ⟨(hA.out hpc hb).1, (hA.out hpc hb).2.trans hmono⟩⟩
  | faultToSender | faultToReceiver => exact ⟨hA.next, hA.out⟩

/-- Behind a file loop left with nothing broken the data file is the file, in a run that keeps it
right and ends the last segment on its ack. -/
theorem delivered_file (hW : 24 < c.sender.WINDOW_SIZE) (hW' : c.sender.WINDOW_SIZE ≤ 65507)
    (h : Run c (fun s a => a.unaltered ∧ Stores c file s a ∧ EndsAcked s a)
      (System.init c file) s) (hpc : s.sender.pc = .leftLoop) (hb : s.sender.isBroken = false) :
    s.receiver.file = file := by
  have hW' : c.sender.WINDOW_SIZE < 2 ^ 16 := by omega
  have hinit : Ahead (System.init c file) := by
    constructor <;> simp [System.init, Sender.init]
  obtain ⟨hs, hst⟩ := stored_of_run hW hW' (h.mono fun s a hok => ⟨hok.1, hok.2.1⟩)
  have hA : Ahead s := by
    refine (h.invariant (I := fun s => s.UnalteredInv c file ∧ Ahead s) (fun s a t hs hok hst => ?_)
      ⟨System.unalteredInv_init file, hinit⟩).2
    exact ⟨hs.1.step hW hW' hok.1 hst, hs.2.step hW hW' hs.1 hok.2.2 hst⟩
  obtain ⟨hf, hk⟩ := hA.out hpc hb
  have hall : file.length ≤ s.sender.chunksRead * c.chunkSize := by
    by_contra hlt
    exact hs.close.side.inv.fis_ne_nil.2 (by rwa [not_le] at hlt) hf
  rw [hst, List.take_of_length_le (hall.trans (Nat.mul_le_mul_right _ hk))]

theorem delivered_file_oneByte :
    ∃ s : System, (s.sender.pc = .leftLoop ∧ s.sender.isBroken = false) ∧
      s.receiver.file = [7] := by
  have h : ∃ s, Run .oneByte (fun s a => a.unaltered ∧ Stores .oneByte [7] s a ∧ EndsAcked s a)
      (System.init .oneByte [7]) s ∧
      decide (s.sender.pc = .leftLoop ∧ s.sender.isBroken = false) :=
    Transition.Run.exists_of_exec (firstSegment ++
      [.toReceiver (dataSegment Config.oneByte.sender [7] 0) .written,
        .toSender (ackDatagram .oneByte 0), .senderRun]) _ (by decide +kernel)
  obtain ⟨s, h, hp⟩ := h
  obtain ⟨hpc, hb⟩ := of_decide_eq_true hp
  exact ⟨s, ⟨hpc, hb⟩, delivered_file (by decide) (by decide) h hpc hb⟩

/-- A second copy of the size reply ends the wait for the only segment. -/
theorem not_delivered_file : ¬ ∀ (c : Config) (file : Bytes) (s : System),
    24 < c.sender.WINDOW_SIZE → c.sender.WINDOW_SIZE ≤ 65507 →
    Run c (fun _ a => a.unaltered ∧ a.writes) (System.init c file) s →
      s.sender.pc = .leftLoop → s.sender.isBroken = false → s.receiver.file = file := by
  intro hall
  have h : ∃ s, Run .oneByte (fun _ a => a.unaltered ∧ a.writes) (System.init .oneByte [7]) s ∧
      decide (s.sender.pc = .leftLoop ∧ s.sender.isBroken = false ∧ s.receiver.file = []) :=
    Transition.Run.exists_of_exec
      [.toReceiver (windowDatagram Config.oneByte.sender) .written,
        .faultToSender (.duplicate sizeReply), .toSender sizeReply, .senderRun,
        .toSender sizeReply, .senderRun] _ (by decide +kernel)
  obtain ⟨s, h, hp⟩ := h
  obtain ⟨hpc, hb, hf⟩ := of_decide_eq_true hp
  have := hall _ _ s (by decide) (by decide) h hpc hb
  rw [hf] at this
  cases this

end TcpLike
