import TcpLike.Proofs.CloseInv

/-!
# The close

The order of the close exchange is never upset: the receiver leaves its loop behind the sender, and
the final ACK answers the receiver's FIN (`close_order`). What the two programs conclude from it is
another matter: `closeProcess` ends in success whatever it receives, and the receiver takes any
datagram with flags 16 for the final ACK (`not_close_agreement`). They agree as long as each
conclusion rests on a datagram of the close (`close_agreement`).
-/

namespace TcpLike

variable {c : Config} {file : Bytes} {s t : System} {a : Action}

theorem closeInv_of_run (hW : 24 < c.sender.WINDOW_SIZE)
    (h : Run c (fun _ a => a.unaltered) (System.init c file) s) : s.CloseInv c file :=
  h.invariant (fun _ _ _ hs ha hstep => hs.step hW ha hstep) (System.closeInv_init file)

theorem file_of_left (hl : s.receiver.pc.left) (h : s.step c a = some t) :
    t.receiver.pc.left ∧ t.receiver.file = s.receiver.file := by
  cases System.step_cases h with
  | @receiver d w ch rcv out hd hrcv =>
    unfold receiverStep at hrcv
    rcases hpc : s.receiver.pc <;> rw [hpc] at hl hrcv <;> simp [ReceiverPc.left] at hl hrcv
    obtain ⟨rfl, rfl⟩ := hrcv
    rcases Receiver.closing_cases s.receiver d with ⟨he, -⟩ | he <;> rw [he] <;> exact ⟨rfl, rfl⟩
  | sender | faultToSender | faultToReceiver => exact ⟨hl, rfl⟩

/-- The empty file's transfer, up to the FIN sent. -/
def toFin : List Action :=
  [.toReceiver (windowDatagram Config.oneByte.sender) .written, .toSender sizeReply, .senderRun,
    .senderRun]

/-- The close exchange behind it. -/
def closeExchange : List Action :=
  [.toReceiver (Sender.finDatagram Config.oneByte.sender) .written,
    .toSender (tcpHeader 12001 12010 0 1 5 16 25 0 0 24),
    .toSender (tcpHeader 12001 12010 2 0 5 1 25 0 0 24),
    .toReceiver (Sender.finalAck Config.oneByte.sender 2) .written]

/-- The receiver leaves its loop behind the sender, and its file is final then; the final ACK
follows the receiver's FIN. -/
theorem close_order (hW : 24 < c.sender.WINDOW_SIZE)
    (h : Run c (fun _ a => a.unaltered) (System.init c file) s) :
    (s.receiver.pc.left → (s.sender.pc.past ∧ s.sender.isBroken = false) ∧
      ∀ t, Run c (fun _ a => a.unaltered) s t → t.receiver.file = s.receiver.file) ∧
    ((∃ x : ℤ, Sender.finalAck c.sender x ∈ s.toReceiver.sent) →
      s.receiver.pc.left ∧ s.receiver.closeFinDatagram c.receiver ∈ s.toSender.sent) := by
  have hinv := closeInv_of_run hW h
  refine ⟨fun hl => ⟨(hinv.left hl).1, fun t ht => ?_⟩, ?_⟩
  · refine (ht.invariant (I := fun t => t.receiver.pc.left ∧ t.receiver.file = s.receiver.file)
      (fun t _ u ht _ hstep => ?_) ⟨hl, rfl⟩).2
    obtain ⟨hl', hf⟩ := file_of_left ht.1 hstep
    exact ⟨hl', hf.trans ht.2⟩
  · rintro ⟨x, hx⟩
    have hl := (hinv.finalAck x hx).1
    exact ⟨hl, (hinv.left hl).2⟩

theorem close_order_oneByte :
    ∃ s : System, s.receiver.pc.left ∧ (s.sender.pc.past ∧ s.sender.isBroken = false) ∧
      s.receiver.closeFinDatagram Config.oneByte.receiver ∈ s.toSender.sent := by
  have h : ∃ s, Run .oneByte (fun _ a => a.unaltered) (System.init .oneByte []) s ∧
      decide (s.receiver.pc.left ∧ Sender.finalAck Config.oneByte.sender 2 ∈ s.toReceiver.sent) :=
    Transition.Run.exists_of_exec (toFin ++ closeExchange) _ (by decide +kernel)
  obtain ⟨s, h, hp⟩ := h
  obtain ⟨hl, hf⟩ := of_decide_eq_true hp
  obtain ⟨h1, h2⟩ := close_order (by decide) h
  exact ⟨s, hl, (h1 hl).1, (h2 ⟨2, hf⟩).2⟩

/-! ## What the two sides conclude -/

/-- The two numbers of the datagram are read without an exception. -/
def Decodable (d : Bytes) : Prop := seqField d < 2 ^ 31 ∧ ackField d < 2 ^ 31

instance (d : Bytes) : Decidable (Decodable d) :=
  inferInstanceAs (Decidable (seqField d < 2 ^ 31 ∧ ackField d < 2 ^ 31))

/-- What an end of the close rests on: the sender's on the receiver's FIN, or on an ACK of sequence
number 0 before; the receiver's on a datagram with the two numbers of the final ACK. -/
def Concludes (s : System) : Action → Prop
  | .timeout => s.sender.pc ≠ .closeAck ∧
      (s.sender.pc = .closeFin → seqField s.sender.inPacket.data = 0)
  | .toSender d =>
      (s.sender.pc = .closeAck → Decodable d →
        flagsField d = 1 ∨ (flagsField d = 16 ∧ ackField d = 1)) ∧
      (s.sender.pc = .closeFin → flagsField d = 1 ∨ seqField s.sender.inPacket.data = 0)
  | .toReceiver d _ =>
      s.receiver.pc = .closing → Decodable d → flagsField d = 16 → seqField d = 0 ∧ ackField d = 3
  | _ => True

instance (s : System) : ∀ a, Decidable (Concludes s a)
  | .timeout => inferInstanceAs (Decidable (_ ∧ (_ → _)))
  | .toSender _ => inferInstanceAs (Decidable ((_ → _ → _) ∧ (_ → _)))
  | .toReceiver _ _ => inferInstanceAs (Decidable (_ → _ → _ → _))
  | .senderRun | .faultToSender _ | .faultToReceiver _ => inferInstanceAs (Decidable True)

/-- The conclusions drawn so far are right: success is reported behind the receiver, and the
receiver is over behind the final ACK. -/
structure Agreed (c : Config) (s : System) : Prop where
  success : s.sender.pc = .delivered → s.receiver.pc.left
  finished : s.receiver.pc = .over → Sender.finalAck c.sender 2 ∈ s.toReceiver.sent

/-- `Agreed`, with what the sender holds between its two receives. -/
structure AgreedInv (c : Config) (s : System) : Prop where
  agreed : Agreed c s
  acked : s.sender.pc = .closeFin → seqField s.sender.inPacket.data = 0 → s.receiver.pc.left

theorem agreedInv_sender {i : SenderInput} {snd : Sender} {out : List Bytes}
    {ch : Channel Bytes} (hs : s.CloseInv c file) (hA : AgreedInv c s) (hC : Concludes s a)
    (ht : s.Takes a i ch) (h : Sender.Step c.sender s.sender i snd out) :
    (snd.pc = .delivered → s.receiver.pc.left) ∧
      (snd.pc = .closeFin → seqField snd.inPacket.data = 0 → s.receiver.pc.left) := by
  cases h with
  | resend hpc | passOver hpc => simp [hpc, Sender.receive]
  | answered | eof | read | failed | close | closeThrows => simp [Sender.withChunk]
  | ack hw h => rcases h.pc_cases with (hpc | hpc) | hpc | hpc <;> simp [hpc]
  | closeTimeout hpc =>
    cases ht
    obtain ⟨h1, h2⟩ := hC
    have hpc : s.sender.pc = .closeFin := hpc.resolve_left h1
    exact ⟨fun _ => hA.acked hpc (h2 hpc), by simp⟩
  | @closeAcked d hpc hack hf =>
    have hm := ht.mem.2
    have hdata : (s.sender.receive d).inPacket.data = d := hs.data_receive hm
    rw [hdata] at hf
    refine ⟨by simp, fun _ hseq => (hs.inFlight hm).of_closeAck hf ?_⟩
    rwa [← hdata]
  | @closeOther d hpc hseq hack hn =>
    obtain ⟨rfl, hm⟩ := ht.mem
    have hdata : (s.sender.receive d).inPacket.data = d := hs.data_receive hm
    rw [hdata] at hseq hack hn
    refine ⟨fun _ => ?_, by simp⟩
    rcases hC.1 hpc ⟨hseq, hack⟩ with hf | hf
    · exact ((hs.inFlight hm).of_fin hf).1
    · exact absurd hf.symm hn
  | @closeFin d hpc hf =>
    have hm := ht.mem.2
    have hdata : (s.sender.receive d).inPacket.data = d := hs.data_receive hm
    rw [hdata] at hf
    exact ⟨fun _ => ((hs.inFlight hm).of_fin hf).1, by simp⟩
  | @finOther d hpc hseq hack hf =>
    obtain ⟨rfl, hm⟩ := ht.mem
    have hdata : (s.sender.receive d).inPacket.data = d := hs.data_receive hm
    rw [hdata] at hf
    exact ⟨fun _ => hA.acked hpc ((hC.2 hpc).resolve_left hf), by simp⟩

theorem finalAck_of_fields (hW : 24 < c.sender.WINDOW_SIZE) (hs : s.CloseInv c file) {d : Bytes}
    (hd : d ∈ s.toReceiver.sent) (hf : flagsField d = 16) (hseq : seqField d = 0)
    (hack : ackField d = 3) : Sender.finalAck c.sender 2 ∈ s.toReceiver.sent := by
  cases hs.side.sent d hd with
  | window | fin => simp at hf
  | @data i hi =>
    have hread := (hs.side.inv.read i hi).2
    have hi0 : i * c.sender.chunkSize = 0 := (seqField_dataSegment hread).symm.trans hseq
    have hL : c.sender.chunkSize ≠ 0 := by
      unfold SenderConfig.chunkSize
      omega
    have hi0 : i = 0 := (Nat.mul_eq_zero.1 hi0).resolve_right hL
    subst hi0
    rw [ackField_dataSegment (by omega)] at hack
    omega
  | finalAck x => exact (hs.finalAck x hd).2 ▸ hd

theorem AgreedInv.step (hW : 24 < c.sender.WINDOW_SIZE) (hs : s.CloseInv c file)
    (hA : AgreedInv c s) (ha : a.unaltered) (hC : Concludes s a) (h : s.step c a = some t) :
    AgreedInv c t := by
  cases System.step_cases h with
  | sender ht hsnd =>
    obtain ⟨h1, h2⟩ := agreedInv_sender hs hA hC ht (hs.side.senderStep hW hsnd)
    exact ⟨⟨h1, fun ho => List.mem_append_left _ (hA.agreed.finished ho)⟩, h2⟩
  | @receiver d w ch rcv out hd hrcv =>
    obtain ⟨-, -, hmono, -⟩ := Receiver.step_sent hs.keeps hrcv
    have hmem := (Channel.deliver_eq_some hd).1
    refine ⟨⟨fun hp => hmono (hA.agreed.success hp), fun ho => ?_⟩,
      fun hp hseq => hmono (hA.acked hp hseq)⟩
    obtain ⟨hpc, hf, hdec⟩ := Receiver.step_over hrcv ho (hs.side.inFlight hmem).length
    obtain ⟨hseq, hack⟩ := hC hpc hdec hf
    exact Channel.sent_deliver hd ▸
      finalAck_of_fields hW hs (hs.side.genuine d hmem) hf hseq hack
  | faultToSender => exact ⟨⟨hA.agreed.success, hA.agreed.finished⟩, hA.acked⟩
  | faultToReceiver hf =>
    refine ⟨⟨hA.agreed.success, fun ho => ?_⟩, hA.acked⟩
    exact (Channel.fault_eq_some hf).2.symm ▸ hA.agreed.finished ho

/-- In a run whose ends of the close each rest on the datagram they stand for, both conclusions are
right in every state. -/
theorem close_agreement (hW : 24 < c.sender.WINDOW_SIZE)
    (h : Run c (fun s a => a.unaltered ∧ Concludes s a) (System.init c file) s) : Agreed c s := by
  have hinit : AgreedInv c (System.init c file) := by
    refine ⟨⟨?_, ?_⟩, ?_⟩ <;> simp [System.init, Sender.init, Receiver.init]
  refine (h.invariant (I := fun s => s.CloseInv c file ∧ AgreedInv c s) (fun s a t hs hok hst => ?_)
    ⟨System.closeInv_init file, hinit⟩).2.agreed
  exact ⟨hs.1.step hW hok.1 hst, hs.2.step hW hs.1 hok.1 hok.2 hst⟩

theorem close_agreement_oneByte :
    ∃ s : System, (s.sender.pc = .delivered ∧ s.receiver.pc = .over) ∧ Agreed .oneByte s := by
  have h : ∃ s, Run .oneByte (fun s a => a.unaltered ∧ Concludes s a)
      (System.init .oneByte []) s ∧ decide (s.sender.pc = .delivered ∧ s.receiver.pc = .over) :=
    Transition.Run.exists_of_exec (toFin ++ closeExchange) _ (by decide +kernel)
  obtain ⟨s, h, hp⟩ := h
  exact ⟨s, of_decide_eq_true hp, close_agreement (by decide) h⟩

/-- Success is reported after a timeout, with the receiver still in its loop; and the receiver is
over on a second copy of the data segment, with no final ACK sent. -/
theorem not_close_agreement :
    (¬ ∀ (c : Config) (file : Bytes) (s : System), 24 < c.sender.WINDOW_SIZE →
      Run c (fun _ a => a.unaltered) (System.init c file) s →
        s.sender.pc = .delivered → s.receiver.pc.left) ∧
    (¬ ∀ (c : Config) (file : Bytes) (s : System), 24 < c.sender.WINDOW_SIZE →
      Run c (fun _ a => a.unaltered) (System.init c file) s →
        s.receiver.pc = .over → ∃ x : ℤ, Sender.finalAck c.sender x ∈ s.toReceiver.sent) := by
  refine ⟨fun hall => ?_, fun hall => ?_⟩
  · have h : ∃ s, Run .oneByte (fun _ a => a.unaltered) (System.init .oneByte []) s ∧
        decide (s.sender.pc = .delivered ∧ ¬ s.receiver.pc.left) :=
      Transition.Run.exists_of_exec (toFin ++ [.timeout]) _ (by decide +kernel)
    obtain ⟨s, h, hp⟩ := h
    obtain ⟨hd, hl⟩ := of_decide_eq_true hp
    exact hl (hall _ _ s (by decide) h hd)
  · have h : ∃ s, Run .oneByte (fun _ a => a.unaltered) (System.init .oneByte [7]) s ∧
        decide (s.receiver.pc = .over ∧
          ∀ d ∈ s.toReceiver.sent, d.length = 24 → flagsField d ≠ 16) :=
      let seg := dataSegment Config.oneByte.sender [7] 0
      Transition.Run.exists_of_exec
        [.toReceiver (windowDatagram Config.oneByte.sender) .written, .toSender sizeReply,
          .senderRun, .faultToReceiver (.duplicate seg), .toReceiver seg .written,
          .toSender (tcpHeader 12001 12010 1 1 5 16 25 0 0 24), .senderRun, .senderRun,
          .toReceiver (Sender.finDatagram Config.oneByte.sender) .written,
          .toReceiver seg .written] _ (by decide +kernel)
    obtain ⟨s, h, hp⟩ := h
    obtain ⟨ho, hno⟩ := of_decide_eq_true hp
    obtain ⟨x, hx⟩ := hall _ _ s (by decide) h ho
    exact hno _ hx rfl rfl

end TcpLike
