import TcpLike.Proofs.Transfer

/-!
# What the receiver has written

As long as no write fails, the data file holds the chunks the receiver has counted, in order
(`System.Stored`), but for one mishap: a window-size datagram that passes the checksum test is
counted as the first segment.
-/

namespace TcpLike

variable {c : Config} {file : Bytes}

namespace System

/-- The receiver does not take a repeated window-size datagram for the first segment. Whether it
does depends on the ports and the window alone; for the empty file nothing is lost. -/
def RefusesWindow (c : Config) (file : Bytes) (s : System) : Action → Prop
  | .toReceiver d _ => s.receiver.pc = .receiveLoop → s.receiver.ackFlag = 0 →
      d = windowDatagram c.sender → generateChecksum d = .ok 0 → file = []
  | _ => True

instance (s : System) : ∀ a, Decidable (s.RefusesWindow c file a)
  | .toReceiver _ _ => inferInstanceAs (Decidable (_ → _ → _ → _ → _))
  | .senderRun | .timeout | .toSender _ | .faultToSender _ | .faultToReceiver _ =>
    inferInstanceAs (Decidable True)

/-- The data file is the first `ackFlag` chunks. -/
def Stored (c : Config) (file : Bytes) (s : System) : Prop :=
  s.receiver.file = file.take (s.receiver.ackFlag * c.chunkSize)

variable {s s' : System} {a : Action}

theorem stored_receiveLoop (hs : s.Stored c file) {d : Bytes} {res : Receiver × List Bytes}
    (h : Reception c file s d .written res)
    (hwin : s.receiver.ackFlag = 0 → d = windowDatagram c.sender → generateChecksum d = .ok 0 →
      file = []) :
    res.1.file = file.take (res.1.ackFlag * c.chunkSize) := by
  cases h with
  | aborted | ignored | fin | repeated => exact hs
  | window hd h0 hsum =>
    have hf := hwin h0 hd hsum
    have he : s.receiver.file = [] := by rw [hs, hf, List.take_nil]
    have hres : ((s.receiver.receive d).stores c 0 [] .written).file = s.receiver.file ++ [] := rfl
    rw [hres, he, hf, List.take_nil, List.append_nil]
  | segment =>
    have hres : ((s.receiver.receive d).stores c s.receiver.ackFlag
        (chunk c.sender file s.receiver.ackFlag) .written).file
          = s.receiver.file ++ chunk c.sender file s.receiver.ackFlag := rfl
    rw [hres, hs, take_append_chunk]
    rfl

theorem Stored.step (hW : 24 < c.sender.WINDOW_SIZE) (hW' : c.sender.WINDOW_SIZE < 2 ^ 16)
    (hs : s.Stored c file) (ht : s.TransferInv c file) (hw : a.writes)
    (hwin : s.RefusesWindow c file a) (hstray : s.NoStray c) (h : s.step c a = some s') :
    s'.Stored c file := by
  cases step_cases h with
  | sender | faultToSender | faultToReceiver => exact hs
  | @receiver d w ch rcv out hd hrcv =>
    have hmem := (Channel.deliver_eq_some hd).1
    obtain rfl : w = .written := by
      cases w with
      | written => rfl
      | failed => simp [Action.writes] at hw
    unfold receiverStep at hrcv
    split at hrcv
    · rename_i hpc
      rw [ht.handshake_keeps hW hW' hpc hmem] at hrcv
      cases hrcv
      exact hs
    · rename_i hpc
      have hr := ht.reception_of_mem hW hW' hpc hmem hstray .written
      rw [Option.some.inj hrcv] at hr
      exact stored_receiveLoop hs hr (hwin hpc)
    · cases hrcv
      rcases Receiver.closing_cases s.receiver d with ⟨he, -⟩ | he <;> rw [Stored, he] <;> exact hs
    · cases hrcv

theorem stored_init (file : Bytes) : (System.init c file).Stored c file := by
  simp [Stored, System.init, Receiver.init]

/-! ## Runs that alter nothing -/

/-- Both invariants, where nothing is altered: the packet a retry loop was entered on is genuine
too. -/
structure UnalteredInv (c : Config) (file : Bytes) (s : System) : Prop where
  close : s.CloseInv c file
  transfer : s.TransferInv c file
  held : s.sender.pc = .wrongAck → isValidAck s.sender.inPacket s.sender.seqNum = .ok true →
    s.AckSent

theorem UnalteredInv.no_stray (hs : s.UnalteredInv c file) : s.NoStray c := by
  intro x hpc hx
  have hl := (hs.close.finalAck x (hs.close.side.genuine _ hx)).1
  simp [hpc, ReceiverPc.left] at hl

theorem AckSent.mono (h : s.AckSent) (hsent : s.toSender.sent ⊆ s'.toSender.sent)
    (hseq : s'.sender.seqNum = s.sender.seqNum) : s'.AckSent := by
  obtain ⟨m, hm, hv⟩ := h
  exact ⟨m, hsent hm, hseq ▸ hv⟩

/-- A valid ack in hand was sent. -/
theorem UnalteredInv.ackSent (hs : s.UnalteredInv c file) (hw : s.sender.pc.waiting) {o : Outcome}
    {ch : Channel Bytes} (ht : s.Takes a (.receive o) ch)
    (ho : o = .timeout → s.sender.pc = .wrongAck)
    (hv : isValidAck (s.sender.packetAfter o) s.sender.seqNum = .ok true) : s.AckSent := by
  cases o with
  | timeout => exact hs.held (ho rfl) hv
  | datagram d =>
    have hd := hs.close.genuine d ht.mem.2
    have hl := hs.transfer.length_sent hw hd
    have hin := hs.close.side.inv.inPacket
    have hnew : ((DatagramPacket.new 24).receive d).data = d :=
      data_receive_of_eq (hl.trans (length_new 24).symm)
    have hdata : (s.sender.inPacket.receive d).data = d := data_receive_of_eq (hl.trans hin.symm)
    exact ⟨d, hd, (isValidAck_congr (hnew.trans hdata.symm) _).trans hv⟩

theorem UnalteredInv.takesSent (hs : s.UnalteredInv c file) (h : s.step c a = some s') :
    s.TakesSent a := by
  cases step_cases h with
  | sender ht =>
    cases ht with
    | run => trivial
    | timeout =>
      intro hw _ hl hv
      refine hs.ackSent (o := .timeout) hw .timeout (fun _ => ?_) hv
      -- nothing has come, so this is the last try of the wrong-ack loop
      by_contra hpc
      have hlog := hl.2 fun h => hpc h.1
      simp [Sender.receiveAck] at hlog
    | datagram hd => exact fun hw _ _ hv => hs.ackSent hw (.datagram hd) (by simp) hv
  | receiver | faultToSender | faultToReceiver => trivial

theorem UnalteredInv.held_step (hW : 24 < c.sender.WINDOW_SIZE) (hs : s.UnalteredInv c file)
    (h : s.step c a = some s') (hpc : s'.sender.pc = .wrongAck)
    (hv : isValidAck s'.sender.inPacket s'.sender.seqNum = .ok true) : s'.AckSent := by
  cases step_cases h with
  | sender ht hsnd =>
    cases hs.close.side.senderStep hW hsnd with
    | resend hpc' | passOver hpc' => simp [hpc', Sender.receive] at hpc
    | ack hw hst =>
      cases hst with
      | retry hk hp _ _ hto =>
        simp only [hk.seqNum, hp] at hv
        exact (hs.ackSent hw ht (hto hpc) hv).mono (fun _ hm => ht.sent.symm ▸ hm) hk.seqNum
      | next _ _ hpc' | left _ _ hpc' =>
        rw [hpc'] at hpc
        cases hpc
    | _ => simp [Sender.withChunk] at hpc
  | receiver =>
    exact (hs.held hpc hv).mono (List.subset_append_left _ _) rfl
  | faultToSender hf =>
    have hsent := (Channel.fault_eq_some hf).2
    exact (hs.held hpc hv).mono (fun _ hm => hsent.symm ▸ hm) rfl
  | faultToReceiver => exact (hs.held hpc hv).mono (List.Subset.refl _) rfl

theorem UnalteredInv.step (hW : 24 < c.sender.WINDOW_SIZE) (hW' : c.sender.WINDOW_SIZE < 2 ^ 16)
    (hs : s.UnalteredInv c file) (ha : a.unaltered) (h : s.step c a = some s') :
    s'.UnalteredInv c file where
  close := hs.close.step hW ha h
  transfer := hs.transfer.step hW hW' (by rintro f rfl; exact ha) (hs.takesSent h) hs.no_stray h
  held := hs.held_step hW h

theorem unalteredInv_init (file : Bytes) : (System.init c file).UnalteredInv c file :=
  ⟨closeInv_init file, transferInv_init file, by simp [System.init, Sender.init]⟩

theorem unalteredInv_of_run (hW : 24 < c.sender.WINDOW_SIZE)
    (hW' : c.sender.WINDOW_SIZE < 2 ^ 16)
    (h : Run c (fun _ a => a.unaltered) (System.init c file) s) : s.UnalteredInv c file :=
  h.invariant (fun _ _ _ hs ha hstep => hs.step hW hW' ha hstep) (unalteredInv_init file)

end System

end TcpLike
