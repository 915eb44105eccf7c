import TcpLike.Proofs.Stored

/-!
# The handshake and its repeats

The receive loop knows a repeated window-size datagram by a length of 24, but looks at the length of
its buffer, which is the window's: no repeat is ever answered (`window_not_answered`). A sender
whose size reply is lost stays in its handshake for good.
-/

namespace TcpLike

variable {c : Config} {file : Bytes} {s t : System} {a : Action}

/-- The receiver answers the window-size datagram, and keeps what it has. -/
def Answers (c : Config) (s : System) (w : WriteOutcome) : Prop :=
  ∃ rcv, receiverStep c.receiver s.receiver (windowDatagram c.sender) w = some (rcv, [sizeReply]) ∧
    rcv.file = s.receiver.file ∧ rcv.ackFlag = s.receiver.ackFlag ∧
    rcv.outData = s.receiver.outData

theorem ackDatagram_ne_sizeReply (i : ℕ) : ackDatagram c i ≠ sizeReply := fun h => by
  have := congrArg flagsField h
  simp at this

theorem sizeReply_notMem {d : Bytes} {w : WriteOutcome} {res : Receiver × List Bytes}
    (h : System.Reception c file s d w res) : sizeReply ∉ res.2 := by
  intro hm
  have hflags : flagsField sizeReply = 0 := rfl
  cases h with
  | aborted | ignored => simp at hm
  | fin =>
    rcases List.mem_pair.1 hm with he | he <;> rw [he] at hflags <;> simp at hflags
  | repeated | window | segment =>
    exact ackDatagram_ne_sizeReply _ (List.mem_singleton.1 hm).symm

theorem windowDatagram_ne_finalAck (c : SenderConfig) (x : ℤ) :
    windowDatagram c ≠ Sender.finalAck c x := fun h => by
  have := congrArg flagsField h
  simp at this

theorem fields_of_isSizeReply {p : DatagramPacket} (h : Sender.isSizeReply p = .ok true) :
    seqField p.data = 0 ∧ ackField p.data = 0 := by
  unfold Sender.isSizeReply at h
  obtain ⟨ack, ha, h⟩ := java_bind_eq_ok.1 h
  split_ifs at h with h0
  · obtain ⟨seq, hs, h⟩ := java_bind_eq_ok.1 h
    have hs0 : seq = 0 := by simpa using h
    have := (getAckNum_eq_ok ha).2
    have := (getSeqNum_eq_ok hs).2
    omega
  · simp at h

/-- No size reply is on its way, and none will be. -/
structure Stuck (c : Config) (file : Bytes) (s : System) : Prop where
  inv : s.UnalteredInv c file
  sender : s.sender.pc = .handshake
  receiver : s.receiver.pc ≠ .handshake
  noReply : sizeReply ∉ s.toSender.inFlight

theorem Stuck.step (hW : 24 < c.sender.WINDOW_SIZE) (hW' : c.sender.WINDOW_SIZE < 2 ^ 16)
    (hs : Stuck c file s) (ha : a.unaltered) (h : s.step c a = some t) : Stuck c file t := by
  have hinv := hs.inv.step hW hW' ha h
  cases System.step_cases h with
  | sender ht hsnd =>
    refine ⟨hinv, ?_, hs.receiver, fun hm => hs.noReply (ht.inFlight hm)⟩
    have hstep := hs.inv.close.side.senderStep hW hsnd
    cases hstep with
    | resend hpc | passOver hpc => exact hpc
    | @answered d hpc hans =>
      have hd := ht.mem.2
      have hdata : (s.sender.receive d).inPacket.data = d := hs.inv.close.data_receive hd
      obtain ⟨hseq, hack⟩ := fields_of_isSizeReply hans
      rw [hdata] at hseq hack
      have he := (hs.inv.close.inFlight hd).of_answer hseq hack
      exact absurd (he ▸ hd) hs.noReply
    | eof hpc | read hpc | failed hpc | close hpc | closeAcked hpc | closeOther hpc | closeFin hpc
      | finOther hpc => simp [hs.sender] at hpc
    | closeTimeout hpc | closeThrows hpc => simp [hs.sender] at hpc
    | ack hw => simp [hs.sender, SenderPc.waiting] at hw
  | @receiver d w ch rcv out hd hrcv =>
    have hmem := (Channel.deliver_eq_some hd).1
    have hkeeps := hs.inv.transfer.receiver_keeps hW hW' hmem hs.inv.no_stray hrcv
    refine ⟨hinv, hs.sender, hkeeps.pc, fun hm => ?_⟩
    rcases List.mem_append.1 hm with hold | hnew
    · exact hs.noReply hold
    · unfold receiverStep at hrcv
      split at hrcv
      · exact hs.receiver ‹_›
      · rename_i hpc
        have hr := hs.inv.transfer.reception_of_mem hW hW' hpc hmem hs.inv.no_stray w
        rw [Option.some.inj hrcv] at hr
        exact sizeReply_notMem hr hnew
      · cases hrcv
        simp at hnew
      · cases hrcv
  | faultToSender hf =>
    exact ⟨hinv, hs.sender, hs.receiver, fun hm => hs.noReply (Channel.inFlight_fault ha hf hm)⟩
  | faultToReceiver => exact ⟨hinv, hs.sender, hs.receiver, hs.noReply⟩

theorem handshake_sizeReply {snd : Sender} (hpc : snd.pc = .handshake)
    (hbuf : snd.inPacket.data.length = 24) :
    senderStep c.sender snd (.receive (.datagram sizeReply))
      = some ({ snd.receive sizeReply with pc := .fileLoop }, []) := by
  have hdata : (snd.receive sizeReply).inPacket.data = sizeReply :=
    data_receive_of_eq hbuf.symm
  have hlen : (snd.receive sizeReply).inPacket.data.length = 24 := (length_receive _ _).trans hbuf
  have hack : ackField sizeReply = 0 := rfl
  have hseq : seqField sizeReply = 0 := rfl
  have hans : Sender.isSizeReply (snd.receive sizeReply).inPacket = .ok true := by
    unfold Sender.isSizeReply
    rw [getAckNum_eq (by omega), getSeqNum_eq (by omega), hdata, hack, hseq,
      ofField_of_lt (by norm_num)]
    simp
  simp only [senderStep, hpc, Sender.handshake, hans]

theorem leaves_of_sizeReply (hs : s.SenderSide c file) (hpc : s.sender.pc = .handshake)
    (hm : sizeReply ∈ s.toSender.inFlight) :
    ∃ t, Run c (fun _ a => a.unaltered) s t ∧ t.sender.pc ≠ .handshake :=
  ⟨_, .single rfl (System.step_toSender hm (handshake_sizeReply hpc hs.inv.inPacket)), by simp⟩

/-- A receiver still in its handshake answers the window-size datagram the sender repeats. -/
theorem leaves_of_handshake (hW : 24 < c.sender.WINDOW_SIZE)
    (hW' : c.sender.WINDOW_SIZE < 2 ^ 16) (hs : s.UnalteredInv c file)
    (hpc : s.sender.pc = .handshake) (hr : s.receiver.pc = .handshake) :
    ∃ t, Run c (fun _ a => a.unaltered) s t ∧ t.sender.pc ≠ .handshake := by
  have hsend : senderStep c.sender s.sender (.receive .timeout)
      = some (s.sender, [windowDatagram c.sender]) := by
    simp only [senderStep, hpc, Sender.handshake]
  let s1 : System :=
    ⟨s.sender, s.receiver, s.toReceiver.send [windowDatagram c.sender], s.toSender⟩
  have h1 : s.step c .timeout = some s1 := System.step_timeout hsend
  have hs1 := hs.step hW hW' rfl h1
  have hmem : windowDatagram c.sender ∈ s1.toReceiver.inFlight := by simp [s1]
  have hrcv : receiverStep c.receiver s1.receiver (windowDatagram c.sender) .written
      = some (s1.receiver.handshake (windowDatagram c.sender)) := by
    unfold receiverStep
    rw [hr]
  rw [hs1.transfer.handshake_keeps hW hW' hr hmem] at hrcv
  have h2 := System.step_toReceiver (c := c) hmem hrcv
  have hs2 := hs1.step hW hW' rfl h2
  obtain ⟨t, ht, hleft⟩ := leaves_of_sizeReply hs2.close.side hpc (by simp)
  exact ⟨t, .head rfl h1 (.head rfl h2 ht), hleft⟩

/-- No repeat of the window-size datagram is answered, and the sender gets out of its handshake only
as long as the first answer is still to come. -/
theorem window_not_answered (hW : 24 < c.sender.WINDOW_SIZE)
    (hW' : c.sender.WINDOW_SIZE ≤ 65507)
    (h : Run c (fun _ a => a.unaltered) (System.init c file) s) :
    (s.receiver.pc = .receiveLoop → ∀ w, ¬ Answers c s w) ∧
    (s.sender.pc = .handshake →
      ((∃ t, Run c (fun _ a => a.unaltered) s t ∧ t.sender.pc ≠ .handshake) ↔
        s.receiver.pc = .handshake ∨ sizeReply ∈ s.toSender.inFlight)) := by
  have hW' : c.sender.WINDOW_SIZE < 2 ^ 16 := by omega
  have hs := System.unalteredInv_of_run hW hW' h
  refine ⟨fun hpc w => ?_, fun hpc => ⟨fun hleaves => ?_, fun hor => ?_⟩⟩
  · rintro ⟨rcv, hrcv, -⟩
    have hr := hs.transfer.reception hW hW' hpc .window
      (windowDatagram_ne_finalAck c.sender) w
    unfold receiverStep at hrcv
    rw [hpc] at hrcv
    rw [Option.some.inj hrcv] at hr
    exact sizeReply_notMem hr (List.mem_singleton.2 rfl)
  · -- no step leads out of the states that are stuck
    by_contra hno
    rw [not_or] at hno
    obtain ⟨t, ht, hleft⟩ := hleaves
    exact hleft (ht.invariant (I := Stuck c file) (fun s a t hs ha hst => hs.step hW hW' ha hst)
      ⟨hs, hpc, hno.1, hno.2⟩).sender
  · exact hor.elim (leaves_of_handshake hW hW' hs hpc) (leaves_of_sizeReply hs.close.side hpc)

/-- The size reply is lost. -/
def replyLost : List Action :=
  [.toReceiver (windowDatagram Config.oneByte.sender) .written, .faultToSender (.lose sizeReply)]

theorem window_not_answered_oneByte :
    ∃ s : System, s.receiver.pc = .receiveLoop ∧ (∀ w, ¬ Answers .oneByte s w) ∧
      ¬ ∃ t, Run .oneByte (fun _ a => a.unaltered) s t ∧ t.sender.pc ≠ .handshake := by
  have h : ∃ s, Run .oneByte (fun _ a => a.unaltered) (System.init .oneByte [7]) s ∧
      decide (s.receiver.pc = .receiveLoop ∧ s.sender.pc = .handshake ∧
        sizeReply ∉ s.toSender.inFlight) :=
    Transition.Run.exists_of_exec replyLost _ (by decide +kernel)
  obtain ⟨s, h, hp⟩ := h
  obtain ⟨hr, hs, hm⟩ := of_decide_eq_true hp
  obtain ⟨h1, h2⟩ := window_not_answered (by decide) (by decide) h
  refine ⟨s, hr, h1 hr, fun ht => ?_⟩
  rcases (h2 hs).1 ht with h | h
  · simp [hr] at h
  · exact hm h

/-- The repeat behind a lost size reply is not answered. -/
theorem not_window_answered : ¬ ∀ (c : Config) (file : Bytes) (s : System),
    24 < c.sender.WINDOW_SIZE → c.sender.WINDOW_SIZE ≤ 65507 →
    Run c (fun _ a => a.unaltered) (System.init c file) s →
      (s.receiver.pc = .receiveLoop → ∀ w, Answers c s w) ∧
      (s.sender.pc = .handshake →
        ∃ t, Run c (fun _ a => a.unaltered) s t ∧ t.sender.pc ≠ .handshake) := by
  intro hall
  have h : ∃ s, Run .oneByte (fun _ a => a.unaltered) (System.init .oneByte [7]) s ∧
      decide (s.receiver.pc = .receiveLoop ∧
        (receiverStep Config.oneByte.receiver s.receiver
          (windowDatagram Config.oneByte.sender) .written).all fun x => x.2 ≠ [sizeReply]) :=
    Transition.Run.exists_of_exec replyLost _ (by decide +kernel)
  obtain ⟨s, h, hp⟩ := h
  obtain ⟨hpc, hno⟩ := of_decide_eq_true hp
  obtain ⟨rcv, hrcv, -⟩ := (hall _ _ s (by decide) (by decide) h).1 hpc .written
  rw [hrcv] at hno
  simp at hno

end TcpLike
