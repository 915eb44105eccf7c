import TcpLike.Proofs.Chunks
import TcpLike.Proofs.Handshake
import TcpLike.Proofs.AckNumbers

/-!
# The faultless run

With every datagram delivered once, in order and in time, the two programs take turns: there is one
step to take in each state, and the `Stage` of the transfer says which. The run ends with the file
stored, the success reported, and no retransmission counted (`faultless`).
-/

namespace TcpLike

variable {c : Config} {file : Bytes} {s t : System} {a : Action}

/-- The network delivers what was sent first, alters and loses nothing, and is in time. -/
def InOrder (s : System) : Action → Prop
  | .senderRun => True
  | .toSender d => s.toSender.inFlight.head? = some d
  | .toReceiver d w => s.toReceiver.inFlight.head? = some d ∧ w = .written
  | _ => False

instance (s : System) : ∀ a, Decidable (InOrder s a)
  | .senderRun => inferInstanceAs (Decidable True)
  | .toSender _ => inferInstanceAs (Decidable (_ = _))
  | .toReceiver _ _ => inferInstanceAs (Decidable (_ ∧ _))
  | .timeout | .faultToSender _ | .faultToReceiver _ => inferInstanceAs (Decidable False)

/-! ## The single steps -/

section Steps

variable {snd : Sender} {rcv : Receiver}

/-- The ack of the segment in hand, or any other behind the last one, lets the sender go on. -/
theorem firstReceive_ack (hW : 24 < c.sender.WINDOW_SIZE) (hs : snd.Inv c.sender file)
    (hpc : snd.pc = .firstReceive) {i : ℕ} (hi : (i + 1) * c.chunkSize < 2 ^ 31)
    (hseq : snd.seqNum = (i + 1) * c.chunkSize ∨ (snd.seqNum : ℤ) = snd.FILE_SIZE) :
    senderStep c.sender snd (.receive (.datagram (ackDatagram c i)))
      = some ({ snd.receive (ackDatagram c i) with pc := .fileLoop }, []) := by
  have hdata : (snd.receive (ackDatagram c i)).inPacket.data = ackDatagram c i :=
    data_receive_of_eq hs.inPacket.symm
  have hlen : (snd.receive (ackDatagram c i)).inPacket.data.length = 24 :=
    (length_receive _ _).trans hs.inPacket
  have hlt : i + 1 < 2 ^ 31 := lt_of_mul_chunkSize_lt hW hi
  have hlog : snd.receiveAck (.datagram (ackDatagram c i))
      = (snd.receive (ackDatagram c i), .ok ()) := by
    unfold Sender.receiveAck
    simp only []
    rw [getSeqNum_eq (by omega), getAckNum_eq (by omega), hdata, seqField_ackDatagram (by omega),
      ackField_ackDatagram (by omega), ofField_of_lt hlt, ofField_of_lt hi]
    rfl
  have hvalid := isValidAck_ackDatagram_eq hdata hi snd.seqNum
  have htries : snd.tries ≠ MAXTRIES := hs.tries.next (.inr (.inr hpc))
  have hwhile : (snd.receive (ackDatagram c i)).wrongAckWhile c.sender
      = ((snd.receive (ackDatagram c i)).finallyBlock, []) := by
    have hkeep : (snd.receive (ackDatagram c i)).seqNum = snd.seqNum := rfl
    unfold Sender.wrongAckWhile
    rw [hkeep, hvalid]
    refine if_neg ?_
    rintro ⟨hno, hne⟩
    rcases hseq with h | h
    · simp [h] at hno
    · exact hne h
  have hfin : (snd.receive (ackDatagram c i)).finallyBlock
      = { snd.receive (ackDatagram c i) with pc := .fileLoop } :=
    Sender.finallyBlock_next htries
  unfold senderStep Sender.firstReceive
  rw [hpc]
  simp only [hlog, hwhile, hfin]

theorem receiveLoop_finDatagram (hW : 24 < c.sender.WINDOW_SIZE) (hr : rcv.Data c)
    (hpc : rcv.pc = .receiveLoop) (w : WriteOutcome) :
    receiverStep c.receiver rcv (Sender.finDatagram c.sender) w
      = some ((rcv.receive (Sender.finDatagram c.sender)).closeProcess c.receiver) := by
  have hb : rcv.inPacket.data.length = c.sender.WINDOW_SIZE := hr.buffer (by simp [hpc])
  have hlen : (rcv.receive (Sender.finDatagram c.sender)).inPacket.data.length
      = rcv.inPacket.data.length := length_receive _ _
  have hl : (rcv.receive (Sender.finDatagram c.sender)).inPacket.length
      = min 24 rcv.inPacket.data.length := rfl
  obtain ⟨h1, h2, h3, -⟩ := Receiver.fields_receive (r := rcv) (d := Sender.finDatagram c.sender)
    (by omega) le_rfl
  have hseq : seqField (Sender.finDatagram c.sender) = 0 := rfl
  have hack : ackField (Sender.finDatagram c.sender) = 0 := rfl
  have hbody := Receiver.loopBody_eq (c := c.receiver)
    (r := rcv.receive (Sender.finDatagram c.sender)) (w := w) (by omega) (by omega)
  rw [h1, h2, h3, hseq, hack, flagsField_finDatagram, if_pos (by decide), if_pos rfl] at hbody
  unfold receiverStep
  rw [hpc]
  exact congrArg some (Receiver.receiveLoop_of_ok hbody)

theorem closeFields_receive {d : Bytes} (hbuf : snd.inPacket.data.length = 24)
    (hd : d.length = 24) (hs : seqField d < 2 ^ 31) (ha : ackField d < 2 ^ 31) :
    (snd.receive d).closeFields = .ok ((seqField d : ℤ), (ackField d : ℤ), flagsField d) := by
  have hdata : (snd.receive d).inPacket.data = d := data_receive_of_eq (hd.trans hbuf.symm)
  have hlen : (snd.receive d).inPacket.data.length = 24 := (length_receive _ _).trans hbuf
  unfold Sender.closeFields
  rw [getSeqNum_eq (by omega), getAckNum_eq (by omega), getFlags_eq (by omega), hdata,
    ofField_of_lt hs, ofField_of_lt ha]
  rfl

theorem closeAck_closeAckDatagram (r : Receiver) (hbuf : snd.inPacket.data.length = 24)
    (hpc : snd.pc = .closeAck) :
    senderStep c.sender snd (.receive (.datagram (r.closeAckDatagram c.receiver)))
      = some ({ snd.receive (r.closeAckDatagram c.receiver) with pc := .closeFin }, []) := by
  have hfields := closeFields_receive (d := r.closeAckDatagram c.receiver) hbuf rfl
    (by rw [seqField_closeAckDatagram]; norm_num) (by rw [ackField_closeAckDatagram]; norm_num)
  rw [ackField_closeAckDatagram, flagsField_closeAckDatagram] at hfields
  unfold senderStep
  rw [hpc]
  simp only [Sender.closeAck, hfields]
  rfl

theorem closeFin_closeFinDatagram (r : Receiver) (hbuf : snd.inPacket.data.length = 24)
    (hpc : snd.pc = .closeFin) :
    senderStep c.sender snd (.receive (.datagram (r.closeFinDatagram c.receiver)))
      = some ({ snd.receive (r.closeFinDatagram c.receiver) with flag := 16, pc := .delivered },
          [Sender.finalAck c.sender 2]) := by
  have hack : ackField (r.closeFinDatagram c.receiver) = 0 := rfl
  have hfields := closeFields_receive (d := r.closeFinDatagram c.receiver) hbuf rfl
    (by rw [seqField_closeFinDatagram]; norm_num) (by rw [hack]; norm_num)
  rw [seqField_closeFinDatagram, flagsField_closeFinDatagram] at hfields
  unfold senderStep
  rw [hpc]
  simp only [Sender.closeFin, hfields]
  rfl

theorem closing_finalAck (hbuf : 24 ≤ rcv.inPacket.data.length) (hpc : rcv.pc = .closing)
    (w : WriteOutcome) :
    receiverStep c.receiver rcv (Sender.finalAck c.sender 2) w
      = some ({ rcv.receive (Sender.finalAck c.sender 2) with pc := .over }, []) := by
  have hlen : (rcv.receive (Sender.finalAck c.sender 2)).inPacket.data.length
      = rcv.inPacket.data.length := length_receive _ _
  obtain ⟨h1, h2, h3, -⟩ := Receiver.fields_receive (r := rcv) (d := Sender.finalAck c.sender 2)
    hbuf le_rfl
  have hack : ackField (Sender.finalAck c.sender 2) = 3 := rfl
  have hflags : (rcv.receive (Sender.finalAck c.sender 2)).closeFlags = .ok 16 := by
    unfold Receiver.closeFlags
    rw [getFlags_eq (by omega), getSeqNum_eq (by omega), getAckNum_eq (by omega), h1, h2, h3,
      seqField_finalAck, hack, flagsField_finalAck]
    rfl
  unfold receiverStep
  rw [hpc]
  simp only [Receiver.closing, hflags]

end Steps

/-! ## Whose turn it is -/

/-- The one step to take in `s`. -/
structure Turn (c : Config) (s : System) (a : Action) : Prop where
  inOrder : InOrder s a
  only : ∀ b u, InOrder s b → s.step c b = some u → b = a

/-- Where the two programs stand, and what is in flight. -/
structure Shape (s : System) (sp : SenderPc) (rp : ReceiverPc) (out inn : List Bytes) : Prop where
  sender : s.sender.pc = sp
  receiver : s.receiver.pc = rp
  toReceiver : s.toReceiver.inFlight = out
  toSender : s.toSender.inFlight = inn

section Turns

variable {sp : SenderPc} {rp : ReceiverPc} {d : Bytes} {out inn : List Bytes}

theorem not_senderRun (h : Shape s sp rp out inn) (hf : sp ≠ .fileLoop) (hl : sp ≠ .leftLoop) :
    s.step c .senderRun ≠ some t := by
  intro hst
  simp only [System.step, System.senderInput, Option.map_eq_some_iff] at hst
  obtain ⟨x, hx, -⟩ := hst
  unfold senderStep at hx
  rw [h.sender] at hx
  cases sp <;> simp_all

theorem turn_senderRun (h : Shape s sp rp [] []) : Turn c s .senderRun where
  inOrder := trivial
  only b u hb hst := by
    cases b with
    | senderRun => rfl
    | toSender d => simp [InOrder, h.toSender] at hb
    | toReceiver d w => simp [InOrder, h.toReceiver] at hb
    | timeout | faultToSender | faultToReceiver => exact absurd hb id

theorem turn_toReceiver (h : Shape s sp rp [d] []) (hf : sp ≠ .fileLoop) (hl : sp ≠ .leftLoop) :
    Turn c s (.toReceiver d .written) where
  inOrder := ⟨by rw [h.toReceiver]; rfl, rfl⟩
  only b u hb hst := by
    cases b with
    | senderRun => exact absurd hst (not_senderRun h hf hl)
    | toSender d => simp [InOrder, h.toSender] at hb
    | toReceiver d' w =>
      obtain ⟨hd, rfl⟩ := hb
      rw [h.toReceiver, List.head?_cons, Option.some.injEq] at hd
      rw [hd]
    | timeout | faultToSender | faultToReceiver => exact absurd hb id

theorem turn_toSender (h : Shape s sp rp [] (d :: inn)) (hf : sp ≠ .fileLoop)
    (hl : sp ≠ .leftLoop) : Turn c s (.toSender d) where
  inOrder := by rw [InOrder, h.toSender]; rfl
  only b u hb hst := by
    cases b with
    | senderRun => exact absurd hst (not_senderRun h hf hl)
    | toSender d' =>
      rw [InOrder, h.toSender, List.head?_cons, Option.some.injEq] at hb
      rw [hb]
    | toReceiver d w => simp [InOrder, h.toReceiver] at hb
    | timeout | faultToSender | faultToReceiver => exact absurd hb id

end Turns

/-! ## The stages -/

/-- The counts of a faultless run: `k` chunks read, `m` accepted. -/
structure Counts (c : Config) (file : Bytes) (k m : ℕ) (s : System) : Prop where
  inv : s.UnalteredInv c file
  chunksRead : s.sender.chunksRead = k
  isBroken : s.sender.isBroken = false
  TOTAL_BYTE : s.sender.TOTAL_BYTE = s.sender.seqNum
  SEGMENT_NUM : s.sender.SEGMENT_NUM = k
  RETRANSMIT_NUM : s.sender.RETRANSMIT_NUM = 0
  ackFlag : s.receiver.ackFlag = m
  stored : s.receiver.file = file.take (m * c.chunkSize)

/-- The stages of a faultless run, with the number of chunks read before. -/
inductive Stage
  | window
  | reply
  | ready (i : ℕ)
  | data (i : ℕ)
  | ack (i : ℕ)
  | left (i : ℕ)
  | fin (i : ℕ)
  | replied (i : ℕ)
  | half (i : ℕ)
  | last (i : ℕ)
  | done (i : ℕ)

/-- The state is at the stage. -/
def Stage.At (c : Config) (file : Bytes) (s : System) : Stage → Prop
  | .window => Shape s .handshake .handshake [windowDatagram c.sender] [] ∧ Counts c file 0 0 s
  | .reply => Shape s .handshake .receiveLoop [] [sizeReply] ∧ Counts c file 0 0 s
  | .ready i => Shape s .fileLoop .receiveLoop [] [] ∧ Counts c file i i s
  | .data i => Shape s .firstReceive .receiveLoop [dataSegment c.sender file i] [] ∧
      Counts c file (i + 1) i s
  | .ack i => Shape s .firstReceive .receiveLoop [] [ackDatagram c i] ∧
      Counts c file (i + 1) (i + 1) s
  | .left i => Shape s .leftLoop .receiveLoop [] [] ∧ Counts c file i i s ∧
      file.length ≤ i * c.chunkSize
  | .fin i => Shape s .closeAck .receiveLoop [Sender.finDatagram c.sender] [] ∧
      Counts c file i i s ∧ file.length ≤ i * c.chunkSize
  | .replied i => Shape s .closeAck .closing []
      [s.receiver.closeAckDatagram c.receiver, s.receiver.closeFinDatagram c.receiver] ∧
      Counts c file i i s ∧ file.length ≤ i * c.chunkSize
  | .half i => Shape s .closeFin .closing [] [s.receiver.closeFinDatagram c.receiver] ∧
      Counts c file i i s ∧ file.length ≤ i * c.chunkSize
  | .last i => Shape s .delivered .closing [Sender.finalAck c.sender 2] [] ∧
      Counts c file i i s ∧ file.length ≤ i * c.chunkSize
  | .done i => Shape s .delivered .over [] [] ∧ Counts c file i i s ∧
      file.length ≤ i * c.chunkSize

/-- The number of chunks of the file. -/
def chunkCount (c : Config) (file : Bytes) : ℕ :=
  (file.length + (c.sender.WINDOW_SIZE - 24) - 1) / (c.sender.WINDOW_SIZE - 24)

theorem lt_chunkCount (hW : 24 < c.sender.WINDOW_SIZE) {i : ℕ}
    (hi : i * c.chunkSize < file.length) : i < chunkCount c file := by
  have hL : 0 < c.sender.WINDOW_SIZE - 24 := by omega
  rw [Config.chunkSize, SenderConfig.chunkSize] at hi
  refine (Nat.le_div_iff_mul_le hL).2 ?_
  rw [Nat.succ_mul]
  omega

theorem chunkCount_le (hW : 24 < c.sender.WINDOW_SIZE) {i : ℕ}
    (hi : file.length ≤ i * c.chunkSize) : chunkCount c file ≤ i := by
  have hL : 0 < c.sender.WINDOW_SIZE - 24 := by omega
  rw [Config.chunkSize, SenderConfig.chunkSize] at hi
  refine Nat.le_of_lt_succ ((Nat.div_lt_iff_lt_mul hL).2 ?_)
  rw [Nat.succ_mul]
  omega

/-- The steps still to come, for a file of `m` chunks. -/
def Stage.rank (m : ℕ) : Stage → ℕ
  | .window => 3 * m + 8
  | .reply => 3 * m + 7
  | .ready i => 3 * (m - i) + 6
  | .data i => 3 * (m - i) + 5
  | .ack i => 3 * (m - i) + 4
  | .left _ => 5
  | .fin _ => 4
  | .replied _ => 3
  | .half _ => 2
  | .last _ => 1
  | .done _ => 0

/-- There is one step to take, and it leads to a stage of lower rank. -/
def Advances (c : Config) (file : Bytes) (s : System) (st : Stage) : Prop :=
  ∃ a t st', Turn c s a ∧ s.step c a = some t ∧
    Stage.rank (chunkCount c file) st' < Stage.rank (chunkCount c file) st ∧ Stage.At c file t st'

section Taking

variable {sp : SenderPc} {rp : ReceiverPc} {snd : Sender} {rcv : Receiver} {d : Bytes}
  {inn out : List Bytes} {st : Stage}

theorem Advances.of_senderRun (h : Shape s sp rp [] [])
    (hstep : senderStep c.sender s.sender .run = some (snd, out)) (st' : Stage)
    (hlt : st'.rank (chunkCount c file) < st.rank (chunkCount c file))
    (hAt : s.step c .senderRun = some ⟨snd, s.receiver, s.toReceiver.send out, s.toSender⟩ →
      Shape ⟨snd, s.receiver, s.toReceiver.send out, s.toSender⟩ snd.pc rp out [] →
      st'.At c file ⟨snd, s.receiver, s.toReceiver.send out, s.toSender⟩) :
    Advances c file s st := by
  have hst := System.step_senderRun (c := c) hstep
  refine ⟨_, _, st', turn_senderRun h, hst, hlt, hAt hst ⟨rfl, h.receiver, ?_, h.toSender⟩⟩
  rw [Channel.inFlight_send, h.toReceiver, List.nil_append]

theorem Advances.of_toSender (h : Shape s sp rp [] (d :: inn)) (hf : sp ≠ .fileLoop)
    (hl : sp ≠ .leftLoop)
    (hstep : senderStep c.sender s.sender (.receive (.datagram d)) = some (snd, out))
    (st' : Stage) (hlt : st'.rank (chunkCount c file) < st.rank (chunkCount c file))
    (hAt : s.step c (.toSender d)
        = some ⟨snd, s.receiver, s.toReceiver.send out, s.toSender.without d⟩ →
      Shape ⟨snd, s.receiver, s.toReceiver.send out, s.toSender.without d⟩ snd.pc rp out inn →
      st'.At c file ⟨snd, s.receiver, s.toReceiver.send out, s.toSender.without d⟩) :
    Advances c file s st := by
  have hd : d ∈ s.toSender.inFlight := by rw [h.toSender]; exact List.mem_cons_self
  have hst := System.step_toSender hd hstep
  refine ⟨_, _, st', turn_toSender h hf hl, hst, hlt, hAt hst ⟨rfl, h.receiver, ?_, ?_⟩⟩
  · rw [Channel.inFlight_send, h.toReceiver, List.nil_append]
  · simp [h.toSender]

theorem Advances.of_toReceiver (h : Shape s sp rp [d] []) (hf : sp ≠ .fileLoop)
    (hl : sp ≠ .leftLoop)
    (hstep : receiverStep c.receiver s.receiver d .written = some (rcv, out)) (st' : Stage)
    (hlt : st'.rank (chunkCount c file) < st.rank (chunkCount c file))
    (hAt : s.step c (.toReceiver d .written)
        = some ⟨s.sender, rcv, s.toReceiver.without d, s.toSender.send out⟩ →
      Shape ⟨s.sender, rcv, s.toReceiver.without d, s.toSender.send out⟩ sp rcv.pc [] out →
      st'.At c file ⟨s.sender, rcv, s.toReceiver.without d, s.toSender.send out⟩) :
    Advances c file s st := by
  have hd : d ∈ s.toReceiver.inFlight := by rw [h.toReceiver]; exact List.mem_singleton_self d
  have hst := System.step_toReceiver hd hstep
  refine ⟨_, _, st', turn_toReceiver h hf hl, hst, hlt, hAt hst ⟨h.sender, rfl, ?_, ?_⟩⟩
  · simp [h.toReceiver]
  · rw [Channel.inFlight_send, h.toSender, List.nil_append]

end Taking

section Advance

variable (hW : 24 < c.sender.WINDOW_SIZE) (hW' : c.sender.WINDOW_SIZE < 2 ^ 16)
include hW hW'

/-- A step that reads and stores nothing keeps the counts. -/
theorem Counts.keep {k m : ℕ} (h : Counts c file k m s) (ha : a.unaltered)
    (hst : s.step c a = some t)
    (hs : t.sender = { s.sender with
      pc := t.sender.pc, flag := t.sender.flag, inPacket := t.sender.inPacket })
    (hr : t.receiver.ackFlag = s.receiver.ackFlag ∧ t.receiver.file = s.receiver.file) :
    Counts c file k m t where
  inv := h.inv.step hW hW' ha hst
  chunksRead := by rw [hs]; exact h.chunksRead
  isBroken := by rw [hs]; exact h.isBroken
  TOTAL_BYTE := by rw [hs]; exact h.TOTAL_BYTE
  SEGMENT_NUM := by rw [hs]; exact h.SEGMENT_NUM
  RETRANSMIT_NUM := by rw [hs]; exact h.RETRANSMIT_NUM
  ackFlag := hr.1.trans h.ackFlag
  stored := hr.2.trans h.stored

theorem advance_window (h : Stage.At c file s .window) : Advances c file s .window := by
  obtain ⟨hsh, hC⟩ := h
  have hd : windowDatagram c.sender ∈ s.toReceiver.inFlight := by simp [hsh.toReceiver]
  have hrcv : receiverStep c.receiver s.receiver (windowDatagram c.sender) .written
      = some (s.receiver.handshake (windowDatagram c.sender)) := by
    unfold receiverStep
    rw [hsh.receiver]
  rw [hC.inv.transfer.handshake_keeps hW hW' hsh.receiver hd] at hrcv
  exact .of_toReceiver hsh (by simp) (by simp) hrcv .reply (Nat.lt_succ_self _)
    fun hst hsh' => ⟨hsh', hC.keep hW hW' rfl hst rfl ⟨rfl, rfl⟩⟩

theorem advance_reply (h : Stage.At c file s .reply) : Advances c file s .reply := by
  obtain ⟨hsh, hC⟩ := h
  have hsnd := handshake_sizeReply (c := c) hsh.sender hC.inv.close.side.inv.inPacket
  exact .of_toSender hsh (by simp) (by simp) hsnd (.ready 0) (Nat.lt_succ_self _)
    fun hst hsh' => ⟨hsh', hC.keep hW hW' rfl hst rfl ⟨rfl, rfl⟩⟩

theorem advance_ready {i : ℕ} (hn : file.length + c.sender.WINDOW_SIZE < 2 ^ 31)
    (h : Stage.At c file s (.ready i)) : Advances c file s (.ready i) := by
  obtain ⟨hsh, hC⟩ := h
  have hinv := hC.inv.close.side.inv
  have hrun : senderStep c.sender s.sender .run = some (s.sender.readChunk c.sender) := by
    unfold senderStep
    rw [hsh.sender]
  have hk : s.sender.fis ≠ [] ↔ i * c.chunkSize < file.length := hC.chunksRead ▸ hinv.fis_ne_nil
  by_cases hf : s.sender.fis = []
  · rw [Sender.readChunk_eof hW hf] at hrun
    exact .of_senderRun hsh hrun (.left i) (by simp only [Stage.rank]; omega) fun hst hsh' =>
      ⟨hsh', hC.keep hW hW' rfl hst rfl ⟨rfl, rfl⟩, not_lt.1 fun hlt => hk.2 hlt hf⟩
  · have hlt := hk.1 hf
    have hfit := lt_chunkCount hW hlt
    have hin : i < file.length := lt_of_mul_chunkSize_lt hW hlt
    rw [Sender.readChunk_data (.inr hf), hinv.segment_eq hf, hC.chunksRead] at hrun
    refine .of_senderRun hsh hrun (.data i) (by simp only [Stage.rank]; omega) fun hst hsh' =>
      ⟨hsh', ⟨hC.inv.step hW hW' rfl hst, ?_, hC.isBroken, ?_, ?_, hC.RETRANSMIT_NUM, hC.ackFlag,
        hC.stored⟩⟩
    · rw [Sender.chunksRead_withChunk hinv, hC.chunksRead]
    · have hle := (Sender.inv_withChunk hinv hsh.sender hf).seqNum
      have htotal : (s.sender.withChunk c.sender).TOTAL_BYTE
          = int32 (s.sender.TOTAL_BYTE + (s.sender.fis.take c.sender.chunkSize).length) := rfl
      have hseq : (s.sender.withChunk c.sender).seqNum
          = s.sender.seqNum + (s.sender.fis.take c.sender.chunkSize).length := rfl
      rw [htotal, hC.TOTAL_BYTE, int32_of_lt (by omega) (by omega), hseq]
      push_cast
      rfl
    · have hnum : (s.sender.withChunk c.sender).SEGMENT_NUM
          = int32 (s.sender.SEGMENT_NUM + 1) := rfl
      rw [hnum, hC.SEGMENT_NUM, int32_of_lt (by omega) (by omega)]
      push_cast
      rfl

theorem advance_data {i : ℕ} (hn : file.length + c.sender.WINDOW_SIZE < 2 ^ 31)
    (h : Stage.At c file s (.data i)) : Advances c file s (.data i) := by
  obtain ⟨hsh, hC⟩ := h
  have hread : i * c.chunkSize < file.length :=
    (hC.inv.close.side.inv.read i (hC.chunksRead ▸ Nat.lt_succ_self i)).1
  have hin : i < file.length := lt_of_mul_chunkSize_lt hW hread
  have hloop := Receiver.receiveLoop_dataSegment file (w := .written) hW hW' hC.inv.transfer.data
    hsh.receiver (i := i) (by omega) (by omega)
  rw [if_pos (hC.ackFlag ▸ Nat.lt_succ_self i)] at hloop
  have hrcv : receiverStep c.receiver s.receiver (dataSegment c.sender file i) .written
      = some (s.receiver.receiveLoop c.receiver (dataSegment c.sender file i) .written) := by
    unfold receiverStep
    rw [hsh.receiver]
  rw [hloop] at hrcv
  have hfile : ((s.receiver.receive (dataSegment c.sender file i)).stores c i
      (chunk c.sender file i) .written).file = s.receiver.file ++ chunk c.sender file i := rfl
  rw [hC.stored, take_append_chunk] at hfile
  exact .of_toReceiver hsh (by simp) (by simp) hrcv (.ack i) (by simp only [Stage.rank]; omega)
    fun hst hsh' => ⟨⟨hsh'.sender, hsh.receiver, hsh'.toReceiver, hsh'.toSender⟩,
      ⟨hC.inv.step hW hW' rfl hst, hC.chunksRead, hC.isBroken, hC.TOTAL_BYTE, hC.SEGMENT_NUM,
        hC.RETRANSMIT_NUM, congrArg (· + 1) hC.ackFlag, hfile⟩⟩

theorem advance_ack {i : ℕ} (hn : file.length + c.sender.WINDOW_SIZE < 2 ^ 31)
    (h : Stage.At c file s (.ack i)) : Advances c file s (.ack i) := by
  obtain ⟨hsh, hC⟩ := h
  have hinv := hC.inv.close.side.inv
  have hread : i * c.chunkSize < file.length :=
    (hinv.read i (hC.chunksRead ▸ Nat.lt_succ_self i)).1
  have hmul : (i + 1) * c.chunkSize = i * c.chunkSize + c.chunkSize := add_one_mul _ _
  have hL : c.chunkSize < c.sender.WINDOW_SIZE := by
    rw [Config.chunkSize, SenderConfig.chunkSize]
    omega
  have hseq : s.sender.seqNum = min ((i + 1) * c.chunkSize) file.length := by
    rw [hinv.seqNum, hC.chunksRead]
  have hsize := hinv.FILE_SIZE
  have hsnd := firstReceive_ack hW hinv hsh.sender (i := i) (by omega) (by omega)
  have hfit := lt_chunkCount hW hread
  exact .of_toSender hsh (by simp) (by simp) hsnd (.ready (i + 1))
    (by simp only [Stage.rank]; omega)
    fun hst hsh' => ⟨hsh', hC.keep hW hW' rfl hst rfl ⟨rfl, rfl⟩⟩

theorem advance_left {i : ℕ} (h : Stage.At c file s (.left i)) : Advances c file s (.left i) := by
  obtain ⟨hsh, hC, hend⟩ := h
  have hrun : senderStep c.sender s.sender .run
      = some ({ s.sender with flag := 1, pc := .closeAck }, [Sender.finDatagram c.sender]) := by
    unfold senderStep
    rw [hsh.sender]
    simp [Sender.finalDecision, hC.isBroken]
  exact .of_senderRun hsh hrun (.fin i) (Nat.lt_succ_self _)
    fun hst hsh' => ⟨hsh', hC.keep hW hW' rfl hst rfl ⟨rfl, rfl⟩, hend⟩

theorem advance_fin {i : ℕ} (h : Stage.At c file s (.fin i)) : Advances c file s (.fin i) := by
  obtain ⟨hsh, hC, hend⟩ := h
  exact .of_toReceiver hsh (by simp) (by simp)
    (receiveLoop_finDatagram hW hC.inv.transfer.data hsh.receiver .written) (.replied i)
    (Nat.lt_succ_self _) fun hst hsh' => ⟨hsh', hC.keep hW hW' rfl hst rfl ⟨rfl, rfl⟩, hend⟩

theorem advance_replied {i : ℕ} (h : Stage.At c file s (.replied i)) :
    Advances c file s (.replied i) := by
  obtain ⟨hsh, hC, hend⟩ := h
  exact .of_toSender hsh (by simp) (by simp)
    (closeAck_closeAckDatagram s.receiver hC.inv.close.side.inv.inPacket hsh.sender) (.half i)
    (Nat.lt_succ_self _) fun hst hsh' => ⟨hsh', hC.keep hW hW' rfl hst rfl ⟨rfl, rfl⟩, hend⟩

theorem advance_half {i : ℕ} (h : Stage.At c file s (.half i)) :
    Advances c file s (.half i) := by
  obtain ⟨hsh, hC, hend⟩ := h
  exact .of_toSender hsh (by simp) (by simp)
    (closeFin_closeFinDatagram s.receiver hC.inv.close.side.inv.inPacket hsh.sender) (.last i)
    (Nat.lt_succ_self _) fun hst hsh' => ⟨hsh', hC.keep hW hW' rfl hst rfl ⟨rfl, rfl⟩, hend⟩

theorem advance_last {i : ℕ} (h : Stage.At c file s (.last i)) :
    Advances c file s (.last i) := by
  obtain ⟨hsh, hC, hend⟩ := h
  have hbuf : s.receiver.inPacket.data.length = c.sender.WINDOW_SIZE :=
    hC.inv.transfer.data.buffer (by simp [hsh.receiver])
  exact .of_toReceiver hsh (by simp) (by simp)
    (closing_finalAck (by omega) hsh.receiver .written) (.done i) (Nat.lt_succ_self _)
    fun hst hsh' => ⟨hsh', hC.keep hW hW' rfl hst rfl ⟨rfl, rfl⟩, hend⟩

theorem advance (hn : file.length + c.sender.WINDOW_SIZE < 2 ^ 31) :
    ∀ st : Stage, st.At c file s → (∀ i, st ≠ .done i) → Advances c file s st
  | .window, h, _ => advance_window hW hW' h
  | .reply, h, _ => advance_reply hW hW' h
  | .ready _, h, _ => advance_ready hW hW' hn h
  | .data _, h, _ => advance_data hW hW' hn h
  | .ack _, h, _ => advance_ack hW hW' hn h
  | .left _, h, _ => advance_left hW hW' h
  | .fin _, h, _ => advance_fin hW hW' h
  | .replied _, h, _ => advance_replied hW hW' h
  | .half _, h, _ => advance_half hW hW' h
  | .last _, h, _ => advance_last hW hW' h
  | .done i, _, h => absurd rfl (h i)

end Advance

theorem Shape.stuck (h : Shape s .delivered .over [] []) (ha : InOrder s a) :
    s.step c a ≠ some t := by
  cases a with
  | senderRun => exact not_senderRun h (by simp) (by simp)
  | toSender d => simp [InOrder, h.toSender] at ha
  | toReceiver d w => simp [InOrder, h.toReceiver] at ha
  | timeout | faultToSender | faultToReceiver => exact absurd ha id

theorem Stage.At.next (hW : 24 < c.sender.WINDOW_SIZE) (hW' : c.sender.WINDOW_SIZE < 2 ^ 16)
    (hn : file.length + c.sender.WINDOW_SIZE < 2 ^ 31) {st : Stage} (h : st.At c file s)
    (ha : InOrder s a) (hst : s.step c a = some t) :
    ∃ st' : Stage, st'.rank (chunkCount c file) < st.rank (chunkCount c file) ∧
      st'.At c file t := by
  by_cases hd : ∃ i, st = .done i
  · obtain ⟨i, rfl⟩ := hd
    exact absurd hst (h.1.stuck ha)
  · obtain ⟨b, u, st', hturn, hstep, hlt, hAt⟩ := advance hW hW' hn st h fun i hi => hd ⟨i, hi⟩
    rw [hturn.only a t ha hst, hstep] at hst
    cases hst
    exact ⟨st', hlt, hAt⟩

theorem stage_init (file : Bytes) : Stage.At c file (System.init c file) .window where
  left := ⟨rfl, rfl, rfl, rfl⟩
  right := {
    inv := System.unalteredInv_init file
    chunksRead := rfl
    isBroken := rfl
    TOTAL_BYTE := rfl
    SEGMENT_NUM := rfl
    RETRANSMIT_NUM := rfl
    ackFlag := rfl
    stored := by simp [System.init, Receiver.init] }

/-- How a faultless transfer ends. -/
structure Complete (c : Config) (file : Bytes) (s : System) : Prop where
  success : s.sender.pc = .delivered
  finished : s.receiver.pc = .over
  file_eq : s.receiver.file = file
  RETRANSMIT_NUM : s.sender.RETRANSMIT_NUM = 0
  SEGMENT_NUM : s.sender.SEGMENT_NUM = chunkCount c file
  TOTAL_BYTE : s.sender.TOTAL_BYTE = file.length
  seqNum : s.sender.seqNum = file.length
  ackNum : s.sender.ackNum = chunkCount c file + 1

theorem Stage.At.complete {i : ℕ} (hW : 24 < c.sender.WINDOW_SIZE)
    (h : Stage.At c file s (.done i)) : Complete c file s := by
  obtain ⟨hsh, hC, hend⟩ := h
  have hinv := hC.inv.close.side.inv
  have hi : i = chunkCount c file := by
    refine le_antisymm ?_ (chunkCount_le hW hend)
    cases i with
    | zero => exact Nat.zero_le _
    | succ j => exact lt_chunkCount hW (hinv.read j (hC.chunksRead ▸ Nat.lt_succ_self j)).1
  have hseq : s.sender.seqNum = file.length := by
    rw [hinv.seqNum, hC.chunksRead]
    exact Nat.min_eq_right hend
  exact {
    success := hsh.sender
    finished := hsh.receiver
    file_eq := by rw [hC.stored, List.take_of_length_le hend]
    RETRANSMIT_NUM := hC.RETRANSMIT_NUM
    SEGMENT_NUM := by rw [hC.SEGMENT_NUM, ← hi]
    TOTAL_BYTE := by rw [hC.TOTAL_BYTE, hseq]
    seqNum := hseq
    ackNum := by
      have hk : s.sender.ackNum - 1 = i := hC.chunksRead
      have hpos := hinv.ackNum
      omega }

/-- With nothing lost, altered, repeated or late, every run comes to an end, and it ends with the
file stored and no segment sent again. -/
theorem faultless (hW : 24 < c.sender.WINDOW_SIZE) (hW' : c.sender.WINDOW_SIZE ≤ 65507)
    (hn : file.length + c.sender.WINDOW_SIZE < 2 ^ 31) :
    Acc (Transition.Next (System.step c) InOrder) (System.init c file) ∧
      ∀ s, Run c InOrder (System.init c file) s → (∀ a t, InOrder s a → s.step c a ≠ some t) →
        Complete c file s := by
  have hW' : c.sender.WINDOW_SIZE < 2 ^ 16 := by omega
  refine ⟨?_, fun s hs hstuck => ?_⟩
  · refine Transition.acc_of_rank (I := fun n s => ∃ st : Stage,
      st.rank (chunkCount c file) = n ∧ st.At c file s) ?_ _ _ ⟨.window, rfl, stage_init file⟩
    rintro n s t ⟨st, rfl, hAt⟩ ⟨a, ha, hst⟩
    obtain ⟨st', hlt, hAt'⟩ := hAt.next hW hW' hn ha hst
    exact ⟨_, hlt, st', rfl, hAt'⟩
  · have h : ∃ st : Stage, st.At c file s := by
      refine hs.invariant (I := fun s => ∃ st : Stage, st.At c file s) ?_ ⟨.window, stage_init file⟩
      rintro s a t ⟨st, hAt⟩ ha hst
      obtain ⟨st', -, hAt'⟩ := hAt.next hW hW' hn ha hst
      exact ⟨st', hAt'⟩
    obtain ⟨st, hAt⟩ := h
    -- before the last stage there is a step to take
    by_cases hd : ∃ i, st = .done i
    · obtain ⟨i, rfl⟩ := hd
      exact hAt.complete hW
    · obtain ⟨a, t, -, hturn, hst, -⟩ := advance hW hW' hn st hAt fun i hi => hd ⟨i, hi⟩
      exact absurd hst (hstuck a t hturn.inOrder)

/-- Three bytes take two segments, the second one a short one. -/
theorem faultless_twoBytes :
    Acc (Transition.Next (System.step twoBytes) InOrder) (System.init twoBytes [1, 2, 3]) ∧
      ∃ s : System, Run twoBytes InOrder (System.init twoBytes [1, 2, 3]) s ∧
        Complete twoBytes [1, 2, 3] s := by
  have hn : ([1, 2, 3] : Bytes).length + twoBytes.sender.WINDOW_SIZE < 2 ^ 31 := by decide
  obtain ⟨hacc, hend⟩ := faultless (by decide) (by decide) hn
  have h : ∃ s, Run twoBytes InOrder (System.init twoBytes [1, 2, 3]) s ∧
      decide (s.sender.pc = .delivered ∧ s.receiver.pc = .over ∧ s.toReceiver.inFlight = [] ∧
        s.toSender.inFlight = []) :=
    Transition.Run.exists_of_exec
      [.toReceiver (windowDatagram twoBytes.sender) .written, .toSender sizeReply,
        .senderRun, .toReceiver (dataSegment twoBytes.sender [1, 2, 3] 0) .written,
        .toSender (ackDatagram twoBytes 0),
        .senderRun, .toReceiver (dataSegment twoBytes.sender [1, 2, 3] 1) .written,
        .toSender (ackDatagram twoBytes 1),
        .senderRun, .senderRun, .toReceiver (Sender.finDatagram twoBytes.sender) .written,
        .toSender (tcpHeader 12001 12010 0 1 5 16 26 0 0 24),
        .toSender (tcpHeader 12001 12010 2 0 5 1 26 0 0 24),
        .toReceiver (Sender.finalAck twoBytes.sender 2) .written] _ (by decide +kernel)
  obtain ⟨s, h, hp⟩ := h
  obtain ⟨h1, h2, h3, h4⟩ := of_decide_eq_true hp
  have hsh : Shape s .delivered .over [] [] := ⟨h1, h2, h3, h4⟩
  exact ⟨hacc, s, h, hend s h fun _ _ ha => hsh.stuck ha⟩

end TcpLike
