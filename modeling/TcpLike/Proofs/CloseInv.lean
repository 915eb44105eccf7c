import TcpLike.Proofs.SystemStep
import TcpLike.Proofs.ReceiverStep

/-!
# Who has sent what

On a network that alters nothing, every datagram in flight is one its side has sent. The flags and
the two numbers tell the kinds apart: only the FIN of the other side has flags 1, and of what has
flags 16 the data acks start at sequence number 1. So the receiver leaves its loop behind the
sender, and the final ACK answers the receiver's own FIN (`System.CloseInv`).
-/

namespace TcpLike

theorem flagsField_of_flagsByte {d : Bytes} {b : UInt8} (h : flagsByte d = b) :
    flagsField d = b.toNat % 64 := by
  rw [flagsField, h]

section Datagrams

variable (c : SenderConfig) (c' : ReceiverConfig) (r : Receiver)

@[simp] theorem flagsField_windowDatagram : flagsField (windowDatagram c) = 0 := rfl

@[simp] theorem flagsField_finDatagram : flagsField (Sender.finDatagram c) = 1 := rfl

@[simp] theorem flagsField_finalAck (x : ℤ) : flagsField (Sender.finalAck c x) = 16 := rfl

@[simp] theorem flagsField_sizeReply : flagsField sizeReply = 0 := rfl

@[simp] theorem flagsField_closeAckDatagram : flagsField (r.closeAckDatagram c') = 16 := rfl

@[simp] theorem flagsField_closeFinDatagram : flagsField (r.closeFinDatagram c') = 1 := rfl

@[simp] theorem flagsField_dataSegment (file : Bytes) (i : ℕ) :
    flagsField (dataSegment c file i) = 16 :=
  flagsField_of_flagsByte flagsByte_dataSegment

@[simp] theorem length_windowDatagram : (windowDatagram c).length = 24 := rfl

@[simp] theorem length_finDatagram : (Sender.finDatagram c).length = 24 := rfl

@[simp] theorem length_finalAck (x : ℤ) : (Sender.finalAck c x).length = 24 := rfl

@[simp] theorem length_closeAckDatagram : (r.closeAckDatagram c').length = 24 := rfl

@[simp] theorem length_closeFinDatagram : (r.closeFinDatagram c').length = 24 := rfl

@[simp] theorem length_dataSegment (file : Bytes) (i : ℕ) :
    (dataSegment c file i).length = 24 + (chunk c file i).length :=
  length_segment _ _ _ _

theorem seqField_closeAckDatagram : seqField (r.closeAckDatagram c') = 0 := rfl

theorem ackField_closeAckDatagram : ackField (r.closeAckDatagram c') = 1 := rfl

theorem seqField_closeFinDatagram : seqField (r.closeFinDatagram c') = 2 := rfl

theorem seqField_finalAck (x : ℤ) : seqField (Sender.finalAck c x) = 0 := rfl

end Datagrams

/-! ## The datagrams of the sender -/

namespace Sender

variable {c : SenderConfig} {file : Bytes} {s s' : Sender} {i : SenderInput} {out : List Bytes}
  {d : Bytes}

theorem Sent.length (h : s.Sent c file d) : 24 ≤ d.length := by
  cases h <;> simp

/-- The FIN is sent past the file loop only. -/
theorem Sent.of_fin (h : s.Sent c file d) (hf : flagsField d = 1) :
    s.pc.past ∧ s.isBroken = false := by
  cases h with
  | fin hpc hb => exact ⟨hpc, hb⟩
  | window | data | finalAck => simp at hf

/-- The final ACK is as long as a header, so no segment is one. -/
theorem Sent.of_finalAck (hW : 24 < c.WINDOW_SIZE) (hs : s.Inv c file) {x : ℤ}
    (h : s.Sent c file (Sender.finalAck c x)) : s.pc = .delivered := by
  have hflags : flagsField (Sender.finalAck c x) = 16 := rfl
  have hlen : (Sender.finalAck c x).length = 24 := rfl
  generalize Sender.finalAck c x = d at *
  cases h with
  | window | fin => simp at hflags
  | @data i hi =>
    have hpos := length_chunk_pos hW (hs.read i hi).1
    rw [length_dataSegment] at hlen
    omega
  | finalAck y hpc => exact hpc

/-- The final ACK is sent on a datagram with flags 1. -/
theorem Step.finalAck_mem (hW : 24 < c.WINDOW_SIZE) (hs : s.Inv c file) (h : Step c s i s' out)
    {x : ℤ} (hx : Sender.finalAck c x ∈ out) :
    ∃ d, i = .receive (.datagram d) ∧ s.pc = .closeFin ∧ s'.inPacket = s.inPacket.receive d ∧
      flagsField s'.inPacket.data = 1 ∧
      Sender.finalAck c x = Sender.finalAck c (seqField s'.inPacket.data) := by
  have hpc' : s'.pc = .delivered := (sent_of_mem_out hs h hx).of_finalAck hW (hs.step h)
  cases h with
  | resend hpc => simp [hpc] at hpc'
  | ack hw h => rcases h.pc_cases with (hpc | hpc) | hpc | hpc <;> simp [hpc] at hpc'
  | @closeFin d hpc hf => exact ⟨d, rfl, hpc, rfl, hf, List.mem_singleton.1 hx⟩
  | read | close => cases hpc'
  | _ => simp at hx

end Sender

/-! ## The datagrams of the receiver -/

/-- A data ack: flags 16, and a sequence number from 1 on. -/
structure IsAck (m : Bytes) : Prop where
  length : m.length = 24
  flags : flagsByte m = 16
  seq : 0 < seqField m

namespace Receiver

variable (c : ReceiverConfig)

/-- What the receiver may have sent by now. -/
inductive Sent (r : Receiver) : Bytes → Prop
  | sizeReply : Sent r sizeReply
  | ack {m : Bytes} (h : IsAck m) : Sent r m
  | closeAck (hpc : r.pc.left) : Sent r (r.closeAckDatagram c)
  | closeFin (hpc : r.pc.left) : Sent r (r.closeFinDatagram c)

/-- The receiver keeps a data ack to send again. -/
def KeepsAck (r : Receiver) : Prop := ∀ m, r.outData = some m → IsAck m

variable {c} {r r' : Receiver} {d m : Bytes} {w : WriteOutcome} {out : List Bytes}

theorem Sent.length (h : r.Sent c m) : m.length = 24 := by
  cases h with
  | sizeReply | closeAck | closeFin => rfl
  | ack h => exact h.length

/-- A datagram with flags 1 is the FIN. -/
theorem Sent.of_fin (h : r.Sent c m) (hf : flagsField m = 1) :
    r.pc.left ∧ m = r.closeFinDatagram c := by
  cases h with
  | closeFin hpc => exact ⟨hpc, rfl⟩
  | ack h =>
    rw [flagsField_of_flagsByte h.flags] at hf
    cases hf
  | sizeReply | closeAck => simp at hf

theorem Sent.of_answer (h : r.Sent c m) (hs : seqField m = 0) (ha : ackField m = 0) :
    m = TcpLike.sizeReply := by
  cases h with
  | sizeReply => rfl
  | ack h => exact absurd hs h.seq.ne'
  | closeAck => cases ha
  | closeFin => cases hs

/-- What has flags 16 and sequence number 0 is the ACK of the close. -/
theorem Sent.of_closeAck (h : r.Sent c m) (hf : flagsField m = 16) (hs : seqField m = 0) :
    r.pc.left := by
  cases h with
  | closeAck hpc | closeFin hpc => exact hpc
  | ack h => exact absurd hs h.seq.ne'
  | sizeReply => simp at hf

theorem isAck_reply (hlt : 0 < ackField r.inPacket.data) (h : ackField r.inPacket.data < 2 ^ 31) :
    IsAck (r.reply c) where
  length := rfl
  flags := rfl
  seq := by
    have := seqField_header (d := r.reply c) rfl
    omega

/-- A FIN has been read, and answered. -/
structure ReadsFin (c : ReceiverConfig) (r r' : Receiver) (d : Bytes) (out : List Bytes) :
    Prop where
  flags : flagsField (r.receive d).inPacket.data = 1
  buffer : 14 ≤ r.inPacket.data.length
  pc : r'.pc = .closing
  closeFin : r'.closeFinDatagram c ∈ out

theorem ReadsFin.flags_eq (h : ReadsFin c r r' d out) (hd : 24 ≤ d.length) : flagsField d = 1 := by
  have ht : (r.receive d).inPacket.data.take 14 = d.take 14 := take_receive (by omega) h.buffer
  rw [← (fields_congr ht (by omega)).2.2, h.flags]

theorem receiveLoop_sent (hk : r.KeepsAck) (hpc : r.pc = .receiveLoop)
    (h : r.receiveLoop c d w = (r', out)) :
    r'.KeepsAck ∧ (∀ m ∈ out, r'.Sent c m) ∧ (r'.pc.left → ReadsFin c r r' d out) := by
  have hl : (r.receive d).inPacket.data.length = r.inPacket.data.length := length_receive _ _
  have hloop : (r.receive d).pc = .receiveLoop := hpc
  rcases receiveLoop_cases c r d w with h' | h' <;> rw [h] at h'
  · cases h'
    exact ⟨hk, by simp, by simp [ReceiverPc.left]⟩
  · cases h' with
    | sizeReply | ignored =>
      refine ⟨hk, ?_, by simp [hloop, ReceiverPc.left]⟩
      simp [Sent.sizeReply]
    | fin hb hf =>
      refine ⟨hk, fun m hm => ?_,
        fun _ => ⟨hf, by omega, rfl, List.mem_cons_of_mem _ (List.mem_singleton.2 rfl)⟩⟩
      rcases List.mem_pair.1 hm with rfl | rfl
      · exact .closeAck rfl
      · exact .closeFin rfl
    | repeated hf hi ha hm =>
      refine ⟨hk, fun m' hm' => ?_, by simp [hloop, ReceiverPc.left]⟩
      rw [List.mem_singleton.1 hm']
      exact .ack (hk _ hm)
    | accepted hb hf hs ha hi hlt =>
      have hack : IsAck ((r.receive d).reply c) := isAck_reply (by omega) ha
      have hpc' : (accepted c (r.receive d) w).pc = .receiveLoop := hpc
      refine ⟨fun m hm => ?_, fun m hm => ?_, by simp [hpc', ReceiverPc.left]⟩
      · cases hm
        exact hack
      · rw [List.mem_singleton.1 hm]
        exact .ack hack

theorem Sent.of_not_left (hl : ¬ r.pc.left) (h : r.Sent c m) : r'.Sent c m := by
  cases h with
  | sizeReply => exact .sizeReply
  | ack h => exact .ack h
  | closeAck hpc | closeFin hpc => exact absurd hpc hl

/-- The receive of `closeProcess`: "over" takes a datagram with flags 16. -/
theorem closing_cases (r : Receiver) (d : Bytes) :
    (r.closing d = { r.receive d with pc := .over } ∧ 14 ≤ r.inPacket.data.length ∧
      flagsField (r.receive d).inPacket.data = 16 ∧
      seqField (r.receive d).inPacket.data < 2 ^ 31 ∧
      ackField (r.receive d).inPacket.data < 2 ^ 31) ∨
    r.closing d = { r.receive d with pc := .ended } := by
  have hl : (r.receive d).inPacket.data.length = r.inPacket.data.length := length_receive _ _
  unfold closing
  simp only []
  split
  · rename_i h
    unfold closeFlags at h
    obtain ⟨flags, hf, h⟩ := java_bind_eq_ok.1 h
    obtain ⟨seq, hs, h⟩ := java_bind_eq_ok.1 h
    obtain ⟨ack, ha, h⟩ := java_bind_eq_ok.1 h
    cases h
    obtain ⟨hb, hf⟩ := getFlags_eq_ok hf
    exact .inl ⟨rfl, by omega, hf.symm, (getSeqNum_eq_ok hs).1, (getAckNum_eq_ok ha).1⟩
  · exact .inr rfl

theorem receiveLoop_pc (c : ReceiverConfig) (r : Receiver) (d : Bytes) (w : WriteOutcome) :
    (r.receiveLoop c d w).1.pc = .aborted ∨ (r.receiveLoop c d w).1.pc = r.pc ∨
      (r.receiveLoop c d w).1.pc = .closing := by
  rcases receiveLoop_cases c r d w with h | h
  · rw [h]
    exact .inl rfl
  · refine .inr ?_
    generalize r.receiveLoop c d w = res at h
    cases h with
    | fin => exact .inr rfl
    | sizeReply | ignored | repeated | accepted => exact .inl rfl

theorem step_over (h : receiverStep c r d w = some (r', out)) (ho : r'.pc = .over)
    (hd : 24 ≤ d.length) :
    r.pc = .closing ∧ flagsField d = 16 ∧ seqField d < 2 ^ 31 ∧ ackField d < 2 ^ 31 := by
  unfold receiverStep at h
  split at h
  · unfold handshake at h
    simp only [Option.some.injEq] at h
    split at h <;> cases h <;> simp at ho
  · rename_i hpc
    have := receiveLoop_pc c r d w
    rw [Option.some.inj h, ho, hpc] at this
    simp at this
  · rename_i hpc
    cases h
    rcases closing_cases r d with ⟨-, hb, hf, hs, ha⟩ | he
    · have ht : (r.receive d).inPacket.data.take 14 = d.take 14 := take_receive (by omega) hb
      obtain ⟨h1, h2, h3⟩ := fields_congr ht (by omega)
      exact ⟨hpc, h3 ▸ hf, h1 ▸ hs, h2 ▸ ha⟩
    · rw [he] at ho
      simp at ho
  · cases h

/-- What a step of the receiver does to what it has sent. -/
theorem step_sent (hk : r.KeepsAck) (h : receiverStep c r d w = some (r', out)) :
    r'.KeepsAck ∧ (∀ m, r.Sent c m ∨ m ∈ out → r'.Sent c m) ∧ (r.pc.left → r'.pc.left) ∧
      (r'.pc.left → (r.pc.left ∧ r'.closeFinDatagram c = r.closeFinDatagram c) ∨
        ReadsFin c r r' d out) := by
  unfold receiverStep at h
  split at h
  · rename_i hpc
    have hl : ¬ r.pc.left := by simp [hpc, ReceiverPc.left]
    unfold handshake at h
    simp only [Option.some.injEq] at h
    split at h <;> cases h
    · exact ⟨hk, by simp +contextual [Sent.of_not_left hl], by simp [hl],
        by simp [ReceiverPc.left]⟩
    · refine ⟨hk, fun m hm => ?_, by simp [hl], by simp [ReceiverPc.left]⟩
      rcases hm with hm | hm
      · exact hm.of_not_left hl
      · rw [List.mem_singleton.1 hm]
        exact .sizeReply
  · rename_i hpc
    have hl : ¬ r.pc.left := by simp [hpc, ReceiverPc.left]
    simp only [Option.some.injEq] at h
    obtain ⟨hk', hout, hleft⟩ := receiveLoop_sent hk hpc h
    exact ⟨hk', fun m hm => hm.elim (Sent.of_not_left hl) (hout m), by simp [hl],
      fun h => .inr (hleft h)⟩
  · rename_i hpc
    have hl : r.pc.left := by simp [hpc, ReceiverPc.left]
    cases h
    rcases closing_cases r d with ⟨he, -⟩ | he <;> rw [he]
    all_goals
      refine ⟨hk, fun m hm => ?_, fun _ => rfl, fun _ => .inl ⟨hl, rfl⟩⟩
      rcases hm with hm | hm
      · cases hm with
        | sizeReply => exact .sizeReply
        | ack h => exact .ack h
        | closeAck => exact .closeAck rfl
        | closeFin => exact .closeFin rfl
      · simp at hm
  · cases h

end Receiver

/-! ## The two sides together -/

namespace System

variable (c : Config) (file : Bytes)

/-- On a network that alters nothing. -/
structure CloseInv (s : System) : Prop where
  side : s.SenderSide c file
  genuine : s.toSender.Genuine
  sent : ∀ m ∈ s.toSender.sent, s.receiver.Sent c.receiver m
  keeps : s.receiver.KeepsAck
  left : s.receiver.pc.left → (s.sender.pc.past ∧ s.sender.isBroken = false) ∧
    s.receiver.closeFinDatagram c.receiver ∈ s.toSender.sent
  finalAck : ∀ x : ℤ, Sender.finalAck c.sender x ∈ s.toReceiver.sent →
    s.receiver.pc.left ∧ Sender.finalAck c.sender x = Sender.finalAck c.sender 2

variable {c file} {s s' : System} {a : Action}

theorem closeInv_init (file : Bytes) : (System.init c file).CloseInv c file where
  side := senderSide_init file
  genuine := Channel.genuine_empty
  sent m hm := by simp [System.init, Channel.empty] at hm
  keeps m hm := by simp [System.init, Receiver.init] at hm
  left h := by simp [System.init, Receiver.init, ReceiverPc.left] at h
  finalAck x hx := by
    have := congrArg flagsField (List.mem_singleton.1 hx)
    simp at this

theorem CloseInv.inFlight (hs : s.CloseInv c file) {m : Bytes} (hm : m ∈ s.toSender.inFlight) :
    s.receiver.Sent c.receiver m :=
  hs.sent m (hs.genuine m hm)

theorem CloseInv.data_receive (hs : s.CloseInv c file) {m : Bytes}
    (hm : m ∈ s.toSender.inFlight) : (s.sender.inPacket.receive m).data = m :=
  data_receive_of_eq ((hs.inFlight hm).length.trans hs.side.inv.inPacket.symm)

theorem CloseInv.step (hW : 24 < c.sender.WINDOW_SIZE) (hs : s.CloseInv c file)
    (ha : a.unaltered) (h : s.step c a = some s') : s'.CloseInv c file := by
  have hside : s'.SenderSide c file := hs.side.step hW (by rintro f rfl; exact ha) h
  cases step_cases h with
  | @sender _ i ch snd out ht hsnd =>
    have hstep := hs.side.senderStep hW hsnd
    refine ⟨hside, hs.genuine.of_subset ht.inFlight ht.sent, ht.sent.symm ▸ hs.sent, hs.keeps,
      fun hl => ?_, fun x hx => ?_⟩
    · obtain ⟨⟨hp, hb⟩, hfin⟩ := hs.left hl
      obtain ⟨hp', hb'⟩ := hstep.past hp
      exact ⟨⟨hp', hb'.trans hb⟩, ht.sent.symm ▸ hfin⟩
    · rcases List.mem_append.1 hx with hx | hx
      · exact hs.finalAck x hx
      · obtain ⟨m, rfl, -, hp, hf, he⟩ := hstep.finalAck_mem hW hs.side.inv hx
        have hm := ht.mem.2
        rw [hp, hs.data_receive hm] at hf he
        obtain ⟨hl, rfl⟩ := (hs.inFlight hm).of_fin hf
        exact ⟨hl, he⟩
  | @receiver d w ch rcv out hd hrcv =>
    obtain ⟨hk, hsent, hmono, hleft⟩ := Receiver.step_sent hs.keeps hrcv
    refine ⟨hside, hs.genuine.send _, fun m hm => ?_, hk, fun hl => ?_, fun x hx => ?_⟩
    · exact hsent m ((List.mem_append.1 hm).imp_left (hs.sent m))
    · rcases hleft hl with ⟨hl, he⟩ | hr
      · exact ⟨(hs.left hl).1, he ▸ List.mem_append_left _ (hs.left hl).2⟩
      · have hd := hs.side.inFlight (Channel.deliver_eq_some hd).1
        exact ⟨hd.of_fin (hr.flags_eq hd.length), List.mem_append_right _ hr.closeFin⟩
    · rw [Channel.sent_deliver hd] at hx
      exact ⟨hmono (hs.finalAck x hx).1, (hs.finalAck x hx).2⟩
  | faultToSender hf =>
    exact ⟨hside, hs.genuine.fault ha hf, (Channel.fault_eq_some hf).2.symm ▸ hs.sent, hs.keeps,
      (Channel.fault_eq_some hf).2.symm ▸ hs.left, hs.finalAck⟩
  | faultToReceiver hf =>
    exact ⟨hside, hs.genuine, hs.sent, hs.keeps, hs.left,
      (Channel.fault_eq_some hf).2.symm ▸ hs.finalAck⟩

end System

end TcpLike
