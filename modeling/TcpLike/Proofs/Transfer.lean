import Mathlib.NumberTheory.LucasLehmer
import TcpLike.Proofs.ReceiverData

/-!
# The transfer

The invariant that ties the two counts together (`System.TransferInv`): the receiver has accepted
all chunks the sender has read, but perhaps the last one, and an ack with the number the sender
waits for is that last one's. It holds as long as the sender goes on on a valid ack only once the
receiver has sent one (`System.TakesSent`).

A file of 2 GB or more brings one oddity: `FILE_SIZE` is 2147483647 then, and where a segment ends
there the sender goes on without its ack. That number is a prime, so the chunks have one byte each,
and the next segment is one whose number the receiver cannot read.
-/

namespace TcpLike

theorem maxInt_prime : (2 ^ 31 - 1).Prime :=
  lucas_lehmer_sufficiency 31 (by norm_num) (by norm_num)

variable {c : Config} {file : Bytes}

namespace Sender

theorem Sent.length_le {s : Sender} {d : Bytes} (hW : 24 < c.sender.WINDOW_SIZE)
    (h : s.Sent c.sender file d) : d.length ≤ c.sender.WINDOW_SIZE := by
  cases h with
  | window | fin | finalAck => exact hW.le
  | data => exact Receiver.length_le_buffer hW _

theorem Inv.waits {s : Sender} (hW : 24 < c.sender.WINDOW_SIZE) (hs : s.Inv c.sender file)
    (hw : s.pc.waiting) : ∃ i, s.chunksRead = i + 1 ∧ i * c.chunkSize < s.seqNum := by
  obtain ⟨i, hi, -⟩ := hs.held hw
  have hread := (hs.read i (by omega)).1
  refine ⟨i, hi, ?_⟩
  have hL : i * c.chunkSize < (i + 1) * c.chunkSize := by
    rw [add_one_mul, Config.chunkSize, SenderConfig.chunkSize]
    omega
  rw [hs.seqNum, hi]
  exact lt_min hL hread

theorem Step.of_handshake {s s' : Sender} {i : SenderInput} {out : List Bytes}
    (h : Step c.sender s i s' out) (hpc : s.pc = .handshake) :
    s'.pc = .handshake ∨ ∃ d, i = .receive (.datagram d) := by
  cases h with
  | resend => exact .inl hpc
  | passOver | answered => exact .inr ⟨_, rfl⟩
  | ack hw => simp [hpc, SenderPc.waiting] at hw
  | _ => simp_all

theorem Sent.of_handshake {s : Sender} {d : Bytes} (h : s.Sent c.sender file d)
    (hs : s.Inv c.sender file) (hpc : s.pc = .handshake) : d = windowDatagram c.sender := by
  cases h with
  | window => rfl
  | data hi => simp [hs.handshake hpc] at hi
  | fin h | finalAck _ h => simp [hpc, SenderPc.past] at h

end Sender

namespace System

/-- The two counts, and what is on its way from the receiver. -/
structure TransferInv (c : Config) (file : Bytes) (s : System) : Prop where
  side : s.SenderSide c file
  data : s.receiver.Data c
  start : s.receiver.pc = .handshake → s.sender.pc = .handshake ∧ s.toSender = .empty
  left : s.receiver.pc.left → s.sender.pc.past
  sent : ∀ m ∈ s.toSender.sent, m = sizeReply ∨
    (∃ i < s.receiver.ackFlag, m = ackDatagram c i) ∨ (s.receiver.pc.left ∧ ¬ IsAck m)
  upper : s.receiver.ackFlag ≤ max s.sender.chunksRead 1
  lower : min s.sender.chunksRead (2 ^ 31 - 1) ≤ s.receiver.ackFlag + 1
  head : s.sender.pc = .fileLoop → s.sender.fis ≠ [] →
    min s.sender.chunksRead (2 ^ 31 - 2) ≤ s.receiver.ackFlag

variable {s s' : System} {a : Action}

/-- An ack sent, with a number beyond the start of the segment in hand, is that segment's. -/
theorem TransferInv.acked (hW : 24 < c.sender.WINDOW_SIZE) (hW' : c.sender.WINDOW_SIZE < 2 ^ 16)
    (hs : s.TransferInv c file) (hw : s.sender.pc.waiting) {m : Bytes}
    (hm : m ∈ s.toSender.sent) {j : ℕ} (hj : s.sender.chunksRead = j + 1)
    (hlt : j * c.chunkSize < ackField m) : s.sender.chunksRead ≤ s.receiver.ackFlag := by
  rcases hs.sent m hm with rfl | ⟨i, hi, rfl⟩ | ⟨hl, -⟩
  · exact absurd hlt (Nat.not_lt_zero _)
  · have hi1 : i ≤ j := by
      have := hs.upper
      omega
    have hbound : i * c.chunkSize < 2 ^ 31 := (hs.side.inv.read i (by omega)).2
    have hfield : (i + 1) * c.chunkSize < 2 ^ 32 := by
      rw [add_one_mul, Config.chunkSize, SenderConfig.chunkSize] at *
      omega
    rw [ackField_ackDatagram hfield] at hlt
    have : j < i + 1 := lt_of_mul_lt_mul_right hlt (Nat.zero_le _)
    omega
  · exact absurd hw (SenderPc.not_waiting_of_past (hs.left hl))

/-- The receiver has sent a valid ack of the segment in hand. -/
def AckSent (s : System) : Prop :=
  ∃ m ∈ s.toSender.sent, isValidAck ((DatagramPacket.new 24).receive m) s.sender.seqNum = .ok true

instance (s : System) : Decidable s.AckSent :=
  inferInstanceAs (Decidable (∃ m ∈ s.toSender.sent, _))

/-- What the receiver has sent fills the buffer of a sender that waits. -/
theorem TransferInv.length_sent (hs : s.TransferInv c file) (hw : s.sender.pc.waiting) {m : Bytes}
    (hm : m ∈ s.toSender.sent) : m.length = 24 := by
  rcases hs.sent m hm with rfl | ⟨i, -, rfl⟩ | ⟨hl, -⟩
  · rfl
  · rfl
  · exact absurd hw (SenderPc.not_waiting_of_past (hs.left hl))

/-- A segment with a valid ack sent is accepted. -/
theorem TransferInv.of_ackSent (hW : 24 < c.sender.WINDOW_SIZE)
    (hW' : c.sender.WINDOW_SIZE < 2 ^ 16) (hs : s.TransferInv c file) (hw : s.sender.pc.waiting)
    (ha : s.AckSent) : s.sender.chunksRead ≤ s.receiver.ackFlag := by
  obtain ⟨m, hm, hv⟩ := ha
  have hl := hs.length_sent hw hm
  have hdata : ((DatagramPacket.new 24).receive m).data = m :=
    data_receive_of_eq (hl.trans (length_new 24).symm)
  have ha := (ackField_of_isValidAck (by rw [hdata]; omega) hv).1
  rw [hdata] at ha
  obtain ⟨j, hj, hlt⟩ := hs.side.inv.waits hW hw
  exact hs.acked hW hW' hw hm hj (ha ▸ hlt)

/-- A sender that goes on on a valid ack, with bytes still to read, does so once one was sent. -/
def Unforged (s : System) (o : Outcome) : Prop :=
  s.sender.pc.waiting → s.sender.fis ≠ [] → s.sender.Looks o →
    isValidAck (s.sender.packetAfter o) s.sender.seqNum = .ok true → s.AckSent

/-- The condition on a step that brings the sender a datagram, or none: no ack is made up. -/
def TakesSent (s : System) : Action → Prop
  | .toSender d => s.Unforged (.datagram d)
  | .timeout => s.Unforged .timeout
  | _ => True

theorem TakesSent.unforged (h : s.TakesSent a) {o : Outcome} {ch : Channel Bytes}
    (ht : s.Takes a (.receive o) ch) : s.Unforged o := by
  cases ht <;> exact h

/-- A segment that ends at byte 2147483647 of a longer file leaves one chunk of one byte. -/
theorem TransferInv.of_maxInt (hW : 24 < c.sender.WINDOW_SIZE)
    (hW' : c.sender.WINDOW_SIZE < 2 ^ 16) (hs : s.TransferInv c file)
    (hsz : (s.sender.seqNum : ℤ) = s.sender.FILE_SIZE) (hf : s.sender.fis ≠ []) :
    s.sender.chunksRead = 2 ^ 31 - 1 := by
  have hlt := hs.side.inv.fis_ne_nil.1 hf
  have hseq := hs.side.inv.seqNum
  have hsize := hs.side.inv.FILE_SIZE
  have hmul : s.sender.chunksRead * c.chunkSize = 2 ^ 31 - 1 := by
    rw [Config.chunkSize]
    omega
  rcases maxInt_prime.eq_one_or_self_of_dvd c.chunkSize (Dvd.intro_left _ hmul) with h | h
  · rwa [h, mul_one] at hmul
  · rw [Config.chunkSize, SenderConfig.chunkSize] at h
    omega

/-- What a step of the sender keeps of the two counts. -/
theorem TransferInv.sender_counts (hW : 24 < c.sender.WINDOW_SIZE)
    (hW' : c.sender.WINDOW_SIZE < 2 ^ 16) (hs : s.TransferInv c file) (hgen : s.TakesSent a)
    {i : SenderInput} {ch : Channel Bytes} {snd : Sender} {out : List Bytes}
    (ht : s.Takes a i ch) (h : Sender.Step c.sender s.sender i snd out) :
    min snd.chunksRead (2 ^ 31 - 1) ≤ s.receiver.ackFlag + 1 ∧
      (snd.pc = .fileLoop → snd.fis ≠ [] →
        min snd.chunksRead (2 ^ 31 - 2) ≤ s.receiver.ackFlag) := by
  cases h with
  | resend hpc | passOver hpc => exact ⟨hs.lower, by simp [hpc, Sender.receive]⟩
  | answered hpc =>
    refine ⟨hs.lower, fun _ _ => ?_⟩
    have h0 := hs.side.inv.handshake hpc
    exact (min_le_left _ _).trans (h0.trans_le (Nat.zero_le _))
  | read hpc hf =>
    have hread := Sender.chunksRead_withChunk hs.side.inv
    have hhead := hs.head hpc hf
    refine ⟨by omega, by simp [Sender.withChunk]⟩
  | ack hw h =>
    rw [h.chunksRead, h.kept.fis]
    cases h with
    | retry hk hp hpc =>
      refine ⟨hs.lower, fun h => ?_⟩
      rcases hpc with hpc | hpc <;> rw [hpc] at h <;> cases h
    | next hk hp hpc _ _ hv hl =>
      refine ⟨hs.lower, fun _ hf => ?_⟩
      rcases hv with hv | ⟨-, hsz, -⟩
      · have ha := hgen.unforged ht hw hf hl (hp ▸ hv)
        exact (min_le_left _ _).trans (hs.of_ackSent hW hW' hw ha)
      · -- not the end of the file after all: the count stands at the bound of `lower`
        have hmax := hs.of_maxInt hW hW' hsz hf
        have := hs.lower
        omega
    | left hk hp hpc => exact ⟨hs.lower, by simp [hpc]⟩
  | _ => exact ⟨hs.lower, by simp⟩

/-! ## The receiver's steps -/

/-- The receiver's loop meets no final ACK. -/
def NoStray (c : Config) (s : System) : Prop :=
  ∀ x : ℤ, s.receiver.pc = .receiveLoop → Sender.finalAck c.sender x ∉ s.toReceiver.inFlight

/-- What the receiver accepts is the segment it has to accept next, or a window-size datagram before
all of them. -/
theorem TransferInv.accepts (hW : 24 < c.sender.WINDOW_SIZE) (hs : s.TransferInv c file)
    {d : Bytes} (hd : s.sender.Sent c.sender file d)
    (hstray : ∀ x : ℤ, d ≠ Sender.finalAck c.sender x) (hf : flagsField d ≠ 1)
    (ha : ackField d < 2 ^ 31) (hlt : s.receiver.ackFlag < ackField d) :
    (d = windowDatagram c.sender ∧ s.receiver.ackFlag = 0) ∨
      (d = dataSegment c.sender file s.receiver.ackFlag ∧
        s.receiver.ackFlag < s.sender.chunksRead) := by
  cases hd with
  | window =>
    have hone : ackField (windowDatagram c.sender) = 1 := rfl
    exact .inl ⟨rfl, by omega⟩
  | @data i hi =>
    have hbound := (hs.side.inv.read i hi).2
    rw [ackField_dataSegment (lt_of_mul_chunkSize_lt hW hbound)] at ha hlt
    have := hs.lower
    have hi' : i = s.receiver.ackFlag := by omega
    exact .inr ⟨by rw [hi'], by omega⟩
  | fin => simp at hf
  | finalAck x => exact absurd rfl (hstray x)

/-- What the receiver's loop does with a datagram in flight. -/
inductive Reception (c : Config) (file : Bytes) (s : System) (d : Bytes) (w : WriteOutcome) :
    Receiver × List Bytes → Prop
  | aborted : Reception c file s d w ({ s.receiver.receive d with pc := .aborted }, [])
  | ignored : Reception c file s d w (s.receiver.receive d, [])
  | fin (hf : flagsField d = 1) :
      Reception c file s d w ((s.receiver.receive d).closeProcess c.receiver)
  | repeated (h0 : 0 < s.receiver.ackFlag) (ha : ackField d ≤ s.receiver.ackFlag) :
      Reception c file s d w (s.receiver.receive d, [ackDatagram c (s.receiver.ackFlag - 1)])
  | window (hd : d = windowDatagram c.sender) (h0 : s.receiver.ackFlag = 0)
      (hsum : generateChecksum d = .ok 0) :
      Reception c file s d w ((s.receiver.receive d).stores c 0 [] w, [ackDatagram c 0])
  | segment (hd : d = dataSegment c.sender file s.receiver.ackFlag)
      (hlt : s.receiver.ackFlag < s.sender.chunksRead) :
      Reception c file s d w
        ((s.receiver.receive d).stores c s.receiver.ackFlag
          (chunk c.sender file s.receiver.ackFlag) w, [ackDatagram c s.receiver.ackFlag])

theorem TransferInv.reception (hW : 24 < c.sender.WINDOW_SIZE)
    (hW' : c.sender.WINDOW_SIZE < 2 ^ 16) (hs : s.TransferInv c file)
    (hpc : s.receiver.pc = .receiveLoop) {d : Bytes} (hd : s.sender.Sent c.sender file d)
    (hstray : ∀ x : ℤ, d ≠ Sender.finalAck c.sender x) (w : WriteOutcome) :
    Reception c file s d w (s.receiver.receiveLoop c.receiver d w) := by
  have h := Receiver.round_cases hW hs.data hpc hd.length (hd.length_le hW) w
  generalize s.receiver.receiveLoop c.receiver d w = res at h
  cases h with
  | aborted => exact .aborted
  | ignored => exact .ignored
  | fin hf => exact .fin hf
  | repeated hf h0 ha => exact .repeated h0 ha
  | accepted hf hseq ha hi hlt =>
    rcases hs.accepts hW hd hstray hf ha hlt with ⟨rfl, h0⟩ | ⟨he, hk⟩
    · obtain ⟨h1, h2⟩ := Receiver.accepted_windowDatagram (w := w) hW hs.data hpc
      rw [h1, h2]
      exact .window rfl h0 hi
    · have hbound := (hs.side.inv.read _ hk).2
      obtain ⟨h1, h2⟩ := Receiver.accepted_dataSegment file (w := w) hW hW' hs.data hpc
        hbound
      rw [he, h1, h2]
      exact .segment rfl hk

theorem TransferInv.reception_of_mem (hW : 24 < c.sender.WINDOW_SIZE)
    (hW' : c.sender.WINDOW_SIZE < 2 ^ 16) (hs : s.TransferInv c file)
    (hpc : s.receiver.pc = .receiveLoop) {d : Bytes} (hd : d ∈ s.toReceiver.inFlight)
    (hstray : s.NoStray c) (w : WriteOutcome) :
    Reception c file s d w (s.receiver.receiveLoop c.receiver d w) :=
  hs.reception hW hW' hpc (hs.side.inFlight hd) (fun x he => hstray x hpc (he ▸ hd)) w

/-- What a step of the receiver keeps. -/
structure ReceiverKeeps (c : Config) (s : System) (rcv : Receiver) (out : List Bytes) : Prop where
  data : rcv.Data c
  pc : rcv.pc ≠ .handshake
  left : rcv.pc.left → s.sender.pc.past
  sent : ∀ m ∈ out, m = sizeReply ∨ (∃ i < rcv.ackFlag, m = ackDatagram c i) ∨
    (rcv.pc.left ∧ ¬ IsAck m)
  upper : rcv.ackFlag ≤ max s.sender.chunksRead 1
  mono : s.receiver.ackFlag ≤ rcv.ackFlag
  stays : s.receiver.pc.left → rcv.pc.left

theorem data_of_receive (hr : s.receiver.Data c) (hpc : s.receiver.pc ≠ .handshake) (d : Bytes)
    (pc : ReceiverPc) (hpc' : pc ≠ .handshake) :
    Receiver.Data c { s.receiver.receive d with pc := pc } where
  outData := hr.outData
  fresh h := absurd h hpc'
  window _ := hr.window hpc
  buffer _ := (length_receive _ _).trans (hr.buffer hpc)

theorem data_stores (hr : s.receiver.Data c) (hpc : s.receiver.pc ≠ .handshake) (d : Bytes)
    (data : Bytes) (w : WriteOutcome) :
    Receiver.Data c ((s.receiver.receive d).stores c s.receiver.ackFlag data w) where
  outData := rfl
  fresh h := absurd h hpc
  window _ := hr.window hpc
  buffer _ := (length_receive _ _).trans (hr.buffer hpc)

theorem TransferInv.receiveLoop_keeps (hW : 24 < c.sender.WINDOW_SIZE)
    (hW' : c.sender.WINDOW_SIZE < 2 ^ 16) (hs : s.TransferInv c file)
    (hpc : s.receiver.pc = .receiveLoop) {d : Bytes} (hd : d ∈ s.toReceiver.inFlight)
    (hstray : s.NoStray c) (w : WriteOutcome) :
    ReceiverKeeps c s (s.receiver.receiveLoop c.receiver d w).1
      (s.receiver.receiveLoop c.receiver d w).2 := by
  have hne : s.receiver.pc ≠ .handshake := by simp [hpc]
  have hloop : (s.receiver.receive d).pc = .receiveLoop := hpc
  have hno : ∀ {p : Prop}, s.receiver.pc.left → p := fun h => by simp [hpc, ReceiverPc.left] at h
  have hd0 := data_of_receive hs.data hne d
  have h := hs.reception_of_mem hW hW' hpc hd hstray w
  generalize s.receiver.receiveLoop c.receiver d w = res at h
  cases h with
  | aborted =>
    exact ⟨hd0 _ (by simp), by simp, by simp [ReceiverPc.left], by simp, hs.upper, le_rfl,
      hno⟩
  | ignored =>
    exact ⟨hd0 _ hne, hne, hno, by simp, hs.upper, le_rfl, hno⟩
  | fin hf =>
    refine ⟨hd0 .closing (by simp), by simp [Receiver.closeProcess],
      fun _ => ((hs.side.inFlight hd).of_fin hf).1,
      fun m hm => .inr (.inr ⟨rfl, fun ha => ?_⟩), hs.upper, le_rfl, hno⟩
    rcases List.mem_pair.1 hm with rfl | rfl
    · exact absurd (seqField_closeAckDatagram _ _) ha.seq.ne'
    · have hf1 := flagsField_closeFinDatagram c.receiver (s.receiver.receive d)
      rw [flagsField_of_flagsByte ha.flags] at hf1
      simp at hf1
  | repeated h0 ha =>
    refine ⟨hd0 _ hne, hne, hno, fun m hm => .inr (.inl ⟨_, ?_, List.mem_singleton.1 hm⟩),
      hs.upper, le_rfl, hno⟩
    exact Nat.sub_lt h0 one_pos
  | window hd' h0 =>
    have hdata := data_stores hs.data hne d [] w
    rw [h0] at hdata
    have hflag : ((s.receiver.receive d).stores c 0 [] w).ackFlag = 1 := congrArg (· + 1) h0
    exact ⟨hdata, hne, hno, fun m hm => .inr (.inl ⟨0, Nat.succ_pos _, List.mem_singleton.1 hm⟩),
      hflag.trans_le (le_max_right _ _), Nat.le_succ _, hno⟩
  | segment hd' hlt =>
    refine ⟨data_stores hs.data hne d _ w, hne, hno,
      fun m hm => .inr (.inl ⟨_, Nat.lt_succ_self _, List.mem_singleton.1 hm⟩), ?_,
      Nat.le_succ _, hno⟩
    exact (Nat.succ_le_of_lt hlt).trans (le_max_left _ _)

/-- The handshake of the receiver, which only a window-size datagram can reach. -/
theorem TransferInv.handshake_keeps (hW : 24 < c.sender.WINDOW_SIZE)
    (hW' : c.sender.WINDOW_SIZE < 2 ^ 16) (hs : s.TransferInv c file)
    (hpc : s.receiver.pc = .handshake) {d : Bytes} (hd : d ∈ s.toReceiver.inFlight) :
    s.receiver.handshake d = ({ s.receiver.receive d with
      pc := .receiveLoop
      WINDOW_SIZE := c.sender.WINDOW_SIZE
      inPacket := .new c.sender.WINDOW_SIZE }, [sizeReply]) := by
  have hsnd := (hs.start hpc).1
  have hd' : d = windowDatagram c.sender := (hs.side.inFlight hd).of_handshake hs.side.inv hsnd
  have hbuf : s.receiver.inPacket.data.length = 24 := (hs.data.fresh hpc).2.2
  have hdata : (s.receiver.receive d).inPacket.data = d :=
    data_receive_of_eq (by rw [hbuf, hd', length_windowDatagram])
  have hwin : (windowField (windowDatagram c.sender) : ℤ) = c.sender.WINDOW_SIZE := by
    rw [windowField_header (d := windowDatagram c.sender) rfl]
    omega
  unfold Receiver.handshake
  simp only []
  rw [getWindowSize_eq (by rw [hdata, hd', length_windowDatagram]; omega), hdata, hd', hwin]
  rfl

theorem TransferInv.receiver_keeps (hW : 24 < c.sender.WINDOW_SIZE)
    (hW' : c.sender.WINDOW_SIZE < 2 ^ 16) (hs : s.TransferInv c file) {d : Bytes}
    (hd : d ∈ s.toReceiver.inFlight) (hstray : s.NoStray c) {w : WriteOutcome} {rcv : Receiver}
    {out : List Bytes}
    (h : receiverStep c.receiver s.receiver d w = some (rcv, out)) :
    ReceiverKeeps c s rcv out := by
  unfold receiverStep at h
  split at h
  · rename_i hpc
    rw [hs.handshake_keeps hW hW' hpc hd] at h
    cases h
    obtain ⟨h0, -, -⟩ := hs.data.fresh hpc
    refine ⟨⟨hs.data.outData, by simp, fun _ => rfl, fun _ => length_new _⟩, by simp,
      by simp [ReceiverPc.left], by simp, hs.upper, le_rfl, by simp [hpc, ReceiverPc.left]⟩
  · rename_i hpc
    have := hs.receiveLoop_keeps hW hW' hpc hd hstray w
    rw [Option.some.inj h] at this
    exact this
  · rename_i hpc
    have hl : s.receiver.pc.left := by simp [hpc, ReceiverPc.left]
    have hd0 := data_of_receive hs.data (by simp [hpc]) d
    cases h
    rcases Receiver.closing_cases s.receiver d with ⟨he, -⟩ | he <;> rw [he]
    · exact ⟨hd0 .over (by simp), by simp, fun _ => hs.left hl, by simp, hs.upper, le_rfl,
        fun _ => rfl⟩
    · exact ⟨hd0 .ended (by simp), by simp, fun _ => hs.left hl, by simp, hs.upper, le_rfl,
        fun _ => rfl⟩
  · cases h

/-! ## The steps of the system -/

theorem TransferInv.step (hW : 24 < c.sender.WINDOW_SIZE) (hW' : c.sender.WINDOW_SIZE < 2 ^ 16)
    (hs : s.TransferInv c file) (hf : ∀ f, a = .faultToReceiver f → f.unaltered)
    (hgen : s.TakesSent a) (hstray : s.NoStray c) (h : s.step c a = some s') :
    s'.TransferInv c file := by
  have hside : s'.SenderSide c file := hs.side.step hW hf h
  cases step_cases h with
  | @sender _ i ch snd out ht hsnd =>
    have hstep := hs.side.senderStep hW hsnd
    have hle := hstep.chunksRead_le hs.side.inv
    obtain ⟨h1, h2⟩ := hs.sender_counts hW hW' hgen ht hstep
    refine ⟨hside, hs.data, fun hpc => ?_, fun hl => (hstep.past (hs.left hl)).1,
      ht.sent.symm ▸ hs.sent, ?_, h1, h2⟩
    · obtain ⟨hsnd, hemp⟩ := hs.start hpc
      obtain ⟨hch, hno⟩ := ht.of_empty hemp
      exact ⟨(hstep.of_handshake hsnd).resolve_right fun ⟨d, hd⟩ => hno d hd, hch⟩
    · exact hs.upper.trans (max_le_max hle le_rfl)
  | @receiver d w ch rcv out hd hrcv =>
    have hmem := (Channel.deliver_eq_some hd).1
    have hk := hs.receiver_keeps hW hW' hmem hstray hrcv
    refine ⟨hside, hk.data, fun hpc => absurd hpc hk.pc, hk.left, fun m hm => ?_, hk.upper,
      hs.lower.trans (Nat.succ_le_succ hk.mono), fun hpc hf => (hs.head hpc hf).trans hk.mono⟩
    rcases List.mem_append.1 hm with hm | hm
    · rcases hs.sent m hm with h | ⟨i, hi, h⟩ | h
      · exact .inl h
      · exact .inr (.inl ⟨i, hi.trans_le hk.mono, h⟩)
      · exact .inr (.inr ⟨hk.stays h.1, h.2⟩)
    · exact hk.sent m hm
  | faultToSender hch =>
    obtain ⟨hne, hsent⟩ := Channel.fault_eq_some hch
    refine ⟨hside, hs.data, fun hpc => ?_, hs.left, hsent.symm ▸ hs.sent, hs.upper, hs.lower,
      hs.head⟩
    exact absurd (congrArg Channel.inFlight (hs.start hpc).2) hne
  | faultToReceiver =>
    exact ⟨hside, hs.data, hs.start, hs.left, hs.sent, hs.upper, hs.lower, hs.head⟩

theorem transferInv_init (file : Bytes) : (System.init c file).TransferInv c file where
  side := senderSide_init file
  data := ⟨rfl, fun _ => ⟨rfl, rfl, rfl⟩, by simp [System.init, Receiver.init],
    by simp [System.init, Receiver.init]⟩
  start _ := ⟨rfl, rfl⟩
  left h := by simp [System.init, Receiver.init, ReceiverPc.left] at h
  sent m hm := by simp [System.init, Channel.empty] at hm
  upper := Nat.zero_le _
  lower := by simp [System.init, Sender.init, Sender.chunksRead]
  head h := by simp [System.init, Sender.init] at h

end System

end TcpLike
