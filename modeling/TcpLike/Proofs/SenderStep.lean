import TcpLike.Sender
import TcpLike.Proofs.Checksum

/-!
# What a step of the sender does

While the sender waits for the ack of a segment, a receive ends in one of three ways (`AckStep`):
the same segment is sent again, the loop goes on to the next chunk, or it is left with
`tries == MAXTRIES`. None of them touches the counters or the segment (`Kept`). The loop goes on on
a valid ack, or, after the first transmission of a segment with `seqNum == FILE_SIZE`, on any other.
-/

namespace TcpLike

/-- The sender waits for the ack of a segment. -/
def SenderPc.waiting : SenderPc → Bool
  | .firstReceive | .wrongAck | .noResponse => true
  | _ => false

namespace Sender

variable (c : SenderConfig)

/-- The two states agree on the counters and on the segment in hand. -/
structure Kept (s s' : Sender) : Prop where
  fis : s'.fis = s.fis
  FILE_SIZE : s'.FILE_SIZE = s.FILE_SIZE
  TOTAL_BYTE : s'.TOTAL_BYTE = s.TOTAL_BYTE
  seqNum : s'.seqNum = s.seqNum
  ackNum : s'.ackNum = s.ackNum
  flag : s'.flag = s.flag
  CHECKSUM : s'.CHECKSUM = s.CHECKSUM
  PACKET_SIZE : s'.PACKET_SIZE = s.PACKET_SIZE
  data : s'.data = s.data

theorem Kept.refl (s : Sender) : Kept s s := ⟨rfl, rfl, rfl, rfl, rfl, rfl, rfl, rfl, rfl⟩

theorem Kept.trans {s s' s'' : Sender} (h : Kept s s') (h' : Kept s' s'') : Kept s s'' where
  fis := h'.fis.trans h.fis
  FILE_SIZE := h'.FILE_SIZE.trans h.FILE_SIZE
  TOTAL_BYTE := h'.TOTAL_BYTE.trans h.TOTAL_BYTE
  seqNum := h'.seqNum.trans h.seqNum
  ackNum := h'.ackNum.trans h.ackNum
  flag := h'.flag.trans h.flag
  CHECKSUM := h'.CHECKSUM.trans h.CHECKSUM
  PACKET_SIZE := h'.PACKET_SIZE.trans h.PACKET_SIZE
  data := h'.data.trans h.data

theorem Kept.message {s s' : Sender} (h : Kept s s') (seqNum ackNum : ℤ) :
    s'.message c seqNum ackNum = s.message c seqNum ackNum := by
  simp only [Sender.message, h.flag, h.CHECKSUM, h.PACKET_SIZE, h.data]

/-- The segment in hand, as the retry loops send it. -/
def current (s : Sender) : Bytes := s.message c (s.seqNum - s.data.length) (s.ackNum - 1)

theorem Kept.current {s s' : Sender} (h : Kept s s') : s'.current c = s.current c := by
  rw [Sender.current, h.message, h.seqNum, h.data, h.ackNum]
  rfl

/-- The packet after a receive. -/
def packetAfter (s : Sender) : Outcome → DatagramPacket
  | .timeout => s.inPacket
  | .datagram d => s.inPacket.receive d

/-- What the sender has in hand behind a receive is looked at for going on: what has come and
decodes, and at the last try of the wrong-ack loop just what has not. -/
def Looks (s : Sender) (o : Outcome) : Prop :=
  (s.receiveAck o).2 = .ok () ↔ ¬ (s.pc = .wrongAck ∧ s.tries + 1 = MAXTRIES)

instance (s : Sender) (o : Outcome) : Decidable (s.Looks o) :=
  inferInstanceAs (Decidable (_ ↔ _))

/-- What the retry loops keep. -/
structure TriesInv (s : Sender) : Prop where
  next : s.pc = .handshake ∨ s.pc = .fileLoop ∨ s.pc = .firstReceive → s.tries ≠ MAXTRIES
  retry : s.pc = .wrongAck ∨ s.pc = .noResponse → s.tries < MAXTRIES ∧ s.isBroken = true
  wrong : s.pc = .wrongAck → (s.seqNum : ℤ) ≠ s.FILE_SIZE

/-- A receive of the file loop, from `s`. -/
inductive AckStep (s : Sender) (o : Outcome) : Sender × List Bytes → Prop
  | retry {s' : Sender} (hk : Kept s s') (hp : s'.inPacket = s.packetAfter o)
      (hpc : s'.pc = .wrongAck ∨ s'.pc = .noResponse) (hT : s'.TriesInv)
      (hw : s'.pc = .wrongAck → o = .timeout → s.pc = .wrongAck) :
      AckStep s o (s', [s.current c])
  | next {s' : Sender} (hk : Kept s s') (hp : s'.inPacket = s.packetAfter o)
      (hpc : s'.pc = .fileLoop) (hT : s'.TriesInv) (hw : o = .timeout → s.pc = .wrongAck)
      (hv : isValidAck s'.inPacket s.seqNum = .ok true ∨
        (s.pc = .firstReceive ∧ (s.seqNum : ℤ) = s.FILE_SIZE ∧
          isValidAck s'.inPacket s.seqNum = .ok false))
      (hl : s.Looks o) : AckStep s o (s', [])
  | left {s' : Sender} (hk : Kept s s') (hp : s'.inPacket = s.packetAfter o)
      (hpc : s'.pc = .leftLoop) (ht : s'.tries = MAXTRIES)
      (hb : s'.isBroken = true ∨ (o ≠ .timeout ∧ s.pc = .wrongAck ∧ s.tries + 1 = MAXTRIES ∧
        isValidAck s'.inPacket s.seqNum = .ok true)) :
      AckStep s o (s', [])

/-- On the way through a step from `s`, the packet received. -/
structure Mid (s : Sender) (o : Outcome) (t : Sender) : Prop where
  kept : Kept s t
  packet : t.inPacket = s.packetAfter o

section Steps

variable {c} {s t : Sender} {o : Outcome}

theorem ackStep_retransmit (hm : Mid s o t) (hpc : t.pc = .wrongAck ∨ t.pc = .noResponse)
    (hb : t.isBroken = true) (ht : t.tries < MAXTRIES)
    (hf : t.pc = .wrongAck → (s.seqNum : ℤ) ≠ s.FILE_SIZE)
    (hw : t.pc = .wrongAck → o = .timeout → s.pc = .wrongAck) :
    AckStep c s o (t.retransmit c) := by
  have hk : Kept t (t.retransmit c).1 := ⟨rfl, rfl, rfl, rfl, rfl, rfl, rfl, rfl, rfl⟩
  have hcur : t.current c = s.current c := hm.kept.current c
  have hT : (t.retransmit c).1.TriesInv := by
    refine ⟨fun h => ?_, fun _ => ⟨ht, hb⟩, fun h => ?_⟩
    · have h' : t.pc = .handshake ∨ t.pc = .fileLoop ∨ t.pc = .firstReceive := h
      rcases hpc with hpc | hpc <;> rw [hpc] at h' <;> simp at h'
    · rw [hk.seqNum, hk.FILE_SIZE, hm.kept.seqNum, hm.kept.FILE_SIZE]
      exact hf h
  have hr : t.retransmit c = ((t.retransmit c).1, [s.current c]) := by
    rw [← hcur]
    rfl
  rw [hr]
  exact .retry (hm.kept.trans hk) hm.packet hpc hT hw

theorem finallyBlock_next (h : t.tries ≠ MAXTRIES) :
    t.finallyBlock = { t with pc := .fileLoop } := by
  simp [finallyBlock, h]

theorem finallyBlock_left (h : t.tries = MAXTRIES) :
    t.finallyBlock = { t with pc := .leftLoop } := by
  simp [finallyBlock, h]

theorem Mid.setPc (hm : Mid s o t) (pc : SenderPc) : Mid s o { t with pc := pc } :=
  ⟨hm.kept.trans ⟨rfl, rfl, rfl, rfl, rfl, rfl, rfl, rfl, rfl⟩, hm.packet⟩

theorem Mid.retry (hm : Mid s o t) (tries : ℕ) (isBroken : Bool) :
    Mid s o { t with tries := tries, isBroken := isBroken } :=
  ⟨hm.kept.trans ⟨rfl, rfl, rfl, rfl, rfl, rfl, rfl, rfl, rfl⟩, hm.packet⟩

theorem ackStep_next (hm : Mid s o t) (ht : t.tries ≠ MAXTRIES)
    (hw : o = .timeout → s.pc = .wrongAck)
    (hv : isValidAck t.inPacket s.seqNum = .ok true ∨
      (s.pc = .firstReceive ∧ (s.seqNum : ℤ) = s.FILE_SIZE ∧
        isValidAck t.inPacket s.seqNum = .ok false))
    (hl : s.Looks o) : AckStep c s o (t.finallyBlock, []) := by
  rw [finallyBlock_next ht]
  exact .next (hm.setPc _).kept hm.packet rfl ⟨fun _ => ht, by simp, by simp⟩ hw hv hl

theorem ackStep_left (hm : Mid s o t) (ht : t.tries = MAXTRIES)
    (hb : t.isBroken = true ∨ (o ≠ .timeout ∧ s.pc = .wrongAck ∧ s.tries + 1 = MAXTRIES ∧
      isValidAck t.inPacket s.seqNum = .ok true)) :
    AckStep c s o (t.finallyBlock, []) := by
  rw [finallyBlock_left ht]
  exact .left (hm.setPc _).kept hm.packet rfl ht hb

theorem ackStep_noResponseLoop (hm : Mid s o t) (hb : t.isBroken = true)
    (ht : t.tries ≤ MAXTRIES) : AckStep c s o (t.noResponseLoop c) := by
  unfold noResponseLoop
  split_ifs with hlt
  · exact ackStep_retransmit (hm.setPc _) (.inr rfl) hb hlt (by simp) (by simp)
  · exact ackStep_left hm (by omega) (.inl hb)

theorem ackStep_catchBlock (hm : Mid s o t) : AckStep c s o (t.catchBlock c) :=
  ackStep_noResponseLoop (hm.retry _ _) rfl (by simp [MAXTRIES])

theorem ackStep_wrongAckWhile (hm : Mid s o t) (ht : t.tries ≠ MAXTRIES)
    (hf : (s.seqNum : ℤ) = s.FILE_SIZE → s.pc = .firstReceive)
    (hto : o = .timeout → s.pc = .wrongAck)
    (hl : ∀ valid, isValidAck t.inPacket s.seqNum = .ok valid → s.Looks o) :
    AckStep c s o (t.wrongAckWhile c) := by
  unfold wrongAckWhile
  split
  · exact ackStep_catchBlock hm
  · rename_i valid hv
    rw [hm.kept.seqNum] at hv
    split_ifs with hw <;> rw [hm.kept.seqNum, hm.kept.FILE_SIZE] at hw
    · exact ackStep_retransmit ((hm.retry 1 true).setPc .wrongAck) (.inl rfl) rfl
        (by simp [MAXTRIES])
        (fun _ => hw.2) (fun _ => hto)
    · refine ackStep_next hm ht hto ?_ (hl valid hv)
      cases valid with
      | true => exact .inl hv
      | false =>
        have hsz : (s.seqNum : ℤ) = s.FILE_SIZE := by simpa using hw
        exact .inr ⟨hf hsz, hsz, hv⟩

theorem mid_receiveAck (s : Sender) (o : Outcome) : Mid s o (s.receiveAck o).1 := by
  cases o <;> exact ⟨⟨rfl, rfl, rfl, rfl, rfl, rfl, rfl, rfl, rfl⟩, rfl⟩

theorem receiveAck_fst (s : Sender) (o : Outcome) :
    (s.receiveAck o).1 = { s with inPacket := s.packetAfter o } := by
  cases o <;> rfl

theorem ackStep_firstReceive (hpc : s.pc = .firstReceive) (hT : s.TriesInv) (o : Outcome) :
    AckStep c s o (s.firstReceive c o) := by
  have hm := mid_receiveAck s o
  have ht : (s.receiveAck o).1.tries = s.tries := by rw [receiveAck_fst]
  unfold firstReceive
  split
  · rename_i t e h
    rw [h] at hm
    exact ackStep_catchBlock hm
  · rename_i t u h
    rw [h] at hm ht
    refine ackStep_wrongAckWhile hm (ht ▸ hT.next (.inr (.inr hpc))) (fun _ => hpc) ?_
      fun _ _ => ⟨fun _ h => by simp [hpc] at h, fun _ => congrArg Prod.snd h⟩
    rintro rfl
    simp [receiveAck] at h

theorem retryReceive_ok {valid : Bool} (h : s.retryReceive o = (t, .ok valid)) :
    t = { s with inPacket := s.packetAfter o } ∧ o ≠ .timeout ∧
      isValidAck t.inPacket s.seqNum = .ok valid := by
  unfold retryReceive at h
  simp only [Prod.mk.injEq] at h
  obtain ⟨rfl, h⟩ := h
  refine ⟨receiveAck_fst s o, ?_, ?_⟩
  · rintro rfl
    simp [receiveAck] at h
  · obtain ⟨-, -, h⟩ := java_bind_eq_ok.1 h
    rwa [receiveAck_fst] at h ⊢

/-- A receive of a retry loop that comes to the ack has decoded both numbers. -/
theorem decodes_of_retryReceive {valid : Bool} (h : (s.retryReceive o).2 = .ok valid) :
    (s.receiveAck o).2 = .ok () := by
  obtain ⟨⟨⟩, hlog, -⟩ := java_bind_eq_ok.1 h
  exact hlog

/-- One that fails on a packet the ack test is made of has failed before it. -/
theorem not_decodes_of_retryReceive {e : JavaException} {valid : Bool}
    (h : (s.retryReceive o).2 = .error e)
    (hv : isValidAck (s.packetAfter o) s.seqNum = .ok valid) : (s.receiveAck o).2 ≠ .ok () := by
  intro hlog
  have hr : (s.retryReceive o).2 = (s.receiveAck o).2 >>= fun _ =>
      isValidAck (s.receiveAck o).1.inPacket (s.receiveAck o).1.seqNum := rfl
  rw [hr, hlog, receiveAck_fst, java_ok_bind, hv] at h
  cases h

theorem retryReceive_fst (h : (s.retryReceive o).1 = t) :
    t = { s with inPacket := s.packetAfter o } := by
  rw [← h, ← receiveAck_fst]
  rfl

theorem mid_packet (s : Sender) (o : Outcome) (tries : ℕ) (isBroken : Bool) :
    Mid s o { s with inPacket := s.packetAfter o, tries := tries, isBroken := isBroken } :=
  ⟨⟨rfl, rfl, rfl, rfl, rfl, rfl, rfl, rfl, rfl⟩, rfl⟩

theorem ackStep_noResponse (hpc : s.pc = .noResponse) (hT : s.TriesInv) (o : Outcome) :
    AckStep c s o (s.noResponse c o) := by
  obtain ⟨ht, hb⟩ := hT.retry (.inr hpc)
  unfold noResponse
  split
  · rename_i t e h
    have := retryReceive_fst (congrArg Prod.fst h)
    subst this
    exact ackStep_noResponseLoop (mid_packet s o _ _) hb (by simp only []; omega)
  · rename_i t h
    obtain ⟨rfl, ho, hv⟩ := retryReceive_ok h
    exact ackStep_next (mid_packet s o _ _) (by simp only []; omega) (absurd · ho) (.inl hv)
      ⟨fun _ h => by simp [hpc] at h, fun _ => decodes_of_retryReceive (congrArg Prod.snd h)⟩
  · rename_i t h
    obtain ⟨rfl, -, -⟩ := retryReceive_ok h
    exact ackStep_noResponseLoop (mid_packet s o _ _) hb (by simp only []; omega)

/-- The inner retry loop of the wrong-ack loop, `tries` counted on by at most two. -/
theorem ackStep_wrongAckLoop (hpc : s.pc = .wrongAck) (hT : s.TriesInv) (tries : ℕ)
    (hl : MAXTRIES < tries → ∀ valid, isValidAck (s.packetAfter o) s.seqNum = .ok valid →
      s.Looks o) :
    AckStep c s o ({ s with inPacket := s.packetAfter o, tries := tries }.wrongAckLoop c) := by
  obtain ⟨-, hb⟩ := hT.retry (.inl hpc)
  have hm := mid_packet s o tries s.isBroken
  unfold wrongAckLoop
  split_ifs with hlt
  · exact ackStep_retransmit (hm.setPc _) (.inl rfl) hb hlt (fun _ => hT.wrong hpc)
      (fun _ _ => hpc)
  · unfold afterWrongAck
    split_ifs with ht
    · exact ackStep_left hm ht (.inl hb)
    · exact ackStep_wrongAckWhile hm ht (fun h => absurd h (hT.wrong hpc)) (fun _ => hpc)
        (hl (by simp only [] at hlt ht; omega))

theorem ackStep_wrongAck (hpc : s.pc = .wrongAck) (hT : s.TriesInv) (o : Outcome) :
    AckStep c s o (s.wrongAck c o) := by
  have hlt := (hT.retry (.inl hpc)).1
  unfold wrongAck
  split
  · rename_i t e h
    have := retryReceive_fst (congrArg Prod.fst h)
    subst this
    -- counted twice, the try was the last if the loop is left past `MAXTRIES`
    refine ackStep_wrongAckLoop hpc hT _ fun hmax valid hv => ?_
    have hlog := not_decodes_of_retryReceive (congrArg Prod.snd h) hv
    have hlast : s.tries + 1 = MAXTRIES := le_antisymm hlt (Nat.le_of_lt_succ hmax)
    exact ⟨fun h => absurd h hlog, fun h => absurd ⟨hpc, hlast⟩ h⟩
  · rename_i t h
    obtain ⟨rfl, ho, hv⟩ := retryReceive_ok h
    have hm := mid_packet s o (s.tries + 1) false
    unfold afterWrongAck
    split_ifs with ht
    · exact ackStep_left hm ht (.inr ⟨ho, hpc, ht, hv⟩)
    · exact ackStep_wrongAckWhile hm ht (fun h => absurd h (hT.wrong hpc)) (fun _ => hpc)
        fun _ _ => ⟨fun _ h => ht h.2, fun _ => decodes_of_retryReceive (congrArg Prod.snd h)⟩
  · rename_i t h
    obtain ⟨rfl, -, -⟩ := retryReceive_ok h
    exact ackStep_wrongAckLoop hpc hT _ fun hmax => absurd hlt (Nat.le_of_lt_succ hmax).not_gt

theorem senderStep_waiting (hw : s.pc.waiting) (hT : s.TriesInv) {res : Sender × List Bytes}
    (h : senderStep c s (.receive o) = some res) : AckStep c s o res := by
  unfold senderStep at h
  rcases hpc : s.pc <;> rw [hpc] at h hw <;> simp only [SenderPc.waiting, Bool.false_eq_true] at hw
  · cases h
    exact ackStep_firstReceive hpc hT o
  · cases h
    exact ackStep_wrongAck hpc hT o
  · cases h
    exact ackStep_noResponse hpc hT o

end Steps

end Sender

end TcpLike
