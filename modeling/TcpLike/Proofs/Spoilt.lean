import TcpLike.Proofs.BitError
import TcpLike.Proofs.Delivery
import TcpLike.Proofs.Stale
import TcpLike.Proofs.WindowSize

/-!
# Bit errors at the receiver

A bit error of the emulator strikes the source port, which the receiver does not look at. So a
segment with one fails the checksum test and is dropped, and any other datagram of the sender does
what it does without one (`System.receiver_spoilt`), as long as the window-size datagram with a bit
error does not pass the test that it has no checksum for.
-/

namespace TcpLike

/-- `d` is `d'`, or `d'` with a bit error. -/
def Spoilt (d d' : Bytes) : Prop := d = d' ∨ d = flipBit d' 0 0

section Datagram

variable {d d' d₁ : Bytes}

theorem spoilt_refl (d : Bytes) : Spoilt d d := .inl rfl

theorem Spoilt.flip (h : Spoilt d d') : Spoilt (flipBit d 0 0) d' := by
  rcases h with rfl | rfl
  · exact .inr rfl
  · exact .inl (flipBit_flipBit d')

theorem Spoilt.length (h : Spoilt d d') : d.length = d'.length := by
  rcases h with rfl | rfl
  · rfl
  · exact length_flipBit d' 0 0

theorem Spoilt.drop (h : Spoilt d d') : d.drop 1 = d'.drop 1 := by
  rcases h with rfl | rfl
  · rfl
  · exact drop_flipBit d'

theorem field_of_drop (h : d.drop 1 = d'.drop 1) {i : ℕ} (hi : 1 ≤ i) (n : ℕ) :
    field d i n = field d' i n := by
  have key : ∀ d : Bytes, d.drop i = (d.drop 1).drop (i - 1) := by
    intro d
    rw [List.drop_drop]
    congr 1
    omega
  rw [field, field, key d, key d', h]

/-- The fields behind the source port are as they were. -/
theorem Spoilt.fields (h : Spoilt d d') : seqField d = seqField d' ∧ ackField d = ackField d' ∧
    flagsField d = flagsField d' ∧ sizeField d = sizeField d' ∧
    checksumField d = checksumField d' ∧ windowField d = windowField d' := by
  have hdrop := h.drop
  refine ⟨field_of_drop hdrop (by omega) 4, field_of_drop hdrop (by omega) 4, ?_,
    field_of_drop hdrop (by omega) 4, field_of_drop hdrop (by omega) 2,
    field_of_drop hdrop (by omega) 2⟩
  have key : ∀ d : Bytes, flagsByte d = (d.drop 1).getD 12 0 := by
    intro d
    simp [flagsByte, List.getD_eq_getElem?_getD]
  rw [flagsField, flagsField, key d, key d', hdrop]

/-- The checksum does not hold behind a bit error. -/
theorem not_right_flipBit (hl : 18 ≤ d.length) (hl' : d.length ≤ 65536) (hr : Receiver.Right d) :
    ¬ Receiver.Right (flipBit d 0 0) :=
  (altersWord_set (by omega) (flip_ne _ (by omega))).checksum_ne hl hl' hr

end Datagram

namespace Receiver

/-- The two receivers agree but for the bytes in the packet buffer. -/
structure ButPacket (r r' : Receiver) : Prop where
  eq : r.withPacket r'.inPacket = r'
  length : r.inPacket.data.length = r'.inPacket.data.length

variable {c : ReceiverConfig} {r r' : Receiver} {d d' : Bytes} {w : WriteOutcome}

theorem butPacket_refl (r : Receiver) : r.ButPacket r := ⟨rfl, rfl⟩

theorem ButPacket.eq_withPacket (h : r.ButPacket r') : r = r'.withPacket r.inPacket := by
  rw [← h.eq]
  rfl

theorem ButPacket.pc (h : r.ButPacket r') : r'.pc = r.pc := by
  rw [← h.eq]
  rfl

theorem ButPacket.receive (h : r.ButPacket r') (d d' : Bytes) :
    (r.receive d).ButPacket (r'.receive d') := by
  constructor
  · rw [← h.eq]
    rfl
  · show (r.inPacket.receive d).data.length = (r'.inPacket.receive d').data.length
    rw [length_receive, length_receive, h.length]

theorem ButPacket.receive_left (h : r.ButPacket r') (d : Bytes) : (r.receive d).ButPacket r' := by
  refine ⟨?_, (length_receive r.inPacket d).trans h.length⟩
  rw [← h.eq]
  rfl

theorem ButPacket.setPc (h : r.ButPacket r') (pc : ReceiverPc) :
    ({ r with pc := pc } : Receiver).ButPacket { r' with pc := pc } := by
  refine ⟨?_, h.length⟩
  rw [← h.eq]
  rfl

/-! ## The receive loop -/

/-- A round decides on a datagram with a bit error as on the one without, or drops it. -/
theorem decision_spoilt {p p' : DatagramPacket} (h : Spoilt d d') (h24 : 24 ≤ d'.length)
    (hd : d'.length ≤ p.data.length) (hp : p.data.length = p'.data.length)
    (hW : 24 < p.data.length) (hr : flagsField d' = 1 ∨ ¬ Right d) :
    (r.withPacket (p.receive d)).decision = (r.withPacket (p'.receive d')).decision ∨
      (r.withPacket (p.receive d)).decision = .drop := by
  have hlen := h.length
  obtain ⟨hs, ha, hf, hz, -⟩ := h.fields
  rw [decision_received (by omega) (by omega), decision_received (by omega) (by omega), hs, ha, hf]
  have h24' : ¬ (p.data.length = 24 ∧ ackField d' ≠ 0) := by omega
  have h24'' : ¬ (p'.data.length = 24 ∧ ackField d' ≠ 0) := by omega
  rw [if_neg h24', if_neg h24'']
  by_cases hnum : 2 ^ 31 ≤ seqField d' ∨ 2 ^ 31 ≤ ackField d'
  · rw [if_pos hnum, if_pos hnum]
    exact .inl rfl
  by_cases hfin : flagsField d' = 1
  · rw [if_neg hnum, if_neg hnum, if_pos hfin, if_pos hfin]
    exact .inl rfl
  rw [if_neg hnum, if_neg hnum, if_neg hfin, if_neg hfin]
  have hsize : ∀ {q : DatagramPacket} {e : Bytes}, 24 ≤ e.length → e.length ≤ q.data.length →
      sizeField (q.receive e).data = sizeField e := fun he hq =>
    field_congr (take_receive he (he.trans hq)) (by norm_num)
  rw [segmentDecision_right (by omega) (by omega) (by omega),
    segmentDecision_right (by omega) (by omega) (by omega), hsize (by omega) (by omega),
    hsize (by omega) (by omega), hz]
  rcases Nat.lt_or_ge (sizeField d') (2 ^ 31) with hlt | hge
  · exact .inr (decisionOn_drop hlt (hr.resolve_left hfin))
  · rw [decisionOn_crash hge, decisionOn_crash hge]
    exact .inl rfl

theorem ButPacket.of_alike {x y : Receiver × List Bytes} (h : Alike x y)
    (hl : x.1.inPacket.data.length = y.1.inPacket.data.length) : x.1.ButPacket y.1 :=
  ⟨h.2, hl⟩

/-- A round on a datagram that has its own bytes. -/
theorem ButPacket.receiveLoop_own (h : r.ButPacket r')
    (hb : (r'.inPacket.data.length : ℤ) = r'.WINDOW_SIZE) (hn : 17 ≤ d.length)
    (hd : (d.length : ℤ) ≤ r'.WINDOW_SIZE) (ho : r'.OwnBytes d) (w : WriteOutcome) :
    (r.receiveLoop c d w).2 = (r'.receiveLoop c d w).2 ∧
      (r.receiveLoop c d w).1.ButPacket (r'.receiveLoop c d w).1 := by
  have halike : Alike (r.receiveLoop c d w) (r'.receiveLoop c d w) := by
    have hleak : r'.LeakFree c d := leakFree_of_own hn hd ho
    have := hleak r.inPacket r'.inPacket w (h.length ▸ hb) hb
    rwa [← h.eq_withPacket] at this
  refine ⟨halike.1, .of_alike halike ?_⟩
  rw [(receiveLoop_buffer c r d w).1, (receiveLoop_buffer c r' d w).1, length_receive,
    length_receive, h.length]

theorem inPacket_perform (r : Receiver) (D : Decision) :
    (r.perform c w D).1.inPacket = r.inPacket := by
  cases D <;> rfl

/-- A round on a datagram that may have a bit error. -/
theorem ButPacket.receiveLoop_spoilt (h : r.ButPacket r') (hsp : Spoilt d d')
    (h24 : 24 ≤ d'.length) (hd : d'.length ≤ r'.inPacket.data.length)
    (hW : 24 < r'.inPacket.data.length) (hr : flagsField d' = 1 ∨ ¬ Right d) (w : WriteOutcome) :
    ((r.receiveLoop c d w).2 = (r'.receiveLoop c d' w).2 ∧
        (r.receiveLoop c d w).1.ButPacket (r'.receiveLoop c d' w).1) ∨
      r.receiveLoop c d w = (r.receive d, []) := by
  have hlen := h.length
  have heq : r.receive d = r'.withPacket (r.inPacket.receive d) := by
    rw [Receiver.receive, h.eq_withPacket]
    rfl
  rw [receiveLoop_eq c (by omega), receiveLoop_eq c (by omega), heq]
  rcases decision_spoilt (r := r') (p := r.inPacket) hsp h24 (by omega) hlen (by omega) hr
    with hdec | hdec
  · left
    have hl : (r.inPacket.receive d).data.length = (r'.inPacket.receive d').data.length := by
      rw [length_receive, length_receive, hlen]
    have halike := perform_alike (c := c) (r := r') (w := w) hl
      (r'.withPacket (r'.inPacket.receive d')).decision
    rw [hdec]
    refine ⟨halike.1, .of_alike halike ?_⟩
    rw [inPacket_perform, inPacket_perform]
    exact hl
  · right
    rw [hdec]
    rfl

/-! ## The handshake and the close -/

theorem handshake_spoilt (h : r.ButPacket r') (hb : r'.inPacket.data.length = 24)
    (hsp : Spoilt d d') (hd : d'.length = 24) : r.handshake d = r'.handshake d' := by
  have h1 : (r.receive d).inPacket.data = d :=
    data_receive_of_eq (by rw [hsp.length, hd, h.length, hb])
  have h2 : (r'.receive d').inPacket.data = d' := data_receive_of_eq (by rw [hd, hb])
  rw [System.handshake_eq (h.length.trans hb), System.handshake_eq hb, h1, h2, hsp.fields.2.2.2.2.2,
    ← (h.receive d d').eq]
  rfl

theorem closing_spoilt (h : r.ButPacket r') (hsp : Spoilt d d') (h24 : 24 ≤ d'.length)
    (hb : 24 ≤ r'.inPacket.data.length) : (r.closing d).ButPacket (r'.closing d') := by
  have hlen := hsp.length
  have hl := h.length
  obtain ⟨hs, ha, hf, -⟩ := hsp.fields
  obtain ⟨h1, h2, h3, -⟩ := fields_receive (r := r) (d := d) (by omega) (by omega)
  obtain ⟨h1', h2', h3', -⟩ := fields_receive (r := r') (d := d') hb h24
  have hbuf : (r.receive d).inPacket.data.length = r.inPacket.data.length := length_receive _ _
  have hbuf' : (r'.receive d').inPacket.data.length = r'.inPacket.data.length := length_receive _ _
  have hflags : (r.receive d).closeFlags = (r'.receive d').closeFlags := by
    unfold closeFlags
    rw [getFlags_eq (by omega), getSeqNum_eq (by omega), getAckNum_eq (by omega),
      getFlags_eq (by omega), getSeqNum_eq (by omega), getAckNum_eq (by omega), h1, h2, h3, h1',
      h2', h3', hs, ha, hf]
  simp only [closing, hflags]
  split
  · exact (h.receive d d').setPc _
  · exact (h.receive d d').setPc _

end Receiver

namespace System

variable {c : Config} {file : Bytes} {t : System} {r r' : Receiver} {d d' : Bytes}
  {w : WriteOutcome} {out : List Bytes}

/-- The window-size datagram, with a bit error or without, does not pass the checksum test. It
depends on the ports and the window. -/
def WindowRefused (c : Config) : Prop :=
  ∀ d, Spoilt d (windowDatagram c.sender) → generateChecksum d ≠ .ok 0

theorem own_of_sent (hW : 24 < c.sender.WINDOW_SIZE) (hW' : c.sender.WINDOW_SIZE < 2 ^ 16)
    {s : Sender} (h : s.Sent c.sender file d)
    (hno : ∀ x : ℤ, d ≠ Sender.finalAck c.sender x) : r.OwnBytes d := by
  cases h with
  | window => exact .whole le_rfl fun _ _ _ => .inl le_rfl
  | @data i hi =>
    refine .whole (by simp) fun _ _ _ => .inl ?_
    have hlen : (chunk c.sender file i).length < 2 ^ 32 := by
      rw [length_chunk, SenderConfig.chunkSize]
      omega
    rw [sizeField_dataSegment hlen, length_dataSegment]
    omega
  | fin => exact .fin rfl
  | finalAck x => exact absurd rfl (hno x)

theorem fails_of_sent (hW : 24 < c.sender.WINDOW_SIZE) (hW' : c.sender.WINDOW_SIZE < 2 ^ 16)
    (hwin : WindowRefused c) {s : Sender} (h : s.Sent c.sender file d)
    (hno : ∀ x : ℤ, d ≠ Sender.finalAck c.sender x) :
    flagsField d = 1 ∨ ¬ Receiver.Right (flipBit d 0 0) := by
  cases h with
  | window =>
    right
    have hzero : checksumField (flipBit (windowDatagram c.sender) 0 0) = 0 := by
      rw [(Spoilt.fields (.inr rfl)).2.2.2.2.1]
      rfl
    rw [Receiver.Right, hzero]
    exact hwin _ (.inr rfl)
  | @data i hi =>
    have hl : (dataSegment c.sender file i).length ≤ c.sender.WINDOW_SIZE :=
      Receiver.length_le_buffer hW i
    have hl24 : 24 ≤ (dataSegment c.sender file i).length := by simp
    exact .inr (not_right_flipBit (by omega) (by omega) (checksumField_segment _ _ _ _))
  | fin => exact .inl rfl
  | finalAck x => exact absurd rfl (hno x)

/-- What the receiver does with a datagram of the sender that may have a bit error, it does with the
datagram as it was sent, or as if that were lost. -/
theorem receiver_spoilt (hW : 24 < c.sender.WINDOW_SIZE) (hW' : c.sender.WINDOW_SIZE < 2 ^ 16)
    (hwin : WindowRefused c) (ht : t.UnalteredInv c file) (hr : r.ButPacket t.receiver)
    (hsp : Spoilt d d') (hmem : d' ∈ t.toReceiver.inFlight)
    (h : receiverStep c.receiver r d w = some (r', out)) :
    (∃ r'', receiverStep c.receiver t.receiver d' w = some (r'', out) ∧ r'.ButPacket r'') ∨
      out = [] ∧ r'.ButPacket t.receiver := by
  have hsent := ht.close.side.inFlight hmem
  have hlen := hsp.length
  have hle := hsent.length_le hW
  have h24 := hsent.length
  have hdata := ht.transfer.data
  unfold receiverStep at h
  split at h
  · rename_i hpc
    have hpc' : t.receiver.pc = .handshake := hr.pc.trans hpc
    have hbuf : t.receiver.inPacket.data.length = 24 := (hdata.fresh hpc').2.2
    have hd' : d' = windowDatagram c.sender :=
      hsent.of_handshake ht.transfer.side.inv (ht.transfer.start hpc').1
    have hshake := Receiver.handshake_spoilt hr hbuf hsp (by rw [hd', length_windowDatagram])
    refine .inl ⟨r', ?_, Receiver.butPacket_refl r'⟩
    rw [receiverStep, hpc', ← hshake]
    exact h
  · rename_i hpc
    have hpc' : t.receiver.pc = .receiveLoop := hr.pc.trans hpc
    have hno : ∀ x : ℤ, d' ≠ Sender.finalAck c.sender x := by
      rintro x rfl
      exact ht.no_stray x hpc' hmem
    have hwin' : t.receiver.WINDOW_SIZE = c.sender.WINDOW_SIZE := hdata.window (by simp [hpc'])
    have hbuf : t.receiver.inPacket.data.length = c.sender.WINDOW_SIZE :=
      hdata.buffer (by simp [hpc'])
    have hres := Option.some.inj h
    have hstep : receiverStep c.receiver t.receiver d' w =
        some (t.receiver.receiveLoop c.receiver d' w) := by rw [receiverStep, hpc']
    have delivered : (r.receiveLoop c.receiver d w).2 = (t.receiver.receiveLoop c.receiver d' w).2 ∧
        (r.receiveLoop c.receiver d w).1.ButPacket (t.receiver.receiveLoop c.receiver d' w).1 →
        ∃ r'', receiverStep c.receiver t.receiver d' w = some (r'', out) ∧ r'.ButPacket r'' := by
      rintro ⟨hout, hbut⟩
      rw [hres] at hout hbut
      exact ⟨_, hstep.trans (congrArg some (Prod.ext rfl hout.symm)), hbut⟩
    rcases hsp with rfl | rfl
    · refine .inl (delivered (hr.receiveLoop_own (by omega) (by omega) (by omega) ?_ w))
      exact own_of_sent hW hW' hsent hno
    · rcases hr.receiveLoop_spoilt (c := c.receiver) (.inr rfl) h24 (by omega) (by omega)
        (fails_of_sent hW hW' hwin hsent hno) w with hboth | hdrop
      · exact .inl (delivered hboth)
      · rw [hdrop] at hres
        obtain ⟨rfl, rfl⟩ := Prod.mk.inj hres
        exact .inr ⟨rfl, hr.receive_left _⟩
  · rename_i hpc
    obtain ⟨rfl, rfl⟩ := Prod.mk.inj (Option.some.inj h)
    have hpc' : t.receiver.pc = .closing := hr.pc.trans hpc
    have hbuf : t.receiver.inPacket.data.length = c.sender.WINDOW_SIZE :=
      hdata.buffer (by simp [hpc'])
    refine .inl ⟨t.receiver.closing d', ?_, Receiver.closing_spoilt hr hsp h24 (by omega)⟩
    rw [receiverStep, hpc']
  · cases h

end System

end TcpLike
