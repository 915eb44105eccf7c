import TcpLike.Proofs.ReceiverStep

/-!
# The decision of a round

What a round of the receive loop does with the packet in hand is told by a `Decision`: the fields of
the packet and the payload of a segment stored go into it, and nothing else of the packet goes into
the result (`receiveLoop_eq`).
-/

namespace TcpLike

namespace Receiver

/-- What a round decides on. -/
inductive Decision
  /-- an exception ends the loop -/
  | crash
  | fin
  /-- the checksums differ -/
  | drop
  /-- a reply of before is sent again -/
  | resend (m : Bytes)
  | store (seq ack : ℕ) (payload : Bytes)
  deriving DecidableEq, Repr

/-- The tests behind the FIN test, in their order. -/
def segmentDecision (r : Receiver) : Decision :=
  let b := r.inPacket.data
  if b.length < 24 ∨ 2 ^ 31 ≤ sizeField b ∨ r.inPacket.length < 17 then .crash
  else if ¬ r.Intact then .drop
  else if r.ackFlag < ackField b then
    if sizeField b + 24 < 2 ^ 31 then .store (seqField b) (ackField b) r.payload else .crash
  else
    match r.outData with
    | some m => .resend m
    | none => .crash

/-- The tests of a round. -/
def decision (r : Receiver) : Decision :=
  let b := r.inPacket.data
  if 2 ^ 31 ≤ seqField b ∨ 2 ^ 31 ≤ ackField b then .crash
  else if b.length = 24 ∧ ackField b ≠ 0 then .resend sizeReply
  else if flagsField b = 1 then .fin
  else r.segmentDecision

/-- The receiver with a segment stored, and its reply. -/
def stored (c : ReceiverConfig) (r : Receiver) (w : WriteOutcome) (seq ack : ℕ)
    (payload : Bytes) : Receiver × List Bytes :=
  let ackNum := int32 (seq + r.inPacket.data.length - 24)
  let reply := tcpHeader c.SRC_PORT c.DEST_PORT ack ackNum 5 16 r.WINDOW_SIZE 0 0 24
  ({ r with
    ackNum := ackNum
    file := r.file ++ w.stored payload
    seqNum := ack
    outData := some reply
    ackFlag := r.ackFlag + 1 }, [reply])

def perform (c : ReceiverConfig) (r : Receiver) (w : WriteOutcome) :
    Decision → Receiver × List Bytes
  | .crash => ({ r with pc := .aborted }, [])
  | .fin => r.closeProcess c
  | .drop => (r, [])
  | .resend m => (r, [m])
  | .store seq ack payload => r.stored c w seq ack payload

variable {c : ReceiverConfig} {r : Receiver} {w : WriteOutcome}

/-- What becomes of a round. -/
def roundResult (r : Receiver) : Java (Receiver × List Bytes) → Receiver × List Bytes
  | .ok res => res
  | .error _ => ({ r with pc := .aborted }, [])

theorem receiveLoop_eq_roundResult (c : ReceiverConfig) (r : Receiver) (d : Bytes)
    (w : WriteOutcome) :
    r.receiveLoop c d w = (r.receive d).roundResult ((r.receive d).loopBody c w) := by
  unfold receiveLoop roundResult
  simp only []
  rcases (r.receive d).loopBody c w with e | res <;> rfl

theorem segmentBody_crash (h : r.inPacket.data.length < 24 ∨ 2 ^ 31 ≤ sizeField r.inPacket.data ∨
    r.inPacket.length < 17) (ack : ℤ) : ∃ e, r.segmentBody c w ack = .error e := by
  unfold segmentBody
  by_cases hb : r.inPacket.data.length < 24
  · obtain ⟨e, he⟩ := getPacketSize_short hb
    rw [he]
    exact ⟨e, rfl⟩
  · rw [getPacketSize_eq (by omega)]
    by_cases hz : sizeField r.inPacket.data < 2 ^ 31
    · have hle := r.inPacket.length_le
      rw [ofField_of_lt hz, getCheckSum_eq (by omega), copyOfRange_start hle]
      simp only [java_ok_bind]
      rw [generateChecksum_short (by rw [List.length_take]; omega)]
      exact ⟨_, rfl⟩
    · rw [ofField_of_not_lt hz]
      exact ⟨_, rfl⟩

theorem roundResult_segmentBody (hs : seqField r.inPacket.data < 2 ^ 31)
    (ha : ackField r.inPacket.data < 2 ^ 31) :
    r.roundResult (r.segmentBody c w (ackField r.inPacket.data))
      = r.perform c w r.segmentDecision := by
  unfold segmentDecision
  simp only []
  by_cases hcrash : r.inPacket.data.length < 24 ∨ 2 ^ 31 ≤ sizeField r.inPacket.data ∨
      r.inPacket.length < 17
  · obtain ⟨e, he⟩ := segmentBody_crash (c := c) (w := w) hcrash (ackField r.inPacket.data)
    rw [if_pos hcrash, he]
    rfl
  · rw [if_neg hcrash, segmentBody_eq (by omega) (by omega) (by omega)]
    by_cases hi : r.Intact
    · rw [if_pos hi, if_neg (not_not_intro hi), acceptNew]
      by_cases hlt : r.ackFlag < ackField r.inPacket.data
      · rw [if_pos (by exact_mod_cast hlt), if_pos hlt, accept_eq (by omega) hs ha (by omega)]
        split_ifs <;> rfl
      · rw [if_neg (by exact_mod_cast hlt), if_neg hlt]
        simp only [java_ok_bind]
        rcases r.outData with _ | m <;> rfl
    · rw [if_neg hi, if_pos hi]
      rfl

/-- A round does what its decision says. -/
theorem receiveLoop_eq (c : ReceiverConfig) {r : Receiver} (hb : 14 ≤ r.inPacket.data.length)
    (d : Bytes) (w : WriteOutcome) :
    r.receiveLoop c d w = (r.receive d).perform c w (r.receive d).decision := by
  have hlen : (r.receive d).inPacket.data.length = r.inPacket.data.length := length_receive _ _
  rw [receiveLoop_eq_roundResult, loopBody_eq_segmentBody (by omega)]
  generalize r.receive d = q
  unfold decision
  simp only []
  by_cases hdec : seqField q.inPacket.data < 2 ^ 31 ∧ ackField q.inPacket.data < 2 ^ 31
  · have hbig : ¬ (2 ^ 31 ≤ seqField q.inPacket.data ∨ 2 ^ 31 ≤ ackField q.inPacket.data) := by
      omega
    rw [if_pos hdec, if_neg hbig]
    by_cases hz : q.inPacket.data.length = 24 ∧ ackField q.inPacket.data ≠ 0
    · rw [if_pos hz, if_pos hz]
      rfl
    · rw [if_neg hz, if_neg hz]
      by_cases hf : flagsField q.inPacket.data = 1
      · rw [if_pos hf, if_pos hf]
        rfl
      · rw [if_neg hf, if_neg hf]
        exact roundResult_segmentBody hdec.1 hdec.2
  · have hbig : 2 ^ 31 ≤ seqField q.inPacket.data ∨ 2 ^ 31 ≤ ackField q.inPacket.data := by
      omega
    rw [if_neg hdec, if_pos hbig]
    rfl

end Receiver

end TcpLike
