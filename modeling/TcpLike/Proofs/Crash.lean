import TcpLike.Proofs.Corruption
import TcpLike.Proofs.Round

/-!
# Datagrams that end the receive loop

An exception ends the receive loop, and a datagram brings one about by a number or a size from 2^31
on, by being shorter than its checksum needs, by a size whose end is no `int`, or by asking for a
reply there is not yet. Any other is survived (`survives_iff`).
-/

namespace TcpLike

namespace Receiver

variable {c : ReceiverConfig} {r : Receiver} {d : Bytes} {w : WriteOutcome}

/-- No test of the round throws on the packet in hand. -/
def Harmless (r : Receiver) : Prop :=
  let b := r.inPacket.data
  seqField b < 2 ^ 31 ∧ ackField b < 2 ^ 31 ∧
    (flagsField b = 1 ∨
      (sizeField b < 2 ^ 31 ∧ 17 ≤ r.inPacket.length ∧
        (r.Intact → if r.ackFlag < ackField b then sizeField b + 24 < 2 ^ 31
          else r.outData ≠ none)))

instance (r : Receiver) : Decidable r.Harmless :=
  inferInstanceAs (Decidable (_ ∧ _ ∧ (_ ∨ (_ ∧ _ ∧ (_ → if _ < _ then _ else _)))))

/-- The round is completed: the loop goes on, or is left through the FIN test. -/
def Survives (c : ReceiverConfig) (r : Receiver) (d : Bytes) (w : WriteOutcome) : Prop :=
  ∃ r' out, receiverStep c r d w = some (r', out) ∧ (r'.pc = .receiveLoop ∨ r'.pc = .closing)

theorem pc_perform (hpc : r.pc = .receiveLoop) (D : Decision) :
    ((r.perform c w D).1.pc = .receiveLoop ∨ (r.perform c w D).1.pc = .closing) ↔
      D ≠ .crash := by
  rcases D with _ | _ | _ | m | ⟨seq, ack, payload⟩ <;>
    simp [perform, closeProcess, stored, hpc]

theorem segmentDecision_ne_crash_iff (hb : 24 ≤ r.inPacket.data.length) :
    r.segmentDecision ≠ .crash ↔
      sizeField r.inPacket.data < 2 ^ 31 ∧ 17 ≤ r.inPacket.length ∧
        (r.Intact → if r.ackFlag < ackField r.inPacket.data
          then sizeField r.inPacket.data + 24 < 2 ^ 31 else r.outData ≠ none) := by
  unfold segmentDecision
  simp only []
  by_cases hcrash : r.inPacket.data.length < 24 ∨ 2 ^ 31 ≤ sizeField r.inPacket.data ∨
      r.inPacket.length < 17
  · rw [if_pos hcrash]
    refine ⟨fun h => absurd rfl h, fun h => ?_⟩
    omega
  · rw [if_neg hcrash]
    have hz : sizeField r.inPacket.data < 2 ^ 31 := by omega
    have hl : 17 ≤ r.inPacket.length := by omega
    by_cases hi : r.Intact
    · rw [if_neg (not_not_intro hi)]
      by_cases hlt : r.ackFlag < ackField r.inPacket.data
      · rw [if_pos hlt, if_pos hlt]
        by_cases hend : sizeField r.inPacket.data + 24 < 2 ^ 31
        · rw [if_pos hend]
          exact ⟨fun _ => ⟨hz, hl, fun _ => hend⟩, fun _ => by simp⟩
        · rw [if_neg hend]
          exact ⟨fun h => absurd rfl h, fun h => absurd (h.2.2 hi) hend⟩
      · rw [if_neg hlt, if_neg hlt]
        rcases r.outData with _ | m
        · exact ⟨fun h => absurd rfl h, fun h => absurd rfl (h.2.2 hi)⟩
        · exact ⟨fun _ => ⟨hz, hl, fun _ => by simp⟩, fun _ => by simp⟩
    · rw [if_pos hi]
      exact ⟨fun _ => ⟨hz, hl, fun h => absurd h hi⟩, fun _ => by simp⟩

theorem decision_ne_crash_iff (hb : 24 < r.inPacket.data.length) :
    r.decision ≠ .crash ↔ r.Harmless := by
  have hseg := segmentDecision_ne_crash_iff (r := r) hb.le
  unfold decision Harmless
  simp only []
  by_cases hdec : 2 ^ 31 ≤ seqField r.inPacket.data ∨ 2 ^ 31 ≤ ackField r.inPacket.data
  · rw [if_pos hdec]
    refine ⟨fun h => absurd rfl h, fun h => ?_⟩
    omega
  · rw [if_neg hdec, if_neg fun h => hb.ne' h.1]
    by_cases hf : flagsField r.inPacket.data = 1
    · rw [if_pos hf]
      exact ⟨fun _ => ⟨by omega, by omega, .inl hf⟩, fun _ => by simp⟩
    · rw [if_neg hf, hseg]
      refine ⟨fun h => ⟨by omega, by omega, .inr h⟩, fun h => ?_⟩
      exact h.2.2.resolve_left hf

/-- The receive loop survives just the datagrams that leave a harmless packet. -/
theorem survives_iff (h : Reachable c r) (hpc : r.pc = .receiveLoop) (hW : 24 < r.WINDOW_SIZE)
    (d : Bytes) (w : WriteOutcome) : r.Survives c d w ↔ (r.receive d).Harmless := by
  have hbuf : (r.inPacket.data.length : ℤ) = r.WINDOW_SIZE := buffered_of_reachable h hpc
  have hlen : (r.receive d).inPacket.data.length = r.inPacket.data.length := length_receive _ _
  have hstep : receiverStep c r d w = some (r.receiveLoop c d w) := by
    unfold receiverStep
    rw [hpc]
  have hperform := receiveLoop_eq c (by omega : 14 ≤ r.inPacket.data.length) d w
  rw [← decision_ne_crash_iff (by omega), ← pc_perform (c := c) (w := w) (r := r.receive d) hpc,
    ← hperform]
  constructor
  · rintro ⟨r', out, hr, hpc'⟩
    rw [hstep, Option.some.injEq] at hr
    rwa [hr]
  · intro hpc'
    exact ⟨_, _, hstep, hpc'⟩

theorem survives_windowDatagram :
    atLoop.Survives Config.oneByte.receiver (windowDatagram Config.oneByte.sender) .written :=
  (survives_iff reachable_atLoop (by decide +kernel) (by decide +kernel) _ _).2 (by decide +kernel)

/-- An empty datagram ends the loop. -/
theorem not_survives : ¬ ∀ (c : ReceiverConfig) (r : Receiver) (d : Bytes) (w : WriteOutcome),
    Reachable c r → r.pc = .receiveLoop → 24 < r.WINDOW_SIZE → r.Survives c d w := by
  intro hall
  obtain ⟨r', out, hr, hpc⟩ := hall Config.oneByte.receiver atLoop [] .written reachable_atLoop
    (by decide +kernel) (by decide +kernel)
  have hend : (receiverStep Config.oneByte.receiver atLoop [] .written).all
      fun x => x.1.pc = .aborted := by decide +kernel
  rw [hr] at hend
  have hpc' : r'.pc = .aborted := by simpa using hend
  rw [hpc'] at hpc
  simp at hpc

end Receiver

end TcpLike
