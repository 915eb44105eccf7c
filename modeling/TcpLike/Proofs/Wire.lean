import TcpLike.System
import TcpLike.Proofs.ErrorDetection
import TcpLike.Proofs.SenderInv

/-!
# The data datagrams on the wire

The sender by itself, whatever its receives come back with. All it sends in its file loop while it
has read `k + 1` chunks is the segment of chunk `k`, byte for byte, and that segment passes the
receiver's test (`wire_segment`).
-/

namespace TcpLike

namespace Sender

variable {c : SenderConfig} {file : Bytes} {s s' : Sender} {i : SenderInput} {out : List Bytes}

/-- The sender by itself, given any outcomes at all. -/
def alone (c : SenderConfig) (s : Sender) (i : SenderInput) : Option Sender :=
  (senderStep c s i).map Prod.fst

/-- The states the sender can get to. -/
abbrev Reachable (c : SenderConfig) (file : Bytes) (s : Sender) : Prop :=
  Transition.Run (alone c) (fun _ _ => True) (Sender.init file) s

theorem alone_eq_some : alone c s i = some s' ↔ ∃ out, senderStep c s i = some (s', out) :=
  Transition.silent_eq_some

theorem inv_of_reachable (hW : 24 < c.WINDOW_SIZE) (h : Reachable c file s) : s.Inv c file := by
  refine h.invariant (I := Inv c file) (fun s i s' hs _ hstep => ?_) inv_init
  obtain ⟨out, hstep⟩ := alone_eq_some.1 hstep
  exact hs.step (senderStep_cases hW hs.tries hstep)

/-- A datagram of the file loop is the segment of the chunk read last. -/
theorem segment_of_step (hs : s.Inv c file) (hpc : s.pc = .fileLoop ∨ s.pc.waiting)
    (h : Step c s i s' out) {m : Bytes} (hm : m ∈ out) :
    ∃ k, s'.chunksRead = k + 1 ∧ m = dataSegment c file k := by
  cases h with
  | read _ hf =>
    rw [List.mem_singleton.1 hm]
    exact ⟨s.chunksRead, chunksRead_withChunk hs, hs.segment_eq hf⟩
  | ack hw h =>
    obtain ⟨k, hk, hh⟩ := hs.held hw
    rw [h.mem_out hm]
    exact ⟨k, h.chunksRead.trans hk, hh.current⟩
  | resend h | close h | closeFin h => rw [h] at hpc; simp [SenderPc.waiting] at hpc
  | _ => simp at hm

theorem passesTest_dataSegment (k : ℕ) {p : DatagramPacket}
    (hp : (dataSegment c file k).length ≤ p.data.length) :
    PassesTest p (dataSegment c file k) := by
  have hl : 18 ≤ (dataSegment c file k).length := by
    rw [dataSegment, length_segment]
    omega
  exact ⟨_, (compares_iff hp hl).2 ⟨rfl, checksumField_segment _ _ _ _⟩⟩

/-- The first transmission of a chunk and all its repeats are one and the same datagram. -/
theorem wire_segment (hW : 24 < c.WINDOW_SIZE) (hW' : c.WINDOW_SIZE ≤ 65507)
    (h : Reachable c file s) (hpc : s.pc = .fileLoop ∨ s.pc.waiting)
    (hstep : senderStep c s i = some (s', out)) {m : Bytes} (hm : m ∈ out) :
    ∃ k, s'.fis = file.drop ((k + 1) * c.chunkSize) ∧ k * c.chunkSize < file.length ∧
      m = dataSegment c file k ∧ seqField m = k * c.chunkSize ∧ ackField m = k + 1 ∧
      sizeField m = (chunk c file k).length ∧ m.drop 24 = chunk c file k ∧
      ∀ p : DatagramPacket, m.length ≤ p.data.length → PassesTest p m := by
  have hs := inv_of_reachable hW h
  have hst := senderStep_cases hW hs.tries hstep
  have hs' := hs.step hst
  obtain ⟨k, hk, rfl⟩ := segment_of_step hs hpc hst hm
  obtain ⟨hlt, hlt'⟩ := hs'.read k (by omega)
  have hk' := lt_of_mul_chunkSize_lt hW hlt'
  have hlen : (chunk c file k).length ≤ c.chunkSize := by
    rw [length_chunk]
    exact min_le_left _ _
  have hsize : c.chunkSize < 2 ^ 32 := by
    unfold SenderConfig.chunkSize
    omega
  exact ⟨k, hk ▸ hs'.fis, hlt, rfl, seqField_dataSegment hlt', ackField_dataSegment hk',
    sizeField_dataSegment (hlen.trans_lt hsize), drop_segment _ _ _ _,
    fun p hp => passesTest_dataSegment k hp⟩

/-- The repeat of a segment behind a timeout. -/
theorem wire_segment_oneByte :
    ∃ m : Bytes, (∃ k, m = dataSegment Config.oneByte.sender [7, 8] k) ∧
      PassesTest (.new 25) m := by
  have h : ∃ s, Reachable Config.oneByte.sender [7, 8] s ∧
      decide (s.pc = .firstReceive ∧
        (senderStep Config.oneByte.sender s (.receive .timeout)).any
          fun x => x.2.any fun m => m.length ≤ 25) :=
    Transition.Run.exists_of_exec [.receive (.datagram sizeReply), .run] _ (by decide +kernel)
  obtain ⟨s, h, hp⟩ := h
  obtain ⟨hpc, hout⟩ := of_decide_eq_true hp
  obtain ⟨⟨s', out⟩, hstep, hany⟩ := (Option.any_eq_true ..).1 hout
  obtain ⟨m, hm, hl⟩ := List.any_eq_true.1 hany
  obtain ⟨k, -, -, hk, -, -, -, -, htest⟩ := wire_segment (by decide) (by decide) h
    (.inr (by rw [hpc]; rfl)) hstep hm
  exact ⟨m, ⟨k, hk⟩, htest (.new 25) (by simpa using hl)⟩

end Sender

end TcpLike
