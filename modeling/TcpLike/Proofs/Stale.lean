import TcpLike.Proofs.Crash
import TcpLike.Proofs.ErrorDetection

/-!
# Old bytes of the buffer

The packet buffer keeps what a datagram does not overwrite. A round looks at nothing of it just
where `OwnBytes` holds of the datagram (`leakFree_iff`): the size field and the payload it spans are
the datagram's own, or the round ends before they matter.
-/

namespace TcpLike

namespace Receiver

/-- The receiver with another packet in hand. -/
def withPacket (r : Receiver) (p : DatagramPacket) : Receiver := { r with inPacket := p }

/-- The two results agree on all but the packet in hand. -/
def Alike (x y : Receiver × List Bytes) : Prop :=
  x.2 = y.2 ∧ x.1.withPacket y.1.inPacket = y.1

/-- Whatever was in the buffer, the round does the same. -/
def LeakFree (c : ReceiverConfig) (r : Receiver) (d : Bytes) : Prop :=
  ∀ (p p' : DatagramPacket) (w : WriteOutcome), (p.data.length : ℤ) = r.WINDOW_SIZE →
    (p'.data.length : ℤ) = r.WINDOW_SIZE →
      Alike ((r.withPacket p).receiveLoop c d w) ((r.withPacket p').receiveLoop c d w)

/-- The checksum in the datagram is right. -/
abbrev Right (d : Bytes) : Prop := generateChecksum d = .ok (checksumField d : ℤ)

/-- The round looks at bytes of the datagram only. -/
inductive OwnBytes (r : Receiver) (d : Bytes) : Prop
  /-- no buffer holds a header, and the size throws -/
  | noHeader (hW : r.WINDOW_SIZE < 24)
  /-- taken for a repeat of the window size -/
  | window (hW : r.WINDOW_SIZE = 24) (ha : ackField d ≠ 0)
  /-- a number throws -/
  | number (h : 2 ^ 31 ≤ seqField d ∨ 2 ^ 31 ≤ ackField d)
  | fin (h : flagsField d = 1)
  /-- a whole header, and a payload inside the datagram if it is stored -/
  | whole (hd : 24 ≤ d.length)
      (h : Right d → r.ackFlag < ackField d → sizeField d + 24 < 2 ^ 31 →
        sizeField d + 24 ≤ d.length ∨ (d.length : ℤ) = r.WINDOW_SIZE)
  /-- the size is cut behind its first byte, which throws, or nothing is stored -/
  | cutSize (hd : 21 ≤ d.length) (hd' : d.length < 24)
      (h : 128 ≤ (d.getD 20 0).toNat ∨ ¬ Right d ∨ ackField d ≤ r.ackFlag)
  /-- no size, and the round throws on any -/
  | noSize (hd : 18 ≤ d.length) (hd' : d.length < 21) (hr : Right d)
      (ha : ackField d ≤ r.ackFlag) (ho : r.outData = none)

/-- The decision behind the FIN test, on the size and the payload read and on whether the checksums
agree. -/
def decisionOn (r : Receiver) (d : Bytes) (size : ℕ) (right : Prop) [Decidable right]
    (payload : Bytes) : Decision :=
  if 2 ^ 31 ≤ size then .crash
  else if ¬ right then .drop
  else if r.ackFlag < ackField d then
    if size + 24 < 2 ^ 31 then .store (seqField d) (ackField d) payload else .crash
  else
    match r.outData with
    | some m => .resend m
    | none => .crash

variable {c : ReceiverConfig} {r : Receiver} {d : Bytes} {w : WriteOutcome}
  {p p' : DatagramPacket}

theorem Alike.pc {x y : Receiver × List Bytes} (h : Alike x y) : x.1.pc = y.1.pc := by
  rw [← h.2]
  rfl

theorem Alike.file {x y : Receiver × List Bytes} (h : Alike x y) : x.1.file = y.1.file := by
  rw [← h.2]
  rfl

theorem perform_alike (h : p.data.length = p'.data.length) (D : Decision) :
    Alike ((r.withPacket p).perform c w D) ((r.withPacket p').perform c w D) := by
  rcases D with _ | _ | _ | m | ⟨seq, ack, payload⟩
  · exact ⟨rfl, rfl⟩
  · exact ⟨rfl, rfl⟩
  · exact ⟨rfl, rfl⟩
  · exact ⟨rfl, rfl⟩
  · simp [Alike, perform, stored, withPacket, h]

section Received

variable (hn : 17 ≤ d.length) (hd : d.length ≤ p.data.length)
include hn hd

theorem fields_received : seqField (p.receive d).data = seqField d ∧
    ackField (p.receive d).data = ackField d ∧ flagsField (p.receive d).data = flagsField d :=
  fields_congr (take_receive hn (hn.trans hd)) (by norm_num)

theorem segmentDecision_received (hW : 24 ≤ p.data.length) :
    (r.withPacket (p.receive d)).segmentDecision
      = r.decisionOn d (sizeField (p.receive d).data)
          (generateChecksum d = .ok (checksumField (p.receive d).data : ℤ))
          (((p.receive d).data.drop 24).takeD (sizeField (p.receive d).data) 0) := by
  obtain ⟨hs, ha, -⟩ := fields_received hn hd
  have hlen := length_receive p d
  have hl : (p.receive d).length = d.length := min_eq_left hd
  have hi : (r.withPacket (p.receive d)).Intact ↔
      generateChecksum d = .ok (checksumField (p.receive d).data : ℤ) := by
    have htake : (r.withPacket (p.receive d)).inPacket.data.take
        (r.withPacket (p.receive d)).inPacket.length = d := take_length_receive hd
    rw [Intact, htake]
    rfl
  unfold segmentDecision decisionOn payload
  simp only [hi]
  simp only [withPacket, hs, ha, hl, hlen]
  by_cases hz : 2 ^ 31 ≤ sizeField (p.receive d).data
  · rw [if_pos hz, if_pos (.inr (.inl hz))]
  · have hlong : ¬ (p.data.length < 24 ∨ 2 ^ 31 ≤ sizeField (p.receive d).data ∨
        d.length < 17) := by omega
    exact (if_neg hlong).trans (if_neg hz).symm

theorem decision_received :
    (r.withPacket (p.receive d)).decision =
      if 2 ^ 31 ≤ seqField d ∨ 2 ^ 31 ≤ ackField d then .crash
      else if p.data.length = 24 ∧ ackField d ≠ 0 then .resend sizeReply
      else if flagsField d = 1 then .fin
      else (r.withPacket (p.receive d)).segmentDecision := by
  obtain ⟨hs, ha, hf⟩ := fields_received hn hd
  have hlen := length_receive p d
  unfold decision
  simp only [withPacket, hs, ha, hf, hlen]

end Received

section DecisionOn

variable {size size' : ℕ} {right : Prop} [Decidable right] {payload payload' : Bytes}

theorem decisionOn_crash (h : 2 ^ 31 ≤ size) :
    r.decisionOn d size right payload = .crash := if_pos h

theorem decisionOn_drop (h : size < 2 ^ 31) (hr : ¬ right) :
    r.decisionOn d size right payload = .drop := by
  rw [decisionOn, if_neg (by omega), if_pos hr]

theorem decisionOn_store (h : size + 24 < 2 ^ 31) (hr : right) (ha : r.ackFlag < ackField d) :
    r.decisionOn d size right payload = .store (seqField d) (ackField d) payload := by
  rw [decisionOn, if_neg (by omega), if_neg (not_not_intro hr), if_pos ha, if_pos h]

theorem decisionOn_repeat (h : size < 2 ^ 31) (hr : right) (ha : ackField d ≤ r.ackFlag) :
    r.decisionOn d size right payload
      = match r.outData with | some m => .resend m | none => .crash := by
  rw [decisionOn, if_neg (by omega), if_neg (not_not_intro hr), if_neg (by omega)]

theorem decisionOn_payload (h : right → r.ackFlag < ackField d → size + 24 < 2 ^ 31 →
    payload = payload') :
    r.decisionOn d size right payload = r.decisionOn d size right payload' := by
  unfold decisionOn
  split_ifs with hz hr ha hend
  · rfl
  · rw [h hr ha hend]
  · rfl
  · rfl
  · rfl

/-- Where nothing is stored, no size below 2^31 makes a difference. -/
theorem decisionOn_size (h : size < 2 ^ 31) (h' : size' < 2 ^ 31)
    (hno : ¬ right ∨ ackField d ≤ r.ackFlag) :
    r.decisionOn d size right payload = r.decisionOn d size' right payload' := by
  by_cases hr : right
  · have ha := hno.resolve_left (not_not_intro hr)
    rw [decisionOn_repeat h hr ha, decisionOn_repeat h' hr ha]
  · rw [decisionOn_drop h hr, decisionOn_drop h' hr]

end DecisionOn

theorem sizeField_eq {b : Bytes} (h : 24 ≤ b.length) :
    sizeField b = (((b.getD 20 0).toNat * 256 + (b.getD 21 0).toNat) * 256
      + (b.getD 22 0).toNat) * 256 + (b.getD 23 0).toNat := by
  rw [sizeField, field_succ (by omega), field_succ (by omega), field_succ (by omega),
    field_succ (by omega), field_zero, zero_mul, zero_add]

theorem getD_received (hd : d.length ≤ p.data.length) {i : ℕ} (hi : i < d.length) :
    (p.receive d).data.getD i 0 = d.getD i 0 := by
  rw [data_receive hd, List.getD_append _ _ _ _ hi]

theorem takeD_received (hd : d.length ≤ p.data.length) (hd' : d.length ≤ p'.data.length)
    (h24 : 24 ≤ d.length) {size : ℕ}
    (h : size + 24 ≤ d.length ∨ (d.length = p.data.length ∧ d.length = p'.data.length)) :
    ((p.receive d).data.drop 24).takeD size 0 = ((p'.receive d).data.drop 24).takeD size 0 := by
  rcases h with h | ⟨h, h'⟩
  · have key : ∀ q : DatagramPacket, d.length ≤ q.data.length →
        ((q.receive d).data.drop 24).takeD size 0 = (d.drop 24).take size := by
      intro q hq
      have hl := length_receive q d
      rw [List.takeD_eq_take _ (by rw [List.length_drop, hl]; omega), data_receive hq,
        List.drop_append_of_le_length h24,
        List.take_append_of_le_length (by rw [List.length_drop]; omega)]
    rw [key p hd, key p' hd']
  · rw [data_receive_of_eq h, data_receive_of_eq h']

section Own

/-- With the checksum field inside the datagram, `right` is `Right`. -/
theorem segmentDecision_right (h18 : 18 ≤ d.length) (hd : d.length ≤ p.data.length)
    (hW : 24 ≤ p.data.length) :
    (r.withPacket (p.receive d)).segmentDecision
      = r.decisionOn d (sizeField (p.receive d).data) (Right d)
          (((p.receive d).data.drop 24).takeD (sizeField (p.receive d).data) 0) := by
  have hck : checksumField (p.receive d).data = checksumField d :=
    field_congr (take_receive h18 (h18.trans hd)) (by norm_num)
  rw [segmentDecision_received (by omega) hd hW]
  simp only [hck]

variable (hd : d.length ≤ p.data.length) (hd' : d.length ≤ p'.data.length)
  (hW : 24 ≤ p.data.length) (hW' : 24 ≤ p'.data.length)
include hd hd' hW hW'

theorem segmentDecision_whole (h24 : 24 ≤ d.length)
    (h : Right d → r.ackFlag < ackField d → sizeField d + 24 < 2 ^ 31 →
      sizeField d + 24 ≤ d.length ∨ (d.length = p.data.length ∧ d.length = p'.data.length)) :
    (r.withPacket (p.receive d)).segmentDecision
      = (r.withPacket (p'.receive d)).segmentDecision := by
  have hsize : ∀ q : DatagramPacket, d.length ≤ q.data.length →
      sizeField (q.receive d).data = sizeField d := fun q hq =>
    field_congr (take_receive h24 (h24.trans hq)) (by norm_num)
  rw [segmentDecision_right (by omega) hd hW, segmentDecision_right (by omega) hd' hW',
    hsize p hd, hsize p' hd']
  exact decisionOn_payload fun hr ha hend => takeD_received hd hd' h24 (h hr ha hend)

theorem segmentDecision_cutSize (h21 : 21 ≤ d.length)
    (h : 128 ≤ (d.getD 20 0).toNat ∨ ¬ Right d ∨ ackField d ≤ r.ackFlag) :
    (r.withPacket (p.receive d)).segmentDecision
      = (r.withPacket (p'.receive d)).segmentDecision := by
  have hsize : ∀ q : DatagramPacket, d.length ≤ q.data.length → 24 ≤ q.data.length →
      (2 ^ 31 ≤ sizeField (q.receive d).data ↔ 128 ≤ (d.getD 20 0).toNat) := by
    intro q hq h24
    rw [sizeField_eq (by rwa [length_receive]), getD_received hq (by omega : 20 < d.length)]
    have h1 := ((q.receive d).data.getD 21 0).toNat_lt
    have h2 := ((q.receive d).data.getD 22 0).toNat_lt
    have h3 := ((q.receive d).data.getD 23 0).toNat_lt
    omega
  have hp := hsize p hd hW
  have hp' := hsize p' hd' hW'
  rw [segmentDecision_right (by omega) hd hW, segmentDecision_right (by omega) hd' hW']
  by_cases h128 : 128 ≤ (d.getD 20 0).toNat
  · rw [decisionOn_crash (hp.2 h128), decisionOn_crash (hp'.2 h128)]
  · exact decisionOn_size (by omega) (by omega) (h.resolve_left h128)

theorem segmentDecision_noSize (h18 : 18 ≤ d.length) (hr : Right d)
    (ha : ackField d ≤ r.ackFlag) (ho : r.outData = none) :
    (r.withPacket (p.receive d)).segmentDecision
      = (r.withPacket (p'.receive d)).segmentDecision := by
  have hcrash : ∀ size payload, r.decisionOn d size (Right d) payload = .crash := by
    intro size payload
    rcases Nat.lt_or_ge size (2 ^ 31) with hz | hz
    · rw [decisionOn_repeat hz hr ha, ho]
    · exact decisionOn_crash hz
  rw [segmentDecision_right h18 hd hW, segmentDecision_right h18 hd' hW', hcrash, hcrash]

end Own

/-- Where the round looks at the datagram only, its decision does not depend on the buffer. -/
theorem segmentDecision_of_own (hp : (p.data.length : ℤ) = r.WINDOW_SIZE)
    (hp' : (p'.data.length : ℤ) = r.WINDOW_SIZE) (hd : (d.length : ℤ) ≤ r.WINDOW_SIZE)
    (hnumber : ¬ (2 ^ 31 ≤ seqField d ∨ 2 ^ 31 ≤ ackField d))
    (hwindow : ¬ (p.data.length = 24 ∧ ackField d ≠ 0)) (hfin : flagsField d ≠ 1)
    (h : r.OwnBytes d) :
    (r.withPacket (p.receive d)).segmentDecision
      = (r.withPacket (p'.receive d)).segmentDecision := by
  have hcrash : ∀ q : DatagramPacket, q.data.length < 24 →
      (r.withPacket (q.receive d)).segmentDecision = .crash := by
    intro q hq
    have hlen := length_receive q d
    exact if_pos (.inl (by simp only [withPacket]; omega))
  rcases Nat.lt_or_ge p.data.length 24 with hW | hW
  · rw [hcrash p hW, hcrash p' (by omega)]
  cases h with
  | noHeader hW' => omega
  | window hW' ha => exact absurd ⟨by omega, ha⟩ hwindow
  | number h => exact absurd h hnumber
  | fin h => exact absurd h hfin
  | whole h24 h =>
    refine segmentDecision_whole (by omega) (by omega) hW (by omega) h24 fun hr ha hend => ?_
    refine (h hr ha hend).imp_right fun he => ?_
    omega
  | cutSize h21 _ h =>
    exact segmentDecision_cutSize (by omega) (by omega) hW (by omega) h21 h
  | noSize h18 _ hr ha ho =>
    exact segmentDecision_noSize (by omega) (by omega) hW (by omega) h18 hr ha ho

theorem leakFree_of_own (hn : 17 ≤ d.length) (hd : (d.length : ℤ) ≤ r.WINDOW_SIZE)
    (h : r.OwnBytes d) : r.LeakFree c d := by
  intro p p' w hp hp'
  have hlen := length_receive p d
  have hlen' := length_receive p' d
  rw [receiveLoop_eq c (r := r.withPacket p) (by simp only [withPacket]; omega),
    receiveLoop_eq c (r := r.withPacket p') (by simp only [withPacket]; omega)]
  have hdec : (r.withPacket (p.receive d)).decision = (r.withPacket (p'.receive d)).decision := by
    rw [decision_received hn (by omega), decision_received hn (by omega)]
    have hW : p'.data.length = p.data.length := by omega
    rw [hW]
    split_ifs with hnumber hwindow hfin
    · rfl
    · rfl
    · rfl
    · exact segmentDecision_of_own hp hp' hd hnumber hwindow hfin h
  show Alike
    ((r.withPacket (p.receive d)).perform c w (r.withPacket (p.receive d)).decision)
    ((r.withPacket (p'.receive d)).perform c w (r.withPacket (p'.receive d)).decision)
  rw [← hdec]
  exact perform_alike (by omega) _

/-! ## Where an old byte shows -/

/-- A packet whose buffer is full of `x`. -/
def filled (n : ℕ) (x : UInt8) : DatagramPacket := ⟨List.replicate n x, n, by simp⟩

@[simp] theorem length_filled (n : ℕ) (x : UInt8) : (filled n x).data.length = n := by
  simp [filled]

theorem getD_filled {n i : ℕ} (hd : d.length ≤ n) (hi : i < n) (x : UInt8) :
    ((filled n x).receive d).data.getD i 0 = if i < d.length then d.getD i 0 else x := by
  split_ifs with h
  · exact getD_received (by simpa using hd) h
  · have hlen := length_filled n x
    rw [data_receive (by omega), List.getD_append_right _ _ _ _ (by omega)]
    simp only [filled, List.drop_replicate]
    rw [List.getD_replicate _ (by omega)]

theorem getD_takeD : ∀ (n : ℕ) (l : Bytes) (i : ℕ), i < n → (l.takeD n 0).getD i 0 = l.getD i 0
  | n + 1, l, 0, _ => by rcases l with _ | ⟨x, l⟩ <;> simp
  | n + 1, l, i + 1, h => by
    rw [List.takeD_succ, List.getD_cons_succ, getD_takeD n l.tail i (by omega)]
    rcases l with _ | ⟨x, l⟩ <;> simp

section Leak

variable {n : ℕ}

/-- What a datagram that leaks nothing makes of two buffers: both rounds throw or neither does, and
two payloads stored are the same. -/
theorem LeakFree.decisions (hpc : r.pc = .receiveLoop) (hW : (n : ℤ) = r.WINDOW_SIZE)
    (h14 : 14 ≤ n) (h : r.LeakFree c d) (x y : UInt8) :
    ((r.withPacket ((filled n x).receive d)).decision ≠ .crash ↔
      (r.withPacket ((filled n y).receive d)).decision ≠ .crash) ∧
    ∀ seq ack payload payload',
      (r.withPacket ((filled n x).receive d)).decision = .store seq ack payload →
      (r.withPacket ((filled n y).receive d)).decision = .store seq ack payload' →
        payload = payload' := by
  have halike := h (filled n x) (filled n y) .written (by simpa using hW) (by simpa using hW)
  rw [receiveLoop_eq c (r := r.withPacket (filled n x)) (by simpa [withPacket] using h14),
    receiveLoop_eq c (r := r.withPacket (filled n y)) (by simpa [withPacket] using h14)] at halike
  constructor
  · have hpc' : ((r.withPacket ((filled n x).receive d)).perform c .written
          (r.withPacket ((filled n x).receive d)).decision).1.pc
        = ((r.withPacket ((filled n y).receive d)).perform c .written
          (r.withPacket ((filled n y).receive d)).decision).1.pc := halike.pc
    rw [← pc_perform (c := c) (w := .written) (r := r.withPacket ((filled n x).receive d)) hpc,
      ← pc_perform (c := c) (w := .written) (r := r.withPacket ((filled n y).receive d)) hpc, hpc']
  · intro seq ack payload payload' hx hy
    have hfile : ((r.withPacket ((filled n x).receive d)).perform c .written
          (r.withPacket ((filled n x).receive d)).decision).1.file
        = ((r.withPacket ((filled n y).receive d)).perform c .written
          (r.withPacket ((filled n y).receive d)).decision).1.file := halike.file
    rw [hx, hy] at hfile
    exact List.append_cancel_left hfile

/-- The round comes to the size field, in a buffer of `n` bytes. -/
structure Segment (r : Receiver) (d : Bytes) (n : ℕ) : Prop where
  loop : r.pc = .receiveLoop
  buffer : (n : ℤ) = r.WINDOW_SIZE
  header : 24 ≤ n
  long : 17 ≤ d.length
  fits : d.length ≤ n
  number : ¬ (2 ^ 31 ≤ seqField d ∨ 2 ^ 31 ≤ ackField d)
  window : ¬ (n = 24 ∧ ackField d ≠ 0)
  notFin : flagsField d ≠ 1

/-- The size read behind `d` in a buffer full of `x`. -/
def sizeOn (d : Bytes) (x : UInt8) : ℕ :=
  let byte := fun i => (if i < d.length then d.getD i 0 else x).toNat
  ((byte 20 * 256 + byte 21) * 256 + byte 22) * 256 + byte 23

/-- The payload of that size. -/
def payloadOn (n : ℕ) (d : Bytes) (x : UInt8) : Bytes :=
  (((filled n x).receive d).data.drop 24).takeD (sizeOn d x) 0

/-- A size that is cut: its last byte is the buffer's. -/
theorem sizeOn_cut (h24 : d.length < 24) (h21 : 20 < d.length) (h128 : (d.getD 20 0).toNat < 128) :
    sizeOn d 0 < sizeOn d 1 ∧ sizeOn d 1 + 24 < 2 ^ 31 := by
  have h1 := (d.getD 21 0).toNat_lt
  have h2 := (d.getD 22 0).toNat_lt
  have hone : (1 : UInt8).toNat = 1 := rfl
  have hzero : (0 : UInt8).toNat = 0 := rfl
  unfold sizeOn
  simp only []
  rw [if_pos h21, if_neg (by omega : ¬ 23 < d.length), if_neg (by omega : ¬ 23 < d.length)]
  split_ifs <;> constructor <;> omega

theorem sizeOn_none (h21 : d.length < 21) (x : UInt8) :
    sizeOn d x = ((x.toNat * 256 + x.toNat) * 256 + x.toNat) * 256 + x.toNat := by
  unfold sizeOn
  simp only []
  rw [if_neg (by omega), if_neg (by omega), if_neg (by omega), if_neg (by omega)]

namespace Segment

variable (h : Segment r d n)
include h

theorem getD_data {i : ℕ} (hi : i < 24) (x : UInt8) :
    ((filled n x).receive d).data.getD i 0 = if i < d.length then d.getD i 0 else x :=
  getD_filled h.fits (hi.trans_le h.header) x

theorem sizeField_data (x : UInt8) : sizeField ((filled n x).receive d).data = sizeOn d x := by
  have hlen := length_filled n x
  have h24 := h.header
  rw [sizeField_eq (by rw [length_receive]; omega), h.getD_data (by norm_num),
    h.getD_data (by norm_num), h.getD_data (by norm_num), h.getD_data (by norm_num)]
  rfl

theorem decision_eq (x : UInt8) :
    (r.withPacket ((filled n x).receive d)).decision
      = r.decisionOn d (sizeOn d x)
          (generateChecksum d = .ok (checksumField ((filled n x).receive d).data : ℤ))
          (payloadOn n d x) := by
  have hlen := length_filled n x
  have hfits := h.fits
  have h24 := h.header
  rw [decision_received h.long (by omega), if_neg h.number, hlen, if_neg h.window,
    if_neg h.notFin, segmentDecision_received h.long (by omega) (by omega), h.sizeField_data]
  rfl

theorem decision_right (h18 : 18 ≤ d.length) (x : UInt8) :
    (r.withPacket ((filled n x).receive d)).decision
      = r.decisionOn d (sizeOn d x) (Right d) (payloadOn n d x) := by
  have hlen := length_filled n x
  have hfits := h.fits
  have hck : checksumField ((filled n x).receive d).data = checksumField d :=
    field_congr (take_receive h18 (by omega)) (by norm_num)
  rw [h.decision_eq]
  simp only [hck]

/-- A segment that leaks nothing is stored with one payload. -/
theorem payload_eq (hfree : r.LeakFree c d) (h18 : 18 ≤ d.length) (hr : Right d)
    (ha : r.ackFlag < ackField d) {x y : UInt8} (hx : sizeOn d x + 24 < 2 ^ 31)
    (hy : sizeOn d y + 24 < 2 ^ 31) : payloadOn n d x = payloadOn n d y := by
  have h24 := h.header
  refine (hfree.decisions h.loop h.buffer (by omega) x y).2 (seqField d) (ackField d) _ _ ?_ ?_
  · rw [h.decision_right h18 x, decisionOn_store hx hr ha]
  · rw [h.decision_right h18 y, decisionOn_store hy hr ha]

theorem crash_iff (hfree : r.LeakFree c d) (x y : UInt8) :
    (r.withPacket ((filled n x).receive d)).decision = .crash ↔
      (r.withPacket ((filled n y).receive d)).decision = .crash := by
  have h24 := h.header
  exact not_iff_not.1 (hfree.decisions h.loop h.buffer (by omega) x y).1

/-- A whole header: an old byte at the end of the datagram would be stored. -/
theorem whole_of_leakFree (hfree : r.LeakFree c d) (h24 : 24 ≤ d.length) : r.OwnBytes d := by
  refine .whole h24 fun hr ha hend => ?_
  by_contra hcon
  push Not at hcon
  have hbuf := h.buffer
  have hsize : ∀ x, sizeOn d x = sizeField d := by
    intro x
    unfold sizeOn
    simp only []
    rw [sizeField_eq h24, if_pos (by omega), if_pos (by omega), if_pos (by omega),
      if_pos (by omega)]
  have hpayload := h.payload_eq hfree (by omega) hr ha (x := 0) (y := 1) (by rwa [hsize])
    (by rwa [hsize])
  have hold : ∀ x, (payloadOn n d x).getD (d.length - 24) 0 = x := by
    intro x
    have hfits := h.fits
    rw [payloadOn, hsize, getD_takeD _ _ _ (by omega), List.getD_eq_getElem?_getD,
      List.getElem?_drop, ← List.getD_eq_getElem?_getD, Nat.add_sub_cancel' h24,
      getD_filled h.fits (by omega), if_neg (lt_irrefl _)]
  have h0 := hold 0
  rw [hpayload, hold 1] at h0
  exact absurd h0 (by decide)

theorem cutSize_of_leakFree (hfree : r.LeakFree c d) (h21 : 21 ≤ d.length) (h24 : d.length < 24) :
    r.OwnBytes d := by
  refine .cutSize h21 h24 ?_
  by_contra hcon
  push Not at hcon
  obtain ⟨h128, hr, ha⟩ := hcon
  obtain ⟨hlt, hend⟩ := sizeOn_cut h24 h21 h128
  have hpayload := h.payload_eq hfree (by omega) hr ha (x := 0) (y := 1) (by omega) hend
  have hlen := congrArg List.length hpayload
  rw [payloadOn, payloadOn, List.takeD_length, List.takeD_length] at hlen
  omega

/-- Without a size, the round throws in a buffer that makes it large, so it throws in any. -/
theorem crash_of_noSize (hfree : r.LeakFree c d) (h21 : d.length < 21) (x : UInt8) :
    (r.withPacket ((filled n x).receive d)).decision = .crash := by
  refine (h.crash_iff hfree x 255).2 ?_
  rw [h.decision_eq, sizeOn_none h21]
  exact decisionOn_crash (by decide)

theorem noSize_of_leakFree (hfree : r.LeakFree c d) (h18 : 18 ≤ d.length) (h21 : d.length < 21) :
    r.OwnBytes d := by
  have hcrash := h.crash_of_noSize hfree h21 0
  have hsize : sizeOn d 0 = 0 := sizeOn_none h21 0
  rw [h.decision_right h18, hsize] at hcrash
  by_cases hr : Right d
  · rcases Nat.lt_or_ge r.ackFlag (ackField d) with ha | ha
    · rw [decisionOn_store (by norm_num) hr ha] at hcrash
      cases hcrash
    · rw [decisionOn_repeat (by norm_num) hr ha] at hcrash
      rcases ho : r.outData with _ | m
      · exact .noSize h18 h21 hr ha ho
      · rw [ho] at hcrash
        cases hcrash
  · rw [decisionOn_drop (by norm_num) hr] at hcrash
    cases hcrash

/-- A checksum that is cut: in one of two buffers it is wrong, and the segment dropped. -/
theorem not_leakFree_of_cut (h17 : d.length = 17) : ¬ r.LeakFree c d := by
  intro hfree
  have hright : ∀ x : UInt8, x.toNat < 2 →
      generateChecksum d = .ok (checksumField ((filled n x).receive d).data : ℤ) := by
    intro x hx
    by_contra hr
    have hcrash := h.crash_of_noSize hfree (by omega) x
    rw [h.decision_eq, decisionOn_drop (by rw [sizeOn_none (by omega)]; omega) hr] at hcrash
    cases hcrash
  have hck : ∀ x : UInt8, checksumField ((filled n x).receive d).data
      = (d.getD 16 0).toNat * 256 + x.toNat := by
    intro x
    have hlen := length_filled n x
    have h24 := h.header
    rw [checksumField_eq_word (by rw [length_receive]; omega), OnesComplement.word,
      h.getD_data (by norm_num), h.getD_data (by norm_num), if_pos (by omega), if_neg (by omega)]
  have h0 := hright 0 (by decide)
  rw [hright 1 (by decide), hck, hck] at h0
  simp at h0

end Segment

end Leak

theorem own_of_leakFree (hpc : r.pc = .receiveLoop) (hn : 17 ≤ d.length)
    (hd : (d.length : ℤ) ≤ r.WINDOW_SIZE) (h : r.LeakFree c d) : r.OwnBytes d := by
  obtain ⟨n, hW⟩ : ∃ n : ℕ, (n : ℤ) = r.WINDOW_SIZE := ⟨_, Int.toNat_of_nonneg (by omega)⟩
  by_cases hnumber : 2 ^ 31 ≤ seqField d ∨ 2 ^ 31 ≤ ackField d
  · exact .number hnumber
  by_cases hwindow : n = 24 ∧ ackField d ≠ 0
  · exact .window (by omega) hwindow.2
  by_cases hfin : flagsField d = 1
  · exact .fin hfin
  rcases Nat.lt_or_ge n 24 with hlt | h24
  · exact .noHeader (by omega)
  have hs : r.Segment d n := ⟨hpc, hW, h24, hn, by omega, hnumber, hwindow, hfin⟩
  rcases Nat.lt_or_ge d.length 18 with h18 | h18
  · exact absurd h (hs.not_leakFree_of_cut (by omega))
  rcases Nat.lt_or_ge d.length 21 with h21 | h21
  · exact hs.noSize_of_leakFree h h18 h21
  rcases Nat.lt_or_ge d.length 24 with hcut | hwhole
  · exact hs.cutSize_of_leakFree h h21 hcut
  · exact hs.whole_of_leakFree h hwhole

/-- A round looks at no old byte just where all it looks at is the datagram's. -/
theorem leakFree_iff (hpc : r.pc = .receiveLoop) (hn : 17 ≤ d.length)
    (hd : (d.length : ℤ) ≤ r.WINDOW_SIZE) : r.LeakFree c d ↔ r.OwnBytes d :=
  ⟨own_of_leakFree hpc hn hd, leakFree_of_own hn hd⟩

/-- A header that speaks of one octet. -/
def oneOctet : Bytes := tcpHeader 12010 12001 0 1 5 16 25 21001 0 1

theorem leakFree_oneOctet : atLoop.LeakFree Config.oneByte.receiver (oneOctet ++ [7]) :=
  (leakFree_iff (by decide +kernel) (by decide +kernel) (by decide +kernel)).2
    (.whole (by decide +kernel) fun _ _ _ => .inl (by decide +kernel))

/-- The last octet of a datagram that was dropped is stored behind such a header. -/
theorem not_leakFree : ¬ ∀ (c : ReceiverConfig) (r : Receiver) (p : DatagramPacket) (d : Bytes)
    (w : WriteOutcome), Reachable c r → Reachable c (r.withPacket p) → r.pc = .receiveLoop →
      17 ≤ d.length → (d.length : ℤ) ≤ r.WINDOW_SIZE →
        Alike (r.receiveLoop c d w) ((r.withPacket p).receiveLoop c d w) := by
  intro hall
  have hdropped : Reachable Config.oneByte.receiver
      (atLoop.withPacket (atLoop.inPacket.receive (List.replicate 24 0 ++ [1]))) := by
    refine reachable_atLoop.trans (.single (a := (List.replicate 24 0 ++ [1], .written)) trivial ?_)
    decide +kernel
  have halike := hall Config.oneByte.receiver atLoop _ oneOctet .written reachable_atLoop hdropped
    (by decide +kernel) (by decide +kernel) (by decide +kernel)
  exact absurd halike.file (by decide +kernel)

end Receiver

end TcpLike
