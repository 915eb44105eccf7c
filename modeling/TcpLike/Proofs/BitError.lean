import TcpLike.Proofs.EmulatorAccounts
import TcpLike.Proofs.ErrorDetection

/-!
# The bit errors of the emulator

With a `RAND_MAX` of 2^31 - 1 the quotient that `isBitError` takes for the place of a bit is 0 or
-1, and a shift by -1 is none: every bit error is in the last bit of the first byte, and two of them
undo each other (`isBitError_eq_some`). So it is in every run (`Emulator.sent_spoilt`).
-/

namespace TcpLike

variable {d d' : Bytes}

/-- A multiple of 8 in 32 bits is a `RAND_MAX` at most once, and below zero then. -/
theorem tdiv_randMax (x : ℤ) :
    (int32 (int32 x * 8)).tdiv RAND_MAX = 0 ∨ (int32 (int32 x * 8)).tdiv RAND_MAX = -1 := by
  have hmod : int32 (int32 x * 8) % 8 = 0 := by
    have := int32_emod (int32 x * 8)
    omega
  have hrange : -2 ^ 31 ≤ int32 (int32 x * 8) ∧ int32 (int32 x * 8) < 2 ^ 31 := by
    rw [int32_eq]
    split_ifs <;> omega
  have hr : (RAND_MAX : ℤ) = 2147483647 := rfl
  generalize int32 (int32 x * 8) = z at hmod hrange
  rw [hr]
  rcases le_total 0 z with hz | hz
  · left
    rw [Int.tdiv_eq_ediv_of_nonneg hz]
    omega
  · have hneg : z.tdiv 2147483647 = -(-z / 2147483647) := by
      rw [← Int.tdiv_eq_ediv_of_nonneg (Int.neg_nonneg.2 hz), Int.neg_tdiv, neg_neg]
    rw [hneg]
    omega

theorem neg_of_negOne (n : ℕ) :
    n = 0 ∨ (-1 : ℤ).tdiv n < 0 ∨ (-1 : ℤ).tmod n < 0 ∨ 31 ≤ (-1 : ℤ).tmod n := by
  rcases Nat.lt_or_ge n 2 with hn | hn
  · interval_cases n <;> decide
  · refine .inr (.inr (.inl ?_))
    have hone : (1 : ℤ).tmod n = 1 := by
      rw [Int.tmod_eq_emod_of_nonneg one_pos.le]
      exact Int.emod_eq_of_lt one_pos.le (by omega)
    rw [Int.neg_tmod, hone]
    exact neg_one_lt_zero

theorem flipBit_zero (d : Bytes) : flipBit d 0 0 = d.modify 0 (· ^^^ UInt8.ofNat (2 ^ 0)) := by
  cases d <;> rfl

theorem flipBit_flipBit (d : Bytes) : flipBit (flipBit d 0 0) 0 0 = d := by
  cases d with
  | nil => rfl
  | cons b d =>
    have hb : b ^^^ UInt8.ofNat (2 ^ 0) ^^^ UInt8.ofNat (2 ^ 0) = b := by
      rw [UInt8.xor_assoc, UInt8.xor_self, UInt8.xor_zero]
    exact congrArg (· :: d) hb

theorem length_flipBit (d : Bytes) (i j : ℕ) : (flipBit d i j).length = d.length := List.length_set

theorem drop_flipBit (d : Bytes) : (flipBit d 0 0).drop 1 = d.drop 1 := by
  cases d <;> rfl

theorem corruptBit_eq_some {wBytes r : ℕ} (h : corruptBit wBytes d r = some d') :
    d' = flipBit d 0 0 := by
  simp only [corruptBit] at h
  split_ifs at h with hn
  obtain rfl := Option.some.inj h
  rw [flipBit_zero]
  rcases tdiv_randMax (r * wBytes) with h0 | h1
  · rw [h0]
    simp
  · rw [h1] at hn
    exact absurd (neg_of_negOne wBytes) hn

/-- What `isBitError` makes of a packet: nothing, or its first bit error. -/
theorem isBitError_eq_some {bits : List ℕ} (h : isBitError d bits = some d') :
    d' = if bits.length % 2 = 0 then d else flipBit d 0 0 := by
  have key : ∀ (bits : List ℕ) (n : ℕ) (d : Bytes), bits.foldlM (corruptBit n) d = some d' →
      d' = if bits.length % 2 = 0 then d else flipBit d 0 0 := by
    intro bits n
    induction bits with
    | nil =>
      intro d h
      exact (Option.some.inj h).symm
    | cons r bits ih =>
      intro d h
      simp only [List.foldlM_cons, Option.bind_eq_bind, Option.bind_eq_some_iff] at h
      obtain ⟨d₁, h₁, h⟩ := h
      rw [ih d₁ h, corruptBit_eq_some h₁, flipBit_flipBit, List.length_cons]
      split_ifs <;> first | rfl | omega
  exact key bits d.length d h

namespace Emulator

/-- The packet sent is the packet taken from the queue, but for its first bit error. -/
def SpoiltOnly (o : Options) (L : Ledger) : Prop :=
  ∀ p ∈ L.sent, p.2 = p.1 ∨ (o.bitError ≠ 0 ∧ p.2 = flipBit p.1 0 0)

theorem SpoiltOnly.emit {o : Options} {e e' : Emulator} {L : Ledger} {ev : Event} {eff : Effect}
    (h : SpoiltOnly o L) (hemit : emit o e ev = some (e', eff)) :
    SpoiltOnly o (L.note e ev eff) := by
  rcases emit_cases hemit with ⟨-, hq, -⟩ | ⟨readAddr, d, now, rfl, -, ha⟩ |
    ⟨now, draws, d, rest, rfl, hs⟩
  · rw [note_of_quiet hq]
    exact h
  · rw [ha.effect]
    exact h
  · have heff := hs.effect
    cases eff with
    | sent d₁ d' =>
      obtain ⟨rfl, -, hd'⟩ := heff
      intro p hp
      rcases List.mem_append.1 hp with hp | hp
      · exact h p hp
      · obtain rfl := List.mem_singleton.1 hp
        split_ifs at hd' with hb
        · exact .inl hd'
        · have hbits := isBitError_eq_some hd'
          split_ifs at hbits
          · exact .inl hbits
          · exact .inr ⟨hb, hbits⟩
    | lost | unsent => exact h
    | _ => exact heff.elim

/-- Whatever the bit error rate, the emulator sends a packet as it has received it, or with the last
bit of its first byte flipped. -/
theorem sent_spoilt {o : Options} {ok : Emulator × Ledger → Event → Prop} {start : Timeval}
    {e : Emulator} {L : Ledger} (h : Recorded o ok start e L) :
    ∀ p ∈ L.sent, p.2 = p.1 ∨ (o.bitError ≠ 0 ∧ p.2 = flipBit p.1 0 0) := by
  have hinit : SpoiltOnly o .empty := by simp [SpoiltOnly, Ledger.empty]
  refine h.invariant (I := fun x => SpoiltOnly o x.2) ?_ hinit
  rintro ⟨e, L⟩ ev ⟨e', L'⟩ hi - hs
  obtain ⟨eff, hemit, rfl⟩ := Transition.recorded_eq_some.1 hs
  exact SpoiltOnly.emit hi hemit

/-- Three bit errors in one packet. -/
theorem sent_spoilt_three : ∃ L : Ledger, L.sent = [(List.replicate 9 1, 0 :: List.replicate 8 1)] ∧
    ∀ p ∈ L.sent, p.2 = p.1 ∨ (50 ≠ 0 ∧ p.2 = flipBit p.1 0 0) := by
  have h : ∃ x, LedgerRun { initOptions 2130706433 with bitError := 50 } (fun _ _ => True)
      (init ⟨99, 0⟩, .empty) x ∧
      decide (x.2.sent = [(List.replicate 9 1, 0 :: List.replicate 8 1)]) :=
    Transition.Run.exists_of_exec (twoPackets.take 2 ++
      [.timer ⟨101, 0⟩ ⟨⟨101, 0⟩, 0, false, false, [0, 3, 5], 0, true⟩]) _ (by decide +kernel)
  obtain ⟨⟨e, L⟩, h, hsent⟩ := h
  exact ⟨L, of_decide_eq_true hsent, sent_spoilt h⟩

end Emulator

end TcpLike
