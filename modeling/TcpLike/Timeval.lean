import Mathlib.Data.Prod.Lex
import Mathlib.Order.Lattice
import Mathlib.Tactic.Ring
import Mathlib.Tactic.SplitIfs

/-!
# `struct timeval`

The time arithmetic of the link emulator: `addTimeval`, `subTimeval` and `maxTimeval`, and
`timerless` of its timer package and the `timeradd` that package has for systems without the macro
of that name. The fields are `long`s, far from their bounds at any time a clock shows, and are not
wrapped. Times are ordered by seconds, then microseconds.
-/

namespace TcpLike

structure Timeval where
  tv_sec : ℤ
  tv_usec : ℤ
  deriving DecidableEq, Repr

namespace Timeval

instance : Zero Timeval := ⟨⟨0, 0⟩⟩

/-- What a clock shows: a number of microseconds below a second. -/
def Normal (t : Timeval) : Prop := 0 ≤ t.tv_usec ∧ t.tv_usec < 1000000

instance (t : Timeval) : Decidable t.Normal := inferInstanceAs (Decidable (_ ∧ _))

/-- The time in microseconds. -/
def micros (t : Timeval) : ℤ := t.tv_sec * 1000000 + t.tv_usec

/-- Seconds first. -/
def lex (t : Timeval) : ℤ ×ₗ ℤ := toLex (t.tv_sec, t.tv_usec)

theorem lex_injective : Function.Injective lex := by
  rintro ⟨s, u⟩ ⟨s', u'⟩ h
  simpa [lex] using h

instance : LinearOrder Timeval := LinearOrder.lift' lex lex_injective

end Timeval

variable (a b : Timeval)

def addTimeval : Timeval :=
  if 1000000 ≤ a.tv_usec + b.tv_usec then
    ⟨a.tv_sec + b.tv_sec + 1, a.tv_usec + b.tv_usec - 1000000⟩
  else ⟨a.tv_sec + b.tv_sec, a.tv_usec + b.tv_usec⟩

def subTimeval : Timeval :=
  if a.tv_usec < b.tv_usec then
    ⟨a.tv_sec - b.tv_sec - 1, a.tv_usec + 1000000 - b.tv_usec⟩
  else ⟨a.tv_sec - b.tv_sec, a.tv_usec - b.tv_usec⟩

def maxTimeval : Timeval :=
  if b.tv_sec < a.tv_sec then a
  else if a.tv_sec < b.tv_sec then b
  else if b.tv_usec < a.tv_usec then a
  else b

def timerless : Bool :=
  a.tv_sec < b.tv_sec ∨ (a.tv_sec = b.tv_sec ∧ a.tv_usec < b.tv_usec)

/-- Unlike `addTimeval` it leaves 1000000 microseconds be. -/
def timeradd : Timeval :=
  if 1000000 < a.tv_usec + b.tv_usec then
    ⟨a.tv_sec + b.tv_sec + 1, a.tv_usec + b.tv_usec - 1000000⟩
  else ⟨a.tv_sec + b.tv_sec, a.tv_usec + b.tv_usec⟩

variable {a b} {c d : Timeval}

/-! ## The order -/

namespace Timeval

theorem lt_iff : a < b ↔ a.tv_sec < b.tv_sec ∨ (a.tv_sec = b.tv_sec ∧ a.tv_usec < b.tv_usec) :=
  Prod.Lex.toLex_lt_toLex

theorem le_iff : a ≤ b ↔ a.tv_sec < b.tv_sec ∨ (a.tv_sec = b.tv_sec ∧ a.tv_usec ≤ b.tv_usec) :=
  Prod.Lex.toLex_le_toLex

/-- On what a clock shows, the order is that of the microseconds. -/
theorem Normal.le_iff_micros (ha : a.Normal) (hb : b.Normal) : a ≤ b ↔ a.micros ≤ b.micros := by
  obtain ⟨ha0, ha1⟩ := ha
  obtain ⟨hb0, hb1⟩ := hb
  rw [le_iff]
  simp only [micros]
  omega

end Timeval

theorem timerless_iff : timerless a b = true ↔ a < b := by simp [timerless, Timeval.lt_iff]

theorem maxTimeval_eq : maxTimeval a b = max a b := by
  unfold maxTimeval
  split_ifs with h1 h2 h3
  · exact (max_eq_left (Timeval.le_iff.2 (.inl h1))).symm
  · exact (max_eq_right (Timeval.le_iff.2 (.inl h2))).symm
  · exact (max_eq_left (Timeval.le_iff.2 (.inr ⟨by omega, h3.le⟩))).symm
  · exact (max_eq_right (Timeval.le_iff.2 (.inr ⟨by omega, by omega⟩))).symm

/-! ## Sums and differences -/

theorem Timeval.Normal.addTimeval (ha : a.Normal) (hb : b.Normal) : (addTimeval a b).Normal := by
  obtain ⟨ha0, ha1⟩ := ha
  obtain ⟨hb0, hb1⟩ := hb
  unfold TcpLike.addTimeval Normal
  split_ifs
  · constructor <;> dsimp only <;> omega
  · constructor <;> dsimp only <;> omega

theorem micros_addTimeval : (addTimeval a b).micros = a.micros + b.micros := by
  unfold addTimeval Timeval.micros
  split_ifs
  · dsimp only
    ring
  · dsimp only
    ring

theorem micros_subTimeval : (subTimeval a b).micros = a.micros - b.micros := by
  unfold subTimeval Timeval.micros
  split_ifs
  · dsimp only
    ring
  · dsimp only
    ring

theorem tv_usec_subTimeval_lt (ha : a.tv_usec < 1000000) (hb : 0 ≤ b.tv_usec) :
    (subTimeval a b).tv_usec < 1000000 := by
  unfold subTimeval
  split_ifs
  · dsimp only
    omega
  · dsimp only
    omega

theorem Timeval.Normal.maxTimeval (ha : a.Normal) (hb : b.Normal) : (maxTimeval a b).Normal := by
  rw [maxTimeval_eq]
  rcases max_choice a b with h | h
  · rwa [h]
  · rwa [h]

theorem addTimeval_mono (ha : a.Normal) (hb : b.Normal) (hc : c.Normal) (hd : d.Normal)
    (hac : a ≤ c) (hbd : b ≤ d) : addTimeval a b ≤ addTimeval c d := by
  rw [(ha.addTimeval hb).le_iff_micros (hc.addTimeval hd), micros_addTimeval, micros_addTimeval]
  exact add_le_add ((ha.le_iff_micros hc).1 hac) ((hb.le_iff_micros hd).1 hbd)

theorem Timeval.normal_zero : (0 : Timeval).Normal := by decide

/-- The two sums part where the microseconds come to a second exactly. -/
theorem timeradd_eq (h : a.tv_usec + b.tv_usec ≠ 1000000) : timeradd a b = addTimeval a b := by
  unfold timeradd addTimeval
  split_ifs with h1 h2 h2
  · rfl
  · omega
  · omega
  · rfl

/-- There `timeradd` shows a whole second of microseconds. -/
theorem tv_usec_timeradd_lt_iff (ha : a.Normal) (hb : b.Normal) :
    (timeradd a b).tv_usec < 1000000 ↔ a.tv_usec + b.tv_usec ≠ 1000000 := by
  constructor
  · intro h hab
    unfold timeradd at h
    rw [hab, if_neg (lt_irrefl _)] at h
    exact absurd (hab ▸ h) (lt_irrefl _)
  · intro h
    rw [timeradd_eq h]
    exact (ha.addTimeval hb).2

theorem timeradd_normal_iff (ha : a.Normal) (hb : b.Normal) :
    (timeradd a b).Normal ↔ (timeradd a b).tv_usec < 1000000 := by
  refine ⟨And.right, fun h => ?_⟩
  rw [timeradd_eq ((tv_usec_timeradd_lt_iff ha hb).1 h)]
  exact ha.addTimeval hb

end TcpLike
