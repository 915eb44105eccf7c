import Mathlib.Algebra.Order.Ring.Nat
import Mathlib.Tactic.Ring

/-!
# Big-endian numbers

The number a string of bytes spells, most significant byte first.
-/

namespace BigEndian

/-- The bytes of `bs` read on from `n`. -/
def readFrom (n : ℕ) (bs : List UInt8) : ℕ := bs.foldl (fun n b => n * 256 + b.toNat) n

/-- The number the bytes spell. -/
def value (bs : List UInt8) : ℕ := readFrom 0 bs

@[simp] theorem readFrom_nil (n : ℕ) : readFrom n [] = n := rfl

@[simp] theorem readFrom_cons (n : ℕ) (b : UInt8) (bs : List UInt8) :
    readFrom n (b :: bs) = readFrom (n * 256 + b.toNat) bs := rfl

@[simp] theorem readFrom_concat (n : ℕ) (bs : List UInt8) (b : UInt8) :
    readFrom n (bs ++ [b]) = readFrom n bs * 256 + b.toNat := by
  simp [readFrom]

theorem readFrom_lt :
    ∀ (bs : List UInt8) (n m : ℕ), n < m → readFrom n bs < m * 256 ^ bs.length
  | [], n, m, h => by simpa using h
  | b :: bs, n, m, h => by
    have hb := b.toNat_lt
    have := readFrom_lt bs (n * 256 + b.toNat) (m * 256) (by omega)
    rw [readFrom_cons, List.length_cons, pow_succ']
    calc readFrom (n * 256 + b.toNat) bs < m * 256 * 256 ^ bs.length := this
      _ = m * (256 * 256 ^ bs.length) := by ring

theorem value_lt (bs : List UInt8) : value bs < 256 ^ bs.length := by
  simpa [value] using readFrom_lt bs 0 1 one_pos

end BigEndian
