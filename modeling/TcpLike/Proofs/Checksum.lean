import TcpLike.Proofs.Fields

/-!
# The checksum of a segment

`generateChecksum` blanks the checksum field, so the checksum of a datagram does not depend on the
one in its header, and a header rebuilt with it passes the receiver's test.
-/

namespace TcpLike

theorem length_padEven (d : Bytes) : d.length ≤ (padEven d).length := by
  unfold padEven
  split_ifs <;> simp

theorem even_length_padEven (d : Bytes) : (padEven d).length % 2 = 0 := by
  unfold padEven
  split_ifs with h
  · simp only [List.length_append, List.length_cons, List.length_nil]
    omega
  · omega

theorem generateChecksum_ok {d : Bytes} (h : 17 ≤ d.length) :
    ∃ k, generateChecksum d = .ok k := by
  have hl := length_padEven d
  have he := even_length_padEven d
  unfold generateChecksum
  simp only []
  rw [if_neg (by omega)]
  exact ⟨_, rfl⟩

theorem generateChecksum_short {d : Bytes} (h : d.length < 17) :
    generateChecksum d = .error .arrayIndexOutOfBounds := by
  have hpad : (padEven d).length < 18 := by
    have := even_length_padEven d
    unfold padEven at this ⊢
    split_ifs at this ⊢
    · rw [List.length_append, List.length_singleton] at this ⊢
      omega
    · omega
  unfold generateChecksum
  simp only []
  rw [if_pos hpad]

theorem generateChecksum_range {d : Bytes} {k : ℤ} (h : generateChecksum d = .ok k) :
    0 ≤ k ∧ k < 65536 := by
  unfold generateChecksum at h
  simp only [] at h
  split_ifs at h
  cases h
  omega

theorem padEven_append {h x : Bytes} (hh : h.length % 2 = 0) :
    padEven (h ++ x) = h ++ padEven x := by
  have hl : (h ++ x).length % 2 = x.length % 2 := by
    rw [List.length_append]
    omega
  unfold padEven
  rw [hl]
  split_ifs <;> simp

/-- The checksum in the header does not matter to the checksum taken. -/
theorem generateChecksum_header (sp dp seq ack off fl win ck ck' urg size : ℤ) (x : Bytes) :
    generateChecksum (tcpHeader sp dp seq ack off fl win ck urg size ++ x)
      = generateChecksum (tcpHeader sp dp seq ack off fl win ck' urg size ++ x) := by
  unfold generateChecksum
  rw [padEven_append (by simp), padEven_append (by simp)]
  rfl

end TcpLike
