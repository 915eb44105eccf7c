import Mathlib.Data.Multiset.AddSub
import TcpLike.Lib.Channel

/-!
# Channels whose messages are related one to one

Two channels on which the same was sent and whose bags are related message by message, in any order
(`Channel.Related`). What one delivers or loses the other can deliver or lose a relative of.
-/

namespace Channel

variable {M : Type*}

/-- The same was sent on the two, and each message in flight on one stands for one on the other. -/
structure Related (R : M → M → Prop) (ch ch' : Channel M) : Prop where
  sent : ch'.sent = ch.sent
  inFlight : Multiset.Rel R ch.inFlight ch'.inFlight

variable {R : M → M → Prop} {ch ch' ch₁ : Channel M} {m : M}

theorem related_refl (hR : ∀ m, R m m) (ch : Channel M) : Related R ch ch :=
  ⟨rfl, Multiset.rel_refl_of_refl_on fun m _ => hR m⟩

theorem related_eq_iff : Related (· = ·) ch ch' ↔
    ch'.sent = ch.sent ∧ ch.inFlight.Perm ch'.inFlight := by
  constructor
  · rintro ⟨hs, hf⟩
    exact ⟨hs, Multiset.coe_eq_coe.1 (Multiset.rel_eq.1 hf)⟩
  · rintro ⟨hs, hf⟩
    exact ⟨hs, Multiset.rel_eq.2 (Multiset.coe_eq_coe.2 hf)⟩

theorem Related.send (h : Related R ch ch') (hR : ∀ m, R m m) (ms : List M) :
    Related R (ch.send ms) (ch'.send ms) := by
  refine ⟨?_, ?_⟩
  · rw [sent_send, sent_send, h.sent]
  · rw [inFlight_send, inFlight_send, ← Multiset.coe_add, ← Multiset.coe_add]
    exact h.inFlight.add (Multiset.rel_refl_of_refl_on fun m _ => hR m)

/-- The bags may be listed in other orders. -/
theorem Related.perm (h : Related R ch ch') (hs : ch₁.sent = ch.sent)
    (hp : ch₁.inFlight.Perm ch.inFlight) : Related R ch₁ ch' := by
  refine ⟨h.sent.trans hs.symm, ?_⟩
  rw [Multiset.coe_eq_coe.2 hp]
  exact h.inFlight

section Deliver

variable [DecidableEq M]

theorem perm_cons_without (h : m ∈ ch.inFlight) : ch.inFlight.Perm (m :: (ch.without m).inFlight) :=
  List.perm_cons_erase h

/-- A message taken out of one bag leaves the rest related to the other bag without a relative of
it. -/
theorem Related.without (h : Related R ch ch') (hm : m ∈ ch.inFlight) :
    ∃ m' ∈ ch'.inFlight, R m m' ∧ Related R (ch.without m) (ch'.without m') := by
  have hrel := h.inFlight
  rw [Multiset.coe_eq_coe.2 (perm_cons_without hm), ← Multiset.cons_coe,
    Multiset.rel_cons_left] at hrel
  obtain ⟨m', bag, hR, hrest, hbag⟩ := hrel
  have hm' : m' ∈ ch'.inFlight := by
    rw [← Multiset.mem_coe, hbag]
    exact Multiset.mem_cons_self m' bag
  refine ⟨m', hm', hR, h.sent, ?_⟩
  rw [Multiset.coe_eq_coe.2 (perm_cons_without hm'), ← Multiset.cons_coe,
    Multiset.cons_inj_right] at hbag
  rw [hbag]
  exact hrest

/-- A message altered to another relative. -/
theorem Related.alter {m' m₁ : M} (h : Related R (ch.without m) (ch'.without m'))
    (hm' : m' ∈ ch'.inFlight) (hR : R m₁ m') :
    Related R ⟨ch.sent, m₁ :: (ch.without m).inFlight⟩ ch' := by
  refine ⟨h.sent, ?_⟩
  rw [Multiset.coe_eq_coe.2 (perm_cons_without hm'), ← Multiset.cons_coe, ← Multiset.cons_coe]
  exact .cons hR h.inFlight

/-- Where no alteration leads out of the relation, a fault of one channel is one of the other that
alters nothing, or none. -/
theorem Related.spared {f : Fault M} (h : Related R ch ch') (hf : ch.fault f = some ch₁)
    (halter : ∀ m m₁ m', f = .alter m m₁ → m' ∈ ch'.inFlight → R m m' → R m₁ m') :
    Related R ch₁ ch' ∨
      ∃ f' ch₂, f'.unaltered ∧ ch'.fault f' = some ch₂ ∧ Related R ch₁ ch₂ := by
  cases f with
  | lose m =>
    obtain ⟨hm, rfl⟩ := deliver_eq_some hf
    obtain ⟨m', hm', -, hrest⟩ := h.without hm
    exact .inr ⟨.lose m', ch'.without m', rfl, deliver_of_mem hm', hrest⟩
  | duplicate m =>
    simp only [fault] at hf
    split_ifs at hf with hm
    obtain rfl := Option.some.inj hf
    obtain ⟨m', hm', hR, -⟩ := h.without hm
    refine .inr ⟨.duplicate m', { ch' with inFlight := m' :: ch'.inFlight }, rfl, if_pos hm',
      h.sent, ?_⟩
    rw [← Multiset.cons_coe, ← Multiset.cons_coe]
    exact .cons hR h.inFlight
  | alter m m₁ =>
    simp only [fault, Option.map_eq_some_iff] at hf
    obtain ⟨ch₀, hd, rfl⟩ := hf
    obtain ⟨hm, rfl⟩ := deliver_eq_some hd
    obtain ⟨m', hm', hR, hrest⟩ := h.without hm
    exact .inl (hrest.alter hm' (halter m m₁ m' rfl hm' hR))

/-! ## Faults on a part of the bag -/

variable {rest : List M} {f : Fault M}

theorem fault_lose (h : ch.inFlight.Perm (m :: rest)) :
    ∃ ch', ch.fault (.lose m) = some ch' ∧ ch'.sent = ch.sent ∧ ch'.inFlight.Perm rest := by
  have hm : m ∈ ch.inFlight := h.mem_iff.2 List.mem_cons_self
  refine ⟨ch.without m, deliver_of_mem hm, rfl, ?_⟩
  have := h.erase m
  rwa [List.erase_cons_head] at this

theorem fault_alter (h : ch.inFlight.Perm (m :: rest)) (m' : M) :
    ∃ ch', ch.fault (.alter m m') = some ch' ∧ ch'.sent = ch.sent ∧
      ch'.inFlight.Perm (m' :: rest) := by
  obtain ⟨ch', hch, hs, hp⟩ := fault_lose h
  refine ⟨{ ch' with inFlight := m' :: ch'.inFlight }, ?_, hs, hp.cons m'⟩
  have hd : ch.deliver m = some ch' := hch
  rw [fault, hd]
  rfl

theorem fault_duplicate (h : ch.inFlight.Perm (m :: rest)) :
    ∃ ch', ch.fault (.duplicate m) = some ch' ∧ ch'.sent = ch.sent ∧
      ch'.inFlight.Perm (m :: m :: rest) := by
  have hm : m ∈ ch.inFlight := h.mem_iff.2 List.mem_cons_self
  exact ⟨{ ch with inFlight := m :: ch.inFlight }, if_pos hm, rfl, h.cons m⟩

/-- What strikes a part strikes the whole. -/
theorem fault_of_part (h : ch.inFlight.Perm (ch'.inFlight ++ rest)) (hf : ch'.fault f = some ch₁) :
    ∃ ch₂, ch.fault f = some ch₂ ∧ ch₂.sent = ch.sent ∧
      ch₂.inFlight.Perm (ch₁.inFlight ++ rest) := by
  have split : ∀ {m}, m ∈ ch'.inFlight →
      ch.inFlight.Perm (m :: ((ch'.without m).inFlight ++ rest)) := fun hm =>
    h.trans ((perm_cons_without hm).append_right rest)
  cases f with
  | lose m =>
    obtain ⟨hm, rfl⟩ := deliver_eq_some hf
    exact fault_lose (split hm)
  | duplicate m =>
    simp only [fault] at hf
    split_ifs at hf with hm
    obtain rfl := Option.some.inj hf
    obtain ⟨ch₂, h₂, hs, hp⟩ := fault_duplicate (split hm)
    refine ⟨ch₂, h₂, hs, hp.trans ?_⟩
    exact ((perm_cons_without hm).symm.append_right rest).cons m
  | alter m m' =>
    simp only [fault, Option.map_eq_some_iff] at hf
    obtain ⟨ch₀, hd, rfl⟩ := hf
    obtain ⟨hm, rfl⟩ := deliver_eq_some hd
    exact fault_alter (split hm) m'

/-- Channels that hold the same suffer the same. -/
theorem Related.fault (h : Related (· = ·) ch ch') (hf : ch.fault f = some ch₁) :
    ∃ ch₂, ch'.fault f = some ch₂ ∧ Related (· = ·) ch₁ ch₂ := by
  obtain ⟨hs, hp⟩ := related_eq_iff.1 h
  have hpart : ch'.inFlight.Perm (ch.inFlight ++ []) := by
    rw [List.append_nil]
    exact hp.symm
  obtain ⟨ch₂, h₂, hs₂, hp₂⟩ := fault_of_part hpart hf
  rw [List.append_nil] at hp₂
  refine ⟨ch₂, h₂, related_eq_iff.2 ⟨?_, hp₂.symm⟩⟩
  rw [hs₂, hs, (fault_eq_some hf).2]

end Deliver

end Channel
