import Mathlib.Data.List.Basic

/-!
# A channel that loses, duplicates, delays, reorders and alters

The messages in flight are a bag: any of them may be the next one delivered, so a channel delays
and reorders by itself. Everything ever sent is kept beside them. A channel that alters nothing
delivers only what was sent (`Genuine`).
-/

/-- A one-way channel: everything sent on it, oldest first, and what is in flight. -/
structure Channel (M : Type*) where
  sent : List M
  inFlight : List M
  deriving DecidableEq, Repr

namespace Channel

variable {M : Type*}

/-- What a channel may do to a message in flight. -/
inductive Fault (M : Type*)
  | lose (m : M)
  | duplicate (m : M)
  | alter (m m' : M)
  deriving DecidableEq, Repr

/-- The fault leaves the messages as they are. -/
def Fault.unaltered : Fault M → Bool
  | .alter _ _ => false
  | _ => true

def empty : Channel M := ⟨[], []⟩

def send (ch : Channel M) (ms : List M) : Channel M := ⟨ch.sent ++ ms, ch.inFlight ++ ms⟩

/-- Everything in flight was sent. -/
def Genuine (ch : Channel M) : Prop := ∀ m ∈ ch.inFlight, m ∈ ch.sent

section Send

variable {ch ch' : Channel M}

@[simp] theorem sent_send (ms : List M) : (ch.send ms).sent = ch.sent ++ ms := rfl

@[simp] theorem inFlight_send (ms : List M) : (ch.send ms).inFlight = ch.inFlight ++ ms := rfl

theorem genuine_empty : (empty : Channel M).Genuine := by simp [Genuine, empty]

theorem Genuine.of_subset (h : ch.Genuine) (hf : ch'.inFlight ⊆ ch.inFlight)
    (hs : ch'.sent = ch.sent) : ch'.Genuine :=
  fun m hm => hs ▸ h m (hf hm)

theorem Genuine.send (h : ch.Genuine) (ms : List M) : (ch.send ms).Genuine := by
  intro m hm
  simp only [inFlight_send, sent_send, List.mem_append] at hm ⊢
  exact hm.imp_left (h m)

end Send

variable [DecidableEq M]

/-- The channel with one copy of `m` taken out of flight. -/
def without (ch : Channel M) (m : M) : Channel M := ⟨ch.sent, ch.inFlight.erase m⟩

def deliver (ch : Channel M) (m : M) : Option (Channel M) :=
  if m ∈ ch.inFlight then some (ch.without m) else none

def fault (ch : Channel M) : Fault M → Option (Channel M)
  | .lose m => ch.deliver m
  | .duplicate m =>
    if m ∈ ch.inFlight then some { ch with inFlight := m :: ch.inFlight } else none
  | .alter m m' => (ch.deliver m).map fun ch => { ch with inFlight := m' :: ch.inFlight }

variable {ch ch' : Channel M} {m : M} {f : Fault M}

@[simp] theorem sent_without (ch : Channel M) (m : M) : (ch.without m).sent = ch.sent := rfl

@[simp] theorem inFlight_without (ch : Channel M) (m : M) :
    (ch.without m).inFlight = ch.inFlight.erase m := rfl

theorem deliver_of_mem (h : m ∈ ch.inFlight) : ch.deliver m = some (ch.without m) := if_pos h

theorem deliver_eq_some (h : ch.deliver m = some ch') :
    m ∈ ch.inFlight ∧ ch' = ch.without m := by
  unfold deliver at h
  split_ifs at h with hm
  exact ⟨hm, by simpa using h.symm⟩

theorem sent_deliver (h : ch.deliver m = some ch') : ch'.sent = ch.sent := by
  rw [(deliver_eq_some h).2, sent_without]

theorem inFlight_deliver (h : ch.deliver m = some ch') : ch'.inFlight ⊆ ch.inFlight := by
  rw [(deliver_eq_some h).2]
  exact List.erase_subset

/-- A fault strikes a message in flight, and leaves alone the record of what was sent. -/
theorem fault_eq_some (h : ch.fault f = some ch') :
    ch.inFlight ≠ [] ∧ ch'.sent = ch.sent := by
  cases f with
  | lose m => exact ⟨List.ne_nil_of_mem (deliver_eq_some h).1, sent_deliver h⟩
  | duplicate m =>
    simp only [fault] at h
    split_ifs at h with hm
    cases h
    exact ⟨List.ne_nil_of_mem hm, rfl⟩
  | alter m m' =>
    simp only [fault, Option.map_eq_some_iff] at h
    obtain ⟨ch₁, h₁, rfl⟩ := h
    have hs : ch₁.sent = ch.sent := sent_deliver h₁
    exact ⟨List.ne_nil_of_mem (deliver_eq_some h₁).1, hs⟩

/-- What is in flight after a fault that alters nothing was in flight before. -/
theorem inFlight_fault (hf : f.unaltered) (h : ch.fault f = some ch') :
    ch'.inFlight ⊆ ch.inFlight := by
  cases f with
  | lose m => exact inFlight_deliver h
  | duplicate m =>
    simp only [fault] at h
    split_ifs at h with hm
    cases h
    exact List.cons_subset.2 ⟨hm, List.Subset.refl _⟩
  | alter m m' => simp [Fault.unaltered] at hf

theorem Genuine.deliver (h : ch.Genuine) (hd : ch.deliver m = some ch') : ch'.Genuine :=
  h.of_subset (inFlight_deliver hd) (sent_deliver hd)

theorem Genuine.fault (h : ch.Genuine) (hf : f.unaltered) (hd : ch.fault f = some ch') :
    ch'.Genuine :=
  h.of_subset (inFlight_fault hf hd) (fault_eq_some hd).2

end Channel
