import TcpLike.System
import TcpLike.Proofs.SenderInv

/-!
# The steps of the system

A step of the system is a step of one program or a fault (`System.Step`). As long as nothing on its
way to the receiver is altered, what is in flight there is what the sender has sent
(`System.SenderSide`).
-/

namespace TcpLike

variable (c : Config)

namespace System

/-- The input an action is to the sender, and what it leaves of the channel. -/
inductive Takes (s : System) : Action → SenderInput → Channel Bytes → Prop
  | run : Takes s .senderRun .run s.toSender
  | timeout : Takes s .timeout (.receive .timeout) s.toSender
  | datagram {d : Bytes} {ch : Channel Bytes} (h : s.toSender.deliver d = some ch) :
      Takes s (.toSender d) (.receive (.datagram d)) ch

/-- What a step of the system does. -/
inductive Step (s : System) : Action → System → Prop
  | sender {a : Action} {i : SenderInput} {ch : Channel Bytes} {snd : Sender} {out : List Bytes}
      (ht : s.Takes a i ch) (h : senderStep c.sender s.sender i = some (snd, out)) :
      Step s a ⟨snd, s.receiver, s.toReceiver.send out, ch⟩
  | receiver {d : Bytes} {w : WriteOutcome} {ch : Channel Bytes} {rcv : Receiver}
      {out : List Bytes} (hd : s.toReceiver.deliver d = some ch)
      (h : receiverStep c.receiver s.receiver d w = some (rcv, out)) :
      Step s (.toReceiver d w) ⟨s.sender, rcv, ch, s.toSender.send out⟩
  | faultToSender {f : Channel.Fault Bytes} {ch : Channel Bytes}
      (hf : s.toSender.fault f = some ch) :
      Step s (.faultToSender f) ⟨s.sender, s.receiver, s.toReceiver, ch⟩
  | faultToReceiver {f : Channel.Fault Bytes} {ch : Channel Bytes}
      (hf : s.toReceiver.fault f = some ch) :
      Step s (.faultToReceiver f) ⟨s.sender, s.receiver, ch, s.toSender⟩

variable {c} {s s' : System} {a : Action}

section Takes

variable {i : SenderInput} {ch : Channel Bytes}

theorem Takes.sent (h : s.Takes a i ch) : ch.sent = s.toSender.sent := by
  cases h with
  | run | timeout => rfl
  | datagram h => exact Channel.sent_deliver h

theorem Takes.inFlight (h : s.Takes a i ch) : ch.inFlight ⊆ s.toSender.inFlight := by
  cases h with
  | run | timeout => exact List.Subset.refl _
  | datagram h => exact Channel.inFlight_deliver h

/-- A datagram the sender receives was in flight. -/
theorem Takes.mem {d : Bytes} (h : s.Takes a (.receive (.datagram d)) ch) :
    a = .toSender d ∧ d ∈ s.toSender.inFlight := by
  cases h with
  | datagram h => exact ⟨rfl, (Channel.deliver_eq_some h).1⟩

theorem Takes.of_empty (h : s.Takes a i ch) (he : s.toSender = .empty) :
    ch = .empty ∧ ∀ d, i ≠ .receive (.datagram d) := by
  cases h with
  | run | timeout => exact ⟨he, by simp⟩
  | datagram h =>
    have := (Channel.deliver_eq_some h).1
    simp [he, Channel.empty] at this

end Takes

theorem step_cases (h : s.step c a = some s') : s.Step c a s' := by
  cases a with
  | senderRun =>
    simp only [System.step, senderInput, Option.map_eq_some_iff] at h
    obtain ⟨⟨snd, out⟩, h, rfl⟩ := h
    exact .sender .run h
  | timeout =>
    simp only [System.step, senderInput, Option.map_eq_some_iff] at h
    obtain ⟨⟨snd, out⟩, h, rfl⟩ := h
    exact .sender .timeout h
  | toSender d =>
    simp only [System.step, senderInput, Option.bind_eq_some_iff, Option.map_eq_some_iff] at h
    obtain ⟨ch, hd, ⟨snd, out⟩, h, rfl⟩ := h
    exact .sender (.datagram hd) h
  | toReceiver d w =>
    simp only [System.step, receiverInput, Option.bind_eq_some_iff, Option.map_eq_some_iff] at h
    obtain ⟨ch, hd, ⟨rcv, out⟩, h, rfl⟩ := h
    exact .receiver hd h
  | faultToSender f =>
    simp only [System.step, Option.map_eq_some_iff] at h
    obtain ⟨ch, hf, rfl⟩ := h
    exact .faultToSender hf
  | faultToReceiver f =>
    simp only [System.step, Option.map_eq_some_iff] at h
    obtain ⟨ch, hf, rfl⟩ := h
    exact .faultToReceiver hf

section Taken

variable {snd : Sender} {rcv : Receiver} {out : List Bytes} {d : Bytes}

theorem step_senderRun (h : senderStep c.sender s.sender .run = some (snd, out)) :
    s.step c .senderRun = some ⟨snd, s.receiver, s.toReceiver.send out, s.toSender⟩ := by
  simp only [System.step, senderInput, h, Option.map_some]

theorem step_timeout (h : senderStep c.sender s.sender (.receive .timeout) = some (snd, out)) :
    s.step c .timeout = some ⟨snd, s.receiver, s.toReceiver.send out, s.toSender⟩ := by
  simp only [System.step, senderInput, h, Option.map_some]

theorem step_toSender (hd : d ∈ s.toSender.inFlight)
    (h : senderStep c.sender s.sender (.receive (.datagram d)) = some (snd, out)) :
    s.step c (.toSender d)
      = some ⟨snd, s.receiver, s.toReceiver.send out, s.toSender.without d⟩ := by
  simp only [System.step, Channel.deliver_of_mem hd, Option.bind_some, senderInput, h,
    Option.map_some]

theorem step_toReceiver {w : WriteOutcome} (hd : d ∈ s.toReceiver.inFlight)
    (h : receiverStep c.receiver s.receiver d w = some (rcv, out)) :
    s.step c (.toReceiver d w)
      = some ⟨s.sender, rcv, s.toReceiver.without d, s.toSender.send out⟩ := by
  simp only [System.step, Channel.deliver_of_mem hd, Option.bind_some, receiverInput, h,
    Option.map_some]

end Taken

/-! ## The sender and what it has sent -/

/-- The sender reads `file`, and all that is in flight to the receiver comes from it. -/
structure SenderSide (c : Config) (file : Bytes) (s : System) : Prop where
  inv : s.sender.Inv c.sender file
  genuine : s.toReceiver.Genuine
  sent : ∀ d ∈ s.toReceiver.sent, s.sender.Sent c.sender file d

variable {file : Bytes}

theorem SenderSide.inFlight (hs : s.SenderSide c file) {d : Bytes}
    (hd : d ∈ s.toReceiver.inFlight) : s.sender.Sent c.sender file d :=
  hs.sent d (hs.genuine d hd)

theorem SenderSide.senderStep (hW : 24 < c.sender.WINDOW_SIZE) (hs : s.SenderSide c file)
    {i : SenderInput} {snd : Sender} {out : List Bytes}
    (h : senderStep c.sender s.sender i = some (snd, out)) :
    Sender.Step c.sender s.sender i snd out :=
  Sender.senderStep_cases hW hs.inv.tries h

theorem SenderSide.step (hW : 24 < c.sender.WINDOW_SIZE) (hs : s.SenderSide c file)
    (hf : ∀ f, a = .faultToReceiver f → f.unaltered) (h : s.step c a = some s') :
    s'.SenderSide c file := by
  cases step_cases h with
  | sender ht hsnd =>
    have h := hs.senderStep hW hsnd
    refine ⟨hs.inv.step h, hs.genuine.send _, fun d hd => ?_⟩
    rcases List.mem_append.1 hd with hd | hd
    · exact (hs.sent d hd).mono hs.inv h
    · exact Sender.sent_of_mem_out hs.inv h hd
  | receiver hd _ =>
    exact ⟨hs.inv, hs.genuine.deliver hd, (Channel.sent_deliver hd).symm ▸ hs.sent⟩
  | faultToSender => exact ⟨hs.inv, hs.genuine, hs.sent⟩
  | faultToReceiver hch =>
    exact ⟨hs.inv, hs.genuine.fault (hf _ rfl) hch, (Channel.fault_eq_some hch).2.symm ▸ hs.sent⟩

theorem senderSide_init (file : Bytes) : (System.init c file).SenderSide c file where
  inv := Sender.inv_init
  genuine := Channel.genuine_empty.send _
  sent d hd := by
    rw [List.mem_singleton.1 hd]
    exact .window

end System

end TcpLike
