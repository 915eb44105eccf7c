import TcpLike.Proofs.Close
import TcpLike.Proofs.EmulatedPath
import TcpLike.Proofs.RetryEnd
import TcpLike.Proofs.Spoilt

/-!
# The transfer over the emulator

A run of the two programs over the emulator, its bit errors included, is matched by one over a
channel that alters nothing (`EmulatedSystem.spared`): a segment with a bit error is as good as
lost. So what holds over such a channel holds over the emulator: the data file is a beginning of the
file (`EmulatedSystem.stored`), success means all of it (`EmulatedSystem.delivered`), and the
receiver leaves its loop behind the sender (`EmulatedSystem.left_behind`). The datagrams have to fit
the buffer of the emulator.
-/

namespace TcpLike

variable {o : Options} {c : Config} {file : Bytes}

theorem Makes.spoilt {d d' d₁ : Bytes} (hm : Makes o d d₁) (h : Spoilt d d')
    (hl : d'.length ≤ BUFSIZE) : Spoilt d₁ d' := by
  rcases hm with rfl | rfl | ⟨-, bits, hbits⟩
  · rwa [List.take_of_length_le (h.length.trans_le hl)]
  · exact h
  · rw [isBitError_eq_some hbits]
    split_ifs
    · exact h
    · exact h.flip

namespace System

/-- The two systems agree but for the bytes in the packet buffer of the receiver and for bit errors
on the way to it. -/
structure Spared (s t : System) : Prop where
  sender : t.sender = s.sender
  receiver : s.receiver.ButPacket t.receiver
  toSender : t.toSender = s.toSender
  toReceiver : Channel.Related Spoilt s.toReceiver t.toReceiver

/-- The action `b'` is `b`, but for a bit error of the datagram or its loss. -/
inductive Passes (b : Action) : Action → Prop
  | same : Passes b b
  | toReceiver {d d' : Bytes} {w : WriteOutcome} (h : b = .toReceiver d w) :
      Passes b (.toReceiver d' w)
  | fault (f : Channel.Fault Bytes) : Passes b (.faultToReceiver f)

theorem OfSender.of_passes {P : System → Action → Prop} (hP : OfSender P) {s t : System}
    {b b' : Action} (hs : t.sender = s.sender) (h : Passes b b') (hb : P s b) : P t b' := by
  cases h with
  | same => exact hP.congr hs hb
  | toReceiver h =>
    subst h
    exact hP.congr hs (hP.data hb)
  | fault f => exact hP.fault

variable {s s' t : System} {b : Action}

theorem spared_init : Spared (System.init c file) (System.init c file) :=
  ⟨rfl, Receiver.butPacket_refl _, rfl, Channel.related_refl spoilt_refl _⟩

theorem Spared.senderInput (h : Spared s t) {i : SenderInput}
    (hs : s.senderInput c i = some s') : ∃ t', t.senderInput c i = some t' ∧ Spared s' t' := by
  simp only [System.senderInput, Option.map_eq_some_iff] at hs
  obtain ⟨⟨snd, out⟩, hstep, rfl⟩ := hs
  refine ⟨{ t with sender := snd, toReceiver := t.toReceiver.send out }, ?_, rfl, h.receiver,
    h.toSender, h.toReceiver.send spoilt_refl out⟩
  rw [System.senderInput, h.sender, hstep]
  rfl

/-- A datagram reaches the receiver, perhaps with a bit error. -/
theorem Spared.toReceiver_step (hW : 24 < c.sender.WINDOW_SIZE)
    (hW' : c.sender.WINDOW_SIZE < 2 ^ 16) (hwin : WindowRefused c) (ht : t.UnalteredInv c file)
    (h : Spared s t) {d : Bytes} {w : WriteOutcome}
    (hs : s.step c (.toReceiver d w) = some s') :
    ∃ b' t', b'.unaltered ∧ t.step c b' = some t' ∧ Spared s' t' ∧
      Passes (.toReceiver d w) b' := by
  simp only [System.step, System.receiverInput, Option.bind_eq_some_iff,
    Option.map_eq_some_iff] at hs
  obtain ⟨ch, hd, ⟨rcv, out⟩, hstep, rfl⟩ := hs
  obtain ⟨hm, rfl⟩ := Channel.deliver_eq_some hd
  obtain ⟨d', hm', hsp, hrest⟩ := h.toReceiver.without hm
  rcases receiver_spoilt hW hW' hwin ht h.receiver hsp hm' hstep with
    ⟨rcv', hstep', hbut⟩ | ⟨rfl, hbut⟩
  · refine ⟨.toReceiver d' w, _, rfl, step_toReceiver hm' hstep', ?_, .toReceiver rfl⟩
    exact ⟨h.sender, hbut, by rw [h.toSender], hrest⟩
  · have hlose : t.toReceiver.fault (.lose d') = some (t.toReceiver.without d') :=
      Channel.deliver_of_mem hm'
    refine ⟨.faultToReceiver (.lose d'), { t with toReceiver := t.toReceiver.without d' }, rfl, ?_,
      ⟨h.sender, hbut, ?_, hrest⟩, .fault _⟩
    · rw [System.step, hlose]
      rfl
    · simp [Channel.send, h.toSender]

theorem Spared.step (hW : 24 < c.sender.WINDOW_SIZE) (hW' : c.sender.WINDOW_SIZE ≤ BUFSIZE)
    (hwin : WindowRefused c) (ht : t.UnalteredInv c file) (h : Spared s t) (hb : b.impairs o)
    (hs : s.step c b = some s') :
    Spared s' t ∨ ∃ b' t', b'.unaltered ∧ t.step c b' = some t' ∧ Spared s' t' ∧ Passes b b' := by
  have hbuf : (BUFSIZE : ℕ) < 2 ^ 16 := by decide
  cases b with
  | senderRun =>
    obtain ⟨t', ht', h'⟩ := h.senderInput hs
    exact .inr ⟨.senderRun, t', rfl, ht', h', .same⟩
  | timeout =>
    obtain ⟨t', ht', h'⟩ := h.senderInput hs
    exact .inr ⟨.timeout, t', rfl, ht', h', .same⟩
  | toSender d =>
    simp only [System.step, Option.bind_eq_some_iff] at hs
    obtain ⟨ch, hd, hs⟩ := hs
    have h₁ : Spared { s with toSender := ch } { t with toSender := ch } :=
      ⟨h.sender, h.receiver, rfl, h.toReceiver⟩
    obtain ⟨t', ht', h'⟩ := h₁.senderInput hs
    refine .inr ⟨.toSender d, t', rfl, ?_, h', .same⟩
    rw [System.step, h.toSender, hd]
    exact ht'
  | toReceiver d w => exact .inr (h.toReceiver_step hW (by omega) hwin ht hs)
  | faultToSender f =>
    simp only [System.step, Option.map_eq_some_iff] at hs
    obtain ⟨ch, hf, rfl⟩ := hs
    refine .inr ⟨.faultToSender f, { t with toSender := ch }, hb, ?_,
      ⟨h.sender, h.receiver, rfl, h.toReceiver⟩, .same⟩
    rw [System.step, h.toSender, hf]
    rfl
  | faultToReceiver f =>
    simp only [System.step, Option.map_eq_some_iff] at hs
    obtain ⟨ch, hf, rfl⟩ := hs
    have hkeep : ∀ m m₁ m', f = .alter m m₁ → m' ∈ t.toReceiver.inFlight → Spoilt m m' →
        Spoilt m₁ m' := by
      rintro m m₁ m' rfl hm' hsp
      have hmakes : Makes o m m₁ := hb
      exact hmakes.spoilt hsp (((ht.close.side.inFlight hm').length_le hW).trans hW')
    rcases h.toReceiver.spared hf hkeep with hrel | ⟨f', ch', hu, hf', hrel⟩
    · exact .inl ⟨h.sender, h.receiver, h.toSender, hrel⟩
    · refine .inr ⟨.faultToReceiver f', { t with toReceiver := ch' }, hu, ?_,
        ⟨h.sender, h.receiver, h.toSender, hrel⟩, .fault f'⟩
      rw [System.step, hf']
      rfl

/-- A run that makes bit errors is matched by one that alters nothing. -/
theorem exists_unaltered {P : System → Action → Prop} (hP : OfSender P)
    (hW : 24 < c.sender.WINDOW_SIZE) (hW' : c.sender.WINDOW_SIZE ≤ BUFSIZE)
    (hwin : WindowRefused c)
    (h : Run c (fun s b => b.impairs o ∧ P s b) (System.init c file) s) :
    ∃ t, Run c (fun t b => b.unaltered ∧ P t b) (System.init c file) t ∧ Spared s t := by
  have hbuf : (BUFSIZE : ℕ) < 2 ^ 16 := by decide
  refine h.simulate (R := Spared) ?_ spared_init
  rintro s t b s' - hrun hspared ⟨himp, hPb⟩ hs
  have ht : t.UnalteredInv c file :=
    unalteredInv_of_run hW (by omega) (hrun.mono fun t b hok => hok.1)
  rcases hspared.step hW hW' hwin ht himp hs with hspared' | ⟨b', t', hu, ht', hspared', hpass⟩
  · exact ⟨t, .refl _, hspared'⟩
  · have hPb' : P t b' := OfSender.of_passes hP hspared.sender hpass hPb
    exact ⟨t', .single ⟨hu, hPb'⟩ ht', hspared'⟩

/-! ## The end of the transfer -/

/-- All that was read is accepted once the sender is past its file loop, but for a broken loop. -/
def Finished (s : System) : Prop :=
  s.sender.pc.past → s.sender.isBroken = false →
    s.sender.fis = [] ∧ s.sender.chunksRead ≤ s.receiver.ackFlag

theorem chunksRead_of_past {s s' : Sender} {i : SenderInput} {out : List Bytes}
    (h : Sender.Step c.sender s i s' out) (hp : s.pc.past) : s'.chunksRead = s.chunksRead := by
  cases h with
  | resend hpc | passOver hpc | answered hpc | eof hpc | read hpc =>
    rw [hpc] at hp
    cases hp
  | ack hw => exact absurd hw (SenderPc.not_waiting_of_past hp)
  | _ => rfl

theorem Finished.step (hW : 24 < c.sender.WINDOW_SIZE) (hW' : c.sender.WINDOW_SIZE < 2 ^ 16)
    (hs : s.UnalteredInv c file) (hF : Finished s) (hA : Ahead s') (h : s.step c b = some s') :
    Finished s' := by
  cases step_cases h with
  | sender _ hsnd =>
    have hstep := hs.close.side.senderStep hW hsnd
    intro hp hb
    rcases hstep.past_cases hp with hleft | ⟨hp₀, hfis⟩
    · exact hA.out hleft hb
    · obtain ⟨hnil, hle⟩ := hF hp₀ ((hstep.past hp₀).2 ▸ hb)
      exact ⟨hfis.trans hnil, (chunksRead_of_past hstep hp₀).trans_le hle⟩
  | receiver hd hrcv =>
    have hmem := (Channel.deliver_eq_some hd).1
    have hmono := (hs.transfer.receiver_keeps hW hW' hmem hs.no_stray hrcv).mono
    intro hp hb
    exact ⟨(hF hp hb).1, (hF hp hb).2.trans hmono⟩
  | faultToSender | faultToReceiver => exact hF

theorem finished_of_run (hW : 24 < c.sender.WINDOW_SIZE) (hW' : c.sender.WINDOW_SIZE < 2 ^ 16)
    (h : Run c (fun s b => b.unaltered ∧ EndsAcked s b) (System.init c file) s) : Finished s := by
  have hahead : Ahead (System.init c file) := by
    constructor <;> simp [System.init, Sender.init]
  have hfin : Finished (System.init c file) := by
    simp [Finished, System.init, Sender.init, SenderPc.past]
  refine (h.invariant_along (I := fun s => Ahead s ∧ Finished s) ?_ ⟨hahead, hfin⟩).2
  rintro s b s' hrun ⟨hA, hF⟩ hok hst
  have hs := unalteredInv_of_run hW hW' (hrun.mono fun s b hok => hok.1)
  have hA' := hA.step hW hW' hs hok.2 hst
  exact ⟨hA', hF.step hW hW' hs hA' hst⟩

/-- A transfer that is at its end is complete. -/
theorem file_eq_of_finished (hs : s.UnalteredInv c file) (hst : s.Stored c file) (hF : Finished s)
    (hp : s.sender.pc.past) (hb : s.sender.isBroken = false) : s.receiver.file = file := by
  obtain ⟨hf, hk⟩ := hF hp hb
  have hall : file.length ≤ s.sender.chunksRead * c.chunkSize := by
    by_contra hlt
    exact hs.close.side.inv.fis_ne_nil.2 (by rwa [not_le] at hlt) hf
  rw [hst, List.take_of_length_le (hall.trans (Nat.mul_le_mul_right _ hk))]

end System

namespace EmulatedSystem

variable {s : EmulatedSystem} {start : Timeval}

/-- A run over the emulator is matched by one over a channel that alters nothing. -/
theorem spared {P : System → Action → Prop} (hP : OfSender P) (hW : 24 < c.sender.WINDOW_SIZE)
    (hW' : c.sender.WINDOW_SIZE ≤ BUFSIZE) (hwin : System.WindowRefused c)
    (h : EmulatedRun o c (Fairly o P) (init c file start) s) :
    ∃ t, Run c (fun t b => b.unaltered ∧ P t b) (System.init c file) t ∧
      t.sender = s.sender ∧ s.receiver.ButPacket t.receiver ∧ t.toSender = s.toSender := by
  obtain ⟨t₁, hrun₁, hseen⟩ := seen_of_run hP h
  obtain ⟨t, hrun, hspared⟩ := System.exists_unaltered hP hW hW' hwin hrun₁
  exact ⟨t, hrun, hspared.sender.trans hseen.sender, hseen.receiver ▸ hspared.receiver,
    hspared.toSender.trans hseen.toSender⟩

/-! ## The data file -/

theorem ofSender_writes : OfSender fun _ b => b.writes :=
  ⟨fun _ hb => hb, fun {_ _ _ w} hb => by cases w <;> exact hb, rfl⟩

theorem stores_of_refused (hwin : System.WindowRefused c) {t : System} {b : Action}
    (hb : b.writes) : Stores c file t b := by
  refine ⟨hb, ?_⟩
  cases b with
  | toReceiver d w =>
    rintro - - rfl hsum
    exact absurd hsum (hwin _ (spoilt_refl _))
  | _ => trivial

/-- In every state the data file is the first chunks of the file, all the chunks counted, and the
sender has read one more at most. -/
theorem stored (hW : 24 < c.sender.WINDOW_SIZE) (hW' : c.sender.WINDOW_SIZE ≤ BUFSIZE)
    (hwin : System.WindowRefused c)
    (h : EmulatedRun o c (Fairly o fun _ b => b.writes) (init c file start) s) :
    s.receiver.file = file.take (s.receiver.ackFlag * c.chunkSize) ∧
      min s.sender.chunksRead (2 ^ 31 - 1) ≤ s.receiver.ackFlag + 1 := by
  have hbuf : (BUFSIZE : ℕ) < 2 ^ 16 := by decide
  obtain ⟨t, hrun, hsnd, hrcv, -⟩ := spared ofSender_writes hW hW' hwin h
  obtain ⟨hinv, hst⟩ := stored_of_run hW (by omega)
    (hrun.mono fun t b hok => ⟨hok.1, stores_of_refused hwin hok.2⟩)
  have hlower := hinv.transfer.lower
  rw [System.Stored, ← hrcv.eq] at hst
  rw [hsnd, ← hrcv.eq] at hlower
  exact ⟨hst, hlower⟩

theorem windowRefused_oneByte : System.WindowRefused .oneByte := by
  rintro d (rfl | rfl) <;> decide +kernel

theorem stored_oneSegment : ∃ s : EmulatedSystem, s.receiver.ackFlag = 1 ∧
    s.receiver.file = [7].take (s.receiver.ackFlag * 1) := by
  have h : ∃ s, EmulatedRun (initOptions 2130706433) .oneByte
      (Fairly (initOptions 2130706433) fun _ b => b.writes) (init .oneByte [7] ⟨99, 0⟩) s ∧
      decide (s.receiver.ackFlag = 1) :=
    Transition.Run.exists_of_exec oneSegment _ (by decide +kernel)
  obtain ⟨s, h, hp⟩ := h
  exact ⟨s, of_decide_eq_true hp,
    (stored (by decide) (by decide) windowRefused_oneByte h).1⟩

/-! ## Success -/

theorem ofSender_ends : OfSender fun s b => b.writes ∧ EndsAcked s b := by
  refine ⟨fun {s t b} hs hb => ⟨hb.1, ?_⟩, fun {_ _ _ w} hb => ⟨?_, trivial⟩, ⟨rfl, trivial⟩⟩
  · cases b with
    | toSender d =>
      have hd := hb.2
      simp only [EndsAcked, hs] at hd ⊢
      exact hd
    | _ => trivial
  · cases w <;> exact hb.1

/-- Past a file loop left with nothing broken, and once the receiver has left its own loop, the data
file is the whole file, as long as the last segment's wait ends on no stale ack and the hundredth
try of a wrong-ack loop brings no valid one. -/
theorem delivered (hW : 24 < c.sender.WINDOW_SIZE) (hW' : c.sender.WINDOW_SIZE ≤ BUFSIZE)
    (hwin : System.WindowRefused c)
    (h : EmulatedRun o c (Fairly o fun s b => b.writes ∧ EndsAcked s b) (init c file start) s)
    (hend : (s.sender.pc.past ∧ s.sender.isBroken = false) ∨ s.receiver.pc.left) :
    s.receiver.file = file := by
  have hbuf : (BUFSIZE : ℕ) < 2 ^ 16 := by decide
  obtain ⟨t, hrun, hsnd, hrcv, -⟩ := spared ofSender_ends hW hW' hwin h
  obtain ⟨hinv, hst⟩ := stored_of_run hW (by omega)
    (hrun.mono fun t b hok => ⟨hok.1, stores_of_refused hwin hok.2.1⟩)
  have hF := System.finished_of_run hW (by omega) (hrun.mono fun t b hok => ⟨hok.1, hok.2.2⟩)
  have hpast : t.sender.pc.past ∧ t.sender.isBroken = false := by
    rcases hend with hp | hl
    · rwa [hsnd]
    · exact (hinv.close.left (by rwa [hrcv.pc])).1
  have hfile := System.file_eq_of_finished hinv hst hF hpast.1 hpast.2
  rwa [← hrcv.eq] at hfile

theorem delivered_oneSegment : ∃ s : EmulatedSystem,
    (s.sender.pc.past ∧ s.sender.isBroken = false) ∧ s.receiver.file = [7] := by
  have h : ∃ s, EmulatedRun (initOptions 2130706433) .oneByte
      (Fairly (initOptions 2130706433) fun s b => b.writes ∧ EndsAcked s b)
      (init .oneByte [7] ⟨99, 0⟩) s ∧ decide (s.sender.pc.past ∧ s.sender.isBroken = false) :=
    Transition.Run.exists_of_exec (oneSegment ++ [.senderRun]) _ (by decide +kernel)
  obtain ⟨s, h, hp⟩ := h
  have hend := of_decide_eq_true hp
  exact ⟨s, hend, delivered (by decide) (by decide) windowRefused_oneByte h (.inl hend)⟩

/-! ## The close -/

/-- The receiver leaves its loop behind the sender, whatever has struck the datagrams. -/
theorem left_behind (hW : 24 < c.sender.WINDOW_SIZE) (hW' : c.sender.WINDOW_SIZE ≤ BUFSIZE)
    (hwin : System.WindowRefused c)
    (h : EmulatedRun o c (fun _ a => a.fair o) (init c file start) s)
    (hl : s.receiver.pc.left) : s.sender.pc.past ∧ s.sender.isBroken = false := by
  obtain ⟨t, hrun, hsnd, hrcv, -⟩ := spared ofSender_true hW hW' hwin
    (h.mono fun s a hfair => ⟨hfair, by simp⟩)
  have hclose := closeInv_of_run hW (hrun.mono fun t b hok => hok.1)
  have := (hclose.left (by rwa [hrcv.pc])).1
  rwa [hsnd] at this

theorem left_behind_empty : ∃ s : EmulatedSystem, s.receiver.pc.left ∧
    s.sender.pc.past ∧ s.sender.isBroken = false := by
  have h : ∃ s, EmulatedRun (initOptions 2130706433) .oneByte
      (fun _ a => a.fair (initOptions 2130706433)) (init .oneByte [] ⟨99, 0⟩) s ∧
      s.receiver.pc.left :=
    Transition.Run.exists_of_exec (passesOn (windowDatagram Config.oneByte.sender) 100 ++
      [.toReceiver (windowDatagram Config.oneByte.sender) .written, .toSender sizeReply, .senderRun,
        .senderRun] ++ passesOn (Sender.finDatagram Config.oneByte.sender) 200 ++
      [.toReceiver (Sender.finDatagram Config.oneByte.sender) .written]) _ (by decide +kernel)
  obtain ⟨s, h, hl⟩ := h
  exact ⟨s, hl, left_behind (by decide) (by decide) windowRefused_oneByte h hl⟩

end EmulatedSystem

end TcpLike
