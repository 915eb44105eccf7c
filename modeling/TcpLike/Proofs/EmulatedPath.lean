import TcpLike.Emulated
import TcpLike.Lib.Related
import TcpLike.Proofs.EmulatorAccounts
import TcpLike.Proofs.SenderInv

/-!
# The emulator as a channel

What is in flight before the emulator, held by it and in flight behind it makes one bag
(`EmulatedPath.view`). To the two programs each step of the emulator is none, or a fault of a
channel that holds this bag: a packet is lost or altered, never made (`EmulatedPath.step_view`). So
a run over the emulator is one over such a channel (`EmulatedSystem.refines`).
-/

namespace TcpLike

variable {o : Options} {c : Config}

/-- What the emulator makes of a packet: the first 16384 bytes of it, or what its bit errors do. -/
def Makes (o : Options) (d d' : Bytes) : Prop :=
  d' = d.take BUFSIZE ∨ d' = d ∨ o.bitError ≠ 0 ∧ ∃ bits, isBitError d bits = some d'

namespace EmulatedPath

/-- What the emulator holds and has sent on. -/
def held (p : EmulatedPath) : List Bytes := p.emulator.queue ++ p.toReceiver.inFlight

/-- The channel the programs see. -/
def view (p : EmulatedPath) : Channel Bytes := ⟨p.toEmulator.sent, p.toEmulator.inFlight ++ p.held⟩

/-- What the path may do to a packet. -/
def Impairs (o : Options) : Channel.Fault Bytes → Prop
  | .alter d d' => Makes o d d'
  | _ => True

theorem impairs_of_unaltered {f : Channel.Fault Bytes} (h : f.unaltered) : Impairs o f := by
  cases f with
  | alter d d' => simp [Channel.Fault.unaltered] at h
  | _ => trivial

/-- The channel is as before, or a fault has struck it. -/
def Impaired (o : Options) (ch ch' : Channel Bytes) : Prop :=
  Channel.Related (· = ·) ch' ch ∨
    ∃ f ch₁, Impairs o f ∧ ch.fault f = some ch₁ ∧ Channel.Related (· = ·) ch' ch₁

variable {p p' : EmulatedPath} {d d' : Bytes} {rest : List Bytes} {ev : Event} {a : PathAction}
  {ch ch' : Channel Bytes}

theorem related_view_send (p : EmulatedPath) (ds : List Bytes) :
    Channel.Related (· = ·) (p.send ds).view (p.view.send ds) := by
  refine Channel.related_eq_iff.2 ⟨rfl, ?_⟩
  show (p.toEmulator.inFlight ++ ds ++ p.held).Perm (p.toEmulator.inFlight ++ p.held ++ ds)
  rw [List.append_assoc, List.append_assoc]
  exact List.perm_append_comm.append_left _

theorem impaired_lose (h : ch.inFlight.Perm (d :: rest)) (hs : ch'.sent = ch.sent)
    (hr : ch'.inFlight.Perm rest) : Impaired o ch ch' := by
  obtain ⟨ch₁, hf, hs₁, hp⟩ := Channel.fault_lose h
  exact .inr ⟨.lose d, ch₁, trivial, hf,
    Channel.related_eq_iff.2 ⟨hs₁.trans hs.symm, hr.trans hp.symm⟩⟩

theorem impaired_alter (hm : Makes o d d') (h : ch.inFlight.Perm (d :: rest))
    (hs : ch'.sent = ch.sent) (hr : ch'.inFlight.Perm (d' :: rest)) : Impaired o ch ch' := by
  obtain ⟨ch₁, hf, hs₁, hp⟩ := Channel.fault_alter h d'
  exact .inr ⟨.alter d d', ch₁, hm, hf,
    Channel.related_eq_iff.2 ⟨hs₁.trans hs.symm, hr.trans hp.symm⟩⟩

theorem impaired_of_part {part part' : Channel Bytes} {f : Channel.Fault Bytes} (hu : f.unaltered)
    (h : ch.inFlight.Perm (part.inFlight ++ rest)) (hf : part.fault f = some part')
    (hs : ch'.sent = ch.sent) (hr : ch'.inFlight.Perm (part'.inFlight ++ rest)) :
    Impaired o ch ch' := by
  obtain ⟨ch₁, hf₁, hs₁, hp⟩ := Channel.fault_of_part h hf
  exact .inr ⟨f, ch₁, impairs_of_unaltered hu, hf₁,
    Channel.related_eq_iff.2 ⟨hs₁.trans hs.symm, hr.trans hp.symm⟩⟩

/-! ## The events of the emulator -/

/-- What an event does to the packets held: nothing, or it takes in the one it brings, or loses one
held or makes it another. -/
inductive Holds (o : Options) (ev : Event) (held held' : List Bytes) : Prop
  | same (h : held'.Perm held)
  | takes (readAddr : Host) (d : Bytes) (now : Timeval) (he : ev = .read (some (readAddr, d)) now)
      (hhost : checkHost readAddr o.srceHost) (h : held'.Perm (d.take BUFSIZE :: held))
  | loses (d : Bytes) (rest : List Bytes) (hev : ∀ received now, ev ≠ .read received now)
      (hd : held.Perm (d :: rest)) (h : held'.Perm rest)
  | makes (d d' : Bytes) (rest : List Bytes) (hev : ∀ received now, ev ≠ .read received now)
      (hm : Makes o d d') (hd : held.Perm (d :: rest)) (h : held'.Perm (d' :: rest))

theorem out_of_quiet {eff : Effect} (h : eff.quiet) : eff.out = [] := by
  cases eff with
  | idle | rejected | congested => rfl
  | _ => simp [Effect.quiet] at h

theorem length_le_of_emit {e e' : Emulator} {eff : Effect} (hl : e.queue.length ≤ MAX_Q_SIZE)
    (h : e.emit o ev = some (e', eff)) : e'.queue.length ≤ MAX_Q_SIZE := by
  rcases Emulator.emit_cases h with ⟨hk, -, -⟩ | ⟨-, d, now, -, -, ha⟩ |
    ⟨now, draws, d, rest, -, hs⟩
  · rwa [hk.queue]
  · rw [ha.queue]
    unfold Fifo.add
    split_ifs with hfull
    · exact hl
    · rw [Option.getD_some, List.length_append]
      exact Nat.lt_of_not_le hfull
  · rw [(hs.perm hl).length_eq]
    rw [hs.head, List.length_cons] at hl
    omega

/-- An event that is the emulator's alone leaves the rest of the path as it is. -/
theorem event_holds (hl : p.emulator.queue.length ≤ MAX_Q_SIZE) (h : p.event o ev = some p') :
    p'.toEmulator = p.toEmulator ∧ p'.emulator.queue.length ≤ MAX_Q_SIZE ∧
      Holds o ev p.held p'.held := by
  simp only [event, Option.map_eq_some_iff] at h
  obtain ⟨⟨e', eff⟩, hemit, rfl⟩ := h
  refine ⟨rfl, length_le_of_emit hl hemit, ?_⟩
  have hheld : held { p with emulator := e', toReceiver := p.toReceiver.send eff.out } =
      e'.queue ++ (p.toReceiver.inFlight ++ eff.out) := rfl
  rw [hheld]
  rcases Emulator.emit_cases hemit with ⟨hk, hq, -⟩ | ⟨readAddr, d, now, rfl, hhost, ha⟩ |
    ⟨now, draws, d, rest, rfl, hs⟩
  · refine .same ?_
    rw [out_of_quiet hq, hk.queue, List.append_nil]
    rfl
  · rw [ha.effect, ha.queue]
    show Holds o _ p.held (_ ++ (p.toReceiver.inFlight ++ []))
    rw [List.append_nil]
    unfold Fifo.add
    split_ifs with hfull
    · exact .same (.refl _)
    · refine .takes readAddr d now rfl hhost ?_
      rw [Option.getD_some, List.append_assoc]
      exact List.perm_middle
  · have hperm := hs.perm hl
    have hd : p.held = d :: (rest ++ p.toReceiver.inFlight) := by
      rw [held, hs.head, List.cons_append]
    have hev : ∀ received now', Event.timer now draws ≠ .read received now' := by simp
    have heff := hs.effect
    have loses : eff.out = [] →
        Holds o (.timer now draws) p.held (e'.queue ++ (p.toReceiver.inFlight ++ eff.out)) := by
      intro hout
      rw [hout, List.append_nil]
      exact .loses d _ hev (.of_eq hd) (hperm.append_right _)
    cases eff with
    | lost d₁ => exact loses rfl
    | unsent d₁ => exact loses rfl
    | sent d₁ d' =>
      obtain ⟨rfl, -, hd'⟩ := heff
      refine .makes d₁ d' _ hev ?_ (.of_eq hd) ?_
      · split_ifs at hd' with hb
        · exact .inr (.inl hd')
        · exact .inr (.inr ⟨hb, _, hd'⟩)
      · show (e'.queue ++ (p.toReceiver.inFlight ++ [d'])).Perm _
        rw [← List.append_assoc]
        exact (List.perm_append_singleton _ _).trans ((hperm.append_right _).cons d')
    | _ => exact heff.elim

/-! ## The steps of the path -/

/-- What a step of the path is to the programs. -/
theorem step_view (hl : p.emulator.queue.length ≤ MAX_Q_SIZE) (ha : a.fair o)
    (h : p.step o a = some p') :
    p'.emulator.queue.length ≤ MAX_Q_SIZE ∧ Impaired o p.view p'.view := by
  cases a with
  | toEmulator readAddr d now =>
    simp only [step, Option.bind_eq_some_iff] at h
    obtain ⟨ch, hch, h⟩ := h
    obtain ⟨hm, rfl⟩ := Channel.deliver_eq_some hch
    obtain ⟨hwire, hl', hheld⟩ :=
      event_holds (p := { p with toEmulator := p.toEmulator.without d }) hl h
    have hview : p.view.inFlight.Perm (d :: ((p.toEmulator.without d).inFlight ++ p.held)) :=
      (Channel.perm_cons_without hm).append_right p.held
    have hview' : p'.view = ⟨p.toEmulator.sent, (p.toEmulator.without d).inFlight ++ p'.held⟩ := by
      rw [view, hwire]
      rfl
    refine ⟨hl', ?_⟩
    rw [hview']
    cases hheld with
    | same h => exact impaired_lose hview rfl (h.append_left _)
    | takes readAddr' d' now' he hhost hperm =>
      obtain ⟨rfl, rfl⟩ : readAddr' = readAddr ∧ d' = d := by
        simp only [Event.read.injEq, Option.some.injEq, Prod.mk.injEq] at he
        exact ⟨he.1.1.symm, he.1.2.symm⟩
      exact impaired_alter (.inl rfl) hview rfl
        ((hperm.append_left _).trans List.perm_middle)
    | loses d' rest hev => exact absurd rfl (hev _ _)
    | makes d' d'' rest hev => exact absurd rfl (hev _ _)
  | emulator ev =>
    obtain ⟨hwire, hl', hheld⟩ := event_holds hl h
    have hsent : p'.view.sent = p.view.sent := by
      rw [view, hwire]
      rfl
    have hview : p'.view.inFlight = p.toEmulator.inFlight ++ p'.held := by rw [view, hwire]
    refine ⟨hl', ?_⟩
    cases hheld with
    | same h =>
      refine .inl (Channel.related_eq_iff.2 ⟨hsent.symm, ?_⟩)
      rw [hview]
      exact h.append_left _
    | takes readAddr d now he hhost =>
      subst he
      simp [PathAction.fair, Event.elsewhere, hhost] at ha
    | loses d rest hev hd h =>
      refine impaired_lose (d := d) ((hd.append_left _).trans List.perm_middle) hsent ?_
      rw [hview]
      exact h.append_left _
    | makes d d' rest hev hm hd h =>
      refine impaired_alter hm ((hd.append_left _).trans List.perm_middle) hsent ?_
      rw [hview]
      exact (h.append_left _).trans List.perm_middle
  | faultToEmulator f =>
    simp only [step, Option.map_eq_some_iff] at h
    obtain ⟨ch, hf, rfl⟩ := h
    exact ⟨hl, impaired_of_part ha (.refl _) hf (Channel.fault_eq_some hf).2 (.refl _)⟩
  | faultToReceiver f =>
    simp only [step, Option.map_eq_some_iff] at h
    obtain ⟨ch, hf, rfl⟩ := h
    have hpart : ∀ ds : List Bytes, (p.toEmulator.inFlight ++ (p.emulator.queue ++ ds)).Perm
        (ds ++ (p.toEmulator.inFlight ++ p.emulator.queue)) := by
      intro ds
      rw [← List.append_assoc]
      exact List.perm_append_comm
    exact ⟨hl, impaired_of_part ha (hpart p.toReceiver.inFlight) hf rfl (hpart ch.inFlight)⟩

/-- A datagram that reaches the receiver leaves the bag. -/
theorem deliver_view (h : p.deliver d = some p') : d ∈ p.view.inFlight ∧
    p'.emulator = p.emulator ∧ Channel.Related (· = ·) p'.view (p.view.without d) := by
  simp only [deliver, Option.map_eq_some_iff] at h
  obtain ⟨ch, hch, rfl⟩ := h
  obtain ⟨hm, rfl⟩ := Channel.deliver_eq_some hch
  have hmem : d ∈ p.view.inFlight := by simp [view, held, hm]
  refine ⟨hmem, rfl, Channel.related_eq_iff.2 ⟨rfl, ?_⟩⟩
  have hperm : p.view.inFlight.Perm (d :: (p.toEmulator.inFlight ++
      (p.emulator.queue ++ (p.toReceiver.without d).inFlight))) := by
    refine (((Channel.perm_cons_without hm).append_left _).append_left _).trans ?_
    rw [← List.append_assoc, ← List.append_assoc]
    exact List.perm_middle
  exact ((Channel.perm_cons_without hmem).symm.trans hperm).cons_inv.symm

end EmulatedPath

/-! ## The system -/

/-- The network may do to a packet what the emulator does, besides losing and repeating it. -/
def Action.impairs (o : Options) : Action → Prop
  | .faultToReceiver f => EmulatedPath.Impairs o f
  | b => b.unaltered

/-- A condition on what the sender does and receives, and on the writes. -/
structure OfSender (P : System → Action → Prop) : Prop where
  congr : ∀ {s t : System} {b : Action}, t.sender = s.sender → P s b → P t b
  data : ∀ {s : System} {d d' : Bytes} {w : WriteOutcome}, P s (.toReceiver d w) →
    P s (.toReceiver d' w)
  fault : ∀ {s : System} {f : Channel.Fault Bytes}, P s (.faultToReceiver f)

namespace EmulatedSystem

/-- The system the programs see. -/
def seen (s : EmulatedSystem) : System := ⟨s.sender, s.receiver, s.path.view, s.toSender⟩

/-- The steps of a fair run that meet a condition on the two programs. -/
def Fairly (o : Options) (P : System → Action → Prop) (s : EmulatedSystem) (a : EmulatedAction) :
    Prop :=
  a.fair o ∧ ∀ b ∈ a.base, P s.seen b

instance (P : System → Action → Prop) [∀ s b, Decidable (P s b)] (s : EmulatedSystem)
    (a : EmulatedAction) : Decidable (Fairly o P s a) :=
  inferInstanceAs (Decidable (_ ∧ ∀ b ∈ a.base, _))

/-- The programs stand where they stand over the emulator, and the channel holds what the path
does. -/
structure Seen (s : EmulatedSystem) (t : System) : Prop where
  sender : t.sender = s.sender
  receiver : t.receiver = s.receiver
  toSender : t.toSender = s.toSender
  toReceiver : Channel.Related (· = ·) s.path.view t.toReceiver
  held : s.path.emulator.queue.length ≤ MAX_Q_SIZE

variable {s s' : EmulatedSystem} {t : System} {a : EmulatedAction}

theorem seen_init (file : Bytes) (start : Timeval) :
    Seen (init c file start) (System.init c file) := by
  refine ⟨rfl, rfl, rfl, Channel.related_eq_iff.2 ⟨rfl, ?_⟩, Nat.zero_le _⟩
  exact .of_eq (List.append_nil _)

theorem Seen.senderInput (h : Seen s t) {i : SenderInput} (hs : s.senderInput c i = some s') :
    ∃ t', t.senderInput c i = some t' ∧ Seen s' t' := by
  simp only [EmulatedSystem.senderInput, Option.map_eq_some_iff] at hs
  obtain ⟨⟨snd, out⟩, hstep, rfl⟩ := hs
  refine ⟨{ t with sender := snd, toReceiver := t.toReceiver.send out }, ?_, rfl, h.receiver,
    h.toSender, ?_, h.held⟩
  · rw [System.senderInput, h.sender, hstep]
    rfl
  · obtain ⟨hsent, hperm⟩ := Channel.related_eq_iff.1 (EmulatedPath.related_view_send s.path out)
    exact (h.toReceiver.send (fun _ => rfl) out).perm hsent.symm hperm

theorem Seen.receiverInput (h : Seen s t) {d : Bytes} {w : WriteOutcome}
    (hs : s.receiverInput c d w = some s') :
    ∃ t', t.receiverInput c d w = some t' ∧ Seen s' t' := by
  simp only [EmulatedSystem.receiverInput, Option.map_eq_some_iff] at hs
  obtain ⟨⟨rcv, out⟩, hstep, rfl⟩ := hs
  refine ⟨{ t with receiver := rcv, toSender := t.toSender.send out }, ?_, h.sender, rfl, ?_,
    h.toReceiver, h.held⟩
  · rw [System.receiverInput, h.receiver, hstep]
    rfl
  · rw [h.toSender]

/-- A step over the emulator is a step over the channel, or none. -/
theorem Seen.step (h : Seen s t) (ha : a.fair o) (hs : s.step o c a = some s') :
    Seen s' t ∧ a.base = none ∨ ∃ b t', t.step c b = some t' ∧ Seen s' t' ∧ b.impairs o ∧
      (a.base = some b ∨ a.base = none ∧ ∃ f, b = .faultToReceiver f) := by
  cases a with
  | senderRun =>
    obtain ⟨t', ht, h'⟩ := h.senderInput hs
    exact .inr ⟨.senderRun, t', ht, h', rfl, .inl rfl⟩
  | timeout =>
    obtain ⟨t', ht, h'⟩ := h.senderInput hs
    exact .inr ⟨.timeout, t', ht, h', rfl, .inl rfl⟩
  | toSender d =>
    simp only [EmulatedSystem.step, Option.bind_eq_some_iff] at hs
    obtain ⟨ch, hd, hs⟩ := hs
    have h₁ : Seen { s with toSender := ch } { t with toSender := ch } :=
      ⟨h.sender, h.receiver, rfl, h.toReceiver, h.held⟩
    obtain ⟨t', ht, h'⟩ := h₁.senderInput hs
    refine .inr ⟨.toSender d, t', ?_, h', rfl, .inl rfl⟩
    rw [System.step, h.toSender, hd]
    exact ht
  | toReceiver d w =>
    simp only [EmulatedSystem.step, Option.bind_eq_some_iff] at hs
    obtain ⟨p, hd, hs⟩ := hs
    obtain ⟨hmem, hemu, hview⟩ := EmulatedPath.deliver_view hd
    obtain ⟨d', hmem', rfl, hrest⟩ := h.toReceiver.without hmem
    have h₁ : Seen { s with path := p } { t with toReceiver := t.toReceiver.without d } := by
      refine ⟨h.sender, h.receiver, h.toSender, ?_, hemu ▸ h.held⟩
      obtain ⟨hsent, hperm⟩ := Channel.related_eq_iff.1 hview
      exact hrest.perm hsent.symm hperm
    obtain ⟨t', ht, h'⟩ := h₁.receiverInput hs
    refine .inr ⟨.toReceiver d w, t', ?_, h', rfl, .inl rfl⟩
    rw [System.step, Channel.deliver_of_mem hmem']
    exact ht
  | faultToSender f =>
    simp only [EmulatedSystem.step, Option.map_eq_some_iff] at hs
    obtain ⟨ch, hf, rfl⟩ := hs
    refine .inr ⟨.faultToSender f, { t with toSender := ch }, ?_,
      ⟨h.sender, h.receiver, rfl, h.toReceiver, h.held⟩, ha, .inl rfl⟩
    rw [System.step, h.toSender, hf]
    rfl
  | path a =>
    simp only [EmulatedSystem.step, Option.map_eq_some_iff] at hs
    obtain ⟨p, hp, rfl⟩ := hs
    obtain ⟨hl, hview⟩ := EmulatedPath.step_view h.held ha hp
    obtain ⟨hsent, hperm⟩ := Channel.related_eq_iff.1 h.toReceiver
    rcases hview with hsame | ⟨f, ch, hf, hch, hsame⟩
    · obtain ⟨hsent', hperm'⟩ := Channel.related_eq_iff.1 hsame
      exact .inl ⟨⟨h.sender, h.receiver, h.toSender, h.toReceiver.perm hsent'.symm hperm', hl⟩, rfl⟩
    · obtain ⟨ch', hch', hrel⟩ := h.toReceiver.fault hch
      obtain ⟨hsent', hperm'⟩ := Channel.related_eq_iff.1 hsame
      refine .inr ⟨.faultToReceiver f, { t with toReceiver := ch' }, ?_,
        ⟨h.sender, h.receiver, h.toSender, hrel.perm hsent'.symm hperm', hl⟩, hf,
        .inr ⟨rfl, f, rfl⟩⟩
      rw [System.step, hch']
      rfl

theorem seen_of_run {P : System → Action → Prop} (hP : OfSender P) {file : Bytes} {start : Timeval}
    (h : EmulatedRun o c (Fairly o P) (init c file start) s) :
    ∃ t, Run c (fun t b => b.impairs o ∧ P t b) (System.init c file) t ∧ Seen s t := by
  refine h.simulate (R := Seen) ?_ (seen_init file start)
  rintro s t a s' - - hseen ⟨hfair, hbase⟩ hs
  rcases hseen.step hfair hs with ⟨hseen', -⟩ | ⟨b, t', ht, hseen', himp, hb | ⟨-, f, rfl⟩⟩
  · exact ⟨t, .refl _, hseen'⟩
  · have hP' : P t b := hP.congr hseen.sender (hbase b hb)
    exact ⟨t', .single ⟨himp, hP'⟩ ht, hseen'⟩
  · exact ⟨t', .single ⟨himp, hP.fault⟩ ht, hseen'⟩

theorem ofSender_true : OfSender fun _ _ => True :=
  ⟨fun _ _ => trivial, fun _ => trivial, trivial⟩

/-- Every fair run of the programs over the emulator is one over a channel that loses, repeats,
delays and reorders, cuts a packet at 16384 bytes and makes the bit errors of the emulator. -/
theorem refines {file : Bytes} {start : Timeval}
    (h : EmulatedRun o c (fun _ a => a.fair o) (init c file start) s) :
    ∃ t, Run c (fun _ b => b.impairs o) (System.init c file) t ∧ Seen s t := by
  obtain ⟨t, ht, hseen⟩ := seen_of_run ofSender_true (h.mono fun s a hfair => ⟨hfair, by simp⟩)
  exact ⟨t, ht.mono fun t b hok => hok.1, hseen⟩

/-- A packet through the emulator, for which its timer goes off a second later. -/
def passesOn (d : Bytes) (sec : ℤ) : List EmulatedAction :=
  [.path (.toEmulator ⟨2130706433, 41191⟩ d ⟨sec, 0⟩),
    .path (.emulator (.timer ⟨sec + 1, 0⟩ ⟨⟨sec + 1, 0⟩, 0, false, false, [], 0, true⟩))]

/-- The file `[7]`, up to its segment's ack received. -/
def oneSegment : List EmulatedAction :=
  passesOn (windowDatagram Config.oneByte.sender) 100 ++
    [.toReceiver (windowDatagram Config.oneByte.sender) .written, .toSender sizeReply,
      .senderRun] ++
    passesOn (dataSegment Config.oneByte.sender [7] 0) 200 ++
    [.toReceiver (dataSegment Config.oneByte.sender [7] 0) .written,
      .toSender (tcpHeader 12001 12010 1 1 5 16 25 0 0 24), .senderRun]

theorem refines_oneSegment :
    ∃ (s : EmulatedSystem) (t : System), s.receiver.file = [7] ∧
      Run .oneByte (fun _ b => b.impairs (initOptions 2130706433)) (System.init .oneByte [7]) t ∧
      Seen s t := by
  have h : ∃ s, EmulatedRun (initOptions 2130706433) .oneByte
      (fun _ a => a.fair (initOptions 2130706433)) (init .oneByte [7] ⟨99, 0⟩) s ∧
      decide (s.receiver.file = [7]) :=
    Transition.Run.exists_of_exec oneSegment _ (by decide +kernel)
  obtain ⟨s, h, hp⟩ := h
  obtain ⟨t, ht, hseen⟩ := refines h
  exact ⟨s, t, of_decide_eq_true hp, ht, hseen⟩

end EmulatedSystem

end TcpLike
