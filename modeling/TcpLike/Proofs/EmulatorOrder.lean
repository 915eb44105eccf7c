import TcpLike.Lib.Deadlines
import TcpLike.Proofs.DepTime
import TcpLike.Proofs.EmulatorAccounts

/-!
# The order and the times of the emulator

Where it is not told to disorder them, the emulator serves the packets in the order they came in,
whatever the order of their timers (`Emulator.fifo`): a timer takes the oldest packet, not the one
it was set for. Still no packet is served before its own delay is over (`Emulator.delayed`), nor
before the link has had the time for the packets ahead of it (`Emulator.paced`).
-/

namespace TcpLike

namespace Emulator

variable {o : Options} {e e' : Emulator} {L : Ledger} {d : Bytes} {rest : List Bytes}
  {now start : Timeval} {draws : Draws} {eff : Effect} {ev : Event}
  {ok : Emulator × Ledger → Event → Prop}

/-! ## The timers -/

/-- The timers are in order, none is repeated, and the assertions on them hold. -/
structure TimersInv (e : Emulator) : Prop where
  ordered : e.timers.Ordered
  plain : e.timers.Plain
  check : e.timers.timerCheck

theorem Accepts.putTimer (h : Accepts o e d now e' eff) :
    e'.timers = e.timers.putTimer (calcDepTime o d.length now e.stat.prvIntervled).1 .sendHandler
      e'.rUdpC ∧ e'.timers.timerCheck := by
  rcases Multimer.timerSet_eq_some.1 h.timers with ⟨hn, -⟩ | ⟨i, time, hi, ht, htm, hc⟩
  · cases hn
  · obtain rfl := Option.some.inj hi
    obtain rfl := Option.some.inj ht
    exact ⟨htm, hc⟩

theorem Accepts.timers_eq (h : Accepts o e d now e' eff) :
    e'.timers = e.timers.putTimer (calcDepTime o d.length now e.stat.prvIntervled).1 .sendHandler
      e'.rUdpC := h.putTimer.1

theorem TimersInv.serves (h : TimersInv e) (hs : Serves o e now draws d rest e' eff) :
    TimersInv e' ∧ ∃ tp, e.timers.timerQ = tp :: e'.timers.timerQ ∧ tp.time ≤ now := by
  obtain ⟨client, hcall⟩ := hs.due
  obtain ⟨hp, tp, hq, ht, -⟩ := h.plain.timerPass_call hcall
  have hc : e'.timers.timerCheck := by
    have := h.check
    rw [Multimer.timerCheck, hq, List.all_cons, Bool.and_eq_true] at this
    exact this.2
  exact ⟨⟨h.ordered.tail hq e'.timers.freeTQEQ, hp, hc⟩, tp, hq, ht⟩

theorem TimersInv.emit (h : TimersInv e) (hs : emit o e ev = some (e', eff)) : TimersInv e' := by
  rcases emit_cases hs with ⟨hk, -, -⟩ | ⟨-, d, now, -, -, ha⟩ | ⟨now, draws, d, rest, -, hs⟩
  · exact ⟨hk.timers ▸ h.ordered, hk.timers ▸ h.plain, hk.timers ▸ h.check⟩
  · exact ⟨ha.timers_eq ▸ h.ordered.putTimer _ _ _, ha.timers_eq ▸ h.plain.putTimer _ _ _,
      ha.putTimer.2⟩
  · exact (h.serves hs).1

theorem timersInv (h : Recorded o ok start e L) : TimersInv e := by
  refine h.invariant (I := fun x => TimersInv x.1) ?_
    ⟨Multimer.ordered_empty, Multimer.plain_empty, rfl⟩
  rintro ⟨e, L⟩ ev ⟨e', L'⟩ ht - hs
  obtain ⟨eff, hemit, -⟩ := Transition.recorded_eq_some.1 hs
  exact TimersInv.emit ht hemit

/-! ## First in, first out -/

/-- A packet received enters the ledger last, and the queue if that has taken it. -/
theorem Accepts.queued (h : Accepts o e d now e' eff) (received : Option (Host × Bytes)) :
    (e'.queue = e.queue ++ [d] ∧ (L.note e (.read received now) eff).queued =
        L.queued ++ [⟨now, e.stat.prvIntervled, d, true⟩]) ∨
      (MAX_Q_SIZE ≤ e.queue.length ∧ e'.queue = e.queue ∧
        (L.note e (.read received now) eff).queued = L.queued) := by
  obtain rfl := h.effect
  rw [h.queue]
  unfold Fifo.add
  split_ifs with hfull
  · exact .inr ⟨hfull, rfl, by simp [Ledger.note, Ledger.queued]⟩
  · exact .inl ⟨rfl, by simp [Ledger.note, Ledger.queued]⟩

/-- The packet served is entered with the time. -/
theorem Serves.note (h : Serves o e now draws d rest e' eff) :
    (L.note e (.timer now draws) eff).accepted = L.accepted ∧
      (L.note e (.timer now draws) eff).served = L.served ++ [(now, d)] := by
  have heff := h.effect
  cases eff with
  | lost d₁ =>
    obtain ⟨rfl, -⟩ := heff
    exact ⟨rfl, rfl⟩
  | sent d₁ d' =>
    obtain ⟨rfl, -⟩ := heff
    exact ⟨rfl, rfl⟩
  | unsent d₁ =>
    obtain ⟨rfl, -⟩ := heff
    exact ⟨rfl, rfl⟩
  | _ => exact heff.elim

/-- What has gone and what is held are the packets the queue has taken, in the order they came. -/
def InOrder (e : Emulator) (L : Ledger) : Prop :=
  L.queued.map Arrival.packet = L.servedPackets ++ e.queue

theorem InOrder.emit (ho : o.outOfOrder = 0) (h : InOrder e L)
    (hemit : emit o e ev = some (e', eff)) : InOrder e' (L.note e ev eff) := by
  rcases emit_cases hemit with ⟨hk, hq, -⟩ | ⟨readAddr, d, now, rfl, -, ha⟩ |
    ⟨now, draws, d, rest, rfl, hs⟩
  · rw [note_of_quiet hq, InOrder, hk.queue]
    exact h
  · have hserved : (L.note e (.read (some (readAddr, d)) now) eff).servedPackets =
        L.servedPackets := by rw [ha.effect]; rfl
    rcases ha.queued (L := L) (some (readAddr, d)) with ⟨hqueue, hq⟩ | ⟨-, hqueue, hq⟩
    · rw [InOrder, hq, hqueue, hserved, List.map_append, h, List.append_assoc]
      rfl
    · rw [InOrder, hq, hqueue, hserved, h]
  · obtain ⟨hacc, hserved⟩ := hs.note (L := L)
    have hqueue : e'.queue = rest := hs.queue.resolve_right fun hr => hr.1 ho
    rw [InOrder, Ledger.queued, hacc, Ledger.servedPackets, hserved, hqueue, List.map_append,
      List.append_assoc]
    rw [InOrder, hs.head] at h
    exact h

/-- Where no disorder is asked for, the packets go in the order they came. -/
theorem fifo (ho : o.outOfOrder = 0) (h : Recorded o ok start e L) :
    L.queued.map Arrival.packet = L.servedPackets ++ e.queue := by
  have hinit : InOrder (init start) .empty := rfl
  refine h.invariant (I := fun x => InOrder x.1 x.2) ?_ hinit
  rintro ⟨e, L⟩ ev ⟨e', L'⟩ hi - hs
  obtain ⟨eff, hemit, rfl⟩ := Transition.recorded_eq_some.1 hs
  exact InOrder.emit ho hi hemit

theorem fifo_twoPackets : ∃ (e : Emulator) (L : Ledger), L.served.length = 1 ∧
    L.queued.map Arrival.packet = L.servedPackets ++ e.queue := by
  have h : ∃ x, LedgerRun (initOptions 2130706433) (fun _ _ => True) (init ⟨99, 0⟩, .empty) x ∧
      decide (x.2.served.length = 1) :=
    Transition.Run.exists_of_exec twoPackets _ (by decide +kernel)
  obtain ⟨⟨e, L⟩, h, hserved⟩ := h
  exact ⟨e, L, of_decide_eq_true hserved, fifo rfl h⟩

/-! ## Earliest times -/

section OnTime

variable {early : Arrival → Timeval}

/-- The packets gone went no earlier than allowed, and those waiting will not. -/
def OnTime (early : Arrival → Timeval) (e : Emulator) (L : Ledger) : Prop :=
  ∃ gone waiting, L.queued = gone ++ waiting ∧
    List.Forall₂ (fun a s => early a ≤ s.1 ∧ a.packet = s.2) gone L.served ∧
    waiting.map Arrival.packet = e.queue ∧
    Deadlines.Served TQE.time early waiting e.timers.timerQ

theorem OnTime.kept (h : OnTime early e L) (hk : Kept e e') : OnTime early e' L := by
  obtain ⟨gone, waiting, hq, hgone, hqueue, hw⟩ := h
  exact ⟨gone, waiting, hq, hgone, hqueue.trans hk.queue.symm, hk.timers ▸ hw⟩

/-- A packet joins the queue whose earliest time is behind those of the others. -/
theorem OnTime.accepts (h : OnTime early e L) (ht : TimersInv e)
    (ha : Accepts o e d now e' eff) (hfull : e.queue.length < MAX_Q_SIZE)
    (hmono : ∀ a ∈ L.queued, early a ≤ early ⟨now, e.stat.prvIntervled, d, true⟩)
    (hdept : early ⟨now, e.stat.prvIntervled, d, true⟩ ≤
      (calcDepTime o d.length now e.stat.prvIntervled).1)
    (received : Option (Host × Bytes)) :
    OnTime early e' (L.note e (.read received now) eff) := by
  obtain ⟨gone, waiting, hq, hgone, hqueue, hw⟩ := h
  rcases ha.queued (L := L) received with ⟨hqueue', hq'⟩ | ⟨hfull', -⟩
  · have hserved : (L.note e (.read received now) eff).served = L.served := by
      rw [ha.effect]
      rfl
    refine ⟨gone, waiting ++ [⟨now, e.stat.prvIntervled, d, true⟩], ?_, hserved ▸ hgone, ?_, ?_⟩
    · rw [hq', hq, List.append_assoc]
    · rw [List.map_append, hqueue, hqueue']
      rfl
    · rw [ha.timers_eq, Multimer.timerQ_putTimer]
      have hs : (e.timers.timerQ.eraseP (·.client = e'.rUdpC)).Sublist e.timers.timerQ :=
        List.eraseP_sublist
      refine (hw.sublist ht.ordered.time hs).enqueue (ht.ordered.time.sublist hs) (fun a ha => ?_)
        hdept
      exact hmono a (hq ▸ List.mem_append_right _ ha)
  · exact absurd hfull (not_lt.2 hfull')

/-- The oldest packet goes when the first timer falls due. -/
theorem OnTime.serves (h : OnTime early e L) (ht : TimersInv e) (ho : o.outOfOrder = 0)
    (hs : Serves o e now draws d rest e' eff) :
    OnTime early e' (L.note e (.timer now draws) eff) := by
  obtain ⟨gone, waiting, hq, hgone, hqueue, hw⟩ := h
  obtain ⟨-, tp, htimers, hdue⟩ := ht.serves hs
  obtain ⟨hacc, hserved⟩ := hs.note (L := L)
  have hqueue' : e'.queue = rest := hs.queue.resolve_right fun hr => hr.1 ho
  rw [hs.head] at hqueue
  cases waiting with
  | nil => cases hqueue
  | cons a waiting =>
    obtain ⟨ha, hrest⟩ := List.cons.inj hqueue
    rw [htimers] at hw
    refine ⟨gone ++ [a], waiting, ?_, ?_, hrest.trans hqueue'.symm, hw.2⟩
    · rw [Ledger.queued, hacc, List.append_assoc]
      exact hq
    · rw [hserved]
      exact List.rel_append hgone (.cons ⟨hw.1.trans hdue, ha⟩ .nil)

/-- A run is on time if each packet, when received, is allowed no earlier time than those before it,
and none later than that of its timer. -/
theorem onTime (ho : o.outOfOrder = 0) (h : Recorded o ok start e L)
    (hok : ∀ {e : Emulator} {L : Ledger} {received : Option (Host × Bytes)} {now : Timeval},
      Recorded o ok start e L → ok (e, L) (.read received now) →
        e.queue.length < MAX_Q_SIZE ∧ ∀ d : Bytes,
          (∀ a ∈ L.queued, early a ≤ early ⟨now, e.stat.prvIntervled, d, true⟩) ∧
          early ⟨now, e.stat.prvIntervled, d, true⟩ ≤
            (calcDepTime o d.length now e.stat.prvIntervled).1) : OnTime early e L := by
  have hinit : OnTime early (init start) .empty := ⟨[], [], rfl, .nil, rfl, Deadlines.served_nil⟩
  refine h.invariant_along (I := fun x => OnTime early x.1 x.2) ?_ hinit
  rintro ⟨e, L⟩ ev ⟨e', L'⟩ hrun hi hev hs
  obtain ⟨eff, hemit, rfl⟩ := Transition.recorded_eq_some.1 hs
  rcases emit_cases hemit with ⟨hk, hq, -⟩ | ⟨readAddr, d, now, rfl, -, ha⟩ |
    ⟨now, draws, d, rest, rfl, hserve⟩
  · show OnTime early e' (L.note e ev eff)
    rw [note_of_quiet hq]
    exact OnTime.kept hi hk
  · obtain ⟨hfull, hd⟩ := hok hrun hev
    obtain ⟨hmono, hdept⟩ := hd (d.take BUFSIZE)
    exact OnTime.accepts hi (timersInv hrun) ha hfull hmono hdept _
  · exact OnTime.serves hi (timersInv hrun) ho hserve

end OnTime

/-! ## The delay -/

/-- A datagram comes while the queue is not full, by a clock that has not gone back. -/
def Timely (x : Emulator × Ledger) : Event → Prop
  | .read _ now => x.1.queue.length < MAX_Q_SIZE ∧ now.Normal ∧ x.1.stat.prvRcv ≤ now
  | _ => True

instance (x : Emulator × Ledger) (ev : Event) : Decidable (Timely x ev) :=
  match ev with
  | .read _ now => inferInstanceAs
      (Decidable (x.1.queue.length < MAX_Q_SIZE ∧ now.Normal ∧ x.1.stat.prvRcv ≤ now))
  | .timer .. | .quit | .flushed => inferInstanceAs (Decidable True)

/-- The times noted are as a clock shows them, the last of them in `prvRcv_tv`. -/
structure Clocked (e : Emulator) (L : Ledger) : Prop where
  prvIntervled : e.stat.prvIntervled.Normal
  time : ∀ a ∈ L.accepted, a.time.Normal ∧ a.time ≤ e.stat.prvRcv

/-- A packet received is entered last. -/
theorem Accepts.accepted (h : Accepts o e d now e' eff) (received : Option (Host × Bytes)) :
    ∃ queued, (L.note e (.read received now) eff).accepted =
      L.accepted ++ [⟨now, e.stat.prvIntervled, d, queued⟩] := by
  obtain rfl := h.effect
  exact ⟨_, rfl⟩

theorem Clocked.emit (h : Clocked e L) (hd : o.delay.Normal) (hev : Timely (e, L) ev)
    (hemit : emit o e ev = some (e', eff)) : Clocked e' (L.note e ev eff) := by
  rcases emit_cases hemit with ⟨hk, hq, hrcv⟩ | ⟨readAddr, d, now, rfl, -, ha⟩ |
    ⟨now, draws, d, rest, rfl, hs⟩
  · rw [note_of_quiet hq]
    refine ⟨hk.prvIntervled ▸ h.prvIntervled, fun a ha => ⟨(h.time a ha).1, ?_⟩⟩
    rcases hrcv with hrcv | ⟨received, now, rfl, hrcv⟩
    · exact hrcv ▸ (h.time a ha).2
    · exact hrcv ▸ (h.time a ha).2.trans hev.2.2
  · obtain ⟨queued, hacc⟩ := ha.accepted (L := L) (some (readAddr, d))
    refine ⟨ha.prvIntervled ▸ (calcDepTime_normal hev.2.1 h.prvIntervled hd).2, fun a hmem => ?_⟩
    rw [hacc] at hmem
    rw [ha.prvRcv]
    rcases List.mem_append.1 hmem with hmem | hmem
    · exact ⟨(h.time a hmem).1, (h.time a hmem).2.trans hev.2.2⟩
    · rw [List.mem_singleton.1 hmem]
      exact ⟨hev.2.1, le_rfl⟩
  · obtain ⟨hacc, -⟩ := hs.note (L := L)
    refine ⟨hs.prvIntervled ▸ h.prvIntervled, fun a ha => ?_⟩
    rw [hacc] at ha
    exact hs.prvRcv ▸ h.time a ha

theorem clocked (hd : o.delay.Normal) (hs : start.Normal) (h : Recorded o Timely start e L) :
    Clocked e L := by
  have hinit : Clocked (init start) .empty := ⟨hs, by simp [Ledger.empty]⟩
  refine h.invariant (I := fun x => Clocked x.1 x.2) ?_ hinit
  rintro ⟨e, L⟩ ev ⟨e', L'⟩ hc hev hs
  obtain ⟨eff, hemit, rfl⟩ := Transition.recorded_eq_some.1 hs
  exact Clocked.emit hc hd hev hemit

/-- The packets gone are the first that came, each gone no sooner than the delay after it came,
though it may go by another's timer. -/
theorem delayed (ho : o.outOfOrder = 0) (hd : o.delay.Normal) (hs : start.Normal)
    (h : Recorded o Timely start e L) :
    ∃ gone waiting, L.queued = gone ++ waiting ∧ waiting.map Arrival.packet = e.queue ∧
      List.Forall₂ (fun a s => addTimeval a.time o.delay ≤ s.1 ∧ a.packet = s.2) gone L.served := by
  have key : OnTime (fun a => addTimeval a.time o.delay) e L := by
    refine onTime ho h fun hrun hev => ?_
    have hc := clocked hd hs hrun
    obtain ⟨hfull, hn, hrcv⟩ := hev
    refine ⟨hfull, fun d => ⟨fun a ha => ?_, ?_⟩⟩
    · obtain ⟨hna, hle⟩ := hc.time a (List.mem_of_mem_filter ha)
      exact addTimeval_mono hna hd hn hd (hle.trans hrcv) le_rfl
    · exact (le_max_right _ _).trans (max_le_calcDepTime hn hc.prvIntervled hd)
  obtain ⟨gone, waiting, hq, hgone, hqueue, -⟩ := key
  exact ⟨gone, waiting, hq, hqueue, hgone⟩

theorem delayed_twoPackets : ∃ (e : Emulator) (L : Ledger) (gone waiting : List Arrival),
    gone.length = 1 ∧ L.queued = gone ++ waiting ∧ waiting.map Arrival.packet = e.queue ∧
      List.Forall₂ (fun a s => addTimeval a.time 0 ≤ s.1 ∧ a.packet = s.2) gone L.served := by
  have h : ∃ x, LedgerRun (initOptions 2130706433) Timely (init ⟨99, 0⟩, .empty) x ∧
      decide (x.2.served.length = 1) :=
    Transition.Run.exists_of_exec twoPackets _ (by decide +kernel)
  obtain ⟨⟨e, L⟩, h, hserved⟩ := h
  obtain ⟨gone, waiting, hq, hqueue, hgone⟩ := delayed rfl (by decide) (by decide) h
  exact ⟨e, L, gone, waiting, hgone.length_eq.trans (of_decide_eq_true hserved), hq, hqueue, hgone⟩

/-! ## The speed -/

/-- The time the link takes for some packets, in microseconds. -/
def linkTime (o : Options) (ds : List Bytes) : ℕ := (ds.map fun d => 8000 * d.length / o.speed).sum

theorem linkTime_append (o : Options) (ds es : List Bytes) :
    linkTime o (ds ++ es) = linkTime o ds + linkTime o es := by simp [linkTime]

/-- A datagram comes while the queue is not full; the clock may go back. -/
def Shown (x : Emulator × Ledger) : Event → Prop
  | .read _ now => x.1.queue.length < MAX_Q_SIZE ∧ now.Normal
  | .timer now _ => now.Normal
  | _ => True

instance (x : Emulator × Ledger) (ev : Event) : Decidable (Shown x ev) :=
  match ev with
  | .read _ now => inferInstanceAs (Decidable (x.1.queue.length < MAX_Q_SIZE ∧ now.Normal))
  | .timer now _ => inferInstanceAs (Decidable now.Normal)
  | .quit | .flushed => inferInstanceAs (Decidable True)

/-- The intervals run on from the start without a gap. -/
structure Paced (o : Options) (start : Timeval) (e : Emulator) (L : Ledger) : Prop where
  prvIntervled : e.stat.prvIntervled.Normal
  micros : e.stat.prvIntervled.micros = start.micros + linkTime o L.packets
  normal : ∀ a ∈ L.accepted, a.prvIntervled.Normal
  before : ∀ pre a post, L.accepted = pre ++ a :: post →
    a.prvIntervled.micros = start.micros + linkTime o (pre.map Arrival.packet)
  queued : L.queued = L.accepted
  served : ∀ s ∈ L.served, s.1.Normal

theorem Paced.kept (h : Paced o start e L) (hk : Kept e e') : Paced o start e' L :=
  ⟨hk.prvIntervled ▸ h.prvIntervled, hk.prvIntervled ▸ h.micros, h.normal, h.before, h.queued,
    h.served⟩

theorem Paced.accepts (h : Paced o start e L) (hm : o.calcMode ≠ 1) (hd : o.delay.Normal)
    (hn : now.Normal) (hfull : e.queue.length < MAX_Q_SIZE) (ha : Accepts o e d now e' eff)
    (received : Option (Host × Bytes)) :
    Paced o start e' (L.note e (.read received now) eff) := by
  have hint : (calcDepTime o d.length now e.stat.prvIntervled).2.Normal :=
    (calcDepTime_normal hn h.prvIntervled hd).2
  have hmic : (calcDepTime o d.length now e.stat.prvIntervled).2.micros =
      e.stat.prvIntervled.micros + (8000 * d.length / o.speed : ℕ) := by
    rw [(micros_calcDepTime hn h.prvIntervled hd).2, if_neg hm]
  have hadd : Fifo.add e.queue d = some (e.queue ++ [d]) := if_neg (not_le.2 hfull)
  obtain rfl : eff = .accepted d true := by rw [ha.effect, hadd]; rfl
  have hacc : (L.note e (.read received now) (.accepted d true)).accepted =
      L.accepted ++ [⟨now, e.stat.prvIntervled, d, true⟩] := rfl
  refine ⟨ha.prvIntervled ▸ hint, ?_, fun a hmem => ?_, fun pre a post hsplit => ?_, ?_, h.served⟩
  · rw [ha.prvIntervled, hmic, h.micros, Ledger.packets, Ledger.packets, hacc, List.map_append,
      linkTime_append]
    simp [linkTime, add_assoc]
  · rw [hacc] at hmem
    rcases List.mem_append.1 hmem with hmem | hmem
    · exact h.normal a hmem
    · rw [List.mem_singleton.1 hmem]
      exact h.prvIntervled
  · rw [hacc] at hsplit
    rcases List.eq_nil_or_concat post with rfl | ⟨post, b, rfl⟩
    · obtain ⟨rfl, hab⟩ := List.append_inj' hsplit rfl
      obtain rfl := (List.cons.inj hab).1
      exact h.micros
    · rw [List.concat_eq_append, ← List.cons_append, ← List.append_assoc] at hsplit
      exact h.before pre a post (List.append_inj' hsplit rfl).1
  · rw [Ledger.queued, hacc, List.filter_append, ← h.queued]
    simp [Ledger.queued]

theorem Paced.serves (h : Paced o start e L) (hn : now.Normal)
    (hs : Serves o e now draws d rest e' eff) :
    Paced o start e' (L.note e (.timer now draws) eff) := by
  obtain ⟨hacc, hserved⟩ := hs.note (L := L)
  refine ⟨hs.prvIntervled ▸ h.prvIntervled, ?_, ?_, ?_, ?_, ?_⟩
  · rw [hs.prvIntervled, Ledger.packets, hacc]
    exact h.micros
  · rw [hacc]
    exact h.normal
  · rw [hacc]
    exact h.before
  · rw [Ledger.queued, hacc]
    exact h.queued
  · intro s hmem
    rw [hserved] at hmem
    rcases List.mem_append.1 hmem with hmem | hmem
    · exact h.served s hmem
    · rw [List.mem_singleton.1 hmem]
      exact hn

theorem paced_inv (hm : o.calcMode ≠ 1) (hd : o.delay.Normal) (hs : start.Normal)
    (h : Recorded o Shown start e L) : Paced o start e L := by
  have hinit : Paced o start (init start) .empty :=
    ⟨hs, by simp [init, initStat, Ledger.packets, Ledger.empty, linkTime], by simp [Ledger.empty],
      by simp [Ledger.empty], rfl, by simp [Ledger.empty]⟩
  refine h.invariant (I := fun x => Paced o start x.1 x.2) ?_ hinit
  rintro ⟨e, L⟩ ev ⟨e', L'⟩ hp hev hs
  obtain ⟨eff, hemit, rfl⟩ := Transition.recorded_eq_some.1 hs
  rcases emit_cases hemit with ⟨hk, hq, -⟩ | ⟨readAddr, d, now, rfl, -, ha⟩ |
    ⟨now, draws, d, rest, rfl, hserve⟩
  · show Paced o start e' (L.note e ev eff)
    rw [note_of_quiet hq]
    exact Paced.kept hp hk
  · exact Paced.accepts hp hm hd hev.2 hev.1 ha _
  · exact Paced.serves hp hev hserve

/-- In the mode that keeps the speed, the packets gone before the `i`th have had the time the link
takes for them since the start. -/
theorem paced (ho : o.outOfOrder = 0) (hm : o.calcMode ≠ 1) (hd : o.delay.Normal)
    (hs : start.Normal) (h : Recorded o Shown start e L) (i : ℕ) (hi : i < L.served.length) :
    start.micros + linkTime o ((L.served.take i).map Prod.snd) ≤ L.served[i].1.micros := by
  have key : OnTime Arrival.prvIntervled e L := by
    refine onTime ho h fun hrun hev => ?_
    have hp := paced_inv hm hd hs hrun
    refine ⟨hev.1, fun d => ⟨fun a ha => ?_, ?_⟩⟩
    · have hmem : a ∈ _ := List.mem_of_mem_filter ha
      obtain ⟨pre, post, hsplit⟩ := List.append_of_mem hmem
      rw [(hp.normal a hmem).le_iff_micros hp.prvIntervled, hp.before pre a post hsplit, hp.micros,
        Ledger.packets, hsplit, List.map_append, linkTime_append]
      push_cast
      omega
    · exact (le_max_left _ _).trans (max_le_calcDepTime hev.2 hp.prvIntervled hd)
  obtain ⟨gone, waiting, hq, hgone, -, -⟩ := key
  have hp := paced_inv hm hd hs h
  have hlen : i < gone.length := hgone.length_eq ▸ hi
  have hmap : gone.map Arrival.packet = L.served.map Prod.snd := by
    rw [← List.forall₂_eq_eq_eq]
    exact List.forall₂_map_left_iff.2 (List.forall₂_map_right_iff.2 (hgone.imp fun _ _ h => h.2))
  have hsplit : L.accepted = gone.take i ++ gone[i] :: (gone.drop (i + 1) ++ waiting) := by
    rw [← hp.queued, hq, ← List.cons_append, ← List.append_assoc, ← List.drop_eq_getElem_cons,
      List.take_append_drop]
  have hmem : gone[i] ∈ L.accepted := hsplit ▸ List.mem_append_right _ List.mem_cons_self
  have hle : gone[i].prvIntervled ≤ L.served[i].1 := (hgone.get hlen hi).1
  rw [(hp.normal _ hmem).le_iff_micros (hp.served _ (List.getElem_mem hi)),
    hp.before _ _ _ hsplit, List.map_take, hmap, ← List.map_take] at hle
  exact hle

theorem paced_twoPackets : ∃ (L : Ledger) (hi : 1 < L.served.length),
    Timeval.micros ⟨99, 0⟩ + linkTime (initOptions 2130706433) ((L.served.take 1).map Prod.snd) ≤
      L.served[1].1.micros := by
  have h : ∃ x, LedgerRun (initOptions 2130706433) Shown (init ⟨99, 0⟩, .empty) x ∧
      decide (1 < x.2.served.length) :=
    Transition.Run.exists_of_exec (twoPackets ++
      [.timer ⟨102, 0⟩ ⟨⟨102, 0⟩, 0, false, false, [], 0, true⟩]) _ (by decide +kernel)
  obtain ⟨⟨e, L⟩, h, hserved⟩ := h
  have hi : 1 < L.served.length := of_decide_eq_true hserved
  exact ⟨L, hi, paced rfl (by decide) (by decide) (by decide) h 1 hi⟩

end Emulator

end TcpLike
