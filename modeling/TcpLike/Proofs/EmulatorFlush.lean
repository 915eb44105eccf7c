import TcpLike.Proofs.EmulatorOrder

/-!
# The handlers of the emulator come to their end

As long as the queue refuses nothing there is a packet for every timer (`Emulator.timers_le`), and
if the packets are not empty a timer for every packet (`Emulator.lined`). So `sendHandler` never
finds the queue empty (`Emulator.timer_goes`), the one thing that fails `readHandler` is two packets
at one time (`Emulator.read_fails_iff`), and flushing the buffer, unless it hangs in its first loop,
empties it (`Emulator.flush_empties`).
-/

namespace TcpLike

namespace Emulator

variable {o : Options} {e e' : Emulator} {L : Ledger} {d : Bytes} {rest : List Bytes}
  {now start : Timeval} {draws : Draws} {eff : Effect} {ev : Event}
  {ok : Emulator × Ledger → Event → Prop}

/-! ## A packet for every timer -/

/-- A datagram comes while the queue is not full. -/
def NotFull (x : Emulator × Ledger) : Event → Prop
  | .read _ _ => x.1.queue.length < MAX_Q_SIZE
  | _ => True

theorem Accepts.queue_of_lt (h : Accepts o e d now e' eff) (hfull : e.queue.length < MAX_Q_SIZE) :
    e'.queue = e.queue ++ [d] := by
  have hadd : Fifo.add e.queue d = some (e.queue ++ [d]) := if_neg (not_le.2 hfull)
  rw [h.queue, hadd]
  rfl

theorem length_timers_le (h : Accepts o e d now e' eff) :
    e'.timers.timerQ.length ≤ e.timers.timerQ.length + 1 := by
  rw [h.timers_eq, Multimer.timerQ_putTimer, Deadlines.length_enqueue]
  exact Nat.succ_le_succ List.eraseP_sublist.length_le

/-- While the queue refuses nothing, each timer has a packet to take. -/
theorem timers_le (hok : ∀ x ev, ok x ev → NotFull x ev) (h : Recorded o ok start e L) :
    e.timers.timerQ.length ≤ e.queue.length := by
  have hinit : (init start).timers.timerQ.length ≤ (init start).queue.length := le_rfl
  refine h.invariant_along (I := fun x => x.1.timers.timerQ.length ≤ x.1.queue.length) ?_ hinit
  rintro ⟨e, L⟩ ev ⟨e', L'⟩ hrun hi hev hs
  obtain ⟨eff, hemit, -⟩ := Transition.recorded_eq_some.1 hs
  rcases emit_cases hemit with ⟨hk, -, -⟩ | ⟨readAddr, d, now, rfl, -, ha⟩ |
    ⟨now, draws, d, rest, rfl, hserve⟩
  · show e'.timers.timerQ.length ≤ e'.queue.length
    rw [hk.timers, hk.queue]
    exact hi
  · show e'.timers.timerQ.length ≤ e'.queue.length
    rw [ha.queue_of_lt (hok _ _ hev), List.length_append]
    exact (length_timers_le ha).trans (Nat.succ_le_succ hi)
  · obtain ⟨-, tp, htimers, -⟩ := (timersInv hrun).serves hserve
    have hperm := hserve.perm (balanced hrun).length
    have hi : e.timers.timerQ.length ≤ e.queue.length := hi
    rw [htimers, hserve.head, List.length_cons, List.length_cons] at hi
    show e'.timers.timerQ.length ≤ e'.queue.length
    rw [hperm.length_eq]
    exact Nat.le_of_succ_le_succ hi

theorem sendHandler_isSome (hb : o.bitError = 0) (hq : e.queue ≠ []) (draws : Draws) :
    (sendHandler o e draws).isSome := by
  obtain ⟨d, rest, hq⟩ := List.exists_cons_of_ne_nil hq
  have hcor : ∀ t : Emulator, t.corrupt o d draws = some (t, d) := fun t =>
    if_neg (not_not.2 hb)
  simp only [sendHandler, hq, Fifo.get, Option.bind_eq_bind, Option.bind_some, hcor]
  split_ifs <;> rfl

/-- A pass of the timers goes through, if no bit error is asked for: one by a clock that some timer
has expired by, or that shows no negative microseconds. -/
theorem timer_isSome (hb : o.bitError = 0) (ht : TimersInv e)
    (hle : e.timers.timerQ.length ≤ e.queue.length)
    (hclock : (∃ tp ∈ e.timers.timerQ, tp.time ≤ now) ∨ 0 ≤ now.tv_usec) (draws : Draws) :
    (emit o e (.timer now draws)).isSome := by
  simp only [emit]
  cases hq : e.timers.timerQ with
  | nil =>
    have hpass : e.timers.timerPass now = some .idle := by simp [Multimer.timerPass, hq]
    rw [hpass]
    rfl
  | cons tp timerQ =>
    have hmem : tp ∈ e.timers.timerQ := hq ▸ List.mem_cons_self
    rw [ht.plain.timerPass_cons hq]
    split_ifs with hl hout
    · rfl
    · rcases hclock with ⟨tq, htq, hle⟩ | h0
      · exact absurd ((ht.ordered.head_le hq htq).trans hle) hl.not_ge
      · have hcheck := List.all_eq_true.1 ht.check tp hmem
        simp only [decide_eq_true_eq] at hcheck
        exact absurd (tv_usec_subTimeval_lt hcheck.1 h0) hout
    · refine sendHandler_isSome hb ?_ draws
      rintro (hnil : e.queue = [])
      simp [hq, hnil] at hle

/-- A datagram that comes is so long that the buffer is full before the queue is. -/
def Sized (_ : Emulator × Ledger) : Event → Prop
  | .read (some (_, d)) _ => 9 ≤ d.length
  | _ => True

instance (x : Emulator × Ledger) (ev : Event) : Decidable (Sized x ev) :=
  match ev with
  | .read (some (_, d)) _ => inferInstanceAs (Decidable (9 ≤ d.length))
  | .read none _ | .timer .. | .quit | .flushed => inferInstanceAs (Decidable True)

theorem sized (hok : ∀ x ev, ok x ev → Sized x ev) (h : Recorded o ok start e L) :
    ∀ a ∈ L.accepted, 9 ≤ a.packet.length := by
  have hinit : ∀ a ∈ Ledger.empty.accepted, 9 ≤ a.packet.length := by simp [Ledger.empty]
  refine h.invariant (I := fun x => ∀ a ∈ x.2.accepted, 9 ≤ a.packet.length) ?_ hinit
  rintro ⟨e, L⟩ ev ⟨e', L'⟩ hi hev hs
  obtain ⟨eff, hemit, rfl⟩ := Transition.recorded_eq_some.1 hs
  rcases emit_cases hemit with ⟨-, hq, -⟩ | ⟨readAddr, d, now, rfl, -, ha⟩ |
    ⟨now, draws, d, rest, rfl, hserve⟩
  · show ∀ a ∈ (L.note e ev eff).accepted, _
    rw [note_of_quiet hq]
    exact hi
  · obtain ⟨queued, hacc⟩ := ha.accepted (L := L) (some (readAddr, d))
    intro a hmem
    rw [hacc] at hmem
    rcases List.mem_append.1 hmem with hmem | hmem
    · exact hi a hmem
    · rw [List.mem_singleton.1 hmem, List.length_take]
      exact le_min (by decide) (hok _ _ hev)
  · show ∀ a ∈ (L.note e (.timer now draws) eff).accepted, _
    rw [(hserve.note (L := L)).1]
    exact hi

theorem mul_length_le_bytesOf {n : ℕ} {ds : List Bytes} (h : ∀ d ∈ ds, n ≤ d.length) :
    n * ds.length ≤ bytesOf ds := by
  rw [bytesOf, ← List.length_map (f := List.length), Nat.mul_comm, ← smul_eq_mul]
  exact List.card_nsmul_le_sum _ n (by simpa using h)

theorem queue_lt (hbuf : o.inQBufSize ≤ MAX_QBUFSIZE) (hok : ∀ x ev, ok x ev → Sized x ev)
    (h : Recorded o ok start e L) : e.queue.length < MAX_Q_SIZE := by
  have hb := balanced h
  have hmem : ∀ d ∈ e.queue, 9 ≤ d.length := by
    intro d hd
    have hp : d ∈ L.packets := hb.held.mem_iff.2 (by simp [hd])
    obtain ⟨a, ha, rfl⟩ := List.mem_map.1 hp
    exact sized hok h a ha
  have hbytes := mul_length_le_bytesOf hmem
  have hq := hb.qUsed
  have hroom := hb.room
  unfold MAX_QBUFSIZE at hbuf
  unfold MAX_Q_SIZE
  omega

/-- A timer that has expired never finds the queue empty, as long as the datagrams that come fill
the buffer before they fill the queue: there is a packet for each. A pass that comes before every
timer goes through by any clock that shows no negative microseconds. -/
theorem timer_goes (hb : o.bitError = 0) (hbuf : o.inQBufSize ≤ MAX_QBUFSIZE)
    (h : Recorded o Sized start e L) (now : Timeval) (draws : Draws) :
    ((∃ tp ∈ e.timers.timerQ, tp.time ≤ now) → (emit o e (.timer now draws)).isSome) ∧
      (0 ≤ now.tv_usec → (emit o e (.timer now draws)).isSome) := by
  have hfull : Recorded o NotFull start e L := by
    refine h.mono_along ?_
    rintro ⟨e, L⟩ ev hrun -
    cases ev with
    | read received now => exact queue_lt hbuf (fun _ _ h => h) hrun
    | _ => trivial
  have hle := timers_le (fun _ _ h => h) hfull
  exact ⟨fun hdue => timer_isSome hb (timersInv h) hle (.inl hdue) draws,
    fun h0 => timer_isSome hb (timersInv h) hle (.inr h0) draws⟩

theorem timer_goes_twoPackets : ∃ e : Emulator, e.queue.length = 1 ∧
    (emit (initOptions 2130706433) e
      (.timer ⟨200, 0⟩ ⟨⟨200, 0⟩, 0, false, false, [], 0, true⟩)).isSome := by
  have h : ∃ x, LedgerRun (initOptions 2130706433) Sized (init ⟨99, 0⟩, .empty) x ∧
      decide (x.1.queue.length = 1) :=
    Transition.Run.exists_of_exec twoPackets _ (by decide +kernel)
  obtain ⟨⟨e, L⟩, h, hq⟩ := h
  exact ⟨e, of_decide_eq_true hq, (timer_goes rfl (by decide) h _ _).2 (by decide)⟩

/-! ## A timer for every packet -/

/-- A datagram that comes is not empty, is not refused, and does not take the counter of the bytes
received past its 32 bits. -/
def Fresh (x : Emulator × Ledger) : Event → Prop
  | .read (some (_, d)) _ =>
    0 < d.length ∧ x.1.rUdpC + d.length < 2 ^ 32 ∧ x.1.queue.length < MAX_Q_SIZE
  | _ => True

instance (x : Emulator × Ledger) (ev : Event) : Decidable (Fresh x ev) :=
  match ev with
  | .read (some (_, d)) _ => inferInstanceAs
      (Decidable (0 < d.length ∧ x.1.rUdpC + d.length < 2 ^ 32 ∧ x.1.queue.length < MAX_Q_SIZE))
  | .read none _ | .timer .. | .quit | .flushed => inferInstanceAs (Decidable True)

/-- There are as many timers as packets, none of a client above the counter. -/
structure Lined (e : Emulator) : Prop where
  length : e.timers.timerQ.length = e.queue.length
  client : ∀ tp ∈ e.timers.timerQ, tp.client ≤ e.rUdpC

theorem Lined.accepts (h : Lined e) (ha : Accepts o e d now e' eff) (hd : 0 < d.length)
    (hlt : e.rUdpC + d.length < 2 ^ 32) (hfull : e.queue.length < MAX_Q_SIZE) : Lined e' := by
  have hr : e'.rUdpC = e.rUdpC + d.length := by rw [ha.rUdpC, Nat.mod_eq_of_lt hlt]
  have hnone : e.timers.timerQ.eraseP (·.client = e'.rUdpC) = e.timers.timerQ := by
    refine List.eraseP_of_forall_not fun tp htp => ?_
    have := h.client tp htp
    simp only [decide_eq_true_eq]
    omega
  constructor
  · rw [ha.timers_eq, Multimer.timerQ_putTimer, hnone, Deadlines.length_enqueue, h.length,
      ha.queue_of_lt hfull, List.length_append]
    rfl
  · intro tp htp
    rw [ha.timers_eq, Multimer.timerQ_putTimer, hnone, Deadlines.mem_enqueue] at htp
    rcases htp with rfl | htp
    · exact le_rfl
    · have := h.client tp htp
      omega

theorem Lined.serves (h : Lined e) (ht : TimersInv e) (hl : e.queue.length ≤ MAX_Q_SIZE)
    (hs : Serves o e now draws d rest e' eff) : Lined e' := by
  obtain ⟨-, tp, htimers, -⟩ := ht.serves hs
  have hlen := h.length
  rw [htimers, hs.head, List.length_cons, List.length_cons] at hlen
  refine ⟨?_, fun t ht => ?_⟩
  · rw [(hs.perm hl).length_eq]
    exact Nat.succ.inj hlen
  · rw [hs.rUdpC]
    exact h.client t (htimers ▸ List.mem_cons_of_mem _ ht)

/-- No timer takes the place of another, and each packet keeps one to be taken by. -/
theorem lined (hok : ∀ x ev, ok x ev → Fresh x ev) (h : Recorded o ok start e L) : Lined e := by
  have hinit : Lined (init start) := ⟨rfl, by simp [init, Multimer.empty]⟩
  refine h.invariant_along (I := fun x => Lined x.1) ?_ hinit
  rintro ⟨e, L⟩ ev ⟨e', L'⟩ hrun hi hev hs
  obtain ⟨eff, hemit, -⟩ := Transition.recorded_eq_some.1 hs
  rcases emit_cases hemit with ⟨hk, -, -⟩ | ⟨readAddr, d, now, rfl, -, ha⟩ |
    ⟨now, draws, d, rest, rfl, hserve⟩
  · refine ⟨?_, fun tp htp => ?_⟩
    · show e'.timers.timerQ.length = e'.queue.length
      rw [hk.timers, hk.queue]
      exact hi.length
    · show tp.client ≤ e'.rUdpC
      rw [hk.rUdpC]
      exact hi.client tp (hk.timers ▸ htp)
  · obtain ⟨hpos, hlt, hfull⟩ := hok _ _ hev
    have hle : (d.take BUFSIZE).length ≤ d.length := List.length_take_le' _ _
    refine Lined.accepts hi ha ?_ ((Nat.add_le_add_left hle _).trans_lt hlt) hfull
    rw [List.length_take]
    exact lt_min (by decide) hpos
  · exact Lined.serves hi (timersInv hrun) (balanced hrun).length hserve

/-! ## Flushing -/

/-- A pass by a clock past the first timer takes the oldest packet. -/
theorem timer_serves (hb : o.bitError = 0) (ht : TimersInv e) (hl : Lined e) {tp : TQE TimerFunc}
    {timerQ : List (TQE TimerFunc)} (hq : e.timers.timerQ = tp :: timerQ) (hdue : tp.time ≤ now)
    (draws : Draws) : ∃ e' eff d rest, emit o e (.timer now draws) = some (e', eff) ∧
      Serves o e now draws d rest e' eff := by
  obtain ⟨⟨e', eff⟩, hemit⟩ :=
    Option.isSome_iff_exists.1 (timer_isSome hb ht hl.length.le
      (.inl ⟨tp, hq ▸ List.mem_cons_self, hdue⟩) draws)
  refine ⟨e', eff, ?_⟩
  have hget := ht.plain.timerPass_cons hq now
  rw [if_neg (not_lt.2 hdue)] at hget
  have hsend := hemit
  simp only [emit, hget] at hsend
  obtain ⟨d, rest, hs⟩ := sendHandler_serves hget hsend
  exact ⟨d, rest, hemit, hs⟩

/-- Passes by a clock that is past every timer take one packet each. -/
theorem exec_passes (hb : o.bitError = 0) : ∀ (passes : List (Timeval × Draws)) {e : Emulator},
    TimersInv e → Lined e → e.queue.length ≤ MAX_Q_SIZE → passes.length = e.queue.length →
    (∀ p ∈ passes, ∀ tp ∈ e.timers.timerQ, tp.time ≤ p.1) →
    ∃ e', Transition.exec (Transition.silent (emit o)) e
        (passes.map fun p => .timer p.1 p.2) = some e' ∧
      e'.queue = [] ∧ e'.timers.timerQ = [] ∧ e'.reading = e.reading
  | [], e, _, hl, _, hlen, _ => by
    have hq : e.queue = [] := List.length_eq_zero_iff.1 hlen.symm
    refine ⟨e, rfl, hq, List.length_eq_zero_iff.1 ?_, rfl⟩
    rw [hl.length, hq, List.length_nil]
  | (now, draws) :: passes, e, ht, hl, hmax, hlen, hlate => by
    obtain ⟨tp, timerQ, hq⟩ : ∃ tp timerQ, e.timers.timerQ = tp :: timerQ := by
      refine List.exists_cons_of_length_pos ?_
      rw [hl.length, ← hlen]
      exact Nat.succ_pos _
    obtain ⟨e₁, eff, d, rest, hemit, hs⟩ := timer_serves hb ht hl hq
      (hlate _ List.mem_cons_self tp (hq ▸ List.mem_cons_self)) draws
    obtain ⟨ht₁, tp', htimers, -⟩ := ht.serves hs
    have hq₁ := (hs.perm hmax).length_eq
    rw [hs.head, List.length_cons, List.length_cons] at hlen
    obtain ⟨e', hexec, hqueue, htimers', hread⟩ := exec_passes hb passes ht₁
      (hl.serves ht hmax hs) (by rw [hs.head, List.length_cons] at hmax; omega) (by omega)
      fun p hp t htm => hlate p (List.mem_cons_of_mem _ hp) t (htimers ▸ List.mem_cons_of_mem _ htm)
    refine ⟨e', ?_, hqueue, htimers', hread.trans hs.reading⟩
    rw [List.map_cons, Transition.exec, Transition.silent_eq_some.2 ⟨eff, hemit⟩]
    exact hexec

/-- Told to end, the emulator takes every packet it holds from the queue, and stops, if some counter
passes the bound of the loop it begins with: as many passes as there are packets, by a clock past
their timers, will do. -/
theorem flush_empties (hb : o.bitError = 0) (h : Recorded o Fresh start e L)
    (hbound : flushBound e.rUdpC ≠ UINT32_MAX)
    (passes : List (Timeval × Draws)) (hlen : passes.length = e.queue.length)
    (hlate : ∀ p ∈ passes, ∀ tp ∈ e.timers.timerQ, tp.time ≤ p.1) :
    ∃ e', Transition.exec (Transition.silent (emit o)) e
        (.quit :: (passes.map (fun p => .timer p.1 p.2) ++ [.flushed])) = some e' ∧
      e'.queue = [] ∧ e'.timers.timerQ = [] ∧ e'.stop = true := by
  have hl := lined (fun _ _ h => h) h
  obtain ⟨e', hexec, hqueue, htimers, hread⟩ := exec_passes hb passes
    (e := { e with reading := false })
    ⟨(timersInv h).ordered, (timersInv h).plain, (timersInv h).check⟩
    ⟨hl.length, hl.client⟩ (balanced h).length hlen hlate
  refine ⟨{ e' with stop := true }, ?_, hqueue, htimers, rfl⟩
  have hquit : Transition.silent (emit o) e .quit = some { e with reading := false } := by
    simp [Transition.silent, emit, hbound]
  have hflushed : Transition.silent (emit o) e' .flushed = some { e' with stop := true } := by
    simp [Transition.silent, emit, hread, htimers]
  simp only [Transition.exec, hquit, Transition.exec_append, hexec, Option.bind_some, hflushed]

theorem flush_empties_twoPackets : ∃ e e' : Emulator, e.queue.length = 2 ∧
    Transition.exec (Transition.silent (emit (initOptions 2130706433))) e
      (.quit :: (List.replicate 2 (.timer ⟨200, 0⟩ ⟨⟨200, 0⟩, 0, false, false, [], 0, true⟩) ++
        [.flushed])) = some e' ∧
      e'.queue = [] ∧ e'.timers.timerQ = [] ∧ e'.stop = true := by
  have h : ∃ x, LedgerRun (initOptions 2130706433) Fresh (init ⟨99, 0⟩, .empty) x ∧
      decide (x.1.queue.length = 2 ∧ flushBound x.1.rUdpC ≠ UINT32_MAX ∧
        ∀ tp ∈ x.1.timers.timerQ, tp.time ≤ ⟨200, 0⟩) :=
    Transition.Run.exists_of_exec (twoPackets.take 2) _ (by decide +kernel)
  obtain ⟨⟨e, L⟩, h, hp⟩ := h
  obtain ⟨hq, hbound, hlate⟩ := of_decide_eq_true hp
  obtain ⟨e', hexec, hend⟩ := flush_empties rfl h hbound
    (List.replicate 2 (⟨200, 0⟩, ⟨⟨200, 0⟩, 0, false, false, [], 0, true⟩)) hq.symm
    fun p hp => by
      rw [List.eq_of_mem_replicate hp]
      exact hlate
  exact ⟨e, e', hq, hexec, hend⟩

/-! ## Reading -/

/-- A datagram comes by a clock. -/
def Normally (_ : Emulator × Ledger) : Event → Prop
  | .read _ now => now.Normal
  | _ => True

instance (x : Emulator × Ledger) (ev : Event) : Decidable (Normally x ev) :=
  match ev with
  | .read _ now => inferInstanceAs (Decidable now.Normal)
  | .timer .. | .quit | .flushed => inferInstanceAs (Decidable True)

/-- The times the emulator keeps are as a clock shows them. -/
structure NormalTimes (e : Emulator) : Prop where
  timers : e.timers.Normal
  prvRcv : e.stat.prvRcv.Normal
  prvIntervled : e.stat.prvIntervled.Normal

theorem normalTimes (hok : ∀ x ev, ok x ev → Normally x ev) (hd : o.delay.Normal)
    (hs : start.Normal) (h : Recorded o ok start e L) : NormalTimes e := by
  have hinit : NormalTimes (init start) := ⟨Multimer.normal_empty, Timeval.normal_zero, hs⟩
  refine h.invariant_along (I := fun x => NormalTimes x.1) ?_ hinit
  rintro ⟨e, L⟩ ev ⟨e', L'⟩ hrun hi hev hs
  obtain ⟨eff, hemit, -⟩ := Transition.recorded_eq_some.1 hs
  rcases emit_cases hemit with ⟨hk, -, hrcv⟩ | ⟨readAddr, d, now, rfl, -, ha⟩ |
    ⟨now, draws, d, rest, rfl, hserve⟩
  · refine ⟨hk.timers ▸ hi.timers, ?_, hk.prvIntervled ▸ hi.prvIntervled⟩
    rcases hrcv with hrcv | ⟨received, now, rfl, hrcv⟩
    · exact hrcv ▸ hi.prvRcv
    · exact hrcv ▸ hok _ _ hev
  · have hn : (calcDepTime o (d.take BUFSIZE).length now e.stat.prvIntervled).1.Normal ∧
        (calcDepTime o (d.take BUFSIZE).length now e.stat.prvIntervled).2.Normal :=
      calcDepTime_normal (hok _ _ hev) hi.prvIntervled hd
    exact ⟨ha.timers_eq ▸ hi.timers.putTimer hn.1 _ _, ha.prvRcv ▸ hok _ _ hev,
      ha.prvIntervled ▸ hn.2⟩
  · obtain ⟨client, hcall⟩ := hserve.due
    have hop : e.timers.op (.pass now) = some (e'.timers, some (.sendHandler, client)) := by
      rw [Multimer.op, hcall]
      rfl
    exact ⟨hi.timers.pass hop, hserve.prvRcv ▸ hi.prvRcv,
      hserve.prvIntervled ▸ hi.prvIntervled⟩

theorem accept_isSome (hn : NormalTimes e) (hd : o.delay.Normal) (hnow : now.Normal) (d : Bytes) :
    (accept o e d now).isSome := by
  have hdept : (calcDepTime o d.length now e.stat.prvIntervled).1.Normal :=
    (calcDepTime_normal hnow hn.prvIntervled hd).1
  have hset : ∀ client, e.timers.timerSet
      (some (calcDepTime o d.length now e.stat.prvIntervled).1) .sendHandler client none =
      some (e.timers.putTimer (calcDepTime o d.length now e.stat.prvIntervled).1 .sendHandler
        client) := fun client => by
    simp [Multimer.timerSet, Multimer.expiration,
      (hn.timers.putTimer hdept .sendHandler client).timerCheck]
  simp only [accept, hset, Option.bind_eq_bind, Option.bind_some]
  rfl

/-- The speed of a packet is not to be had if it comes at the time of the one before, unless that
came on a full second. -/
theorem received_eq_none_iff {stat : Statistics} (hnow : now.Normal) (hp : stat.prvRcv.Normal)
    (rBytes : ℕ) :
    stat.received rBytes now = none ↔
      now = stat.prvRcv ∧ stat.prvRcv.tv_sec ≠ 0 ∧ stat.prvRcv.tv_usec ≠ 0 := by
  have hmicros : (subTimeval now stat.prvRcv).micros = 0 ↔ now = stat.prvRcv := by
    rw [micros_subTimeval, sub_eq_zero, le_antisymm_iff, le_antisymm_iff, hnow.le_iff_micros hp,
      hp.le_iff_micros hnow]
  unfold Statistics.received recvSp
  split_ifs with hfull hzero
  · simp only [false_iff, not_and]
    intro _ hs hu
    exact hfull.elim hs hu
  · simpa [hmicros.1 hzero] using not_or.1 hfull
  · simp [mt hmicros.2 hzero]

/-- A datagram brings the emulator down by a division by zero if it is of the source host, fits the
buffer, and comes at the time of the one before, that time being no full second: nothing else in
`readHandler` fails, whatever came before. -/
theorem read_fails_iff (hd : o.delay.Normal) (hs : start.Normal)
    (h : Recorded o Normally start e L) (hr : e.reading = true) (hnow : now.Normal)
    (readAddr : Host) (d : Bytes) :
    emit o e (.read (some (readAddr, d)) now) = none ↔
      checkHost readAddr o.srceHost ∧ (d.take BUFSIZE).length ≤ o.inQBufSize ∧
        now = e.stat.prvRcv ∧ e.stat.prvRcv.tv_sec ≠ 0 ∧ e.stat.prvRcv.tv_usec ≠ 0 := by
  have hn := normalTimes (fun _ _ h => h) hd hs h
  have hrec : e.stat.received (d.take BUFSIZE).length now = none ↔ _ :=
    received_eq_none_iff hnow hn.prvRcv _
  rw [emit, if_pos hr]
  simp only [readHandler]
  split_ifs with hhost hsize
  · simp at hhost
    simp [hhost]
  · simp only [false_iff]
    exact fun hall => not_le.2 hsize hall.2.1
  · have hhost : checkHost readAddr o.srceHost = true := by simpa using hhost
    rw [← hrec]
    cases hst : e.stat.received (d.take BUFSIZE).length now with
    | none =>
      simp only [hhost, not_lt.1 hsize, Option.bind_eq_bind, Option.bind_none, and_self]
    | some stat =>
      obtain ⟨hrcv, hint, -⟩ := received_eq_some hst
      simp only [Option.bind_eq_bind, Option.bind_some, reduceCtorEq, and_false, iff_false]
      split
      · simp
      · rename_i qUsed hq
        have hn' : NormalTimes { e with stat := stat, qUsed := qUsed } :=
          ⟨hn.timers, hrcv ▸ hnow, hint ▸ hn.prvIntervled⟩
        exact Option.isSome_iff_ne_none.1 (accept_isSome hn' hd hnow (d.take BUFSIZE))

theorem read_fails_iff_twoPackets : ∃ e : Emulator, e.queue.length = 2 ∧
    (emit (initOptions 2130706433) e (.read (some (⟨2130706433, 41191⟩, [3])) ⟨100, 500⟩) = none ↔
      checkHost ⟨2130706433, 41191⟩ (initOptions 2130706433).srceHost ∧ 1 ≤ 8192 ∧
        ⟨100, 500⟩ = e.stat.prvRcv ∧ e.stat.prvRcv.tv_sec ≠ 0 ∧ e.stat.prvRcv.tv_usec ≠ 0) := by
  have h : ∃ x, LedgerRun (initOptions 2130706433) Normally (init ⟨99, 0⟩, .empty) x ∧
      decide (x.1.queue.length = 2 ∧ x.1.reading = true) :=
    Transition.Run.exists_of_exec (twoPackets.take 2) _ (by decide +kernel)
  obtain ⟨⟨e, L⟩, h, hp⟩ := h
  obtain ⟨hq, hreading⟩ := of_decide_eq_true hp
  exact ⟨e, hq, read_fails_iff (by decide) (by decide) h hreading (by decide) _ [3]⟩

end Emulator

end TcpLike
