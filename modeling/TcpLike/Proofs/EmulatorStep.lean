import TcpLike.Newudpl
import TcpLike.Proofs.Multimer

/-!
# What a step of the emulator does

A step leaves the packets alone (`Kept`), takes one more in (`Accepts`) or takes the oldest one from
the queue (`Serves`), which is then lost, sent or, where `sendto` fails, neither.
-/

namespace TcpLike

/-- The effect is on no packet that is held. -/
def Effect.quiet : Effect → Bool
  | .idle | .rejected _ | .congested _ => true
  | _ => false

/-- The effect is one on a packet `d` from the queue. -/
def Effect.On (o : Options) (d : Bytes) (draws : Draws) : Effect → Prop
  | .lost d₁ => d₁ = d ∧ (o.randomLoss ≠ 0 ∨ o.gilCondLoss.positive)
  | .sent d₁ d' => d₁ = d ∧ draws.written ∧
      if o.bitError = 0 then d' = d else isBitError d draws.bits = some d'
  | .unsent d₁ => d₁ = d ∧ !draws.written
  | _ => False

namespace Emulator

variable (o : Options)

/-- The packets held and the counts of packets are as they were. -/
structure Kept (e e' : Emulator) : Prop where
  queue : e'.queue = e.queue
  qUsed : e'.qUsed = e.qUsed
  timers : e'.timers = e.timers
  rUdpC : e'.rUdpC = e.rUdpC
  sUdpC : e'.sUdpC = e.sUdpC
  prvIntervled : e'.stat.prvIntervled = e.stat.prvIntervled
  rPacket : e'.stat.rPacket = e.stat.rPacket
  sPacket : e'.stat.sPacket = e.stat.sPacket
  randomLoss : e'.stat.randomLoss = e.stat.randomLoss

/-- The packet `d` is received at `now`. -/
structure Accepts (e : Emulator) (d : Bytes) (now : Timeval) (e' : Emulator) (eff : Effect) :
    Prop where
  size : d.length ≤ o.inQBufSize
  room : e.qUsed + d.length ≤ o.inQBufSize
  effect : eff = .accepted d (Fifo.add e.queue d).isSome
  queue : e'.queue = (Fifo.add e.queue d).getD e.queue
  qUsed : e'.qUsed = e.qUsed + d.length
  timers : e.timers.timerSet (some (calcDepTime o d.length now e.stat.prvIntervled).1)
    .sendHandler e'.rUdpC none = some e'.timers
  rUdpC : e'.rUdpC = (e.rUdpC + d.length) % 2 ^ 32
  sUdpC : e'.sUdpC = e.sUdpC
  prvRcv : e'.stat.prvRcv = now
  prvIntervled : e'.stat.prvIntervled = (calcDepTime o d.length now e.stat.prvIntervled).2
  rPacket : e'.stat.rPacket = int32 (e.stat.rPacket + 1)
  sPacket : e'.stat.sPacket = e.stat.sPacket
  randomLoss : e'.stat.randomLoss = e.stat.randomLoss

/-- What becomes of the packet `d` taken from the queue, and the counts that say so. -/
inductive Counted (e : Emulator) (d : Bytes) (e' : Emulator) : Effect → Prop
  | lost (hq : e'.qUsed = e.qUsed - d.length) (hs : e'.sUdpC = e.sUdpC)
      (hp : e'.stat.sPacket = e.stat.sPacket)
      (hr : e'.stat.randomLoss = int32 (e.stat.randomLoss + 1)) : Counted e d e' (.lost d)
  | sent (d' : Bytes) (hq : e'.qUsed = e.qUsed - d.length)
      (hs : e'.sUdpC = (e.sUdpC + d.length) % 2 ^ 32)
      (hp : e'.stat.sPacket = int32 (e.stat.sPacket + 1))
      (hr : e'.stat.randomLoss = e.stat.randomLoss) : Counted e d e' (.sent d d')
  | unsent (hq : e'.qUsed = e.qUsed) (hs : e'.sUdpC = e.sUdpC)
      (hp : e'.stat.sPacket = e.stat.sPacket)
      (hr : e'.stat.randomLoss = e.stat.randomLoss) : Counted e d e' (.unsent d)

/-- The packet `d`, the oldest, is taken from the queue by the timer that has expired at `now`. -/
structure Serves (e : Emulator) (now : Timeval) (draws : Draws) (d : Bytes) (rest : List Bytes)
    (e' : Emulator) (eff : Effect) : Prop where
  due : ∃ client, e.timers.timerPass now = some (.call .sendHandler client e'.timers)
  head : e.queue = d :: rest
  queue : e'.queue = rest ∨ o.outOfOrder ≠ 0 ∧ e'.queue = (isOutOfOrder o rest draws.order).2
  effect : Effect.On o d draws eff
  rUdpC : e'.rUdpC = e.rUdpC
  prvRcv : e'.stat.prvRcv = e.stat.prvRcv
  prvIntervled : e'.stat.prvIntervled = e.stat.prvIntervled
  rPacket : e'.stat.rPacket = e.stat.rPacket
  reading : e'.reading = e.reading
  counted : (d.length : ℤ) ≤ e.qUsed → e.qUsed ≤ o.inQBufSize → Counted e d e' eff

variable {o} {e e' : Emulator} {d d' : Bytes} {now : Timeval} {eff : Effect} {draws : Draws}
  {ev : Event} {received : Option (Host × Bytes)}

/-! ## The counter of the buffer -/

theorem incQUsed_eq_some {qUsed q : ℤ} {bytes qBufSize : ℕ} :
    incQUsed qUsed bytes qBufSize = some q ↔ qUsed + bytes ≤ qBufSize ∧ q = qUsed + bytes := by
  unfold incQUsed
  split_ifs with h
  · simp only [false_iff, not_and]
    omega
  · simp only [Option.some.injEq]
    constructor
    · rintro rfl
      exact ⟨by omega, rfl⟩
    · rintro ⟨-, rfl⟩
      rfl

theorem decQUsed_of_le {qUsed : ℤ} {bytes qBufSize : ℕ} (h : (bytes : ℤ) ≤ qUsed)
    (hb : qUsed ≤ qBufSize) : decQUsed qUsed bytes qBufSize = some (qUsed - bytes) := by
  rw [decQUsed, if_neg (by omega), if_neg (by omega)]

/-! ## Reading -/

theorem received_eq_some {stat stat' : Statistics} {rBytes : ℕ}
    (h : stat.received rBytes now = some stat') :
    stat'.prvRcv = now ∧ stat'.prvIntervled = stat.prvIntervled ∧
      stat'.rPacket = stat.rPacket ∧ stat'.sPacket = stat.sPacket ∧
      stat'.randomLoss = stat.randomLoss := by
  unfold Statistics.received at h
  split_ifs at h
  · obtain rfl := Option.some.inj h
    exact ⟨rfl, rfl, rfl, rfl, rfl⟩
  · simp only [Option.bind_eq_bind, Option.bind_eq_some_iff] at h
    obtain ⟨sp, -, h⟩ := h
    obtain rfl := Option.some.inj h
    exact ⟨rfl, rfl, rfl, rfl, rfl⟩

theorem accept_accepts {qUsed : ℤ} {stat : Statistics}
    (h : accept o { e with stat := stat, qUsed := qUsed } d now = some (e', eff))
    (hsize : d.length ≤ o.inQBufSize) (hroom : e.qUsed + d.length ≤ o.inQBufSize)
    (hq : qUsed = e.qUsed + d.length) (hstat : stat.prvRcv = now ∧
      stat.prvIntervled = e.stat.prvIntervled ∧ stat.rPacket = e.stat.rPacket ∧
      stat.sPacket = e.stat.sPacket ∧ stat.randomLoss = e.stat.randomLoss) :
    Accepts o e d now e' eff := by
  obtain ⟨hrcv, hint, hr, hs, hl⟩ := hstat
  simp only [accept, Option.bind_eq_bind, Option.bind_eq_some_iff] at h
  obtain ⟨timers, ht, h⟩ := h
  obtain ⟨rfl, rfl⟩ := Prod.mk.inj (Option.some.inj h)
  rw [hint] at ht
  refine ⟨hsize, hroom, rfl, rfl, hq, ht, rfl, rfl, hrcv, ?_, ?_, hs, hl⟩
  · show (calcDepTime o d.length now stat.prvIntervled).2 = _
    rw [hint]
  · show int32 (stat.rPacket + 1) = _
    rw [hr]

/-- What `readHandler` does with what it receives. -/
theorem readHandler_cases (h : e.readHandler o received now = some (e', eff)) :
    (Kept e e' ∧ eff.quiet ∧ (e'.stat.prvRcv = e.stat.prvRcv ∨ e'.stat.prvRcv = now)) ∨
      ∃ readAddr d, received = some (readAddr, d) ∧ checkHost readAddr o.srceHost ∧
        Accepts o e (d.take BUFSIZE) now e' eff := by
  cases received with
  | none =>
    obtain ⟨rfl, rfl⟩ := Prod.mk.inj (Option.some.inj h)
    exact .inl ⟨⟨rfl, rfl, rfl, rfl, rfl, rfl, rfl, rfl, rfl⟩, rfl, .inl rfl⟩
  | some received =>
    obtain ⟨readAddr, d⟩ := received
    simp only [readHandler] at h
    split_ifs at h with hhost hsize
    · obtain ⟨rfl, rfl⟩ := Prod.mk.inj (Option.some.inj h)
      exact .inl ⟨⟨rfl, rfl, rfl, rfl, rfl, rfl, rfl, rfl, rfl⟩, rfl, .inl rfl⟩
    · obtain ⟨rfl, rfl⟩ := Prod.mk.inj (Option.some.inj h)
      exact .inl ⟨⟨rfl, rfl, rfl, rfl, rfl, rfl, rfl, rfl, rfl⟩, rfl, .inl rfl⟩
    · simp only [Option.bind_eq_bind, Option.bind_eq_some_iff] at h
      obtain ⟨stat, hstat, h⟩ := h
      have hstat := received_eq_some hstat
      split at h
      · obtain ⟨rfl, rfl⟩ := Prod.mk.inj (Option.some.inj h)
        obtain ⟨hrcv, hint, hr, hs, hl⟩ := hstat
        exact .inl ⟨⟨rfl, rfl, rfl, rfl, rfl, hint, hr, hs, hl⟩, rfl, .inr hrcv⟩
      · rename_i qUsed hq
        obtain ⟨hroom, hq⟩ := incQUsed_eq_some.1 hq
        exact .inr ⟨readAddr, d, rfl, by simpa using hhost,
          accept_accepts h (not_lt.1 hsize) hroom hq hstat⟩

/-! ## Sending -/

/-- Behind the taking of `d`, what is left alone until its fate is settled. -/
structure Taken (o : Options) (e : Emulator) (timers : Multimer TimerFunc) (rest : List Bytes)
    (draws : Draws) (t : Emulator) : Prop where
  queue : t.queue = rest ∨ o.outOfOrder ≠ 0 ∧ t.queue = (isOutOfOrder o rest draws.order).2
  timers : t.timers = timers
  qUsed : t.qUsed = e.qUsed
  rUdpC : t.rUdpC = e.rUdpC
  sUdpC : t.sUdpC = e.sUdpC
  prvRcv : t.stat.prvRcv = e.stat.prvRcv
  prvIntervled : t.stat.prvIntervled = e.stat.prvIntervled
  rPacket : t.stat.rPacket = e.stat.rPacket
  sPacket : t.stat.sPacket = e.stat.sPacket
  randomLoss : t.stat.randomLoss = e.stat.randomLoss
  reading : t.reading = e.reading

variable {rest : List Bytes} {t : Emulator} {timers : Multimer TimerFunc}

theorem Taken.reorder (h : Taken o e timers rest draws t) (hq : t.queue = rest) :
    Taken o e timers rest draws (t.reorder o draws) := by
  unfold Emulator.reorder
  split_ifs with ho
  · exact { h with queue := .inr ⟨ho.1, by rw [hq]⟩ }
  · exact h

/-- Damaging the packet touches the state in a statistic alone. -/
theorem corrupt_eq_some (h : e.corrupt o d draws = some (t, d')) :
    (∃ biterror, t = { e with stat := { e.stat with biterror := biterror } }) ∧
      if o.bitError = 0 then d' = d else isBitError d draws.bits = some d' := by
  unfold corrupt at h
  split_ifs at h with hb
  · simp only [Option.bind_eq_bind, Option.bind_eq_some_iff] at h
    obtain ⟨d₁, hd, h⟩ := h
    obtain ⟨rfl, rfl⟩ := Prod.mk.inj (Option.some.inj h)
    exact ⟨⟨_, rfl⟩, by rwa [if_neg hb]⟩
  · obtain ⟨rfl, rfl⟩ := Prod.mk.inj (Option.some.inj h)
    exact ⟨⟨e.stat.biterror, rfl⟩, by rw [if_pos (not_not.1 hb)]⟩

theorem counted_lose (h : e.lose o d = (e', eff)) (hd : (d.length : ℤ) ≤ e.qUsed)
    (hb : e.qUsed ≤ o.inQBufSize) : Counted e d e' eff := by
  simp only [lose, decQUsed_of_le hd hb, Prod.mk.injEq] at h
  obtain ⟨rfl, rfl⟩ := h
  exact .lost rfl rfl rfl rfl

theorem counted_send (h : e.send o d d' draws = (e', eff)) (hd : (d.length : ℤ) ≤ e.qUsed)
    (hb : e.qUsed ≤ o.inQBufSize) : Counted e d e' eff := by
  unfold send at h
  split_ifs at h
  · obtain ⟨rfl, rfl⟩ := Prod.mk.inj h
    exact .unsent rfl rfl rfl rfl
  · simp only [decQUsed_of_le hd hb, Prod.mk.injEq] at h
    obtain ⟨rfl, rfl⟩ := h
    exact .sent d' rfl rfl rfl rfl

/-- The fate of the packet leaves the rest alone. -/
structure Settled (t e' : Emulator) : Prop where
  queue : e'.queue = t.queue
  timers : e'.timers = t.timers
  rUdpC : e'.rUdpC = t.rUdpC
  prvRcv : e'.stat.prvRcv = t.stat.prvRcv
  prvIntervled : e'.stat.prvIntervled = t.stat.prvIntervled
  rPacket : e'.stat.rPacket = t.stat.rPacket
  reading : e'.reading = t.reading

theorem settled_lose (h : t.lose o d = (e', eff)) : Settled t e' ∧ eff = .lost d := by
  unfold lose at h
  split at h
  · obtain ⟨rfl, rfl⟩ := Prod.mk.inj h
    exact ⟨⟨rfl, rfl, rfl, rfl, rfl, rfl, rfl⟩, rfl⟩
  · obtain ⟨rfl, rfl⟩ := Prod.mk.inj h
    exact ⟨⟨rfl, rfl, rfl, rfl, rfl, rfl, rfl⟩, rfl⟩

theorem settled_send (h : t.send o d d' draws = (e', eff)) :
    Settled t e' ∧ eff = if draws.written then .sent d d' else .unsent d := by
  unfold send at h
  split_ifs at h with hw
  · obtain ⟨rfl, rfl⟩ := Prod.mk.inj h
    exact ⟨⟨rfl, rfl, rfl, rfl, rfl, rfl, rfl⟩, by rw [if_neg (by simpa using hw)]⟩
  · rw [if_pos (by simpa using hw)]
    split at h
    · obtain ⟨rfl, rfl⟩ := Prod.mk.inj h
      exact ⟨⟨rfl, rfl, rfl, rfl, rfl, rfl, rfl⟩, rfl⟩
    · obtain ⟨rfl, rfl⟩ := Prod.mk.inj h
      exact ⟨⟨rfl, rfl, rfl, rfl, rfl, rfl, rfl⟩, rfl⟩

theorem Counted.of_taken (ht : Taken o e timers rest draws t) (h : Counted t d e' eff) :
    Counted e d e' eff := by
  cases h with
  | lost hq hs hp hr =>
    exact .lost (ht.qUsed ▸ hq) (ht.sUdpC ▸ hs) (ht.sPacket ▸ hp) (ht.randomLoss ▸ hr)
  | sent d' hq hs hp hr =>
    exact .sent d' (ht.qUsed ▸ hq) (ht.sUdpC ▸ hs) (ht.sPacket ▸ hp) (ht.randomLoss ▸ hr)
  | unsent hq hs hp hr =>
    exact .unsent (ht.qUsed ▸ hq) (ht.sUdpC ▸ hs) (ht.sPacket ▸ hp) (ht.randomLoss ▸ hr)

/-- What `sendHandler` does, called for the timer at the head. -/
theorem sendHandler_serves {client : ℕ}
    (hcall : e.timers.timerPass now = some (.call .sendHandler client timers))
    (h : sendHandler o { e with timers := timers } draws = some (e', eff)) :
    ∃ d rest, Serves o e now draws d rest e' eff := by
  simp only [sendHandler, Option.bind_eq_bind, Option.bind_eq_some_iff] at h
  obtain ⟨⟨d, rest⟩, hget, h⟩ := h
  have hhead : e.queue = d :: rest := by
    cases hq : e.queue with
    | nil => simp [Fifo.get, hq] at hget
    | cons d₁ rest₁ =>
      simp only [Fifo.get, hq, Option.some.injEq, Prod.mk.injEq] at hget
      rw [hget.1, hget.2]
  have serves : ∀ {t : Emulator}, Taken o e timers rest draws t → Settled t e' →
      Effect.On o d draws eff → ((d.length : ℤ) ≤ t.qUsed → t.qUsed ≤ o.inQBufSize →
        Counted t d e' eff) → Serves o e now draws d rest e' eff := by
    intro t ht hs heff hc
    refine ⟨⟨client, ?_⟩, hhead, hs.queue ▸ ht.queue, heff, hs.rUdpC.trans ht.rUdpC,
      hs.prvRcv.trans ht.prvRcv, hs.prvIntervled.trans ht.prvIntervled,
      hs.rPacket.trans ht.rPacket, hs.reading.trans ht.reading, fun hd hb => ?_⟩
    · rw [hs.timers, ht.timers, hcall]
    · exact (hc (ht.qUsed ▸ hd) (ht.qUsed ▸ hb)).of_taken ht
  refine ⟨d, rest, ?_⟩
  generalize hL : (if o.randomLoss ≠ 0 ∨ o.gilCondLoss.positive = true then
    isPacketLoss o e.stage draws else (false, e.stage)) = L at h
  obtain ⟨loss, stage⟩ := L
  have htaken : ∀ biterror, Taken o e timers rest draws
      { e with
        timers := timers
        queue := rest
        stage := stage
        stat := { e.stat with biterror := biterror } } :=
    fun _ => ⟨.inl rfl, rfl, rfl, rfl, rfl, rfl, rfl, rfl, rfl, rfl, rfl⟩
  cases loss with
  | true =>
    have hloss : o.randomLoss ≠ 0 ∨ o.gilCondLoss.positive = true := by
      by_contra hno
      rw [if_neg hno] at hL
      cases hL
    have hlose : lose o { e with timers := timers, queue := rest, stage := stage } d = (e', eff) :=
      Option.some.inj h
    obtain ⟨hs, rfl⟩ := settled_lose hlose
    exact serves (htaken e.stat.biterror) hs ⟨rfl, hloss⟩ (counted_lose hlose)
  | false =>
    rw [if_neg (by simp)] at h
    obtain ⟨⟨t, d'⟩, hcor, h⟩ := Option.bind_eq_some_iff.1 h
    obtain ⟨⟨biterror, rfl⟩, hd'⟩ := corrupt_eq_some hcor
    have hsend := Option.some.inj h
    obtain ⟨hs, rfl⟩ := settled_send hsend
    refine serves ((htaken biterror).reorder rfl) hs ?_ (counted_send hsend)
    cases hw : draws.written with
    | true => exact ⟨rfl, hw, hd'⟩
    | false => exact ⟨rfl, by simp [hw]⟩

/-- What a step does. -/
theorem emit_cases (h : e.emit o ev = some (e', eff)) :
    (Kept e e' ∧ eff.quiet ∧ (e'.stat.prvRcv = e.stat.prvRcv ∨
        ∃ received now, ev = .read received now ∧ e'.stat.prvRcv = now)) ∨
      (∃ readAddr d now, ev = .read (some (readAddr, d)) now ∧ checkHost readAddr o.srceHost ∧
        Accepts o e (d.take BUFSIZE) now e' eff) ∨
      ∃ now draws d rest, ev = .timer now draws ∧ Serves o e now draws d rest e' eff := by
  cases ev with
  | read received now =>
    simp only [emit] at h
    split_ifs at h with hr
    rcases readHandler_cases h with ⟨hk, heff, hrcv⟩ | ⟨readAddr, d, rfl, hhost, ha⟩
    · exact .inl ⟨hk, heff, hrcv.imp_right fun hrcv => ⟨received, now, rfl, hrcv⟩⟩
    · exact .inr (.inl ⟨readAddr, d, now, rfl, hhost, ha⟩)
  | timer now draws =>
    simp only [emit] at h
    split at h
    · cases h
    · rename_i client timers hcall
      obtain ⟨d, rest, hs⟩ := sendHandler_serves hcall h
      exact .inr (.inr ⟨now, draws, d, rest, rfl, hs⟩)
    · obtain ⟨rfl, rfl⟩ := Prod.mk.inj (Option.some.inj h)
      exact .inl ⟨⟨rfl, rfl, rfl, rfl, rfl, rfl, rfl, rfl, rfl⟩, rfl, .inl rfl⟩
  | quit =>
    simp only [emit] at h
    split_ifs at h
    obtain ⟨rfl, rfl⟩ := Prod.mk.inj (Option.some.inj h)
    exact .inl ⟨⟨rfl, rfl, rfl, rfl, rfl, rfl, rfl, rfl, rfl⟩, rfl, .inl rfl⟩
  | flushed =>
    simp only [emit] at h
    split_ifs at h
    obtain ⟨rfl, rfl⟩ := Prod.mk.inj (Option.some.inj h)
    exact .inl ⟨⟨rfl, rfl, rfl, rfl, rfl, rfl, rfl, rfl, rfl⟩, rfl, .inl rfl⟩

end Emulator

end TcpLike
