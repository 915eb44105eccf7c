import Mathlib.Data.List.Perm.Basic
import TcpLike.Proofs.EmulatorStep

/-!
# The accounts of the emulator

What has become of the packets received, kept beside a run (`Ledger`). Every one of them is held,
lost, sent, left unsent by a `sendto` that failed, or was refused by a full queue, and the counters
of the program say how many and how long they are (`Emulator.conserved`).
-/

namespace TcpLike

/-- A packet received: when, `prvIntervled_tv` then, and whether the queue has taken it. -/
structure Arrival where
  time : Timeval
  prvIntervled : Timeval
  packet : Bytes
  queued : Bool
  deriving DecidableEq, Repr

/-- What has become of the packets: those received, those taken from the queue and when, and of
these the lost ones, the sent ones with what they were sent as, and the rest. -/
structure Ledger where
  accepted : List Arrival
  served : List (Timeval × Bytes)
  lost : List Bytes
  sent : List (Bytes × Bytes)
  unsent : List Bytes
  deriving DecidableEq, Repr

namespace Ledger

def empty : Ledger := ⟨[], [], [], [], []⟩

/-- The ledger with a step entered. -/
def note (e : Emulator) (ev : Event) (eff : Effect) (L : Ledger) : Ledger :=
  match ev, eff with
  | .read _ now, .accepted d queued =>
    { L with accepted := L.accepted ++ [⟨now, e.stat.prvIntervled, d, queued⟩] }
  | .timer now _, .lost d => { L with served := L.served ++ [(now, d)], lost := L.lost ++ [d] }
  | .timer now _, .sent d d' =>
    { L with served := L.served ++ [(now, d)], sent := L.sent ++ [(d, d')] }
  | .timer now _, .unsent d =>
    { L with served := L.served ++ [(now, d)], unsent := L.unsent ++ [d] }
  | _, _ => L

def packets (L : Ledger) : List Bytes := L.accepted.map Arrival.packet

/-- The packets the queue has taken. -/
def queued (L : Ledger) : List Arrival := L.accepted.filter Arrival.queued

/-- The packets a full queue has refused. -/
def refused (L : Ledger) : List Bytes := (L.accepted.filter (!·.queued)).map Arrival.packet

def servedPackets (L : Ledger) : List Bytes := L.served.map Prod.snd

end Ledger

/-- The bytes of some packets. -/
def bytesOf (ds : List Bytes) : ℕ := (ds.map List.length).sum

@[simp] theorem bytesOf_nil : bytesOf [] = 0 := rfl

@[simp] theorem bytesOf_cons (d : Bytes) (ds : List Bytes) :
    bytesOf (d :: ds) = d.length + bytesOf ds := List.sum_cons

@[simp] theorem bytesOf_append (ds es : List Bytes) :
    bytesOf (ds ++ es) = bytesOf ds + bytesOf es := by simp [bytesOf]

theorem bytesOf_perm {ds es : List Bytes} (h : ds.Perm es) : bytesOf ds = bytesOf es :=
  (h.map List.length).sum_eq

namespace Emulator

variable (o : Options)

/-- A run of the emulator beside its ledger, whose steps each meet `ok`. -/
abbrev LedgerRun (ok : Emulator × Ledger → Event → Prop) : Emulator × Ledger → Emulator × Ledger →
    Prop :=
  Transition.Run (Transition.recorded (emit o) Ledger.note) ok

/-- The emulator can get to `e`, with `L` the ledger of the way there. -/
abbrev Recorded (ok : Emulator × Ledger → Event → Prop) (start : Timeval) (e : Emulator)
    (L : Ledger) : Prop :=
  LedgerRun o ok (init start, .empty) (e, L)

/-- The counters agree with the ledger, and no packet is missing from it. -/
structure Balanced (e : Emulator) (L : Ledger) : Prop where
  held : L.packets.Perm (L.servedPackets ++ (e.queue ++ L.refused))
  served : L.servedPackets.Perm (L.lost ++ (L.sent.map Prod.fst ++ L.unsent))
  qUsed : e.qUsed = bytesOf e.queue + bytesOf L.refused + bytesOf L.unsent
  room : e.qUsed ≤ o.inQBufSize
  rUdpC : e.rUdpC = bytesOf L.packets % 2 ^ 32
  sUdpC : e.sUdpC = bytesOf (L.sent.map Prod.fst) % 2 ^ 32
  rPacket : e.stat.rPacket = int32 L.accepted.length
  sPacket : e.stat.sPacket = int32 L.sent.length
  randomLoss : e.stat.randomLoss = int32 L.lost.length
  length : e.queue.length ≤ MAX_Q_SIZE

variable {o} {e e' : Emulator} {L : Ledger} {d : Bytes} {rest : List Bytes} {now : Timeval}
  {draws : Draws} {eff : Effect} {ev : Event} {start : Timeval}

theorem balanced_init (start : Timeval) : Balanced o (init start) .empty := by
  have hzero : (0 : ℤ) = int32 0 := (int32_of_lt (by decide) (by decide)).symm
  exact ⟨.nil, .nil, rfl, Int.natCast_nonneg _, rfl, rfl, hzero, hzero, hzero, Nat.zero_le _⟩

/-- Of the queue behind the packet taken, the oldest packet may go to the rear. -/
theorem isOutOfOrder_eq (r : ℕ) (h : rest.length ≤ MAX_Q_SIZE) :
    (isOutOfOrder o rest r).2 = rest ∨
      ∃ d ds, rest = d :: ds ∧ (isOutOfOrder o rest r).2 = ds ++ [d] := by
  unfold isOutOfOrder
  split_ifs
  · exact .inl rfl
  · exact .inl rfl
  · cases rest with
    | nil => exact .inl rfl
    | cons d ds =>
      refine .inr ⟨d, ds, rfl, ?_⟩
      have hadd : Fifo.add ds d = some (ds ++ [d]) :=
        if_neg (by rw [List.length_cons] at h; omega)
      simp [Fifo.get, hadd]

/-- No packet is lost or made by going to the rear. -/
theorem Serves.perm (h : Serves o e now draws d rest e' eff) (hl : e.queue.length ≤ MAX_Q_SIZE) :
    e'.queue.Perm rest := by
  have hrest : rest.length ≤ MAX_Q_SIZE := by
    rw [h.head, List.length_cons] at hl
    omega
  rcases h.queue with hq | ⟨-, hq⟩
  · rw [hq]
  · rcases isOutOfOrder_eq (o := o) draws.order hrest with hr | ⟨d₁, ds, rfl, hr⟩
    · rw [hq, hr]
    · rw [hq, hr]
      exact List.perm_append_singleton d₁ ds

theorem note_of_quiet (h : eff.quiet) (ev : Event) : L.note e ev eff = L := by
  cases eff <;> cases ev <;> first | rfl | simp [Effect.quiet] at h

theorem Balanced.kept (hb : Balanced o e L) (hk : Kept e e') : Balanced o e' L where
  held := hk.queue ▸ hb.held
  served := hb.served
  qUsed := by rw [hk.qUsed, hk.queue, hb.qUsed]
  room := hk.qUsed ▸ hb.room
  rUdpC := hk.rUdpC ▸ hb.rUdpC
  sUdpC := hk.sUdpC ▸ hb.sUdpC
  rPacket := hk.rPacket ▸ hb.rPacket
  sPacket := hk.sPacket ▸ hb.sPacket
  randomLoss := hk.randomLoss ▸ hb.randomLoss
  length := hk.queue ▸ hb.length

/-- A packet received is held or refused. -/
theorem Balanced.accepts (hb : Balanced o e L) (ha : Accepts o e d now e' eff)
    (received : Option (Host × Bytes)) : Balanced o e' (L.note e (.read received now) eff) := by
  obtain rfl := ha.effect
  have hpackets : (L.note e (.read received now)
      (.accepted d (Fifo.add e.queue d).isSome)).packets = L.packets ++ [d] := by
    simp [Ledger.note, Ledger.packets]
  have hpart : e'.queue.length ≤ MAX_Q_SIZE ∧ (e'.queue ++ (L.note e (.read received now)
      (.accepted d (Fifo.add e.queue d).isSome)).refused).Perm (e.queue ++ L.refused ++ [d]) := by
    rw [ha.queue]
    unfold Fifo.add
    split_ifs with hfull
    · exact ⟨hb.length, by simp [Ledger.note, Ledger.refused]⟩
    · refine ⟨by simp; omega, ?_⟩
      have href : (L.note e (.read received now) (.accepted d true)).refused = L.refused := by
        simp [Ledger.note, Ledger.refused]
      rw [Option.isSome_some, href, Option.getD_some, List.append_assoc, List.append_assoc]
      exact List.perm_append_comm.append_left e.queue
  refine ⟨?_, hb.served, ?_, ha.qUsed ▸ ha.room, ?_, ha.sUdpC ▸ hb.sUdpC, ?_,
    ha.sPacket ▸ hb.sPacket, ha.randomLoss ▸ hb.randomLoss, hpart.1⟩
  · rw [hpackets]
    refine (hb.held.append_right [d]).trans ?_
    rw [List.append_assoc]
    exact hpart.2.symm.append_left L.servedPackets
  · have hbytes := bytesOf_perm hpart.2
    simp only [bytesOf_append, bytesOf_cons, bytesOf_nil] at hbytes
    rw [ha.qUsed, hb.qUsed]
    show _ = _ + _ + (bytesOf L.unsent : ℤ)
    omega
  · rw [ha.rUdpC, hpackets, hb.rUdpC]
    simp
  · rw [ha.rPacket, hb.rPacket, int32_add]
    simp [Ledger.note]

/-- A packet taken from the queue is lost, sent or left unsent. -/
theorem Balanced.serves (hb : Balanced o e L) (hs : Serves o e now draws d rest e' eff) :
    Balanced o e' (L.note e (.timer now draws) eff) := by
  have hperm : (d :: e'.queue).Perm e.queue := hs.head ▸ (hs.perm hb.length).cons d
  have hlen : e'.queue.length ≤ MAX_Q_SIZE := by
    have := hperm.length_eq
    have := hb.length
    simp only [List.length_cons] at *
    omega
  have hbytes : bytesOf e.queue = d.length + bytesOf e'.queue := by
    rw [← bytesOf_perm hperm, bytesOf_cons]
  have hqUsed := hb.qUsed
  have hcounted := hs.counted (by omega) hb.room
  have hheld : L.packets.Perm
      ((L.served ++ [(now, d)]).map Prod.snd ++ (e'.queue ++ L.refused)) := by
    refine hb.held.trans ?_
    rw [List.map_append, List.append_assoc]
    exact (hperm.symm.append_right L.refused).append_left L.servedPackets
  have hserved : ((L.served ++ [(now, d)]).map Prod.snd).Perm
      (L.lost ++ (L.sent.map Prod.fst ++ L.unsent) ++ [d]) := by
    rw [List.map_append]
    exact hb.served.append_right [d]
  have hroom := hb.room
  have hrUdpC : e'.rUdpC = bytesOf L.packets % 2 ^ 32 := hs.rUdpC ▸ hb.rUdpC
  have hrPacket : e'.stat.rPacket = int32 L.accepted.length := hs.rPacket ▸ hb.rPacket
  cases hcounted with
  | lost hq hsu hp hr =>
    refine ⟨hheld, hserved.trans ?_, ?_, by omega, hrUdpC, hsu ▸ hb.sUdpC, hrPacket,
      hp ▸ hb.sPacket, ?_, hlen⟩
    · show (_ ++ [d]).Perm (L.lost ++ [d] ++ (L.sent.map Prod.fst ++ L.unsent))
      rw [List.append_assoc, List.append_assoc L.lost]
      exact List.perm_append_comm.append_left L.lost
    · show _ = _ + (bytesOf L.refused : ℤ) + bytesOf L.unsent
      omega
    · rw [hr, hb.randomLoss, int32_add]
      simp [Ledger.note]
  | sent d' hq hsu hp hr =>
    refine ⟨hheld, hserved.trans ?_, ?_, by omega, hrUdpC, ?_, hrPacket, ?_, hr ▸ hb.randomLoss,
      hlen⟩
    · show (_ ++ [d]).Perm (L.lost ++ ((L.sent ++ [(d, d')]).map Prod.fst ++ L.unsent))
      rw [List.map_append, List.append_assoc, List.append_assoc, List.append_assoc]
      exact (List.perm_append_comm.append_left _).append_left L.lost
    · show _ = _ + (bytesOf L.refused : ℤ) + bytesOf L.unsent
      omega
    · show e'.sUdpC = bytesOf ((L.sent ++ [(d, d')]).map Prod.fst) % 2 ^ 32
      rw [hsu, hb.sUdpC, List.map_append, bytesOf_append]
      simp
    · rw [hp, hb.sPacket, int32_add]
      simp [Ledger.note]
  | unsent hq hsu hp hr =>
    refine ⟨hheld, hserved.trans ?_, ?_, by omega, hrUdpC, hsu ▸ hb.sUdpC, hrPacket,
      hp ▸ hb.sPacket, hr ▸ hb.randomLoss, hlen⟩
    · show (_ ++ [d]).Perm (L.lost ++ (L.sent.map Prod.fst ++ (L.unsent ++ [d])))
      rw [List.append_assoc, List.append_assoc]
    · show _ = _ + (bytesOf L.refused : ℤ) + bytesOf (L.unsent ++ [d])
      rw [bytesOf_append]
      simp
      omega

/-- A step enters its packet in the ledger, and in the counters. -/
theorem Balanced.emit (hb : Balanced o e L) (h : emit o e ev = some (e', eff)) :
    Balanced o e' (L.note e ev eff) := by
  rcases emit_cases h with ⟨hk, hq, -⟩ | ⟨readAddr, d, now, rfl, -, ha⟩ |
    ⟨now, draws, d, rest, rfl, hs⟩
  · rw [note_of_quiet hq]
    exact hb.kept hk
  · exact hb.accepts ha _
  · exact hb.serves hs

/-- In every run of the emulator the counters agree with what has become of the packets. -/
theorem balanced {ok : Emulator × Ledger → Event → Prop} (h : Recorded o ok start e L) :
    Balanced o e L := by
  refine h.invariant (I := fun x => Balanced o x.1 x.2) ?_ (balanced_init start)
  rintro ⟨e, L⟩ ev ⟨e', L'⟩ hb - hs
  obtain ⟨eff, hemit, rfl⟩ := Transition.recorded_eq_some.1 hs
  exact Balanced.emit hb hemit

/-- Of the packets received none is missing and none is there twice, and the counters of the program
agree as far as their 32 bits go. The bytes of a packet that a full queue has refused or `sendto`
has not written are never given back to the buffer. -/
theorem conserved {ok : Emulator × Ledger → Event → Prop} (h : Recorded o ok start e L) :
    L.packets.Perm (e.queue ++ L.refused ++ L.lost ++ L.sent.map Prod.fst ++ L.unsent) ∧
      (e.stat.rPacket = int32 L.packets.length ∧ e.stat.randomLoss = int32 L.lost.length ∧
        e.stat.sPacket = int32 L.sent.length) ∧
      e.stat.rPacket = int32 (e.queue.length + L.refused.length + e.stat.randomLoss +
        e.stat.sPacket + L.unsent.length) ∧
      e.qUsed = bytesOf e.queue + bytesOf L.refused + bytesOf L.unsent ∧
      e.qUsed ≤ o.inQBufSize ∧ e.rUdpC = bytesOf L.packets % 2 ^ 32 ∧
      e.sUdpC = bytesOf (L.sent.map Prod.fst) % 2 ^ 32 := by
  have hb := balanced h
  have hperm : L.packets.Perm
      (e.queue ++ L.refused ++ L.lost ++ L.sent.map Prod.fst ++ L.unsent) := by
    refine hb.held.trans (List.perm_append_comm.trans ?_)
    refine (hb.served.append_left (e.queue ++ L.refused)).trans (.of_eq ?_)
    simp only [List.append_assoc]
  have hpackets : L.packets.length = L.accepted.length := List.length_map _
  refine ⟨hperm, ⟨hpackets ▸ hb.rPacket, hb.randomLoss, hb.sPacket⟩, ?_, hb.qUsed, hb.room,
    hb.rUdpC, hb.sUdpC⟩
  have hlen := hperm.length_eq
  simp only [List.length_append, List.length_map] at hlen
  rw [hb.rPacket, hb.randomLoss, hb.sPacket, ← hpackets, hlen]
  push_cast
  exact int32_congr ((((int32_modEq L.lost.length).add_left _).add
    (int32_modEq L.sent.length)).add_right _).symm

/-- Two packets from the source host, and the timer that takes the first. -/
def twoPackets : List Event :=
  [.read (some (⟨2130706433, 41191⟩, List.replicate 9 1)) ⟨100, 0⟩,
    .read (some (⟨2130706433, 41191⟩, List.replicate 10 2)) ⟨100, 500⟩,
    .timer ⟨101, 0⟩ ⟨⟨101, 0⟩, 0, false, false, [], 0, true⟩]

theorem conserved_twoPackets : ∃ (e : Emulator) (L : Ledger), L.sent.length = 1 ∧
    L.packets.Perm (e.queue ++ L.refused ++ L.lost ++ L.sent.map Prod.fst ++ L.unsent) := by
  have h : ∃ x, LedgerRun (initOptions 2130706433) (fun _ _ => True) (init ⟨99, 0⟩, .empty) x ∧
      decide (x.2.sent.length = 1) :=
    Transition.Run.exists_of_exec twoPackets _ (by decide +kernel)
  obtain ⟨⟨e, L⟩, h, hsent⟩ := h
  exact ⟨e, L, of_decide_eq_true hsent, (conserved h).1⟩

end Emulator

end TcpLike
