import TcpLike.Proofs.Wire

/-!
# The retry budget

A segment that is never acked is retransmitted `MAXTRIES - 1` times and given up if the first
receive throws, or if the first hundred are wrong acks (`exhaustsBudget_iff`). In the wrong-ack loop
an exception counts a try twice: with one among the first hundred the loop is left too early, or
`tries` runs past `MAXTRIES` and a round starts again, by when 50 retransmissions have been made.
-/

namespace TcpLike

namespace Sender

section Receives

variable (c : SenderConfig) (s : Sender) (o : ℕ → Outcome)

/-- The packet after the first `n` receives. -/
def packets : ℕ → DatagramPacket
  | 0 => s.inPacket
  | n + 1 => { s with inPacket := packets n }.packetAfter (o n)

/-- What receive `n` comes to: a valid ack, a wrong one, or an exception. -/
def verdict (n : ℕ) : Java Bool := ({ s with inPacket := s.packets o n }.retryReceive (o n)).2

/-- The sender after the first `n` receives, with all it has sent in them. -/
def afterReceives : ℕ → Option (Sender × List Bytes)
  | 0 => some (s, [])
  | n + 1 =>
    (afterReceives n).bind fun (t, sent) =>
      (senderStep c t (.receive (o n))).map fun (u, out) => (u, sent ++ out)

/-- The segment in hand is retransmitted `MAXTRIES - 1` times, and given up. -/
def ExhaustsBudget : Prop :=
  ∃ n t, s.afterReceives c o n = some (t, List.replicate (MAXTRIES - 1) (s.current c)) ∧
    t.pc = .leftLoop ∧ t.isBroken = true

/-- The sender waits in a retry loop for the ack of the segment of `s`, `n` receives on. -/
structure Waits (n : ℕ) (t : Sender) (pc : SenderPc) (tries : ℕ) : Prop where
  pc : t.pc = pc
  tries : t.tries = tries
  isBroken : t.isBroken = true
  kept : Kept s t
  inPacket : t.inPacket = s.packets o n

end Receives

variable {c : SenderConfig} {s t u : Sender} {o : ℕ → Outcome} {n k : ℕ} {pc : SenderPc}
  {out : List Bytes}

theorem packets_succ (hp : t.inPacket = s.packets o n) :
    s.packets o (n + 1) = t.packetAfter (o n) := by
  rw [packets]
  rcases o n with _ | d <;> simp [packetAfter, hp]

theorem retryReceive_eq (hk : Kept s t) (hp : t.inPacket = s.packets o n) :
    t.retryReceive (o n) = ({ t with inPacket := s.packets o (n + 1) }, s.verdict o n) := by
  refine Prod.ext ?_ ?_
  · rw [packets_succ hp]
    exact retryReceive_fst rfl
  · unfold verdict retryReceive receiveAck
    rcases o n with _ | d
    · rfl
    · simp [receive, hp, hk.seqNum]

theorem receiveAck_eq (hp : t.inPacket = s.packets o n) :
    (t.receiveAck (o n)).1 = { t with inPacket := s.packets o (n + 1) } := by
  rw [receiveAck_fst, packets_succ hp]

/-- A retransmission, and back to the receive. -/
theorem waits_retransmit (hk : Kept s t) (hp : t.inPacket = s.packets o n)
    (hb : t.isBroken = true) :
    (t.retransmit c).2 = [s.current c] ∧
      s.Waits o n (t.retransmit c).1 t.pc t.tries := by
  refine ⟨congrArg ([·]) (hk.current c), rfl, rfl, hb, hk.trans ?_, hp⟩
  exact ⟨rfl, rfl, rfl, rfl, rfl, rfl, rfl, rfl, rfl⟩

/-- What a try leads to: `tries` is counted on, and below `MAXTRIES` the segment is sent again. -/
structure Counted (c : SenderConfig) (s : Sender) (o : ℕ → Outcome) (n : ℕ) (t : Sender)
    (pc : SenderPc) (tries : ℕ) : Prop where
  again : tries < MAXTRIES → ∃ u, senderStep c t (.receive (o n)) = some (u, [s.current c]) ∧
    s.Waits o (n + 1) u pc tries
  last : tries = MAXTRIES → ∃ u, senderStep c t (.receive (o n)) = some (u, []) ∧
    u.pc = .leftLoop ∧ u.isBroken = true

theorem kept_update (hk : Kept s t) (pc : SenderPc) (p : DatagramPacket) (tries : ℕ)
    (isBroken : Bool) :
    Kept s { t with pc := pc, inPacket := p, tries := tries, isBroken := isBroken } :=
  hk.trans ⟨rfl, rfl, rfl, rfl, rfl, rfl, rfl, rfl, rfl⟩

/-- The head of the no-response loop, `tries` counted. -/
theorem noResponseLoop_waits (hk : Kept s t) (tries : ℕ) (ht : tries < MAXTRIES) :
    ∃ u, { t with inPacket := s.packets o n, tries := tries, isBroken := true }.noResponseLoop c
      = (u, [s.current c]) ∧ s.Waits o n u .noResponse tries := by
  obtain ⟨hout, hw⟩ := waits_retransmit (c := c) (o := o) (n := n)
    (kept_update hk .noResponse (s.packets o n) tries true) rfl rfl
  rw [noResponseLoop, if_pos ht]
  exact ⟨_, Prod.ext rfl hout, hw⟩

/-- The head of the inner loop of the wrong-ack loop, `tries` counted. -/
theorem wrongAckLoop_waits (hk : Kept s t) (tries : ℕ) (ht : tries < MAXTRIES) :
    ∃ u, { t with inPacket := s.packets o n, tries := tries, isBroken := true }.wrongAckLoop c
      = (u, [s.current c]) ∧ s.Waits o n u .wrongAck tries := by
  obtain ⟨hout, hw⟩ := waits_retransmit (c := c) (o := o) (n := n)
    (kept_update hk .wrongAck (s.packets o n) tries true) rfl rfl
  rw [wrongAckLoop, if_pos ht]
  exact ⟨_, Prod.ext rfl hout, hw⟩

theorem Waits.noResponse (hw : s.Waits o n t .noResponse k) (hv : s.verdict o n ≠ .ok true) :
    Counted c s o n t .noResponse (k + 1) := by
  have hstep : senderStep c t (.receive (o n)) = some
      ({ t with inPacket := s.packets o (n + 1), tries := k + 1, isBroken := true }.noResponseLoop
        c) := by
    have hb := hw.isBroken
    have ht := hw.tries
    simp only [senderStep, hw.pc, Sender.noResponse, retryReceive_eq hw.kept hw.inPacket]
    rcases hv' : s.verdict o n with e | valid
    · simp only [ht, hb]
    · cases valid with
      | true => exact absurd hv' hv
      | false => simp only [ht, hb]
  refine ⟨fun hlt => ?_, fun hlast => ?_⟩
  · obtain ⟨u, hu, hwu⟩ := noResponseLoop_waits (c := c) (o := o) (n := n + 1) hw.kept _ hlt
    exact ⟨u, by rw [hstep, hu], hwu⟩
  · rw [hstep, noResponseLoop, if_neg hlast.ge.not_gt, finallyBlock_left hlast]
    exact ⟨_, rfl, rfl, rfl⟩

section WrongAck

variable {j : ℕ}

/-- A try of the wrong-ack loop. -/
theorem wrongAck_counted (hk : Kept s t)
    (hstep : senderStep c t (.receive (o n)) = some
      ({ t with inPacket := s.packets o (n + 1), tries := j, isBroken := true }.wrongAckLoop c)) :
    Counted c s o n t .wrongAck j := by
  refine ⟨fun hlt => ?_, fun hlast => ?_⟩
  · obtain ⟨u, hu, hwu⟩ := wrongAckLoop_waits (c := c) (o := o) (n := n + 1) hk _ hlt
    exact ⟨u, by rw [hstep, hu], hwu⟩
  · rw [hstep, wrongAckLoop, if_neg hlast.ge.not_gt, afterWrongAck, if_pos hlast,
      finallyBlock_left hlast]
    exact ⟨_, rfl, rfl, rfl⟩

/-- The test behind a round of the wrong-ack loop: another round, the no-response loop, or the end
of the wait. -/
theorem wrongAckWhile_waits (hk : Kept s t) (hf : (s.seqNum : ℤ) ≠ s.FILE_SIZE) (b : Bool) :
    let t' := { t with inPacket := s.packets o n, tries := j, isBroken := b }
    (∃ e u, isValidAck (s.packets o n) s.seqNum = .error e ∧
      t'.wrongAckWhile c = (u, [s.current c]) ∧ s.Waits o n u .noResponse 1) ∨
    (∃ u, isValidAck (s.packets o n) s.seqNum = .ok false ∧
      t'.wrongAckWhile c = (u, [s.current c]) ∧ s.Waits o n u .wrongAck 1) ∨
    (∃ u, isValidAck (s.packets o n) s.seqNum = .ok true ∧
      t'.wrongAckWhile c = (u, []) ∧ (j ≠ MAXTRIES → u.pc = .fileLoop)) := by
  intro t'
  have hseq : t'.seqNum = s.seqNum := hk.seqNum
  have hfs : (t'.seqNum : ℤ) ≠ t'.FILE_SIZE := by
    rw [hseq, show t'.FILE_SIZE = s.FILE_SIZE from hk.FILE_SIZE]
    exact hf
  have hin : t'.inPacket = s.packets o n := rfl
  rw [wrongAckWhile, hin, hseq]
  rcases hv : isValidAck (s.packets o n) s.seqNum with e | valid
  · obtain ⟨u, hu, hw⟩ := noResponseLoop_waits (c := c) (o := o) (n := n) hk 1 (by simp [MAXTRIES])
    exact .inl ⟨e, u, rfl, hu, hw⟩
  · cases valid with
    | false =>
      obtain ⟨u, hu, hw⟩ := wrongAckLoop_waits (c := c) (o := o) (n := n) hk 1
        (by simp [MAXTRIES])
      refine .inr (.inl ⟨u, rfl, ?_, hw⟩)
      rw [wrongAckLoop, if_pos (by simp [MAXTRIES])] at hu
      simp only [Bool.not_false, true_and]
      rw [← hseq, if_pos hfs]
      exact hu
    | true =>
      refine .inr (.inr ⟨_, rfl, rfl, fun hj => ?_⟩)
      rw [finallyBlock_next hj]

theorem Waits.rejected (hw : s.Waits o n t .wrongAck k) (hv : s.verdict o n = .ok false) :
    Counted c s o n t .wrongAck (k + 1) := by
  refine wrongAck_counted hw.kept ?_
  have hb := hw.isBroken
  have ht := hw.tries
  simp only [senderStep, hw.pc, wrongAck, retryReceive_eq hw.kept hw.inPacket, hv, ht, hb]

theorem Waits.thrown (hw : s.Waits o n t .wrongAck k) {e : JavaException}
    (hv : s.verdict o n = .error e) : senderStep c t (.receive (o n)) = some
      ({ t with inPacket := s.packets o (n + 1), tries := k + 2, isBroken := true }.wrongAckLoop
        c) := by
  have hb := hw.isBroken
  have ht := hw.tries
  simp only [senderStep, hw.pc, wrongAck, retryReceive_eq hw.kept hw.inPacket, hv, ht, hb]

end WrongAck

/-- The receive after the first transmission: an exception leads to the no-response loop, a wrong
ack to the wrong-ack loop. -/
theorem firstReceive_waits (hpc : s.pc = .firstReceive) (hf : (s.seqNum : ℤ) ≠ s.FILE_SIZE) :
    (∀ e, s.verdict o 0 = .error e → ∃ u,
      senderStep c s (.receive (o 0)) = some (u, [s.current c]) ∧
        s.Waits o 1 u .noResponse 1) ∧
    (s.verdict o 0 = .ok false → ∃ u,
      senderStep c s (.receive (o 0)) = some (u, [s.current c]) ∧
        s.Waits o 1 u .wrongAck 1) := by
  have hin : s.inPacket = s.packets o 0 := rfl
  have hstep : senderStep c s (.receive (o 0)) = some (s.firstReceive c (o 0)) := by
    simp only [senderStep, hpc]
  have hverdict : s.verdict o 0 = (s.retryReceive (o 0)).2 := by
    rw [retryReceive_eq (Kept.refl s) hin]
  have hfst := receiveAck_eq hin
  rw [hstep, hverdict]
  unfold retryReceive firstReceive
  rcases hr : s.receiveAck (o 0) with ⟨t, e | _⟩ <;> rw [hr] at hfst <;>
    simp only [] at hfst <;> subst hfst
  · obtain ⟨u, hu, hw⟩ := noResponseLoop_waits (c := c) (o := o) (n := 1) (Kept.refl s) 1
      (by simp [MAXTRIES])
    constructor
    · intro e' h
      exact ⟨u, congrArg some hu, hw⟩
    · intro h
      cases h
  · simp only [java_ok_bind]
    rcases wrongAckWhile_waits (c := c) (o := o) (n := 1) (j := s.tries) (Kept.refl s) hf
      s.isBroken with ⟨e, u, hv, hu, hw⟩ | ⟨u, hv, hu, hw⟩ | ⟨u, hv, -⟩ <;> rw [hv] <;>
      constructor
    · intro e' h
      exact ⟨u, congrArg some hu, hw⟩
    · intro h
      cases h
    · intro e' h
      cases h
    · intro h
      exact ⟨u, congrArg some hu, hw⟩
    · intro e' h
      cases h
    · intro h
      cases h

/-- A retry loop that counts every receive once runs out after `MAXTRIES` of them. -/
theorem exhaustsBudget_of_counted
    (hfirst : ∃ u, senderStep c s (.receive (o 0)) = some (u, [s.current c]) ∧ s.Waits o 1 u pc 1)
    (hstep : ∀ n t, n + 1 < MAXTRIES → s.Waits o (n + 1) t pc (n + 1) →
      Counted c s o (n + 1) t pc (n + 2)) : s.ExhaustsBudget c o := by
  have hrun : ∀ n, n + 1 < MAXTRIES → ∃ t,
      s.afterReceives c o (n + 1) = some (t, List.replicate (n + 1) (s.current c)) ∧
        s.Waits o (n + 1) t pc (n + 1) := by
    intro n
    induction n with
    | zero =>
      intro _
      obtain ⟨u, hu, hw⟩ := hfirst
      refine ⟨u, ?_, hw⟩
      simp [afterReceives, hu]
    | succ n ih =>
      intro hn
      obtain ⟨t, ht, hw⟩ := ih (by omega)
      obtain ⟨u, hu, hwu⟩ := (hstep n t (by omega) hw).again hn
      refine ⟨u, ?_, hwu⟩
      rw [afterReceives, ht, List.replicate_succ' (n := n + 1), Option.bind_some]
      simp only [hu, Option.map_some]
  obtain ⟨t, ht, hw⟩ := hrun 98 (by simp [MAXTRIES])
  obtain ⟨u, hu, hpc, hb⟩ := (hstep 98 t (by simp [MAXTRIES]) hw).last rfl
  refine ⟨100, u, ?_, hpc, hb⟩
  rw [afterReceives, ht]
  simp [hu, MAXTRIES]

theorem exhaustsBudget_of_error (hpc : s.pc = .firstReceive)
    (hf : (s.seqNum : ℤ) ≠ s.FILE_SIZE) (hv : ∀ n, s.verdict o n ≠ .ok true)
    {e : JavaException} (h0 : s.verdict o 0 = .error e) : s.ExhaustsBudget c o :=
  exhaustsBudget_of_counted ((firstReceive_waits hpc hf).1 e h0)
    fun _ _ _ hw => hw.noResponse (hv _)

theorem exhaustsBudget_of_rejected (hpc : s.pc = .firstReceive)
    (hf : (s.seqNum : ℤ) ≠ s.FILE_SIZE) (h : ∀ n < MAXTRIES, s.verdict o n = .ok false) :
    s.ExhaustsBudget c o :=
  exhaustsBudget_of_counted ((firstReceive_waits hpc hf).2 (h 0 (by simp [MAXTRIES])))
    fun n _ hn hw => hw.rejected (h (n + 1) hn)

/-! ## An exception among the wrong acks -/

/-- What `tries` says of the retransmissions made so far, in the wrong-ack loop. -/
inductive Round (s : Sender) (o : ℕ → Outcome) (n tries count : ℕ) : Prop
  /-- wrong acks only -/
  | clean (hn : 0 < n) (ht : tries = n) (hc : count = n)
      (hall : ∀ i < n, s.verdict o i = .ok false)
  /-- an exception among them, counted twice -/
  | hurried (hlt : count < tries) (hle : tries + 1 ≤ 2 * count)
  /-- the second round, or a later one -/
  | again (hle : tries + 101 ≤ 2 * count)

/-- Where the sender is behind `n` receives that do not make it end on the budget. -/
inductive OffBudget (s : Sender) (o : ℕ → Outcome) (n : ℕ) (t : Sender) (count : ℕ) : Prop
  | wrongAck {k : ℕ} (hw : s.Waits o n t .wrongAck k) (hk : k < MAXTRIES)
      (hr : s.Round o n k count)
  | noResponse {k : ℕ} (hw : s.Waits o n t .noResponse k) (hk : k < MAXTRIES)
      (hle : k + 50 ≤ count)
  | left (hpc : t.pc = .leftLoop) (hc : count ≠ MAXTRIES - 1)
  | next (hpc : t.pc = .fileLoop)

section Off

variable {count : ℕ}

theorem Round.rejected (h : s.Round o n k count) (hv : s.verdict o n = .ok false) :
    s.Round o (n + 1) (k + 1) (count + 1) := by
  rcases h with ⟨hn, ht, hc, hall⟩ | ⟨hlt, hle⟩ | hle
  · refine .clean (by omega) (by omega) (by omega) fun i hi => ?_
    rcases Nat.lt_succ_iff_lt_or_eq.1 hi with hi | rfl
    · exact hall i hi
    · exact hv
  · exact .hurried (by omega) (by omega)
  · exact .again (by omega)

theorem Round.thrown (h : s.Round o n k count) : s.Round o (n + 1) (k + 2) (count + 1) := by
  rcases h with ⟨hn, ht, hc, -⟩ | ⟨hlt, hle⟩ | hle
  · exact .hurried (by omega) (by omega)
  · exact .hurried (by omega) (by omega)
  · exact .again (by omega)

/-- A round that runs past `MAXTRIES` has made half as many retransmissions. -/
theorem Round.fifty_le (h : s.Round o n k count) (hk : 99 ≤ k) : 50 ≤ count := by
  rcases h with ⟨hn, ht, hc, -⟩ | ⟨hlt, hle⟩ | hle <;> omega

/-- A try made: the segment is sent again, or the loop is left. -/
theorem Counted.of_step {pc : SenderPc} (h : Counted c s o n t pc k) (hk : k ≤ MAXTRIES)
    (hstep : senderStep c t (.receive (o n)) = some (u, out)) :
    (k < MAXTRIES ∧ out.length = 1 ∧ s.Waits o (n + 1) u pc k) ∨
      (k = MAXTRIES ∧ out.length = 0 ∧ u.pc = .leftLoop) := by
  rcases hk.lt_or_eq with hlt | hlast
  · obtain ⟨u', hu, hw⟩ := h.again hlt
    cases hstep.symm.trans hu
    exact .inl ⟨hlt, rfl, hw⟩
  · obtain ⟨u', hu, hpc, -⟩ := h.last hlast
    cases hstep.symm.trans hu
    exact .inr ⟨hlast, rfl, hpc⟩

theorem OffBudget.noResponse_step (hw : s.Waits o n t .noResponse k) (hk : k < MAXTRIES)
    (hle : k + 50 ≤ count) (hv : s.verdict o n ≠ .ok true)
    (hstep : senderStep c t (.receive (o n)) = some (u, out)) :
    s.OffBudget o (n + 1) u (count + out.length) := by
  have hmax : MAXTRIES = 100 := rfl
  rcases (hw.noResponse (c := c) hv).of_step hk hstep with ⟨hlt, hone, hw'⟩ | ⟨hlast, hnone, hpc⟩
  · exact .noResponse hw' hlt (by omega)
  · exact .left hpc (by omega)

theorem OffBudget.rejected_step (hw : s.Waits o n t .wrongAck k) (hk : k < MAXTRIES)
    (hr : s.Round o n k count) (hv : s.verdict o n = .ok false)
    (hm : ∃ m < MAXTRIES, s.verdict o m ≠ .ok false)
    (hstep : senderStep c t (.receive (o n)) = some (u, out)) :
    s.OffBudget o (n + 1) u (count + out.length) := by
  have hmax : MAXTRIES = 100 := rfl
  rcases (hw.rejected (c := c) hv).of_step hk hstep with ⟨hlt, hone, hw'⟩ | ⟨hlast, hnone, hpc⟩
  · exact .wrongAck hw' hlt (hone ▸ hr.rejected hv)
  · refine .left hpc ?_
    rw [hnone]
    rcases hr.rejected hv with ⟨-, ht, -, hall⟩ | ⟨hlt, -⟩ | hle
    · -- a hundred wrong acks, and the exception is among them
      obtain ⟨m, hm, hne⟩ := hm
      exact absurd (hall m (by omega)) hne
    · omega
    · omega

theorem OffBudget.thrown_step (hf : (s.seqNum : ℤ) ≠ s.FILE_SIZE)
    (hw : s.Waits o n t .wrongAck k) (hk : k < MAXTRIES) (hr : s.Round o n k count)
    {e : JavaException} (hv : s.verdict o n = .error e)
    (hstep : senderStep c t (.receive (o n)) = some (u, out)) :
    s.OffBudget o (n + 1) u (count + out.length) := by
  have hthrown := hw.thrown (c := c) hv
  have hcount := wrongAck_counted hw.kept hthrown
  have hmax : MAXTRIES = 100 := rfl
  rcases le_or_gt (k + 2) MAXTRIES with hle | hpast
  · rcases hcount.of_step hle hstep with ⟨hlt, hone, hw'⟩ | ⟨hlast, hnone, hpc⟩
    · exact .wrongAck hw' hlt (hone ▸ hr.thrown)
    · refine .left hpc ?_
      rw [hnone]
      rcases hr with ⟨-, ht, hc, -⟩ | ⟨hlt, -⟩ | hle <;> omega
  · -- `tries` has gone past `MAXTRIES`, and the loop starts again
    have hfifty := hr.fifty_le (by omega)
    rw [wrongAckLoop, if_neg (by simp only []; omega), afterWrongAck,
      if_neg (by simp only []; omega)] at hthrown
    rcases wrongAckWhile_waits (c := c) (o := o) (n := n + 1) (j := k + 2) hw.kept hf true with
      ⟨e, u', -, hu, hw'⟩ | ⟨u', -, hu, hw'⟩ | ⟨u', -, hu, hpc⟩ <;> rw [hu] at hthrown <;>
      cases hstep.symm.trans hthrown
    · exact .noResponse hw' (by omega) (by simp only [List.length_singleton]; omega)
    · exact .wrongAck hw' (by omega) (.again (by simp only [List.length_singleton]; omega))
    · exact .next (hpc (by omega))

theorem OffBudget.step (hf : (s.seqNum : ℤ) ≠ s.FILE_SIZE) (hv : ∀ n, s.verdict o n ≠ .ok true)
    (hm : ∃ m < MAXTRIES, s.verdict o m ≠ .ok false) (h : s.OffBudget o n t count)
    (hstep : senderStep c t (.receive (o n)) = some (u, out)) :
    s.OffBudget o (n + 1) u (count + out.length) := by
  cases h with
  | wrongAck hw hk hr =>
    rcases hvn : s.verdict o n with e | valid
    · exact thrown_step hf hw hk hr hvn hstep
    · cases valid with
      | true => exact absurd hvn (hv n)
      | false => exact rejected_step hw hk hr hvn hm hstep
  | noResponse hw hk hle => exact noResponse_step hw hk hle (hv n) hstep
  | left hpc => simp [senderStep, hpc] at hstep
  | next hpc => simp [senderStep, hpc] at hstep

theorem offBudget_of_rejected (hpc : s.pc = .firstReceive) (hf : (s.seqNum : ℤ) ≠ s.FILE_SIZE)
    (hv : ∀ n, s.verdict o n ≠ .ok true) (h0 : s.verdict o 0 = .ok false)
    (hm : ∃ m < MAXTRIES, s.verdict o m ≠ .ok false) :
    ∀ (n : ℕ) {t : Sender} {sent : List Bytes}, s.afterReceives c o (n + 1) = some (t, sent) →
      s.OffBudget o (n + 1) t sent.length
  | 0, t, sent, h => by
    obtain ⟨u, hu, hw⟩ := (firstReceive_waits (c := c) hpc hf).2 h0
    simp only [afterReceives, Option.bind_some, hu, Option.map_some, List.nil_append,
      Option.some.injEq, Prod.mk.injEq] at h
    obtain ⟨rfl, rfl⟩ := h
    refine .wrongAck hw (by simp [MAXTRIES]) (.clean one_pos rfl rfl fun i hi => ?_)
    rwa [Nat.lt_one_iff.1 hi]
  | n + 1, t, sent, h => by
    rw [afterReceives, Option.bind_eq_some_iff] at h
    obtain ⟨⟨t', sent'⟩, ht', h⟩ := h
    obtain ⟨⟨u, out⟩, hu, h⟩ := Option.map_eq_some_iff.1 h
    cases h
    rw [List.length_append]
    exact (offBudget_of_rejected hpc hf hv h0 hm n ht').step hf hv hm hu

theorem not_exhaustsBudget_of_rejected (hpc : s.pc = .firstReceive)
    (hf : (s.seqNum : ℤ) ≠ s.FILE_SIZE) (hv : ∀ n, s.verdict o n ≠ .ok true)
    (h0 : s.verdict o 0 = .ok false) (hm : ∃ m < MAXTRIES, s.verdict o m ≠ .ok false) :
    ¬ s.ExhaustsBudget c o := by
  rintro ⟨_ | n, t, h, hleft, -⟩
  · cases h
  · cases offBudget_of_rejected hpc hf hv h0 hm n h with
    | wrongAck hw | noResponse hw =>
      rw [hw.pc] at hleft
      cases hleft
    | left _ hc => exact hc (List.length_replicate ..)
    | next hpc' =>
      rw [hpc'] at hleft
      cases hleft

end Off

/-- Of the receives without a valid ack, the budget is kept exactly if the first throws or a hundred
wrong acks come first. -/
theorem exhaustsBudget_iff (hpc : s.pc = .firstReceive) (hf : (s.seqNum : ℤ) ≠ s.FILE_SIZE)
    (hv : ∀ n, s.verdict o n ≠ .ok true) :
    s.ExhaustsBudget c o ↔
      (∃ e, s.verdict o 0 = .error e) ∨ ∀ n < MAXTRIES, s.verdict o n = .ok false := by
  constructor
  · intro h
    by_contra hno
    rw [not_or] at hno
    refine not_exhaustsBudget_of_rejected hpc hf hv ?_ (by simpa using hno.2) h
    rcases h0 : s.verdict o 0 with e | valid
    · exact absurd ⟨e, h0⟩ hno.1
    · cases valid with
      | true => exact absurd h0 (hv 0)
      | false => rfl
  · rintro (⟨e, h0⟩ | h)
    · exact exhaustsBudget_of_error hpc hf hv h0
    · exact exhaustsBudget_of_rejected hpc hf h

theorem verdict_timeout (h : o n = .timeout) : s.verdict o n = .error .socketTimeout := by
  unfold verdict
  rw [h]
  rfl

theorem exhaustsBudget_timeouts :
    ∃ s : Sender, Reachable Config.oneByte.sender [7, 8] s ∧
      s.ExhaustsBudget Config.oneByte.sender fun _ => .timeout := by
  have h : ∃ s, Reachable Config.oneByte.sender [7, 8] s ∧
      decide (s.pc = .firstReceive ∧ (s.seqNum : ℤ) ≠ s.FILE_SIZE) :=
    Transition.Run.exists_of_exec [.receive (.datagram sizeReply), .run] _ (by decide +kernel)
  obtain ⟨s, h, hp⟩ := h
  obtain ⟨hpc, hf⟩ := of_decide_eq_true hp
  exact ⟨s, h, (exhaustsBudget_iff hpc hf fun n => by rw [verdict_timeout rfl]; simp).2
    (.inl ⟨_, verdict_timeout rfl⟩)⟩

/-- A wrong ack, and nothing behind it. -/
def rejectedThenTimeouts (n : ℕ) : Outcome := if n = 0 then .datagram sizeReply else .timeout

/-- Behind a wrong ack each timeout counts twice, and the budget is missed. -/
theorem not_exhaustsBudget : ¬ ∀ (c : SenderConfig) (file : Bytes) (s : Sender) (o : ℕ → Outcome),
    Reachable c file s → s.pc = .firstReceive → (s.seqNum : ℤ) ≠ s.FILE_SIZE →
    (∀ n, s.verdict o n ≠ .ok true) → s.ExhaustsBudget c o := by
  intro hall
  have h : ∃ s, Reachable Config.oneByte.sender [7, 8] s ∧
      decide (s.pc = .firstReceive ∧ (s.seqNum : ℤ) ≠ s.FILE_SIZE ∧
        s.verdict rejectedThenTimeouts 0 = .ok false) :=
    Transition.Run.exists_of_exec [.receive (.datagram sizeReply), .run] _ (by decide +kernel)
  obtain ⟨s, h, hp⟩ := h
  obtain ⟨hpc, hf, h0⟩ := of_decide_eq_true hp
  have htimeout : ∀ n, s.verdict rejectedThenTimeouts (n + 1) = .error .socketTimeout :=
    fun n => verdict_timeout rfl
  have hv : ∀ n, s.verdict rejectedThenTimeouts n ≠ .ok true := by
    rintro (_ | n)
    · rw [h0]
      simp
    · rw [htimeout]
      simp
  refine not_exhaustsBudget_of_rejected hpc hf hv h0 ⟨1, by simp [MAXTRIES], ?_⟩
    (hall _ _ s rejectedThenTimeouts h hpc hf hv)
  rw [htimeout]
  simp

end Sender

end TcpLike
