import TcpLike.Lib.Deadlines
import TcpLike.Lib.Runs
import TcpLike.Multimer

/-!
# The timers stay in order

Whatever a program does with the timer package, each client has one timer at most and the timers
stand in the order of their times (`Multimer.Run.ordered`); of two timers the earlier is called
first, whichever was set first (`Multimer.called_in_order`). On times as a clock shows them an
assertion fails only on a sum of times, that of a relative timer or of one set again for its
interval (`Multimer.op_eq_none_iff`).
-/

namespace TcpLike

namespace Multimer

variable {F : Type} {tm tm' : Multimer F} {tp : TQE F} {timerQ : List (TQE F)} {func : F}
  {client : ℕ} {interval relative : Option Timeval} {time now : Timeval} {o : Op F}
  {call : Option (F × ℕ)}

/-- A program's use of the package, whose operations each meet `ok`. -/
abbrev Run (ok : Multimer F → Op F → Prop) : Multimer F → Multimer F → Prop :=
  Transition.Run (Transition.silent Multimer.op) ok

/-! ## What the operations do -/

theorem insertTimer_eq (tp : TQE F) (timerQ : List (TQE F)) :
    insertTimer tp timerQ = Deadlines.enqueue TQE.time tp timerQ := by
  induction timerQ with
  | nil => rfl
  | cons np timerQ ih =>
    rw [insertTimer]
    by_cases h : timerless tp.time np.time = true
    · rw [if_pos h, Deadlines.enqueue_cons_of_lt (timerless_iff.1 h)]
    · rw [if_neg h, ih, Deadlines.enqueue_cons_of_le (not_lt.1 fun hlt => h (timerless_iff.2 hlt))]

/-- The clients with a timer pending, in the order of their timers. -/
def clients (tm : Multimer F) : List ℕ := tm.timerQ.map TQE.client

theorem map_client_eraseP (timerQ : List (TQE F)) (client : ℕ) :
    (timerQ.eraseP (·.client = client)).map TQE.client = (timerQ.map TQE.client).erase client := by
  rw [List.erase_eq_eraseP', List.eraseP_map]
  rfl

theorem clients_putTimer : ((tm.putTimer time func client).clients).Perm
    (client :: tm.clients.erase client) := by
  unfold clients putTimer
  rw [insertTimer_eq, ← map_client_eraseP]
  exact (Deadlines.perm_enqueue _ _).map TQE.client

/-- What `timer_set` does, if no assertion fails. -/
theorem timerSet_eq_some :
    tm.timerSet interval func client relative = some tm' ↔
      (interval = none ∧ tm' = tm.cancelTimer client) ∨
      ∃ i time, interval = some i ∧ expiration i relative = some time ∧
        tm' = tm.putTimer time func client ∧ tm'.timerCheck := by
  cases interval with
  | none =>
    simp only [timerSet, Option.some.injEq, true_and, reduceCtorEq, false_and, exists_false,
      or_false]
    exact eq_comm
  | some i =>
    simp only [timerSet, Option.bind_eq_bind, Option.bind_eq_some_iff, reduceCtorEq, false_and,
      Option.some.injEq, false_or]
    constructor
    · rintro ⟨time, ht, h⟩
      split_ifs at h with hc
      obtain rfl : tm.putTimer time func client = tm' := Option.some.inj h
      exact ⟨i, time, rfl, ht, rfl, hc⟩
    · rintro ⟨i', time, rfl, ht, rfl, hc⟩
      exact ⟨time, ht, if_pos hc⟩

/-- What a pass of `timer_get` does: nothing, or the call of the first timer, which has expired and
is set again if it has an interval. -/
theorem op_pass_eq_some (h : tm.op (.pass now) = some (tm', call)) :
    (tm' = tm ∧ call = none ∧ ∀ tp ∈ tm.timerQ.head?, now < tp.time) ∨
    ∃ tp timerQ, tm.timerQ = tp :: timerQ ∧ tp.time ≤ now ∧ call = some (tp.func, tp.client) ∧
      (tm' = ⟨timerQ, tp :: tm.freeTQEQ⟩ ∨
        tm'.timerCheck ∧ ∃ tp', tp'.interval = tp.interval ∧ tm' = Multimer.putTimer
          ⟨timerQ, tp' :: tm.freeTQEQ⟩ (timeradd tp.interval tp.time) tp.func tp.client) := by
  simp only [Multimer.op, Option.map_eq_some_iff] at h
  obtain ⟨e, he, h⟩ := h
  cases hq : tm.timerQ with
  | nil =>
    rw [timerPass, hq] at he
    obtain rfl := Option.some.inj he
    obtain ⟨rfl, rfl⟩ := Prod.mk.inj h
    exact .inl ⟨rfl, rfl, by simp⟩
  | cons tp timerQ =>
    rw [timerPass, hq] at he
    simp only at he
    split_ifs at he with hl hout hi
    · obtain rfl := Option.some.inj he
      obtain ⟨rfl, rfl⟩ := Prod.mk.inj h
      exact .inl ⟨rfl, rfl, by simpa using timerless_iff.1 hl⟩
    · have hle : tp.time ≤ now := not_lt.1 fun hlt => hl (timerless_iff.2 hlt)
      obtain ⟨tm₁, h₁, rfl⟩ := Option.map_eq_some_iff.1 he
      obtain ⟨rfl, rfl⟩ := Prod.mk.inj h
      rcases timerSet_eq_some.1 h₁ with ⟨hn, -⟩ | ⟨i, time, hi, ht, rfl, hc⟩
      · cases hn
      · obtain rfl := Option.some.inj hi
        obtain rfl := Option.some.inj ht
        exact .inr ⟨tp, timerQ, rfl, hle, rfl,
          .inr ⟨hc, { tp with time := timeradd tp.interval tp.time }, rfl, rfl⟩⟩
    · have hle : tp.time ≤ now := not_lt.1 fun hlt => hl (timerless_iff.2 hlt)
      obtain rfl := Option.some.inj he
      obtain ⟨rfl, rfl⟩ := Prod.mk.inj h
      exact .inr ⟨tp, timerQ, rfl, hle, rfl, .inl rfl⟩

/-- The clock read by a pass of `timer_get`. -/
def Op.reads : Op F → Option Timeval
  | .get now | .pass now => some now
  | .set .. | .itimer .. => none

theorem timerPass_of_get {e : Expiry F} (h : tm.timerGet now = some e) :
    tm.timerPass now = some e := by
  unfold timerGet at h
  split_ifs at h
  exact h

/-- The first pass does what any other does, if no assertion fails. -/
theorem pass_of_reads (hr : o.reads = some now) (h : tm.op o = some (tm', call)) :
    tm.op (.pass now) = some (tm', call) := by
  cases o with
  | set | itimer => cases hr
  | pass => exact Option.some.inj hr ▸ h
  | get =>
    obtain rfl := Option.some.inj hr
    simp only [Multimer.op, Option.map_eq_some_iff] at h ⊢
    obtain ⟨e, he, h⟩ := h
    exact ⟨e, timerPass_of_get he, h⟩

theorem timerQ_setInterval (tm : Multimer F) (client : ℕ) (interval : Timeval) :
    (tm.setInterval client interval).timerQ.map TQE.time = tm.timerQ.map TQE.time ∧
      (tm.setInterval client interval).clients = tm.clients := by
  simp only [setInterval, clients, List.map_map]
  constructor <;> refine List.map_congr_left fun tp _ => ?_
  · show TQE.time (if _ then _ else _) = _
    split_ifs <;> rfl
  · show TQE.client (if _ then _ else _) = _
    split_ifs <;> rfl

/-! ## Order -/

/-- The timers stand in the order of their times, and no client has two. -/
structure Ordered (tm : Multimer F) : Prop where
  time : Deadlines.Ordered TQE.time tm.timerQ
  client : tm.clients.Nodup

theorem ordered_empty : (empty : Multimer F).Ordered := ⟨.nil, .nil⟩

theorem Ordered.putTimer (h : tm.Ordered) (time : Timeval) (func : F) (client : ℕ) :
    (tm.putTimer time func client).Ordered where
  time := by
    rw [Multimer.putTimer, insertTimer_eq]
    exact Deadlines.Ordered.enqueue (h.time.sublist List.eraseP_sublist)
  client := clients_putTimer.nodup_iff.2
    (List.nodup_cons.2 ⟨h.client.not_mem_erase, h.client.erase client⟩)

theorem Ordered.cancelTimer (h : tm.Ordered) (client : ℕ) : (tm.cancelTimer client).Ordered where
  time := h.time.sublist List.eraseP_sublist
  client := h.client.sublist (List.eraseP_sublist.map TQE.client)

theorem Ordered.timerSet (h : tm.Ordered)
    (hs : tm.timerSet interval func client relative = some tm') : tm'.Ordered := by
  rcases timerSet_eq_some.1 hs with ⟨-, rfl⟩ | ⟨i, time, -, -, rfl, -⟩
  · exact h.cancelTimer client
  · exact h.putTimer time func client

theorem Ordered.of_map (h : tm.Ordered) (ht : tm'.timerQ.map TQE.time = tm.timerQ.map TQE.time)
    (hc : tm'.clients = tm.clients) : tm'.Ordered where
  time := by
    have : (tm'.timerQ.map TQE.time).Pairwise (· ≤ ·) := ht ▸ List.pairwise_map.2 h.time
    exact List.pairwise_map.1 this
  client := hc ▸ h.client

theorem Ordered.tail (h : tm.Ordered) (hq : tm.timerQ = tp :: timerQ) (free : List (TQE F)) :
    (⟨timerQ, free⟩ : Multimer F).Ordered where
  time := (List.pairwise_cons.1 (hq ▸ h.time)).2
  client := by
    have := h.client
    rw [clients, hq] at this
    exact (List.nodup_cons.1 this).2

theorem Ordered.pass (h : tm.Ordered) (hs : tm.op (.pass now) = some (tm', call)) :
    tm'.Ordered := by
  rcases op_pass_eq_some hs with ⟨rfl, -⟩ | ⟨tp, timerQ, hq, -, -, rfl | ⟨-, tp', -, rfl⟩⟩
  · exact h
  · exact h.tail hq _
  · exact (h.tail hq _).putTimer _ _ _

/-- No operation breaks the order. -/
theorem Ordered.op (h : tm.Ordered) (hs : tm.op o = some (tm', call)) : tm'.Ordered := by
  cases o with
  | set interval func client relative =>
    simp only [Multimer.op, Option.map_eq_some_iff, Prod.mk.injEq] at hs
    obtain ⟨tm₁, h₁, rfl, -⟩ := hs
    exact h.timerSet h₁
  | itimer client func it_value it_interval now =>
    simp only [Multimer.op, Option.map_eq_some_iff, Prod.mk.injEq, notifySetItimerFunc,
      Option.bind_eq_bind, Option.bind_eq_some_iff] at hs
    obtain ⟨_, ⟨tm₁, h₁, h₂⟩, rfl, -⟩ := hs
    obtain rfl := Option.some.inj h₂
    obtain ⟨ht, hc⟩ := timerQ_setInterval tm₁ client it_interval
    exact (h.timerSet h₁).of_map ht hc
  | get | pass => exact h.pass (pass_of_reads rfl hs)

/-- However a program uses the package, its timers stay in order. -/
theorem Run.ordered (h : Run (fun _ _ => True) (empty : Multimer F) tm) : tm.Ordered := by
  refine h.invariant (fun tm o tm' ho _ hs => ?_) ordered_empty
  obtain ⟨call, hs⟩ := Transition.silent_eq_some.1 hs
  exact ho.op hs

/-- The first timer is the earliest. -/
theorem Ordered.head_le (h : tm.Ordered) (hq : tm.timerQ = tp :: timerQ) {tq : TQE F}
    (htq : tq ∈ tm.timerQ) : tp.time ≤ tq.time := by
  rw [hq] at htq
  rcases List.mem_cons.1 htq with rfl | htq
  · exact le_rfl
  · exact (List.pairwise_cons.1 (hq ▸ h.time)).1 tq htq

/-- A pass of `timer_get` that no assertion ends calls on the client whose timer is the earliest, if
that has expired, and on none otherwise. -/
theorem Run.call_earliest (h : Run (fun _ _ => True) (empty : Multimer F) tm)
    (hr : o.reads = some now) (hs : tm.op o = some (tm', call)) :
    (∃ tp ∈ tm.timerQ, call = some (tp.func, tp.client) ∧ tp.time ≤ now ∧
        ∀ tq ∈ tm.timerQ, tp.time ≤ tq.time) ∨
      (call = none ∧ ∀ tq ∈ tm.timerQ, now < tq.time) := by
  rcases op_pass_eq_some (pass_of_reads hr hs) with ⟨-, rfl, hhead⟩ | ⟨tp, timerQ, hq, ht, rfl, -⟩
  · refine .inr ⟨rfl, fun tq htq => ?_⟩
    cases hq : tm.timerQ with
    | nil => simp [hq] at htq
    | cons tp timerQ => exact (hhead tp (by simp [hq])).trans_le (h.ordered.head_le hq htq)
  · exact .inl ⟨tp, hq ▸ List.mem_cons_self, rfl, ht, fun tq htq => h.ordered.head_le hq htq⟩

/-- Two timers, the second set for an earlier time than the first. -/
def twoTimers : Multimer ℕ := ⟨[⟨⟨3, 0⟩, 0, 7, 2⟩, ⟨⟨5, 0⟩, 0, 7, 1⟩], []⟩

theorem run_twoTimers : Run (fun _ _ => True) empty twoTimers :=
  Transition.Run.of_actions [.set (some ⟨5, 0⟩) 7 1 none, .set (some ⟨3, 0⟩) 7 2 none] (by decide)

theorem call_earliest_twoTimers : ∃ (tm' : Multimer ℕ) (call : Option (ℕ × ℕ)),
    twoTimers.op (.get ⟨4, 0⟩) = some (tm', call) ∧
      ((∃ tp ∈ twoTimers.timerQ, call = some (tp.func, tp.client) ∧ tp.time ≤ ⟨4, 0⟩ ∧
          ∀ tq ∈ twoTimers.timerQ, tp.time ≤ tq.time) ∨
        (call = none ∧ ∀ tq ∈ twoTimers.timerQ, ⟨4, 0⟩ < tq.time)) := by
  have hs : twoTimers.op (.get ⟨4, 0⟩) =
      some (⟨[⟨⟨5, 0⟩, 0, 7, 1⟩], [⟨⟨3, 0⟩, 0, 7, 2⟩]⟩, some (7, 2)) := by decide
  exact ⟨_, _, hs, run_twoTimers.call_earliest rfl hs⟩

/-! ## Calls -/

/-- The operation sets or cancels the timer of the client. -/
def Op.names (client : ℕ) : Op F → Bool
  | .set _ _ c _ => c = client
  | .itimer c _ _ _ _ => c = client
  | .get _ | .pass _ => false

/-- The clients called, with a step entered. -/
def noteCall (_ : Multimer F) (_ : Op F) (call : Option (F × ℕ)) (called : List ℕ) : List ℕ :=
  called ++ (call.map Prod.snd).toList

/-- A program's use of the package, beside the clients called in it. -/
abbrev CallRun (ok : Multimer F → Op F → Prop) (x y : Multimer F × List ℕ) : Prop :=
  Transition.Run (Transition.recorded Multimer.op noteCall) (fun x a => ok x.1 a) x y

section Calls

variable {a b : ℕ} {ta tb : TQE F} {called : List ℕ}

/-- `a`'s timer stands before `b`'s. -/
def Before (a b : ℕ) (tm : Multimer F) : Prop := [a, b].Sublist tm.clients

theorem Before.of_sublist (h : Before a b tm) (hs : (tm.clients.erase client).Sublist tm'.clients)
    (ha : client ≠ a) (hb : client ≠ b) : Before a b tm' := by
  have : ([a, b].erase client).Sublist (tm.clients.erase client) := List.Sublist.erase client h
  rw [List.erase_of_not_mem (by simp [ha, hb])] at this
  exact this.trans hs

theorem sublist_clients_putTimer :
    (tm.clients.erase client).Sublist (tm.putTimer time func client).clients := by
  unfold clients putTimer
  rw [insertTimer_eq, ← map_client_eraseP]
  exact (List.sublist_orderedInsert _ _).map TQE.client

theorem Before.timerSet (h : Before a b tm)
    (hs : tm.timerSet interval func client relative = some tm') (ha : client ≠ a)
    (hb : client ≠ b) : Before a b tm' := by
  rcases timerSet_eq_some.1 hs with ⟨-, rfl⟩ | ⟨i, time, -, -, rfl, -⟩
  · exact h.of_sublist (by rw [clients, clients, cancelTimer, map_client_eraseP]) ha hb
  · exact h.of_sublist sublist_clients_putTimer ha hb

/-- With the first timer called, `a`'s still stands before `b`'s unless it was the one. -/
theorem Before.tail (h : Before a b tm) (ho : tm.Ordered) (hq : tm.timerQ = tp :: timerQ)
    (ha : tp.client ≠ a) : tp.client ≠ b ∧ Before a b ⟨timerQ, tp :: tm.freeTQEQ⟩ := by
  have hc : tm.clients = tp.client :: timerQ.map TQE.client := by rw [clients, hq]; rfl
  have hab : [a, b].Sublist (timerQ.map TQE.client) := by
    rw [Before, hc] at h
    cases h with
    | cons _ h => exact h
    | cons_cons => exact absurd rfl ha
  refine ⟨?_, hab⟩
  rintro rfl
  have := ho.client
  rw [hc] at this
  exact (List.nodup_cons.1 this).1 (hab.subset (by simp))

theorem Before.pass (h : Before a b tm) (ho : tm.Ordered)
    (hs : tm.op (.pass now) = some (tm', call)) :
    (∃ f, call = some (f, a)) ∨ (∀ f, call ≠ some (f, b)) ∧ Before a b tm' := by
  rcases op_pass_eq_some hs with ⟨rfl, rfl, -⟩ | ⟨tp, timerQ, hq, -, rfl, htm⟩
  · exact .inr ⟨fun f => by simp, h⟩
  by_cases hta : tp.client = a
  · exact .inl ⟨tp.func, by rw [hta]⟩
  obtain ⟨htb, hbef⟩ := h.tail ho hq hta
  refine .inr ⟨fun f hf => htb (by simpa using (Prod.mk.inj (Option.some.inj hf)).2), ?_⟩
  rcases htm with rfl | ⟨-, tp', -, rfl⟩
  · exact hbef
  · have : Before a b ⟨timerQ, tp' :: tm.freeTQEQ⟩ := hbef
    exact this.of_sublist sublist_clients_putTimer hta htb

/-- A step that does not name `a` or `b` keeps `a`'s timer before `b`'s until it is called. -/
theorem Before.op (h : Before a b tm) (ho : tm.Ordered) (ha : o.names a = false)
    (hb : o.names b = false) (hs : tm.op o = some (tm', call)) :
    (∃ f, call = some (f, a)) ∨ (∀ f, call ≠ some (f, b)) ∧ Before a b tm' := by
  cases o with
  | set interval func client relative =>
    simp only [Multimer.op, Option.map_eq_some_iff, Prod.mk.injEq] at hs
    obtain ⟨tm₁, h₁, rfl, rfl⟩ := hs
    refine .inr ⟨fun f => by simp, h.timerSet h₁ ?_ ?_⟩
    · simpa [Op.names] using ha
    · simpa [Op.names] using hb
  | itimer client func it_value it_interval now =>
    simp only [Multimer.op, Option.map_eq_some_iff, Prod.mk.injEq, notifySetItimerFunc,
      Option.bind_eq_bind, Option.bind_eq_some_iff] at hs
    obtain ⟨_, ⟨tm₁, h₁, h₂⟩, rfl, rfl⟩ := hs
    obtain rfl := Option.some.inj h₂
    refine .inr ⟨fun f => by simp, ?_⟩
    rw [Before, (timerQ_setInterval tm₁ client it_interval).2]
    refine h.timerSet h₁ ?_ ?_
    · simpa [Op.names] using ha
    · simpa [Op.names] using hb
  | get | pass => exact h.pass ho (pass_of_reads rfl hs)

/-- Until `a` is called its timer stands before `b`'s, which is not called. -/
theorem Before.run (h : Before a b tm) (ho : tm.Ordered)
    (hrun : CallRun (fun _ o => o.names a = false ∧ o.names b = false) (tm, []) (tm', called))
    (hb : b ∈ called) : a ∈ called := by
  have key : tm'.Ordered ∧ (a ∈ called ∨ b ∉ called ∧ Before a b tm') := by
    refine hrun.invariant (I := fun x => x.1.Ordered ∧ (a ∈ x.2 ∨ b ∉ x.2 ∧ Before a b x.1)) ?_
      ⟨ho, .inr ⟨by simp, h⟩⟩
    rintro ⟨tm, called⟩ o ⟨tm', called'⟩ ⟨ho, hI⟩ ⟨hna, hnb⟩ hs
    obtain ⟨call, hcall, rfl⟩ := Transition.recorded_eq_some.1 hs
    refine ⟨ho.op hcall, ?_⟩
    rcases hI with hI | ⟨hnot, hI⟩
    · exact .inl (List.mem_append_left _ hI)
    rcases hI.op ho hna hnb hcall with ⟨f, rfl⟩ | ⟨hne, hI⟩
    · exact .inl (List.mem_append_right _ (by simp))
    · refine .inr ⟨fun hm => ?_, hI⟩
      rcases List.mem_append.1 hm with hm | hm
      · exact hnot hm
      · rcases call with _ | ⟨f, c⟩
        · simp at hm
        · obtain rfl : b = c := by simpa using hm
          exact hne f rfl
  rcases key.2 with hmem | ⟨hnot, -⟩
  · exact hmem
  · exact absurd hb hnot

/-! ### The timer just set -/

theorem timerQ_putTimer (tm : Multimer F) (time : Timeval) (func : F) (client : ℕ) :
    (tm.putTimer time func client).timerQ =
      Deadlines.enqueue TQE.time ⟨time, tm.reusedInterval client, func, client⟩
        (tm.timerQ.eraseP (·.client = client)) := by
  rw [putTimer, insertTimer_eq]

/-- The other timers are still pending. -/
theorem mem_eraseP_of_ne (hta : ta ∈ tm.timerQ) (hc : ta.client ≠ client) :
    ta ∈ tm.timerQ.eraseP (·.client = client) :=
  (List.mem_eraseP_of_neg (by simpa using hc)).2 hta

/-- A timer set for no earlier than `a`'s stands behind it. -/
theorem Ordered.before_putTimer (ho : tm.Ordered) (hta : ta ∈ tm.timerQ) (ht : ta.time ≤ time)
    (hc : ta.client ≠ client) : Before ta.client client (tm.putTimer time func client) := by
  have hsorted : Deadlines.Ordered TQE.time (tm.timerQ.eraseP (·.client = client)) :=
    ho.time.sublist List.eraseP_sublist
  rw [Before, clients, timerQ_putTimer]
  exact (Deadlines.sublist_enqueue (a := ⟨time, tm.reusedInterval client, func, client⟩) hsorted
    (mem_eraseP_of_ne hta hc) ht).map TQE.client

/-- A timer set for earlier than `a`'s stands before it. -/
theorem putTimer_before (hta : ta ∈ tm.timerQ) (ht : time < ta.time) (hc : ta.client ≠ client) :
    Before client ta.client (tm.putTimer time func client) := by
  have hsub : [⟨time, tm.reusedInterval client, func, client⟩, ta].Sublist
      (tm.putTimer time func client).timerQ := by
    rw [timerQ_putTimer]
    exact Deadlines.sublist_enqueue_of_lt (mem_eraseP_of_ne hta hc) ht
  exact hsub.map TQE.client

/-- The timer taken out was the client's only one. -/
theorem Ordered.notMem_eraseP (ho : tm.Ordered) :
    tb ∉ tm.timerQ.eraseP (·.client = tb.client) := fun htb => by
  have hmem : tb.client ∈ (tm.timerQ.eraseP (·.client = tb.client)).map TQE.client :=
    List.mem_map_of_mem htb
  rw [map_client_eraseP] at hmem
  exact ho.client.not_mem_erase hmem

/-- The client's timer is the one just set. -/
theorem Ordered.time_of_mem_putTimer (ho : tm.Ordered)
    (htb : tb ∈ (tm.putTimer time func tb.client).timerQ) : tb.time = time := by
  rw [timerQ_putTimer, Deadlines.mem_enqueue] at htb
  rcases htb with htb | htb
  · rw [htb]
  · exact absurd htb ho.notMem_eraseP

theorem Ordered.clients_timerSet (ho : tm.Ordered)
    (hs : tm.timerSet interval func tb.client relative = some tm') (htb : tb ∈ tm'.timerQ) :
    tm'.clients = (tm.putTimer tb.time func tb.client).clients := by
  rcases timerSet_eq_some.1 hs with ⟨-, rfl⟩ | ⟨i, time, -, -, rfl, -⟩
  · exact absurd htb ho.notMem_eraseP
  · rw [ho.time_of_mem_putTimer htb]

/-- An operation that names the client of a timer pending behind it has set that timer. -/
theorem Ordered.clients_op (ho : tm.Ordered) (hn : o.names tb.client)
    (hs : tm.op o = some (tm', call)) (htb : tb ∈ tm'.timerQ) :
    ∃ func, tm'.clients = (tm.putTimer tb.time func tb.client).clients := by
  cases o with
  | set interval func client relative =>
    obtain rfl : client = tb.client := by simpa [Op.names] using hn
    simp only [Multimer.op, Option.map_eq_some_iff, Prod.mk.injEq] at hs
    obtain ⟨tm₁, h₁, rfl, -⟩ := hs
    exact ⟨func, ho.clients_timerSet h₁ htb⟩
  | itimer client func it_value it_interval now =>
    obtain rfl : client = tb.client := by simpa [Op.names] using hn
    simp only [Multimer.op, Option.map_eq_some_iff, Prod.mk.injEq, notifySetItimerFunc,
      Option.bind_eq_bind, Option.bind_eq_some_iff] at hs
    obtain ⟨_, ⟨tm₁, h₁, h₂⟩, rfl, -⟩ := hs
    obtain rfl := Option.some.inj h₂
    obtain ⟨tp, htp, hmap⟩ := List.mem_map.1 htb
    have htp' : tp.client = tb.client ∧ tp.time = tb.time := by
      rw [← hmap]
      split_ifs <;> exact ⟨rfl, rfl⟩
    rw [← htp'.1] at h₁
    refine ⟨func, ?_⟩
    rw [(timerQ_setInterval tm₁ tb.client it_interval).2, ho.clients_timerSet h₁ htp, htp'.1,
      htp'.2]
  | get | pass => cases hn

/-- Of two timers the earlier is called first, and of two for one time the one set first. Where the
timer `tb` is set while `ta` is pending, and neither client's is set or cancelled again, `tb` is not
called before `ta` if it is for no earlier, and `ta` is not called before `tb` if `tb` is for
earlier. -/
theorem called_in_order {tm₁ : Multimer F} (h : Run (fun _ _ => True) empty tm)
    (hta : ta ∈ tm.timerQ) (hne : ta.client ≠ tb.client) (hset : o.names tb.client)
    (hs : tm.op o = some (tm₁, call)) (htb : tb ∈ tm₁.timerQ)
    (hrun : CallRun (fun _ o => o.names ta.client = false ∧ o.names tb.client = false) (tm₁, [])
      (tm', called)) :
    (ta.time ≤ tb.time → tb.client ∈ called → ta.client ∈ called) ∧
      (tb.time < ta.time → ta.client ∈ called → tb.client ∈ called) := by
  have ho₁ : tm₁.Ordered := h.ordered.op hs
  obtain ⟨func, hclients⟩ := h.ordered.clients_op hset hs htb
  constructor
  · intro ht
    have hbef : Before ta.client tb.client tm₁ := by
      rw [Before, hclients]
      exact h.ordered.before_putTimer hta ht hne
    exact hbef.run ho₁ hrun
  · intro ht
    have hbef : Before tb.client ta.client tm₁ := by
      rw [Before, hclients]
      exact putTimer_before hta ht hne
    exact hbef.run ho₁ (hrun.mono fun _ _ hn => ⟨hn.2, hn.1⟩)

/-- Client 1's timer is set first, for a later time: it is called last. -/
theorem called_in_order_twoTimers : ∃ (tm' : Multimer ℕ) (called : List ℕ),
    CallRun (fun _ o => o.names 1 = false ∧ o.names 2 = false) (twoTimers, []) (tm', called) ∧
      1 ∈ called ∧ 2 ∈ called := by
  have h : Run (fun _ _ => True) empty (⟨[⟨⟨5, 0⟩, 0, 7, 1⟩], []⟩ : Multimer ℕ) :=
    Transition.Run.of_actions [.set (some ⟨5, 0⟩) 7 1 none] (by decide)
  have hs : (⟨[⟨⟨5, 0⟩, 0, 7, 1⟩], []⟩ : Multimer ℕ).op (.set (some ⟨3, 0⟩) 7 2 none) =
      some (twoTimers, none) := by decide
  have hrun : CallRun (fun _ o => o.names 1 = false ∧ o.names 2 = false) (twoTimers, [])
      (⟨[], [⟨⟨5, 0⟩, 0, 7, 1⟩, ⟨⟨3, 0⟩, 0, 7, 2⟩]⟩, [2, 1]) :=
    Transition.Run.of_actions [.get ⟨6, 0⟩, .pass ⟨6, 0⟩] (by decide)
  have hta : (⟨⟨5, 0⟩, 0, 7, 1⟩ : TQE ℕ) ∈ [⟨⟨5, 0⟩, 0, 7, 1⟩] := List.mem_cons_self
  have htb : (⟨⟨3, 0⟩, 0, 7, 2⟩ : TQE ℕ) ∈ twoTimers.timerQ := List.mem_cons_self
  have h1 : 1 ∈ [2, 1] := by decide
  exact ⟨_, _, hrun, h1,
    (called_in_order h hta (by decide) rfl hs htb hrun).2 (by decide) h1⟩

end Calls

/-! ## Timers that are not repeated -/

/-- No element has an interval. -/
structure Plain (tm : Multimer F) : Prop where
  pending : ∀ tp ∈ tm.timerQ, tp.interval = 0
  free : ∀ tp ∈ tm.freeTQEQ, tp.interval = 0

theorem plain_empty : (empty : Multimer F).Plain := ⟨by simp [empty], by simp [empty]⟩

theorem Plain.reusedInterval (h : tm.Plain) (client : ℕ) : tm.reusedInterval client = 0 := by
  unfold Multimer.reusedInterval
  split
  · rename_i tp htp
    exact h.pending tp (List.mem_of_find?_eq_some htp)
  · cases hf : tm.freeTQEQ with
    | nil => rfl
    | cons tp free => exact h.free tp (by simp [hf])

theorem Plain.putTimer (h : tm.Plain) (time : Timeval) (func : F) (client : ℕ) :
    (tm.putTimer time func client).Plain := by
  refine ⟨fun tp htp => ?_, fun tp htp => ?_⟩
  · rw [timerQ_putTimer, Deadlines.mem_enqueue] at htp
    rcases htp with rfl | htp
    · exact h.reusedInterval client
    · exact h.pending tp (List.mem_of_mem_eraseP htp)
  · simp only [Multimer.putTimer, freeLeft] at htp
    split at htp
    · exact h.free tp htp
    · exact h.free tp (List.mem_of_mem_tail htp)

/-- A pass over timers that are not repeated. -/
theorem Plain.timerPass_cons (h : tm.Plain) (hq : tm.timerQ = tp :: timerQ) (now : Timeval) :
    tm.timerPass now = if now < tp.time then
        if (subTimeval tp.time now).tv_usec < 1000000 then some (.wait (subTimeval tp.time now))
        else none
      else some (.call tp.func tp.client ⟨timerQ, tp :: tm.freeTQEQ⟩) := by
  have hzero : ¬(tp.interval.tv_sec ≠ 0 ∨ tp.interval.tv_usec ≠ 0) := by
    rw [h.pending tp (hq ▸ List.mem_cons_self)]
    exact fun h => h.elim (fun h => h rfl) fun h => h rfl
  simp only [timerPass, hq, if_neg hzero, timerless_iff]

/-- A call takes the first timer off, which has expired. -/
theorem Plain.timerPass_call (h : tm.Plain)
    (hc : tm.timerPass now = some (.call func client tm')) :
    tm'.Plain ∧ ∃ tp, tm.timerQ = tp :: tm'.timerQ ∧ tp.time ≤ now ∧ tp.client = client := by
  cases hq : tm.timerQ with
  | nil => simp [timerPass, hq] at hc
  | cons tp timerQ =>
    rw [h.timerPass_cons hq] at hc
    split_ifs at hc with hl
    · cases hc
    · obtain ⟨-, rfl, rfl⟩ := Expiry.call.inj (Option.some.inj hc)
      refine ⟨⟨fun t ht => h.pending t (hq ▸ List.mem_cons_of_mem _ ht), fun t ht => ?_⟩, tp, rfl,
        not_lt.1 hl, rfl⟩
      rcases List.mem_cons.1 ht with rfl | ht
      · exact h.pending t (hq ▸ List.mem_cons_self)
      · exact h.free t ht

theorem Plain.cancelTimer (h : tm.Plain) (client : ℕ) : (tm.cancelTimer client).Plain := by
  refine ⟨fun tp htp => h.pending tp (List.mem_of_mem_eraseP htp), fun tp htp => ?_⟩
  rcases List.mem_append.1 htp with htp | htp
  · exact h.pending tp (List.mem_of_find?_eq_some (Option.mem_toList.1 htp))
  · exact h.free tp htp

theorem Plain.timerSet (h : tm.Plain) (hs : tm.timerSet interval func client relative = some tm') :
    tm'.Plain := by
  rcases timerSet_eq_some.1 hs with ⟨-, rfl⟩ | ⟨i, time, -, -, rfl, -⟩
  · exact h.cancelTimer client
  · exact h.putTimer time func client

theorem Plain.setInterval (h : tm.Plain) (client : ℕ) : (tm.setInterval client 0).Plain := by
  refine ⟨fun tp htp => ?_, h.free⟩
  obtain ⟨tp', htp', rfl⟩ := List.mem_map.1 htp
  split_ifs
  · rfl
  · exact h.pending tp' htp'

/-- The operation asks for no repetition. -/
def Op.once : Op F → Prop
  | .itimer _ _ _ it_interval _ => it_interval = 0
  | _ => True

instance (o : Op F) : Decidable o.once :=
  match o with
  | .set .. => inferInstanceAs (Decidable True)
  | .itimer _ _ _ it_interval _ => inferInstanceAs (Decidable (it_interval = 0))
  | .get _ | .pass _ => inferInstanceAs (Decidable True)

/-- How often the operation sets the timer of the client. -/
def Op.settings (client : ℕ) : Op F → ℕ
  | .set interval _ c _ => if interval.isSome ∧ c = client then 1 else 0
  | .itimer c _ _ _ _ => if c = client then 1 else 0
  | .get _ | .pass _ => 0

/-- How often the timer of the client has been set, and how often called. -/
def noteClient (client : ℕ) (_ : Multimer F) (o : Op F) (call : Option (F × ℕ)) (n : ℕ × ℕ) :
    ℕ × ℕ :=
  (n.1 + o.settings client, n.2 + (call.map Prod.snd).toList.count client)

theorem count_timerSet {c : ℕ} (hs : tm.timerSet interval func c relative = some tm') :
    tm'.clients.count client ≤
      tm.clients.count client + if interval.isSome ∧ c = client then 1 else 0 := by
  have herase := (List.erase_sublist (a := c) (l := tm.clients)).count_le client
  rcases timerSet_eq_some.1 hs with ⟨rfl, rfl⟩ | ⟨i, time, rfl, -, rfl, -⟩
  · rw [clients, Multimer.cancelTimer, map_client_eraseP]
    exact herase.trans (Nat.le_add_right _ _)
  · rw [clients_putTimer.count_eq, List.count_cons]
    simp only [Option.isSome_some, true_and, beq_iff_eq]
    omega

theorem Plain.pass (h : tm.Plain) (hs : tm.op (.pass now) = some (tm', call)) :
    tm'.Plain ∧ (call.map Prod.snd).toList.count client + tm'.clients.count client ≤
      tm.clients.count client := by
  simp only [Multimer.op, Option.map_eq_some_iff] at hs
  obtain ⟨x, hx, hs⟩ := hs
  cases x with
  | idle | wait =>
    obtain ⟨rfl, rfl⟩ := Prod.mk.inj hs
    exact ⟨h, by simp⟩
  | call func c tm₁ =>
    obtain ⟨rfl, rfl⟩ := Prod.mk.inj hs
    obtain ⟨hp, tp, hq, -, rfl⟩ := h.timerPass_call hx
    refine ⟨hp, ?_⟩
    rw [clients, clients, hq, List.map_cons, List.count_cons]
    simp [List.count_singleton, Nat.add_comm]

/-- A setting makes room for one call, and a call takes it. -/
theorem Plain.op (h : tm.Plain) (ho : o.once) (hs : tm.op o = some (tm', call)) :
    tm'.Plain ∧ (call.map Prod.snd).toList.count client + tm'.clients.count client ≤
      tm.clients.count client + o.settings client := by
  cases o with
  | set interval func c relative =>
    simp only [Multimer.op, Option.map_eq_some_iff, Prod.mk.injEq] at hs
    obtain ⟨tm₁, h₁, rfl, rfl⟩ := hs
    refine ⟨h.timerSet h₁, ?_⟩
    simpa [Op.settings] using count_timerSet h₁
  | itimer c func it_value it_interval now =>
    obtain rfl : it_interval = 0 := ho
    simp only [Multimer.op, Option.map_eq_some_iff, Prod.mk.injEq, notifySetItimerFunc,
      Option.bind_eq_bind, Option.bind_eq_some_iff] at hs
    obtain ⟨_, ⟨tm₁, h₁, h₂⟩, rfl, rfl⟩ := hs
    obtain rfl := Option.some.inj h₂
    refine ⟨(h.timerSet h₁).setInterval c, ?_⟩
    rw [(timerQ_setInterval tm₁ c 0).2]
    simpa [Op.settings] using count_timerSet h₁
  | get | pass => exact h.pass (pass_of_reads rfl hs)

/-- Where no repetition is asked for, a timer is called at most once for each time it is set, and
what is still pending has not been called. -/
theorem called_once (client : ℕ) {n : ℕ × ℕ}
    (h : Transition.Run (Transition.recorded Multimer.op (noteClient client))
      (fun _ o => o.once) ((empty : Multimer F), (0, 0)) (tm, n)) :
    n.2 + tm.clients.count client ≤ n.1 := by
  have key : tm.Plain ∧ n.2 + tm.clients.count client ≤ n.1 := by
    refine h.invariant (I := fun x => x.1.Plain ∧ x.2.2 + x.1.clients.count client ≤ x.2.1) ?_
      ⟨plain_empty, by simp [clients, empty]⟩
    rintro ⟨tm, n⟩ o ⟨tm', n'⟩ ⟨hp, hle⟩ ho hs
    obtain ⟨call, hop, rfl⟩ := Transition.recorded_eq_some.1 hs
    obtain ⟨hp', hcount⟩ := hp.op ho hop
    refine ⟨hp', ?_⟩
    calc n.2 + (call.map Prod.snd).toList.count client + tm'.clients.count client
        ≤ n.2 + (tm.clients.count client + o.settings client) := by
          rw [Nat.add_assoc]
          exact Nat.add_le_add_left hcount _
      _ ≤ n.1 + o.settings client := by
          rw [← Nat.add_assoc]
          exact Nat.add_le_add_right hle _
  exact key.2

theorem called_once_twice : ∃ (tm : Multimer ℕ) (n : ℕ × ℕ), n.1 = 2 ∧
    n.2 + tm.clients.count 1 ≤ n.1 := by
  have h : ∃ x, Transition.Run (Transition.recorded Multimer.op (noteClient 1))
      (fun _ o => o.once) ((empty : Multimer ℕ), (0, 0)) x ∧ decide (x.2.1 = 2) :=
    Transition.Run.exists_of_exec [.set (some ⟨3, 0⟩) 7 1 none, .get ⟨4, 0⟩,
      .itimer 1 7 ⟨1, 0⟩ 0 ⟨4, 0⟩] _ (by decide)
  obtain ⟨⟨tm, n⟩, h, hn⟩ := h
  exact ⟨tm, n, of_decide_eq_true hn, called_once 1 h⟩

/-! ## Assertions -/

/-- The times in the timers are as a clock shows them. -/
structure Normal (tm : Multimer F) : Prop where
  time : ∀ tp ∈ tm.timerQ, tp.time.Normal
  interval : ∀ tp ∈ tm.timerQ, tp.interval.Normal
  free : ∀ tp ∈ tm.freeTQEQ, tp.interval.Normal

/-- The times given to the operation are as a clock shows them. -/
def Op.Normal : Op F → Prop
  | .set interval _ _ relative => (∀ i ∈ interval, i.Normal) ∧ ∀ now ∈ relative, now.Normal
  | .itimer _ _ it_value it_interval now => it_value.Normal ∧ it_interval.Normal ∧ now.Normal
  | .get now | .pass now => now.Normal

instance (o : Op F) : Decidable o.Normal :=
  match o with
  | .set interval _ _ relative =>
    inferInstanceAs (Decidable ((∀ i ∈ interval, i.Normal) ∧ ∀ now ∈ relative, now.Normal))
  | .itimer _ _ it_value it_interval now =>
    inferInstanceAs (Decidable (it_value.Normal ∧ it_interval.Normal ∧ now.Normal))
  | .get now | .pass now => inferInstanceAs (Decidable now.Normal)

/-- The microseconds of a sum the operation takes come to a second exactly. -/
def Op.WholeSecond (tm : Multimer F) : Op F → Prop
  | .set interval _ _ relative =>
    ∃ i ∈ interval, ∃ now ∈ relative, now.tv_usec + i.tv_usec = 1000000
  | .itimer _ _ it_value _ now => now.tv_usec + it_value.tv_usec = 1000000
  | .get now | .pass now => ∃ tp ∈ tm.timerQ.head?, tp.time ≤ now ∧
      tp.interval.tv_usec + tp.time.tv_usec = 1000000

section Assertions

variable {i : Timeval}

theorem normal_empty : (empty : Multimer F).Normal :=
  ⟨by simp [empty], by simp [empty], by simp [empty]⟩

theorem Normal.timerCheck (h : tm.Normal) : tm.timerCheck = true := by
  refine List.all_eq_true.2 fun tp htp => ?_
  simpa using And.intro (h.time tp htp).2 (h.interval tp htp).2

theorem tv_usec_lt_of_timerCheck (h : (tm.putTimer time func client).timerCheck) :
    time.tv_usec < 1000000 := by
  have hmem : ⟨time, tm.reusedInterval client, func, client⟩ ∈
      (tm.putTimer time func client).timerQ := by
    rw [timerQ_putTimer]
    exact Deadlines.mem_enqueue.2 (.inl rfl)
  have := List.all_eq_true.1 h _ hmem
  simp only [decide_eq_true_eq] at this
  exact this.1

theorem Normal.reusedInterval (h : tm.Normal) (client : ℕ) : (tm.reusedInterval client).Normal := by
  unfold Multimer.reusedInterval
  split
  · rename_i tp htp
    exact h.interval tp (List.mem_of_find?_eq_some htp)
  · cases hf : tm.freeTQEQ with
    | nil => exact Timeval.normal_zero
    | cons tp free => exact h.free tp (by simp [hf])

theorem Normal.putTimer (h : tm.Normal) (ht : time.Normal) (func : F) (client : ℕ) :
    (tm.putTimer time func client).Normal := by
  have hmem : ∀ tp ∈ (tm.putTimer time func client).timerQ,
      tp = ⟨time, tm.reusedInterval client, func, client⟩ ∨ tp ∈ tm.timerQ := by
    intro tp htp
    rw [timerQ_putTimer, Deadlines.mem_enqueue] at htp
    exact htp.imp_right List.mem_of_mem_eraseP
  refine ⟨fun tp htp => ?_, fun tp htp => ?_, fun tp htp => ?_⟩
  · rcases hmem tp htp with rfl | htp
    · exact ht
    · exact h.time tp htp
  · rcases hmem tp htp with rfl | htp
    · exact h.reusedInterval client
    · exact h.interval tp htp
  · simp only [Multimer.putTimer, freeLeft] at htp
    split at htp
    · exact h.free tp htp
    · exact h.free tp (List.mem_of_mem_tail htp)

/-- A timer set again for a sum of times passes the assertions unless the sum fails them. -/
theorem Normal.timerCheck_putTimer_iff (h : tm.Normal) {i : Timeval} (hi : i.Normal)
    (ht : time.Normal) (func : F) (client : ℕ) :
    (tm.putTimer (timeradd i time) func client).timerCheck = true ↔
      (timeradd i time).tv_usec < 1000000 :=
  ⟨tv_usec_lt_of_timerCheck, fun hlt =>
    (h.putTimer ((timeradd_normal_iff hi ht).2 hlt) func client).timerCheck⟩

theorem Normal.cancelTimer (h : tm.Normal) (client : ℕ) : (tm.cancelTimer client).Normal := by
  refine ⟨fun tp htp => h.time tp (List.mem_of_mem_eraseP htp),
    fun tp htp => h.interval tp (List.mem_of_mem_eraseP htp), fun tp htp => ?_⟩
  rcases List.mem_append.1 htp with htp | htp
  · exact h.interval tp (List.mem_of_find?_eq_some (Option.mem_toList.1 htp))
  · exact h.free tp htp

theorem Normal.setInterval (h : tm.Normal) (hi : i.Normal) (client : ℕ) :
    (tm.setInterval client i).Normal := by
  have hmem : ∀ tp ∈ (tm.setInterval client i).timerQ, ∃ tp' ∈ tm.timerQ,
      tp.time = tp'.time ∧ (tp.interval = tp'.interval ∨ tp.interval = i) := by
    intro tp htp
    obtain ⟨tp', htp', rfl⟩ := List.mem_map.1 htp
    refine ⟨tp', htp', ?_⟩
    split_ifs
    · exact ⟨rfl, .inr rfl⟩
    · exact ⟨rfl, .inl rfl⟩
  refine ⟨fun tp htp => ?_, fun tp htp => ?_, h.free⟩
  · obtain ⟨tp', htp', ht, -⟩ := hmem tp htp
    exact ht ▸ h.time tp' htp'
  · obtain ⟨tp', htp', -, hint | hint⟩ := hmem tp htp
    · exact hint ▸ h.interval tp' htp'
    · exact hint ▸ hi

/-- The time of a relative timer, where its assertion holds, is as a clock shows it. -/
theorem expiration_normal (hi : i.Normal) (hr : ∀ now ∈ relative, now.Normal)
    (h : expiration i relative = some time) : time.Normal := by
  cases relative with
  | none => exact Option.some.inj h ▸ hi
  | some now =>
    simp only [expiration] at h
    split_ifs at h with hlt
    obtain rfl := Option.some.inj h
    exact (timeradd_normal_iff (hr now rfl) hi).2 hlt

theorem expiration_eq_none_iff (hi : i.Normal) (hr : ∀ now ∈ relative, now.Normal) :
    expiration i relative = none ↔ ∃ now ∈ relative, now.tv_usec + i.tv_usec = 1000000 := by
  cases relative with
  | none => simp [expiration]
  | some now =>
    have := tv_usec_timeradd_lt_iff (hr now rfl) hi
    simp only [expiration, Option.mem_some_iff, exists_eq_left']
    split_ifs with hlt
    · simpa using this.1 hlt
    · simpa using not_not.1 fun hne => hlt (this.2 hne)

/-- Setting a timer fails in the sum alone. -/
theorem Normal.timerSet_eq_none_iff (h : tm.Normal) (hi : ∀ i ∈ interval, i.Normal)
    (hr : ∀ now ∈ relative, now.Normal) (func : F) (client : ℕ) :
    tm.timerSet interval func client relative = none ↔
      ∃ i ∈ interval, ∃ now ∈ relative, now.tv_usec + i.tv_usec = 1000000 := by
  cases interval with
  | none => simp [Multimer.timerSet]
  | some i =>
    simp only [Option.mem_some_iff, exists_eq_left']
    rw [← expiration_eq_none_iff (hi i rfl) hr, Multimer.timerSet]
    cases he : expiration i relative with
    | none => simp
    | some time =>
      have hn := h.putTimer (expiration_normal (hi i rfl) hr he) func client
      simp [hn.timerCheck]

theorem Normal.timerSet (h : tm.Normal) (hi : ∀ i ∈ interval, i.Normal)
    (hr : ∀ now ∈ relative, now.Normal)
    (hs : tm.timerSet interval func client relative = some tm') : tm'.Normal := by
  rcases timerSet_eq_some.1 hs with ⟨-, rfl⟩ | ⟨i, time, rfl, ht, rfl, -⟩
  · exact h.cancelTimer client
  · exact h.putTimer (expiration_normal (hi i rfl) hr ht) func client

theorem Normal.tail (h : tm.Normal) (hq : tm.timerQ = tp :: timerQ) {tp' : TQE F}
    (htp : tp'.interval = tp.interval) :
    (⟨timerQ, tp' :: tm.freeTQEQ⟩ : Multimer F).Normal := by
  have hmem : ∀ t ∈ timerQ, t ∈ tm.timerQ := fun t ht => hq ▸ List.mem_cons_of_mem _ ht
  refine ⟨fun t ht => h.time t (hmem t ht), fun t ht => h.interval t (hmem t ht), fun t ht => ?_⟩
  rcases List.mem_cons.1 ht with rfl | ht
  · exact htp ▸ h.interval tp (hq ▸ List.mem_cons_self)
  · exact h.free t ht

theorem Normal.pass (h : tm.Normal) (hs : tm.op (.pass now) = some (tm', call)) : tm'.Normal := by
  rcases op_pass_eq_some hs with ⟨rfl, -⟩ | ⟨tp, timerQ, hq, -, -, rfl | ⟨hc, tp', htp', rfl⟩⟩
  · exact h
  · exact h.tail hq rfl
  · have htp : tp ∈ tm.timerQ := hq ▸ List.mem_cons_self
    exact (h.tail hq htp').putTimer
      ((timeradd_normal_iff (h.interval tp htp) (h.time tp htp)).2 (tv_usec_lt_of_timerCheck hc))
      _ _

theorem Normal.op (h : tm.Normal) (hn : o.Normal) (hs : tm.op o = some (tm', call)) :
    tm'.Normal := by
  cases o with
  | set interval func client relative =>
    simp only [Multimer.op, Option.map_eq_some_iff, Prod.mk.injEq] at hs
    obtain ⟨tm₁, h₁, rfl, -⟩ := hs
    exact h.timerSet hn.1 hn.2 h₁
  | itimer client func it_value it_interval now =>
    simp only [Multimer.op, Option.map_eq_some_iff, Prod.mk.injEq, notifySetItimerFunc,
      Option.bind_eq_bind, Option.bind_eq_some_iff] at hs
    obtain ⟨_, ⟨tm₁, h₁, h₂⟩, rfl, -⟩ := hs
    obtain rfl := Option.some.inj h₂
    refine (h.timerSet ?_ ?_ h₁).setInterval hn.2.1 client
    · simpa using hn.1
    · simpa using hn.2.2
  | get | pass => exact h.pass (pass_of_reads rfl hs)

/-- A pass fails in the sum for a timer set again alone. -/
theorem Normal.timerPass_eq_none_iff (h : tm.Normal) (hnow : now.Normal) :
    tm.timerPass now = none ↔ (Op.pass now : Op F).WholeSecond tm := by
  rw [timerPass, Op.WholeSecond]
  cases hq : tm.timerQ with
  | nil => simp
  | cons tp timerQ =>
    have htp : tp ∈ tm.timerQ := hq ▸ List.mem_cons_self
    have hsum := tv_usec_timeradd_lt_iff (h.interval tp htp) (h.time tp htp)
    have htimeout := tv_usec_subTimeval_lt (h.time tp htp).2 hnow.1
    simp only [List.head?_cons, Option.mem_some_iff, exists_eq_left', timerless_iff]
    split_ifs with hl hi
    · simp [hl]
    · have hrest : (⟨timerQ, { tp with time := timeradd tp.interval tp.time } ::
          tm.freeTQEQ⟩ : Multimer F).Normal := h.tail hq rfl
      have hcheck := hrest.timerCheck_putTimer_iff (h.interval tp htp) (h.time tp htp)
        tp.func tp.client
      rw [Option.map_eq_none_iff, Multimer.timerSet]
      simp only [expiration, Option.bind_eq_bind, Option.bind_some, ite_eq_right_iff,
        hcheck, hsum]
      simp [not_lt.1 hl]
    · have hzero : tp.interval.tv_usec = 0 := by
        by_contra hne
        exact hi (.inr hne)
      have := (h.time tp htp).2
      simp only [false_iff, not_and, hzero]
      omega

/-- An assertion fails where a sum of times comes to a whole second in its microseconds, and nowhere
else. -/
theorem op_eq_none_iff (h : Run (fun _ o => o.Normal) empty tm) (hn : o.Normal) :
    tm.op o = none ↔ o.WholeSecond tm := by
  have hnorm : tm.Normal := by
    refine h.invariant (fun tm o tm' hI hn hs => ?_) normal_empty
    obtain ⟨call, hs⟩ := Transition.silent_eq_some.1 hs
    exact hI.op hn hs
  cases o with
  | set interval func client relative =>
    rw [Multimer.op, Option.map_eq_none_iff]
    exact hnorm.timerSet_eq_none_iff hn.1 hn.2 func client
  | itimer client func it_value it_interval now =>
    have hset : tm.timerSet (some it_value) func client (some now) = none ↔
        ∃ i, i ∈ some it_value ∧ ∃ t, t ∈ some now ∧ t.tv_usec + i.tv_usec = 1000000 := by
      refine hnorm.timerSet_eq_none_iff (fun i hi => ?_) (fun t ht => ?_) func client
      · exact Option.some.inj hi ▸ hn.1
      · exact Option.some.inj ht ▸ hn.2.2
    simp only [Option.mem_some_iff, exists_eq_left'] at hset
    rw [Multimer.op, Option.map_eq_none_iff, notifySetItimerFunc, Op.WholeSecond, ← hset]
    cases tm.timerSet (some it_value) func client (some now) <;> simp
  | get now =>
    rw [Multimer.op, Option.map_eq_none_iff, timerGet, if_pos hnorm.timerCheck]
    exact hnorm.timerPass_eq_none_iff hn
  | pass now =>
    rw [Multimer.op, Option.map_eq_none_iff]
    exact hnorm.timerPass_eq_none_iff hn

theorem op_eq_none_iff_repeated :
    (⟨[⟨⟨5, 400000⟩, ⟨1, 600000⟩, 7, 1⟩], []⟩ : Multimer ℕ).op (.get ⟨9, 0⟩) = none ↔
      (Op.get ⟨9, 0⟩).WholeSecond (⟨[⟨⟨5, 400000⟩, ⟨1, 600000⟩, 7, 1⟩], []⟩ : Multimer ℕ) :=
  op_eq_none_iff (Transition.Run.of_actions
    [.itimer 1 7 ⟨1, 400000⟩ ⟨1, 600000⟩ ⟨4, 0⟩] (by decide)) (by decide)

end Assertions

end Multimer

end TcpLike
