import Mathlib.Data.List.Nodup
import TcpLike.Lib.Runs
import TcpLike.Queue

/-!
# The linked list is a queue

The nodes in memory hold the items of the list, oldest first, and nothing else is there
(`Queue.Holds`). Every operation keeps this, follows no pointer that leads nowhere, and gives what
it gives on the list (`Queue.refines_fifo`).
-/

namespace TcpLike

namespace Queue

variable {α : Type} {queue queue' : Queue α} {heap heap' : ℕ → Option (QueueNode α)}
  {cells rest : List (ℕ × α)} {older : Option ℕ} {p r : ℕ} {x y : α} {items : List α}

/-- The cells lead from one to the next, oldest first, behind the cell `older`. -/
def Segment (heap : ℕ → Option (QueueNode α)) : Option ℕ → List (ℕ × α) → Prop
  | _, [] => True
  | older, (p, x) :: cells =>
    heap p = some ⟨x, cells.head?.map Prod.fst, older⟩ ∧ Segment heap (some p) cells

/-- The queue is in the cells, oldest first, and its memory holds no others. -/
structure Holds (queue : Queue α) (cells : List (ℕ × α)) : Prop where
  nodup : (cells.map Prod.fst).Nodup
  segment : Segment queue.heap none cells
  count : queue.count = cells.length
  root : queue.root = cells.getLast?.map Prod.fst
  last : queue.last = cells.head?.map Prod.fst
  clean : ∀ p, p ∉ cells.map Prod.fst → queue.heap p = none

/-! ## Segments -/

theorem Segment.congr (h : Segment heap older cells)
    (hh : ∀ p ∈ cells.map Prod.fst, heap' p = heap p) : Segment heap' older cells := by
  induction cells generalizing older with
  | nil => trivial
  | cons c cells ih =>
    obtain ⟨p, x⟩ := c
    obtain ⟨hp, hcells⟩ := h
    refine ⟨(hh p (by simp)).trans hp, ih hcells fun q hq => hh q ?_⟩
    exact List.mem_cons_of_mem _ hq

theorem Segment.ne_none (h : Segment heap older cells) (hp : p ∈ cells.map Prod.fst) :
    heap p ≠ none := by
  induction cells generalizing older with
  | nil => cases hp
  | cons c cells ih =>
    rcases List.mem_cons.1 hp with rfl | hp
    · exact h.1 ▸ Option.some_ne_none _
    · exact ih h.2 hp

/-- The newest cell of a segment has none newer. -/
theorem Segment.newest (h : Segment heap older (cells ++ [(r, y)])) :
    ∃ o, heap r = some ⟨y, none, o⟩ := by
  induction cells generalizing older with
  | nil => exact ⟨older, h.1⟩
  | cons c cells ih => exact ih h.2

/-- A cell put behind the newest. -/
theorem Segment.snoc (h : Segment heap older (cells ++ [(r, y)]))
    (hnd : ((cells ++ [(r, y)]).map Prod.fst).Nodup) (hp : p ∉ (cells ++ [(r, y)]).map Prod.fst)
    (hx : heap' p = some ⟨x, none, some r⟩)
    (hr : ∀ o, heap r = some ⟨y, none, o⟩ → heap' r = some ⟨y, some p, o⟩)
    (hh : ∀ q, q ≠ p → q ≠ r → heap' q = heap q) :
    Segment heap' older (cells ++ [(r, y), (p, x)]) := by
  induction cells generalizing older with
  | nil => exact ⟨hr older h.1, hx, trivial⟩
  | cons c cells ih =>
    obtain ⟨q, z⟩ := c
    obtain ⟨hq, hcells⟩ := h
    simp only [List.cons_append, List.map_cons, List.nodup_cons] at hnd
    simp only [List.cons_append, List.map_cons, List.mem_cons, not_or] at hp
    refine ⟨?_, ih hcells hnd.2 hp.2⟩
    have hqr : q ≠ r := fun hqr => hnd.1 (by simp [hqr])
    rw [hh q (fun h => hp.1 h.symm) hqr, hq]
    cases cells <;> rfl

/-! ## The operations -/

theorem holds_openQueue : (openQueue : Queue α).Holds [] :=
  ⟨.nil, trivial, rfl, rfl, rfl, fun _ _ => rfl⟩

/-- The first item taken. -/
theorem Holds.addQueue_nil (h : queue.Holds []) :
    ∃ queue', queue.addQueue (some x) p = some (queue', true) ∧ queue'.Holds [(p, x)] := by
  have hroot : queue.root = none := h.root
  have hcount : queue.count = 0 := h.count
  have hp : queue.heap p = none := h.clean p (by simp)
  refine ⟨⟨Function.update queue.heap p (some ⟨x, none, none⟩), 1, some p, some p⟩, ?_, ?_⟩
  · simp [addQueue, hcount, MAX_Q_SIZE, hp, hroot, setNode, modifyNode]
  · refine ⟨by simp, ⟨by simp, trivial⟩, rfl, rfl, rfl, fun q hq => ?_⟩
    have hqp : q ≠ p := by simpa using hq
    simpa [Function.update_of_ne hqp] using h.clean q (by simp)

/-- An item taken behind others. -/
theorem Holds.addQueue_snoc (h : queue.Holds (cells ++ [(r, y)]))
    (hlen : (cells ++ [(r, y)]).length < MAX_Q_SIZE) (hp : queue.heap p = none) :
    ∃ queue', queue.addQueue (some x) p = some (queue', true) ∧
      queue'.Holds (cells ++ [(r, y), (p, x)]) := by
  have hroot : queue.root = some r := by simpa using h.root
  obtain ⟨o, hr⟩ := h.segment.newest
  have hpr : r ≠ p := fun hrp => by simp [← hrp, hr] at hp
  have hfresh : p ∉ (cells ++ [(r, y)]).map Prod.fst := fun hmem => h.segment.ne_none hmem hp
  have hcount : ¬(MAX_Q_SIZE : ℤ) ≤ queue.count := by
    rw [h.count]
    omega
  refine ⟨⟨Function.update (Function.update queue.heap r (some ⟨y, some p, o⟩)) p
    (some ⟨x, none, some r⟩), queue.count + 1, some p, queue.last⟩, ?_, ?_⟩
  · simp [addQueue, hcount, hp, hroot, setNode, modifyNode, hr, hpr,
      Function.update_comm hpr.symm]
  · have hlist : cells ++ [(r, y), (p, x)] = cells ++ [(r, y)] ++ [(p, x)] := by simp
    refine ⟨?_, ?_, ?_, ?_, ?_, fun q hq => ?_⟩
    · rw [hlist, List.map_append, List.nodup_append]
      refine ⟨h.nodup, by simp, fun q hq q' hq' => ?_⟩
      obtain rfl : q' = p := by simpa using hq'
      rintro rfl
      exact hfresh hq
    · refine h.segment.snoc h.nodup hfresh (Function.update_self ..) (fun o' ho' => ?_)
        fun q hqp hqr => ?_
      · obtain rfl : o = o' := by simpa [hr] using ho'
        simp [hpr]
      · simp [hqp, hqr]
    · simp only [h.count, hlist, List.length_append, List.length_singleton]
      omega
    · simp
    · rw [hlist, List.head?_append_of_ne_nil _ (by simp)]
      exact h.last
    · have hqp : q ≠ p := by
        rintro rfl
        exact hq (by simp)
      have hqc : q ∉ (cells ++ [(r, y)]).map Prod.fst := by
        intro hqc
        exact hq (by rw [hlist, List.map_append]; exact List.mem_append_left _ hqc)
      have hqr : q ≠ r := by
        rintro rfl
        exact hqc (by simp)
      simpa [hqp, hqr] using h.clean q hqc

/-- An item is taken where the queue is not full. -/
theorem Holds.addQueue (h : queue.Holds cells) (hlen : cells.length < MAX_Q_SIZE)
    (hp : queue.heap p = none) (x : α) :
    ∃ queue', queue.addQueue (some x) p = some (queue', true) ∧
      queue'.Holds (cells ++ [(p, x)]) := by
  rcases List.eq_nil_or_concat cells with rfl | ⟨older, ⟨r, y⟩, rfl⟩
  · exact h.addQueue_nil
  · rw [List.concat_eq_append] at h hlen ⊢
    obtain ⟨queue', hq, hh⟩ := h.addQueue_snoc hlen hp
    exact ⟨queue', hq, by simpa using hh⟩

/-- The oldest item is returned and its cell freed. -/
theorem Holds.getQueue (h : queue.Holds ((p, x) :: rest)) :
    ∃ queue', queue.getQueue = some (queue', some x) ∧ queue'.Holds rest := by
  have hcount : ¬queue.count ≤ 0 := by
    rw [h.count, List.length_cons]
    omega
  have hlast : queue.last = some p := h.last
  obtain ⟨hp, hrest⟩ := h.segment
  have hnd := List.nodup_cons.1 h.nodup
  cases rest with
  | nil =>
    have hroot : queue.root = some p := h.root
    refine ⟨⟨Function.update queue.heap p none, queue.count - 1, none, none⟩, ?_, ?_⟩
    · simp at hp
      simp [Queue.getQueue, hcount, hlast, hp, hroot, setNode]
    · refine ⟨.nil, trivial, by simp [h.count], rfl, rfl, fun q _ => ?_⟩
      by_cases hqp : q = p
      · simp [hqp]
      · simpa [hqp] using h.clean q (by simpa using hqp)
  | cons c rest =>
    obtain ⟨r, y⟩ := c
    have hr : queue.heap r = some ⟨y, rest.head?.map Prod.fst, some p⟩ := hrest.1
    have hpr : p ≠ r := fun hpr => hnd.1 (by simp [hpr])
    have hroot : queue.root ≠ some p := by
      intro hroot
      rw [h.root, List.getLast?_cons_cons] at hroot
      obtain ⟨c, hc, hcp⟩ := Option.map_eq_some_iff.1 hroot
      exact hnd.1 (List.mem_map.2 ⟨c, List.mem_of_getLast? hc, hcp⟩)
    refine ⟨⟨Function.update (Function.update queue.heap r
      (some ⟨y, rest.head?.map Prod.fst, none⟩)) p none, queue.count - 1, queue.root, some r⟩,
      ?_, ?_⟩
    · simp at hp
      simp [Queue.getQueue, hcount, hlast, hp, hroot, setNode, modifyNode, hr, hpr]
    · have hmem : ∀ q ∈ rest.map Prod.fst, q ≠ p ∧ q ≠ r := by
        intro q hq
        constructor
        · rintro rfl
          exact hnd.1 (List.mem_cons_of_mem _ hq)
        · rintro rfl
          exact (List.nodup_cons.1 hnd.2).1 hq
      refine ⟨hnd.2, ⟨by simp [hpr.symm], hrest.2.congr fun q hq => ?_⟩, ?_, ?_, rfl,
        fun q hq => ?_⟩
      · simp [hmem q hq]
      · simp only [h.count, List.length_cons]
        omega
      · rw [h.root, List.getLast?_cons_cons]
      · have hqr : q ≠ r := fun hqr => hq (by simp [hqr])
        by_cases hqp : q = p
        · simp [hqp]
        · simpa [hqp, hqr] using h.clean q (by simpa [hqp] using hq)

/-- An empty queue returns none. -/
theorem Holds.getQueue_nil (h : queue.Holds []) : queue.getQueue = some (queue, none) := by
  simp [Queue.getQueue, h.count]

/-- A full queue takes none. -/
theorem Holds.addQueue_full (h : queue.Holds cells) (hlen : MAX_Q_SIZE ≤ cells.length)
    (newItem : Option α) : queue.addQueue newItem p = some (queue, false) := by
  have hcount : (MAX_Q_SIZE : ℤ) ≤ queue.count := by
    rw [h.count]
    exact_mod_cast hlen
  unfold Queue.addQueue
  exact if_pos hcount

theorem addQueue_null (queue : Queue α) (p : ℕ) : queue.addQueue none p = some (queue, false) := by
  simp [addQueue]

/-- The queue is in memory as some cells. -/
def Represents (queue : Queue α) (items : List α) : Prop :=
  ∃ cells, queue.Holds cells ∧ cells.map Prod.snd = items

/-- The cell for a new node is not in use. -/
def Op.Fresh (queue : Queue α) : Op α → Prop
  | .add _ newNode => queue.heap newNode = none
  | .get => True

instance [DecidableEq α] (queue : Queue α) (o : Op α) : Decidable (o.Fresh queue) :=
  match o with
  | .add _ newNode => inferInstanceAs (Decidable (queue.heap newNode = none))
  | .get => inferInstanceAs (Decidable True)

/-- An operation finds every node it looks for, and does what it does on the list. -/
theorem Represents.op {o : Op α} (h : queue.Represents items) (ho : o.Fresh queue) :
    ∃ queue', queue.op o = some (queue', (Fifo.op items o).2) ∧
      queue'.Represents (Fifo.op items o).1 := by
  obtain ⟨cells, hc, rfl⟩ := h
  cases o with
  | add newItem newNode =>
    cases newItem with
    | none =>
      refine ⟨queue, ?_, cells, hc, rfl⟩
      simp [Queue.op, addQueue_null, Fifo.op]
    | some x =>
      rcases Nat.lt_or_ge cells.length MAX_Q_SIZE with hlen | hlen
      · obtain ⟨queue', hq, hh⟩ := hc.addQueue hlen ho x
        have hadd : Fifo.add (cells.map Prod.snd) x = some (cells.map Prod.snd ++ [x]) :=
          if_neg (by simpa using hlen)
        refine ⟨queue', ?_, _, hh, ?_⟩
        · simp [Queue.op, hq, Fifo.op, hadd]
        · simp [Fifo.op, hadd]
      · have hadd : Fifo.add (cells.map Prod.snd) x = none := if_pos (by simpa using hlen)
        refine ⟨queue, ?_, cells, hc, ?_⟩
        · simp [Queue.op, hc.addQueue_full hlen, Fifo.op, hadd]
        · simp [Fifo.op, hadd]
  | get =>
    cases cells with
    | nil => exact ⟨queue, by simp [Queue.op, hc.getQueue_nil, Fifo.op, Fifo.get], [], hc, rfl⟩
    | cons c cells =>
      obtain ⟨queue', hq, hh⟩ := hc.getQueue
      exact ⟨queue', by simp [Queue.op, hq, Fifo.op, Fifo.get], cells, hh, rfl⟩

/-- The loop of `closeQueue` leaves no node in memory. -/
theorem Holds.closeLoop (h : queue.Holds cells) :
    ∃ queue', Queue.closeLoop cells.length queue = some queue' ∧ queue'.Holds [] := by
  induction cells generalizing queue with
  | nil => exact ⟨queue, rfl, h⟩
  | cons c cells ih =>
    obtain ⟨queue₁, hq, hh⟩ := h.getQueue
    obtain ⟨queue', hl, hh'⟩ := ih hh
    have hcount : queue.count ≠ 0 := by
      rw [h.count, List.length_cons]
      omega
    exact ⟨queue', by simp [Queue.closeLoop, hcount, hq, hl], hh'⟩

/-- A run of operations beside the same run on the list. -/
abbrev Run (x y : Queue α × List α) : Prop :=
  Transition.Run (Transition.recorded Queue.op fun _ o _ items => (Fifo.op items o).1)
    (fun x o => o.Fresh x.1) x y

theorem Run.represents (h : Run (openQueue, []) (queue, items)) : queue.Represents items := by
  refine h.invariant (I := fun x => x.1.Represents x.2) ?_ ⟨[], holds_openQueue, rfl⟩
  rintro ⟨queue, items⟩ o ⟨queue', items'⟩ hr ho hs
  obtain ⟨res, hop, rfl⟩ := Transition.recorded_eq_some.1 hs
  obtain ⟨queue₁, hop', hr'⟩ := hr.op ho
  rw [hop'] at hop
  obtain ⟨rfl, -⟩ := Prod.mk.inj (Option.some.inj hop)
  exact hr'

/-- However it is used, the linked list counts and answers as the list does, and closing it frees
every node: no pointer is followed that leads nowhere. -/
theorem refines_fifo (h : Run (openQueue, []) (queue, items)) :
    queue.countQueue = items.length ∧
      (∀ o : Op α, o.Fresh queue → ∃ queue', queue.op o = some (queue', (Fifo.op items o).2)) ∧
      ∃ queue', queue.closeQueue = some queue' ∧ ∀ p, queue'.heap p = none := by
  have hr := h.represents
  refine ⟨?_, fun o ho => ?_, ?_⟩
  · obtain ⟨cells, hc, rfl⟩ := hr
    rw [countQueue, hc.count, List.length_map]
  · obtain ⟨queue', hop, -⟩ := hr.op ho
    exact ⟨queue', hop⟩
  · obtain ⟨cells, hc, -⟩ := hr
    obtain ⟨queue', hl, hh⟩ := hc.closeLoop
    refine ⟨queue', ?_, fun p => hh.clean p (by simp)⟩
    rw [closeQueue, hc.count, Int.toNat_natCast, hl]

theorem refines_fifo_three : ∃ (queue : Queue ℕ) (items : List ℕ), items = [20, 30] ∧
    queue.countQueue = items.length ∧
      (∀ o : Op ℕ, o.Fresh queue → ∃ queue', queue.op o = some (queue', (Fifo.op items o).2)) ∧
      ∃ queue', queue.closeQueue = some queue' ∧ ∀ p, queue'.heap p = none := by
  have h : ∃ x, Run ((openQueue : Queue ℕ), []) x ∧ decide (x.2 = [20, 30]) :=
    Transition.Run.exists_of_exec [.add (some 10) 1, .add (some 20) 2, .get, .add (some 30) 1] _
      (by decide +kernel)
  obtain ⟨⟨queue, items⟩, h, hitems⟩ := h
  exact ⟨queue, items, of_decide_eq_true hitems, refines_fifo h⟩

end Queue

end TcpLike
