import Mathlib.Data.Finset.Lattice.Fold
import TcpLike.Notify
import TcpLike.Proofs.EmulatorFlush

/-!
# The notifier asks for what it serves

However handlers are set and removed, the event list is a map from descriptors to handlers, and
`select` is asked for the descriptors in it, up to the highest (`Notifier.refines_map`). A round
calls for every descriptor that is ready and has a handler when its turn comes, whatever the
handlers do to the list (`Notifier.dispatch_eq`). A run of the main loop of the emulator is one of
the state machine it is modelled as (`notifyRound_refines`).
-/

namespace TcpLike

namespace Notifier

variable {F S : Type} {n n' : Notifier F} {fd client : ℕ} {el : List (InputEvent F)}
  {e : InputEvent F}

def fds (el : List (InputEvent F)) : List ℕ := el.map InputEvent.fd

/-- Each descriptor has one event at most, and the sets are those of the list. -/
structure Consistent (n : Notifier F) : Prop where
  nodup : (fds n.el).Nodup
  Readfds : n.Readfds = (fds n.el).toFinset
  max_fd : n.max_fd = n.Readfds.sup id

theorem consistent_empty : (empty : Notifier F).Consistent := ⟨.nil, rfl, rfl⟩

theorem search_isSome_iff : (n.search fd).isSome ↔ fd ∈ fds n.el := by
  simp [search, fds]

theorem setMaxFd_eq (el : List (InputEvent F)) : setMaxFd el = (fds el).toFinset.sup id := by
  have key : ∀ (el : List (InputEvent F)) (m : ℕ),
      el.foldl (fun max_fd e => if max_fd < e.fd then e.fd else max_fd) m =
        max m ((fds el).toFinset.sup id) := by
    intro el
    induction el with
    | nil =>
      intro m
      simp [fds]
    | cons e el ih =>
      intro m
      have hmax : (if m < e.fd then e.fd else m) = max m e.fd := by
        split_ifs <;> omega
      rw [List.foldl_cons, ih, hmax]
      simp [fds, max_assoc]
  rw [setMaxFd, key, Nat.zero_max]

theorem fds_setFunc (fd : ℕ) (func : F) (el : List (InputEvent F)) :
    fds (setFunc fd func el) = fds el := by
  induction el with
  | nil => rfl
  | cons e el ih =>
    rw [setFunc]
    split_ifs
    · rfl
    · exact congrArg (e.fd :: ·) ih

theorem fds_eraseP (fd : ℕ) (el : List (InputEvent F)) :
    fds (el.eraseP (·.fd = fd)) = (fds el).erase fd := by
  rw [fds, fds, List.erase_eq_eraseP', List.eraseP_map]
  rfl

/-- No use of `notify_set_input_func` breaks it. -/
theorem Consistent.set (h : n.Consistent) (client : ℕ) (func : Option F) (fd : ℕ) :
    (n.notifySetInputFunc client func fd).Consistent := by
  cases hs : n.search fd with
  | none =>
    have hfd : fd ∉ fds n.el := by
      rw [← search_isSome_iff, hs]
      simp
    cases func with
    | none => simpa only [notifySetInputFunc, hs] using h
    | some func =>
      simp only [notifySetInputFunc, hs]
      refine ⟨List.nodup_cons.2 ⟨hfd, h.nodup⟩, ?_, ?_⟩
      · simp [h.Readfds, fds]
      · have hmax : (if n.max_fd < fd then fd else n.max_fd) = max fd n.max_fd := by
          split_ifs <;> omega
        rw [hmax, h.max_fd, Finset.sup_insert]
        rfl
  | some e =>
    cases func with
    | none =>
      simp only [notifySetInputFunc, hs]
      have hset : n.Readfds.erase fd = (fds (n.el.eraseP (·.fd = fd))).toFinset := by
        ext fd'
        rw [Finset.mem_erase, h.Readfds, List.mem_toFinset, List.mem_toFinset, fds_eraseP,
          h.nodup.mem_erase_iff]
      refine ⟨?_, hset, ?_⟩
      · rw [fds_eraseP]
        exact h.nodup.erase fd
      · rw [setMaxFd_eq, hset]
    | some func =>
      simp only [notifySetInputFunc, hs]
      exact ⟨(fds_setFunc fd func n.el).symm ▸ h.nodup,
        (fds_setFunc fd func n.el).symm ▸ h.Readfds, h.max_fd⟩

theorem remove_of_search_eq_none (h : n.search fd = none) (client : ℕ) :
    n.notifySetInputFunc client none fd = n := by
  simp only [notifySetInputFunc, h]

theorem el_of_search_eq_none (h : n.search fd = none) (client : ℕ) (func : F) :
    (n.notifySetInputFunc client (some func) fd).el = ⟨client, func, fd⟩ :: n.el := by
  simp only [notifySetInputFunc, h]

theorem mem_of_mem_remove (h : e ∈ (n.notifySetInputFunc client none fd).el) : e ∈ n.el := by
  cases hs : n.search fd with
  | none => rwa [remove_of_search_eq_none hs] at h
  | some _ =>
    simp only [notifySetInputFunc, hs] at h
    exact List.mem_of_mem_eraseP h

theorem Consistent.le_max_fd (h : n.Consistent) (hs : (n.search fd).isSome) : fd ≤ n.max_fd := by
  rw [search_isSome_iff, ← List.mem_toFinset, ← h.Readfds] at hs
  rw [h.max_fd]
  exact Finset.le_sup (f := id) hs

/-! ## The event list as a map -/

/-- What `notify_set_input_func` does to the handlers as a map. -/
def setHandler (m : ℕ → Option (ℕ × F)) (client : ℕ) (func : Option F) (fd : ℕ) :
    ℕ → Option (ℕ × F) :=
  Function.update m fd (func.map fun func => (((m fd).map Prod.fst).getD client, func))

/-- The handlers in the event list. -/
def handlers (n : Notifier F) (fd : ℕ) : Option (ℕ × F) :=
  (n.search fd).map fun e => (e.client, e.func)

theorem find?_eraseP {fd' : ℕ} (hne : fd' ≠ fd) :
    (el.eraseP (·.fd = fd)).find? (·.fd = fd') = el.find? (·.fd = fd') := by
  induction el with
  | nil => rfl
  | cons e el ih =>
    by_cases he : e.fd = fd
    · rw [List.eraseP_cons_of_pos (by simpa using he), List.find?_cons_of_neg]
      simpa [he] using hne.symm
    · rw [List.eraseP_cons_of_neg (by simpa using he), List.find?_cons, List.find?_cons, ih]

theorem find?_setFunc (func : F) (fd' : ℕ) :
    (setFunc fd func el).find? (·.fd = fd') =
      (el.find? (·.fd = fd')).map fun e => if fd' = fd then { e with func := func } else e := by
  induction el with
  | nil => rfl
  | cons e el ih =>
    rw [setFunc]
    by_cases he : e.fd = fd
    · rw [if_pos he]
      by_cases he' : e.fd = fd'
      · simp [he', he'.symm.trans he]
      · have hne : ¬fd' = fd := fun hfd => he' (he.trans hfd.symm)
        simp [he', hne]
    · rw [if_neg he, List.find?_cons, List.find?_cons, ih]
      split
      · rename_i heq
        have hne : ¬fd' = fd := fun hfd => he ((of_decide_eq_true heq).trans hfd)
        simp [hne]
      · rfl

theorem Consistent.handlers_set (h : n.Consistent) (client : ℕ) (func : Option F) (fd : ℕ) :
    (n.notifySetInputFunc client func fd).handlers = setHandler n.handlers client func fd := by
  ext1 fd'
  cases hs : n.search fd with
  | none =>
    cases func with
    | none =>
      simp only [notifySetInputFunc, hs, setHandler, handlers, Function.update_apply]
      split_ifs with hfd
      · simp [hfd, hs]
      · rfl
    | some func =>
      simp only [notifySetInputFunc, hs, setHandler, handlers, Function.update_apply]
      by_cases hfd : fd' = fd
      · simp [hfd, search]
      · simp [hfd, Ne.symm hfd, search]
  | some e =>
    cases func with
    | none =>
      simp only [notifySetInputFunc, hs, setHandler, handlers, Function.update_apply]
      split_ifs with hfd
      · have hnot : fd ∉ fds (n.el.eraseP (·.fd = fd)) := by
          rw [fds_eraseP]
          exact h.nodup.not_mem_erase
        have hnone : (n.el.eraseP (·.fd = fd)).find? (·.fd = fd) = none := by
          simpa [fds] using hnot
        simp [hfd, search, hnone]
      · rw [search, find?_eraseP hfd]
        rfl
    | some func =>
      simp only [notifySetInputFunc, hs, setHandler, handlers, Function.update_apply]
      rw [search, find?_setFunc]
      split_ifs with hfd
      · have hs' : n.el.find? (·.fd = fd) = some e := hs
        simp [hfd, hs']
      · simp [search]

/-- An argument list of `notify_set_input_func`. -/
abbrev Setting (F : Type) := ℕ × Option F × ℕ

/-- Any use of `notify_set_input_func`. -/
abbrev Run (n n' : Notifier F) : Prop :=
  Transition.Run (fun n (a : Setting F) => some (n.notifySetInputFunc a.1 a.2.1 a.2.2))
    (fun _ _ => True) n n'

theorem Consistent.run (h : n.Consistent) (hrun : Run n n') : n'.Consistent := by
  refine hrun.invariant (fun n a n' hc _ hs => ?_) h
  exact Option.some.inj hs ▸ hc.set a.1 a.2.1 a.2.2

/-- Any use of it beside the same use of the map. -/
abbrev MapRun (x y : Notifier F × (ℕ → Option (ℕ × F))) : Prop :=
  Transition.Run (Transition.recorded
    (fun n (a : Setting F) => some (n.notifySetInputFunc a.1 a.2.1 a.2.2, ()))
    fun _ a _ m => setHandler m a.1 a.2.1 a.2.2) (fun _ _ => True) x y

/-- The event list is a map from descriptors to handlers, and `select` is asked for the descriptors
in the map, up to the highest of them. -/
theorem refines_map {m : ℕ → Option (ℕ × F)} (h : MapRun (empty, fun _ => none) (n, m)) :
    n.handlers = m ∧ (∀ fd, fd ∈ n.Readfds ↔ (m fd).isSome) ∧
      (∀ fd ∈ n.Readfds, fd ≤ n.max_fd) ∧ (n.max_fd = 0 ∨ n.max_fd ∈ n.Readfds) := by
  have key : n.Consistent ∧ n.handlers = m := by
    refine h.invariant (I := fun x => x.1.Consistent ∧ x.1.handlers = x.2) ?_
      ⟨consistent_empty, rfl⟩
    rintro ⟨n, m⟩ a ⟨n', m'⟩ ⟨hc, hm⟩ - hs
    obtain rfl : n.handlers = m := hm
    obtain ⟨_, hn, rfl⟩ := Transition.recorded_eq_some.1 hs
    obtain rfl := (Prod.mk.inj (Option.some.inj hn)).1
    exact ⟨hc.set _ _ _, hc.handlers_set _ _ _⟩
  obtain ⟨hc, rfl⟩ := key
  have hmem : ∀ fd, fd ∈ n.Readfds ↔ (n.handlers fd).isSome := by
    intro fd
    rw [handlers, Option.isSome_map, search_isSome_iff, hc.Readfds, List.mem_toFinset]
  refine ⟨rfl, hmem, fun fd hfd => ?_, ?_⟩
  · rw [hmem, handlers, Option.isSome_map] at hfd
    exact hc.le_max_fd hfd
  · rw [hc.max_fd]
    rcases n.Readfds.eq_empty_or_nonempty with hnil | hne
    · exact .inl (by simp [hnil])
    · obtain ⟨fd, hfd, hsup⟩ := Finset.exists_mem_eq_sup n.Readfds hne id
      exact .inr (hsup ▸ hfd)

theorem refines_map_three : ∃ n : Notifier Handler, ∃ m : ℕ → Option (ℕ × Handler),
    m 0 = some (0, .stdinHandler) ∧ m 5 = none ∧ n.handlers = m ∧ n.max_fd = 3 := by
  have h : ∃ x, MapRun ((empty : Notifier Handler), fun _ => none) x ∧
      decide (x.1.max_fd = 3 ∧ x.2 0 = some (0, .stdinHandler) ∧ x.2 5 = none) :=
    Transition.Run.exists_of_exec [(0, some .stdinHandler, 0), (0, some .readHandler, 5),
      (0, some .readHandler, 3), (7, none, 5)] _ (by decide +kernel)
  obtain ⟨⟨n, m⟩, h, hp⟩ := h
  obtain ⟨hmax, h0, h5⟩ := of_decide_eq_true hp
  exact ⟨n, m, h0, h5, (refines_map h).1, hmax⟩

/-! ## A round -/

/-- The call for a descriptor that is ready, if it has a handler. -/
def serve (call : F → ℕ → ℕ → Notifier F × S → Option (Notifier F × S)) (x : Notifier F × S)
    (fd : ℕ) : Option (Notifier F × S) :=
  match x.1.search fd with
  | some e => call e.func e.client fd x
  | none => some x

section Dispatch

variable {call : F → ℕ → ℕ → Notifier F × S → Option (Notifier F × S)} {readfds : Finset ℕ}
  {x : Notifier F × S}

/-- Behind the highest descriptor none has a handler. -/
theorem foldlM_serve_of_lt (hc : x.1.Consistent) : ∀ {fds : List ℕ}, (∀ fd ∈ fds, x.1.max_fd < fd) →
    fds.foldlM (serve call) x = some x
  | [], _ => rfl
  | fd :: fds, h => by
    have hnone : x.1.search fd = none := by
      rw [← Option.not_isSome_iff_eq_none]
      exact fun hs => absurd (hc.le_max_fd hs) (not_le.2 (h fd List.mem_cons_self))
    rw [List.foldlM_cons, serve, hnone]
    exact foldlM_serve_of_lt hc fun fd hfd => h fd (List.mem_cons_of_mem _ hfd)

theorem dispatch_eq_foldlM (hcall : ∀ {func client fd x y}, call func client fd x = some y →
    Run x.1 y.1) : ∀ {fds : List ℕ} {x : Notifier F × S}, x.1.Consistent → fds.Pairwise (· < ·) →
    dispatch call readfds fds x = (fds.filter (· ∈ readfds)).foldlM (serve call) x
  | [], _, _, _ => rfl
  | fd :: fds, x, hc, hsorted => by
    obtain ⟨hlt, hsorted⟩ := List.pairwise_cons.1 hsorted
    rw [dispatch]
    split_ifs with hle hmem
    · rw [List.filter_cons_of_pos (by simpa using hmem), List.foldlM_cons, serve]
      cases hs : x.1.search fd with
      | none => exact dispatch_eq_foldlM hcall hc hsorted
      | some e =>
        cases hy : call e.func e.client fd x with
        | none => simp only [hy, Option.bind_eq_bind, Option.bind_none]
        | some y =>
          simp only [hy, Option.bind_eq_bind, Option.bind_some]
          exact dispatch_eq_foldlM hcall (hc.run (hcall hy)) hsorted
    · rw [List.filter_cons_of_neg (by simpa using hmem)]
      exact dispatch_eq_foldlM hcall hc hsorted
    · refine (foldlM_serve_of_lt hc fun fd' hfd' => ?_).symm
      rcases List.mem_cons.1 (List.mem_of_mem_filter hfd') with rfl | hfd'
      · exact not_le.1 hle
      · exact (not_le.1 hle).trans (hlt fd' hfd')

/-- The bound on the descriptors of a round leaves none out, though a handler may lower it: each
that is ready has its handler called, lowest first, if it has one when its turn comes. -/
theorem dispatch_eq (h : Run empty x.1)
    (hcall : ∀ {func client fd x y}, call func client fd x = some y → Run x.1 y.1) :
    dispatch call readfds (List.range FD_SETSIZE) x =
      ((List.range FD_SETSIZE).filter (· ∈ readfds)).foldlM (serve call) x :=
  dispatch_eq_foldlM hcall (consistent_empty.run h) List.pairwise_lt_range

/-- The lowest of three ready descriptors has the highest removed. -/
def removeFive (_ _ fd : ℕ) (x : Notifier ℕ × List ℕ) : Option (Notifier ℕ × List ℕ) :=
  some (if fd = 0 then x.1.notifySetInputFunc 0 none 5 else x.1, x.2 ++ [fd])

theorem dispatch_eq_three : ∃ n : Notifier ℕ, n.max_fd = 5 ∧
    dispatch removeFive {0, 3, 5} (List.range FD_SETSIZE) (n, []) =
      ((List.range FD_SETSIZE).filter (· ∈ ({0, 3, 5} : Finset ℕ))).foldlM (serve removeFive)
        (n, []) := by
  have h : ∃ n, Run (empty : Notifier ℕ) n ∧ decide (n.max_fd = 5) :=
    Transition.Run.exists_of_exec [(0, some 7, 0), (0, some 7, 3), (0, some 7, 5)] _
      (by decide +kernel)
  obtain ⟨n, h, hmax⟩ := h
  refine ⟨n, of_decide_eq_true hmax, dispatch_eq h ?_⟩
  intro func client fd x y hy
  obtain rfl := Option.some.inj hy
  dsimp only
  split_ifs
  · exact .single (a := (0, none, 5)) trivial rfl
  · exact .refl _

end Dispatch

end Notifier

/-! ## The main loop -/

/-- What a round may come to in the state machine. -/
def Round.events (r : Round) : List Event :=
  [.read r.received r.now, .quit, .flushed] ++
    (r.readings ++ r.flushing.flatten).map fun reading => .timer reading.1 reading.2

namespace Emulator

variable {o : Options} {e e' : Emulator} {P : Event → Prop} {readings : List Reading}

/-- A run of the state machine on events of a kind. -/
abbrev EventRun (o : Options) (P : Event → Prop) (e e' : Emulator) : Prop :=
  Transition.Run (Transition.silent (emit o)) (fun _ ev => P ev) e e'

theorem EventRun.of_emit {ev : Event} {eff : Effect} (hP : P ev)
    (h : emit o e ev = some (e', eff)) : EventRun o P e e' :=
  .single hP (Transition.silent_eq_some.2 ⟨eff, h⟩)

theorem reading_of_accept {d : Bytes} {now : Timeval} {eff : Effect}
    (h : e.accept o d now = some (e', eff)) : e'.reading = e.reading := by
  simp only [accept, Option.bind_eq_bind, Option.bind_eq_some_iff] at h
  obtain ⟨timers, -, h⟩ := h
  cases h
  rfl

theorem reading_of_readHandler {received : Option (Host × Bytes)} {now : Timeval} {eff : Effect}
    (h : e.readHandler o received now = some (e', eff)) : e'.reading = e.reading := by
  cases received with
  | none =>
    cases h
    rfl
  | some y =>
    simp only [readHandler] at h
    split_ifs at h
    · cases h
      rfl
    · cases h
      rfl
    · simp only [Option.bind_eq_bind, Option.bind_eq_some_iff] at h
      obtain ⟨stat, -, h⟩ := h
      split at h
      · cases h
        rfl
      · have hread := reading_of_accept h
        exact hread

/-- The loop of `timer_get` is a run of timer events. -/
theorem timerGetLoop_run : ∀ {readings : List Reading} {e : Emulator},
    (∀ r ∈ readings, P (.timer r.1 r.2)) → timerGetLoop o readings e = some e' →
    EventRun o P e e' ∧ e'.reading = e.reading
  | [], e, _, h => by
    rw [timerGetLoop] at h
    split_ifs at h
    cases h
    exact ⟨.refl _, rfl⟩
  | (now, draws) :: readings, e, hP, h => by
    rw [timerGetLoop] at h
    split_ifs at h with hnil
    · cases h
      exact ⟨.refl _, rfl⟩
    · split at h
      · cases h
      · rename_i client timers hget
        obtain ⟨⟨e₁, eff⟩, hsend, h⟩ := Option.bind_eq_some_iff.1 h
        obtain ⟨hrun, hread⟩ := timerGetLoop_run (fun r hr => hP r (List.mem_cons_of_mem _ hr)) h
        obtain ⟨d, rest, hs⟩ := sendHandler_serves hget hsend
        have hemit : emit o e (.timer now draws) = some (e₁, eff) := by
          rw [emit, hget]
          exact hsend
        exact ⟨(EventRun.of_emit (hP _ List.mem_cons_self) hemit).trans hrun,
          hread.trans hs.reading⟩
      · cases h
        exact ⟨.refl _, rfl⟩

/-- The check before the loop is no event: it changes nothing. -/
theorem timerGet_run (hP : ∀ r ∈ readings, P (.timer r.1 r.2))
    (h : timerGet o readings e = some e') : EventRun o P e e' ∧ e'.reading = e.reading := by
  unfold timerGet at h
  split_ifs at h
  exact timerGetLoop_run hP h

theorem flushLoop_run : ∀ {flushing : List (List Reading)} {e : Emulator},
    (∀ r ∈ flushing.flatten, P (.timer r.1 r.2)) → flushLoop o flushing e = some e' →
    EventRun o P e e' ∧ e'.reading = e.reading ∧ e'.timers.timerQ = []
  | [], e, _, h => by cases h
  | readings :: flushing, e, hP, h => by
    rw [flushLoop] at h
    obtain ⟨e₁, hloop, h⟩ := Option.bind_eq_some_iff.1 h
    obtain ⟨hrun, hread⟩ := timerGet_run (fun r hr => hP r (List.mem_append_left _ hr)) hloop
    split_ifs at h with hnil
    · cases h
      exact ⟨hrun, hread, hnil⟩
    · obtain ⟨hrun', hread', htimers⟩ :=
        flushLoop_run (fun r hr => hP r (List.mem_append_right _ hr)) h
      exact ⟨hrun.trans hrun', hread'.trans hread, htimers⟩

end Emulator

/-! ### The handlers of the main loop -/

section Main

variable {o : Options} {readfd : ℕ} {P : Event → Prop} {r : Round} {func : Handler}
  {x y : Notifier Handler × Emulator} {n : Notifier Handler}

open Emulator

theorem search_remove (hc : n.Consistent) (client fd : ℕ) :
    (n.notifySetInputFunc client none fd).search fd = none := by
  have := congrFun (hc.handlers_set client none fd) fd
  simpa [Notifier.handlers, Notifier.setHandler] using this

/-- Of the removals of `readHandler` the first is enough: the client is not looked at. -/
theorem clearReadHandler_eq_some {n' : Notifier Handler} {rUdpC : ℕ} (hc : n.Consistent)
    (h : clearReadHandler n rUdpC readfd = some n') :
    flushBound rUdpC ≠ UINT32_MAX ∧ n' = n.notifySetInputFunc 0 none readfd := by
  have hrest : ∀ is : List ℕ, is.foldl (fun n i => n.notifySetInputFunc i none readfd)
      (n.notifySetInputFunc 0 none readfd) = n.notifySetInputFunc 0 none readfd := by
    intro is
    induction is with
    | nil => rfl
    | cons i is ih =>
      rw [List.foldl_cons, Notifier.remove_of_search_eq_none (search_remove hc 0 readfd), ih]
  rw [clearReadHandler, List.range_succ_eq_map, List.foldl_cons] at h
  split_ifs at h with hbound
  exact ⟨hbound, (Option.some.inj h).symm.trans (hrest _)⟩

/-- The list is in order, `readHandler` is set for its own descriptor alone, and `reading` says
whether it is set. -/
structure Installed (readfd : ℕ) (x : Notifier Handler × Emulator) : Prop where
  consistent : x.1.Consistent
  func : ∀ e ∈ x.1.el, e.func = .readHandler → e.fd = readfd
  reading : x.2.reading = (x.1.search readfd).isSome

theorem callHandler_run (hi : Installed readfd x) (hP : ∀ ev ∈ r.events, P ev)
    (hfunc : func = .readHandler → (x.1.search readfd).isSome)
    (h : callHandler o readfd r func x = some y) : EventRun o P x.2 y.2 ∧ Installed readfd y := by
  cases func with
  | readHandler =>
    obtain ⟨⟨e, eff⟩, hread, rfl⟩ := Option.map_eq_some_iff.1 h
    have hemit : emit o x.2 (.read r.received r.now) = some (e, eff) := by
      rw [emit, if_pos (hi.reading.trans (hfunc rfl))]
      exact hread
    exact ⟨.of_emit (hP _ (by simp [Round.events])) hemit, hi.consistent, hi.func,
      (reading_of_readHandler hread).trans hi.reading⟩
  | stdinHandler =>
    rw [callHandler] at h
    split_ifs at h with hline
    · obtain ⟨n, hclear, h⟩ := Option.bind_eq_some_iff.1 h
      obtain ⟨e, hflush, h⟩ := Option.bind_eq_some_iff.1 h
      cases h
      obtain ⟨hbound, rfl⟩ := clearReadHandler_eq_some hi.consistent hclear
      have hflushing : ∀ reading ∈ r.flushing.flatten, P (.timer reading.1 reading.2) :=
        fun reading hmem => hP _ (List.mem_append_right _ (List.mem_map.2
          ⟨reading, List.mem_append_right _ hmem, rfl⟩))
      obtain ⟨hrun, hreading, htimers⟩ := flushLoop_run hflushing hflush
      have hquit : emit o x.2 .quit = some ({ x.2 with reading := false }, .idle) := if_neg hbound
      have hflushed : emit o e .flushed = some ({ e with stop := true }, .idle) := by
        simp [emit, hreading, htimers]
      refine ⟨(EventRun.of_emit (hP _ (by simp [Round.events])) hquit).trans
        (hrun.trans (EventRun.of_emit (hP _ (by simp [Round.events])) hflushed)),
        hi.consistent.set _ _ _, fun ev hev => hi.func ev (Notifier.mem_of_mem_remove hev), ?_⟩
      rw [search_remove hi.consistent]
      exact hreading
    · cases h
      exact ⟨.refl _, hi⟩

theorem dispatch_run (hP : ∀ ev ∈ r.events, P ev) : ∀ {fds : List ℕ}
    {x : Notifier Handler × Emulator}, Installed readfd x →
    Notifier.dispatch (fun func _ _ => callHandler o readfd r func) r.ready fds x = some y →
    EventRun o P x.2 y.2 ∧ Installed readfd y
  | [], x, hi, h => by
    cases h
    exact ⟨.refl _, hi⟩
  | fd :: fds, x, hi, h => by
    rw [Notifier.dispatch] at h
    split_ifs at h
    · split at h
      · rename_i e hs
        obtain ⟨x₁, hcall, h⟩ := Option.bind_eq_some_iff.1 h
        have hfunc : e.func = .readHandler → (x.1.search readfd).isSome := by
          intro hf
          have hmem : e ∈ x.1.el := List.mem_of_find?_eq_some hs
          rw [Notifier.search_isSome_iff, ← hi.func e hmem hf]
          exact List.mem_map_of_mem hmem
        obtain ⟨hrun, hi₁⟩ := callHandler_run hi hP hfunc hcall
        obtain ⟨hrun', hi'⟩ := dispatch_run hP hi₁ h
        exact ⟨hrun.trans hrun', hi'⟩
      · exact dispatch_run hP hi h
    · exact dispatch_run hP hi h
    · cases h
      exact ⟨.refl _, hi⟩

theorem notifyRound_run (hfd : readfd ≠ 0) (hi : Installed readfd x) (hP : ∀ ev ∈ r.events, P ev)
    (h : notifyRound o readfd x r = some y) : EventRun o P x.2 y.2 ∧ Installed readfd y := by
  rw [notifyRound] at h
  split_ifs at h with hstop
  obtain ⟨e, hget, h⟩ := Option.bind_eq_some_iff.1 h
  have hreadings : ∀ reading ∈ r.readings, P (.timer reading.1 reading.2) :=
    fun reading hmem => hP _ (List.mem_append_right _ (List.mem_map.2
      ⟨reading, List.mem_append_left _ hmem, rfl⟩))
  obtain ⟨hrun, hreading⟩ := timerGet_run hreadings hget
  split_ifs at h with hend hready hready
  · -- nothing is left to wait for, so `readHandler` is not set
    have hnone : x.1.search readfd = none := by
      rw [← Option.not_isSome_iff_eq_none]
      intro hs
      have := hi.consistent.le_max_fd hs
      omega
    have hflushed : emit o e .flushed = some ({ e with stop := true }, .idle) := by
      simp [emit, hreading, hi.reading, hnone, hend.1]
    obtain ⟨hrun', hi'⟩ := dispatch_run hP (x := (x.1, { e with stop := true }))
      ⟨hi.consistent, hi.func, hreading.trans hi.reading⟩ h
    exact ⟨(hrun.trans (EventRun.of_emit (hP _ (by simp [Round.events])) hflushed)).trans hrun',
      hi'⟩
  · obtain ⟨hrun', hi'⟩ := dispatch_run hP (x := (x.1, e))
      ⟨hi.consistent, hi.func, hreading.trans hi.reading⟩ h
    exact ⟨hrun.trans hrun', hi'⟩

theorem installed_mainInit (hfd : readfd ≠ 0) (start : Timeval) :
    Installed readfd (mainInit readfd start) := by
  have hc : (mainInit readfd start).1.Consistent :=
    (Notifier.consistent_empty.set _ _ _).set _ _ _
  have hstdin : (Notifier.empty.notifySetInputFunc 0 (some Handler.stdinHandler) 0).search readfd =
      none := by
    simp [Notifier.notifySetInputFunc, Notifier.search, Notifier.empty, Ne.symm hfd]
  have hel : (mainInit readfd start).1.el =
      [⟨0, .readHandler, readfd⟩, ⟨0, .stdinHandler, 0⟩] :=
    Notifier.el_of_search_eq_none hstdin 0 .readHandler
  refine ⟨hc, fun e he hf => ?_, ?_⟩
  · rw [hel] at he
    rcases List.mem_cons.1 he with rfl | he
    · rfl
    · rw [List.mem_singleton.1 he] at hf
      cases hf
  · rw [Notifier.search_isSome_iff.2 (by simp [Notifier.fds, hel])]
    rfl

/-- Every run of the main loop is a run of the state machine, on the events that its rounds come
upon. -/
theorem notifyRound_refines (hfd : readfd ≠ 0) {start : Timeval}
    (h : Transition.Run (notifyRound o readfd) (fun _ r => ∀ ev ∈ r.events, P ev)
      (mainInit readfd start) x) :
    ∃ L, Recorded o (fun _ ev => P ev) start x.2 L := by
  have key : EventRun o P (init start) x.2 ∧ Installed readfd x := by
    refine h.invariant (I := fun x => EventRun o P (init start) x.2 ∧ Installed readfd x) ?_
      ⟨.refl _, installed_mainInit hfd start⟩
    rintro x r y ⟨hrun, hi⟩ hP hs
    obtain ⟨hrun', hi'⟩ := notifyRound_run hfd hi hP hs
    exact ⟨hrun.trans hrun', hi'⟩
  exact key.1.exists_recorded Ledger.empty

/-- A packet is read, and the command to end comes before its timer. -/
theorem notifyRound_refines_quit : ∃ (e : Emulator) (L : Ledger), e.stop = true ∧ e.sUdpC = 9 ∧
    Recorded (initOptions 2130706433) (fun _ _ => True) ⟨99, 0⟩ e L := by
  have h : ∃ x, Transition.Run (notifyRound (initOptions 2130706433) 3)
      (fun _ r => ∀ ev ∈ r.events, (fun _ => True) ev) (mainInit 3 ⟨99, 0⟩) x ∧
      decide (x.2.stop = true ∧ x.2.sUdpC = 9) :=
    Transition.Run.exists_of_exec
      [⟨[], {3}, some (⟨2130706433, 41191⟩, List.replicate 9 1), ⟨100, 0⟩, [], []⟩,
        ⟨[(⟨100, 1⟩, ⟨⟨100, 1⟩, 0, false, false, [], 0, true⟩)], {0, 3}, none, ⟨100, 2⟩,
          "quit\n".toList, [[(⟨101, 0⟩, ⟨⟨101, 0⟩, 0, false, false, [], 0, true⟩)]]⟩] _
      (by decide +kernel)
  obtain ⟨⟨n, e⟩, h, hp⟩ := h
  obtain ⟨hstop, hsent⟩ := of_decide_eq_true hp
  obtain ⟨L, hrec⟩ := notifyRound_refines (by decide) h
  exact ⟨e, L, hstop, hsent, hrec⟩

end Main

end TcpLike
