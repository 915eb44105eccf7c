import Mathlib.Data.Option.Basic
import TcpLike.Timeval

/-!
# The timers of the link emulator

The multiple timer package, `multimer.c`, and the `notify_set_itimer_func` that sets a repeated
timer through it. A function is given by a name for it. The clock is read where the C reads it, and
an operation whose assertion fails has no result. `timer_get` is given pass by pass of its loop,
since the function it calls may use the package. The `timeradd` is the package's own, which is
compiled where the system has no macro of that name. `timer_set` takes the address of `timerQ` for
that of an element, and is taken to unlink and link through it as intended.
-/

namespace TcpLike

/-- A timer: `func` is due to be called on `client` at `time`. -/
structure TQE (F : Type) where
  time : Timeval
  interval : Timeval
  func : F
  client : ℕ
  deriving DecidableEq, Repr

/-- The timers pending, and the elements free for reuse, which keep their interval. -/
structure Multimer (F : Type) where
  timerQ : List (TQE F)
  freeTQEQ : List (TQE F)
  deriving DecidableEq, Repr

namespace Multimer

variable {F : Type}

def empty : Multimer F := ⟨[], []⟩

/-- The assertions of `timer_check`. -/
def timerCheck (tm : Multimer F) : Bool :=
  tm.timerQ.all fun np => np.time.tv_usec < 1000000 ∧ np.interval.tv_usec < 1000000

/-- The last loop of `timer_set`. -/
def insertTimer (tp : TQE F) : List (TQE F) → List (TQE F)
  | [] => [tp]
  | np :: timerQ =>
    if timerless tp.time np.time then tp :: np :: timerQ else np :: insertTimer tp timerQ

/-- The timer pending for a client. -/
def pendingFor (tm : Multimer F) (client : ℕ) : Option (TQE F) :=
  tm.timerQ.find? (·.client = client)

/-- The interval of the element a new timer is put in: the client's own, a free one, or one just
allocated. -/
def reusedInterval (tm : Multimer F) (client : ℕ) : Timeval :=
  match tm.pendingFor client with
  | some tp => tp.interval
  | none => (tm.freeTQEQ.head?.map TQE.interval).getD 0

/-- The elements left free once a new timer has one. -/
def freeLeft (tm : Multimer F) (client : ℕ) : List (TQE F) :=
  match tm.pendingFor client with
  | some _ => tm.freeTQEQ
  | none => tm.freeTQEQ.tail

/-- The time of a timer: in a call relative to the time, the time read is asserted of. -/
def expiration (interval : Timeval) : Option Timeval → Option Timeval
  | none => some interval
  | some now =>
    if (timeradd now interval).tv_usec < 1000000 then some (timeradd now interval) else none

/-- The timers with the client's own set for `time`, in place of the one pending. -/
def putTimer (tm : Multimer F) (time : Timeval) (func : F) (client : ℕ) : Multimer F where
  timerQ := insertTimer ⟨time, tm.reusedInterval client, func, client⟩
    (tm.timerQ.eraseP (·.client = client))
  freeTQEQ := tm.freeLeft client

/-- The client's timer taken out and its element freed. -/
def cancelTimer (tm : Multimer F) (client : ℕ) : Multimer F where
  timerQ := tm.timerQ.eraseP (·.client = client)
  freeTQEQ := (tm.pendingFor client).toList ++ tm.freeTQEQ

/-- `timer_set`, the clock read being given where it is relative. Without an interval the client's
timer is cancelled. -/
def timerSet (tm : Multimer F) (interval : Option Timeval) (func : F) (client : ℕ)
    (relative : Option Timeval) : Option (Multimer F) :=
  match interval with
  | none => some (tm.cancelTimer client)
  | some interval => do
    let time ← expiration interval relative
    let tm := tm.putTimer time func client
    if tm.timerCheck then return tm else none

/-- `*t = value->it_interval`, in the timer of the client. -/
def setInterval (tm : Multimer F) (client : ℕ) (interval : Timeval) : Multimer F :=
  { tm with timerQ := tm.timerQ.map fun tp =>
      if tp.client = client then { tp with interval := interval } else tp }

/-- `notify_set_itimer_func`, of an `it_value` and an `it_interval`. -/
def notifySetItimerFunc (tm : Multimer F) (client : ℕ) (timer_func : F)
    (it_value it_interval now : Timeval) : Option (Multimer F) := do
  let tm ← tm.timerSet (some it_value) timer_func client (some now)
  return tm.setInterval client it_interval

/-- What a pass of the loop of `timer_get` comes to. -/
inductive Expiry (F : Type)
  /-- no timer is pending -/
  | idle
  /-- none has expired, the first will after `timeout` -/
  | wait (timeout : Timeval)
  /-- the first has expired, and `func` is called on `client` -/
  | call (func : F) (client : ℕ) (tm : Multimer F)
  deriving DecidableEq, Repr

/-- A pass of the loop of `timer_get`. A timer with an interval is set again before the call. -/
def timerPass (tm : Multimer F) (now : Timeval) : Option (Expiry F) :=
  match tm.timerQ with
  | [] => some .idle
  | tp :: timerQ =>
    if timerless now tp.time then
      let timeout := subTimeval tp.time now
      if timeout.tv_usec < 1000000 then some (.wait timeout) else none
    else if tp.interval.tv_sec ≠ 0 ∨ tp.interval.tv_usec ≠ 0 then
      let tp := { tp with time := timeradd tp.interval tp.time }
      (Multimer.timerSet ⟨timerQ, tp :: tm.freeTQEQ⟩ (some tp.time) tp.func tp.client none).map
        (.call tp.func tp.client)
    else some (.call tp.func tp.client ⟨timerQ, tp :: tm.freeTQEQ⟩)

/-- `timer_get` to the end of the first pass of its loop. -/
def timerGet (tm : Multimer F) (now : Timeval) : Option (Expiry F) :=
  if tm.timerCheck then tm.timerPass now else none

/-- What a program may do with the package. A `pass` is one of the passes of `timer_get` behind its
first. -/
inductive Op (F : Type)
  | set (interval : Option Timeval) (func : F) (client : ℕ) (relative : Option Timeval)
  | itimer (client : ℕ) (timer_func : F) (it_value it_interval now : Timeval)
  | get (now : Timeval)
  | pass (now : Timeval)
  deriving DecidableEq, Repr

/-- The timers behind a pass, with the call it makes. -/
def expire (tm : Multimer F) : Expiry F → Multimer F × Option (F × ℕ)
  | .call func client tm => (tm, some (func, client))
  | .idle | .wait _ => (tm, none)

/-- The operation, with the call it makes. -/
def op (tm : Multimer F) : Op F → Option (Multimer F × Option (F × ℕ))
  | .set interval func client relative =>
    (tm.timerSet interval func client relative).map (·, none)
  | .itimer client timer_func it_value it_interval now =>
    (tm.notifySetItimerFunc client timer_func it_value it_interval now).map (·, none)
  | .get now => (tm.timerGet now).map tm.expire
  | .pass now => (tm.timerPass now).map tm.expire

end Multimer

end TcpLike
