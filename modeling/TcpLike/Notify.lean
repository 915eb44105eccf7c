import Mathlib.Data.Finset.Basic
import TcpLike.Newudpl

/-!
# The notifier

`notify.c`, which calls for each descriptor that `select` reports the handler set for it, and the
loop it is in `newudpl.c`. A descriptor is one that `FD_SET` can be used with: not negative, and
below `FD_SETSIZE`. A function is given by a name for it. A round of the loop is given what it reads
of the outside.
-/

namespace TcpLike

def FD_SETSIZE : ℕ := 1024

/-- An `event_t` of type `N_input`. -/
structure InputEvent (F : Type) where
  client : ℕ
  func : F
  fd : ℕ
  deriving DecidableEq, Repr

/-- The event list, the highest descriptor in it, and the descriptors `select` is asked for. -/
structure Notifier (F : Type) where
  el : List (InputEvent F)
  max_fd : ℕ
  Readfds : Finset ℕ
  deriving DecidableEq

namespace Notifier

variable {F : Type}

def empty : Notifier F := ⟨[], 0, ∅⟩

def search (n : Notifier F) (fd : ℕ) : Option (InputEvent F) := n.el.find? (·.fd = fd)

def setMaxFd (el : List (InputEvent F)) : ℕ :=
  el.foldl (fun max_fd e => if max_fd < e.fd then e.fd else max_fd) 0

/-- `e->func = func`, in the first event of the descriptor. -/
def setFunc (fd : ℕ) (func : F) : List (InputEvent F) → List (InputEvent F)
  | [] => []
  | e :: el => if e.fd = fd then { e with func := func } :: el else e :: setFunc fd func el

/-- `notify_set_input_func`: no function removes the handler, and another function in its place
keeps its client. -/
def notifySetInputFunc (n : Notifier F) (client : ℕ) (func : Option F) (fd : ℕ) : Notifier F :=
  match n.search fd, func with
  | none, none => n
  | none, some func =>
    { el := ⟨client, func, fd⟩ :: n.el
      max_fd := if n.max_fd < fd then fd else n.max_fd
      Readfds := insert fd n.Readfds }
  | some _, none =>
    let el := n.el.eraseP (·.fd = fd)
    { el := el, max_fd := setMaxFd el, Readfds := n.Readfds.erase fd }
  | some _, some func => { n with el := setFunc fd func n.el }

/-- The loop of `notify_start` over the descriptors, of which `readfds` are ready. A handler may
change the list, and with it `max_fd`, which is read in every round. -/
def dispatch {S : Type} (call : F → ℕ → ℕ → Notifier F × S → Option (Notifier F × S))
    (readfds : Finset ℕ) : List ℕ → Notifier F × S → Option (Notifier F × S)
  | [], x => some x
  | fd :: fds, x =>
    if fd ≤ x.1.max_fd then
      if fd ∈ readfds then
        match x.1.search fd with
        | some e => do
          let x ← call e.func e.client fd x
          dispatch call readfds fds x
        | none => dispatch call readfds fds x
      else dispatch call readfds fds x
    else some x

end Notifier

/-! ## The main loop -/

/-- The functions set for input. -/
inductive Handler
  | stdinHandler
  | readHandler
  deriving DecidableEq, Repr

/-- What a pass of the loop of `timer_get` reads: the clock, and what `sendHandler` does if it is
called. -/
abbrev Reading := Timeval × Draws

/-- What a round of the loop reads of the outside: for `timer_get`, the descriptors that are ready,
for `readHandler`, for `stdinHandler`, and for the calls of `timer_get` in `flushQueue`. -/
structure Round where
  readings : List Reading
  ready : Finset ℕ
  received : Option (Host × Bytes)
  now : Timeval
  line : List Char
  flushing : List (List Reading)

section Loop

variable (o : Options)

/-- The loop of `timer_get`. Nothing comes of too few readings. -/
def timerGetLoop : List Reading → Emulator → Option Emulator
  | [], e => if e.timers.timerQ = [] then some e else none
  | (now, draws) :: readings, e =>
    if e.timers.timerQ = [] then some e
    else
      match e.timers.timerPass now with
      | none => none
      | some (.call .sendHandler _ timers) => do
        let (e, _) ← { e with timers := timers }.sendHandler o draws
        timerGetLoop readings e
      | some _ => some e

/-- `timer_get`. -/
def timerGet (readings : List Reading) (e : Emulator) : Option Emulator :=
  if e.timers.timerCheck then timerGetLoop o readings e else none

/-- The last loop of `flushQueue`. -/
def flushLoop : List (List Reading) → Emulator → Option Emulator
  | [], _ => none
  | readings :: flushing, e => do
    let e ← timerGet o readings e
    if e.timers.timerQ = [] then return e else flushLoop flushing e

/-- The first loop of `flushQueue`, which has no end where no `uint32_t` passes its bound. -/
def clearReadHandler (n : Notifier Handler) (rUdpC readfd : ℕ) : Option (Notifier Handler) :=
  if flushBound rUdpC = UINT32_MAX then none
  else some ((List.range (flushBound rUdpC + 1)).foldl
    (fun n i => n.notifySetInputFunc i none readfd) n)

/-- The commands to end. -/
def commands : List (List Char) :=
  ["quit\n".toList, "q\n".toList, "stop\n".toList, "exit\n".toList]

variable (readfd : ℕ)

/-- The handlers, as they are called. The emulator's `reading` is kept beside the event list. -/
def callHandler (r : Round) (func : Handler) (x : Notifier Handler × Emulator) :
    Option (Notifier Handler × Emulator) :=
  match func with
  | .readHandler => (x.2.readHandler o r.received r.now).map fun y => (x.1, y.1)
  | .stdinHandler =>
    if r.line ∈ commands then do
      let n ← clearReadHandler x.1 x.2.rUdpC readfd
      let e ← flushLoop o r.flushing { x.2 with reading := false }
      return (n, { e with stop := true })
    else some x

/-- A round of `notify_start`, with `timer_get_pending`. `select` reports none but the descriptors
it is asked for. -/
def notifyRound (x : Notifier Handler × Emulator) (r : Round) :
    Option (Notifier Handler × Emulator) :=
  if x.2.stop then none
  else do
    let readfds := x.1.Readfds
    let e ← timerGet o r.readings x.2
    let e := if e.timers.timerQ = [] ∧ x.1.max_fd = 0 then { e with stop := true } else e
    if r.ready ⊆ readfds then
      Notifier.dispatch (fun func _ _ => callHandler o readfd r func) r.ready
        (List.range FD_SETSIZE) (x.1, e)
    else none

/-- The notifier and the emulator as `main` leaves them to `notify_start`. -/
def mainInit (start : Timeval) : Notifier Handler × Emulator :=
  ((Notifier.empty.notifySetInputFunc 0 (some .stdinHandler) 0).notifySetInputFunc 0
    (some .readHandler) readfd, Emulator.init start)

end Loop

end TcpLike
