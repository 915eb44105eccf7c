import Mathlib.Algebra.Order.Ring.Rat
import TcpLike.Java
import TcpLike.Multimer
import TcpLike.Queue

/-!
# The link emulator

`newudpl.c`, the program put between the sender and the receiver: it takes datagrams on one port,
holds each back for the delay and the speed of the link it plays, loses some, damages some, changes
the order of some, and sends the rest on. The state machine below stops where the notifier picks the
next handler. A step is given what the handler reads of the outside: the datagram, the clock, the
values of `rand()`. Of the floating-point draws only the outcomes are given. `long` has 64 bits and
`RAND_MAX` is that of the host the package is configured for, so `rand_short` is 1.

Where the C leaves the behaviour undefined, an `int` that overflows is wrapped, as the hardware does
it; a division by zero, a shift out of range and an uninitialised byte that is read have no result;
and what is reached by a pointer of another type is taken to be reached as intended.
-/

namespace TcpLike

/-- The buffer a datagram is received in and sent from. -/
def BUFSIZE : ℕ := 16384

def MAX_DELAYSEC : ℤ := 10

def MAX_KBPS : ℕ := 50000

def MAX_QBUFSIZE : ℕ := 16384

def BITERRDENOM : ℕ := 100000

def RAND_MAX : ℕ := 2147483647

/-- The address and the port of a host. -/
structure Host where
  s_addr : ℕ
  sin_port : ℕ
  deriving DecidableEq, Repr

/-- A `float`: a number, an infinity or no number. -/
inductive CFloat
  | num (q : ℚ)
  | inf (minus : Bool)
  | nan
  deriving DecidableEq, Repr

/-- `> 0.0` -/
def CFloat.positive : CFloat → Bool
  | .num q => 0 < q
  | .inf minus => !minus
  | .nan => false

structure Options where
  readPort : ℕ
  writPort : ℕ
  srceHost : Host
  destHost : Host
  speed : ℕ
  ether : ℕ
  delay : Timeval
  inQBufSize : ℕ
  bitError : ℕ
  randomLoss : ℕ
  gilCondLoss : CFloat
  gilUncondLoss : CFloat
  outOfOrder : ℕ
  calcMode : ℕ
  verbose : ℕ
  deriving DecidableEq, Repr

/-- `initOptions`, the address of the local host being given. -/
def initOptions (addr : ℕ) : Options where
  readPort := 41192
  writPort := 41193
  srceHost := ⟨addr, 41191⟩
  destHost := ⟨addr, 41194⟩
  speed := 1000
  ether := 10000
  delay := 0
  inQBufSize := 8192
  bitError := 0
  randomLoss := 0
  gilCondLoss := .num 0
  gilUncondLoss := .num 0
  outOfOrder := 0
  calcMode := 0
  verbose := 0

structure Statistics where
  startime : Timeval
  lasttime : Timeval
  prvRcv : Timeval
  prvIntervled : Timeval
  minSp : ℕ
  maxSp : ℕ
  rPacket : ℤ
  sPacket : ℤ
  rejPack : ℤ
  rejBytes : ℤ
  congPack : ℤ
  congBytes : ℤ
  randomLoss : ℤ
  biterror : ℤ
  outOfOrder : ℤ
  deriving DecidableEq, Repr

/-- `initStat`. -/
def initStat (now : Timeval) : Statistics :=
  ⟨0, 0, 0, now, 0, 0, 0, 0, 0, 0, 0, 0, 0, 0, 0⟩

/-- The one function the program sets timers for. -/
inductive TimerFunc
  | sendHandler
  deriving DecidableEq, Repr

structure Emulator where
  /-- the packets held, oldest first -/
  queue : List Bytes
  qUsed : ℤ
  timers : Multimer TimerFunc
  rUdpC : ℕ
  sUdpC : ℕ
  stat : Statistics
  /-- the stage of the Gilbert loss -/
  stage : ℕ
  /-- `readHandler` is installed -/
  reading : Bool
  /-- `notify_stop` has been called -/
  stop : Bool
  deriving DecidableEq, Repr

/-- The emulator as `init` and `main` leave it to the notifier. -/
def Emulator.init (now : Timeval) : Emulator :=
  ⟨[], 0, .empty, 0, 0, initStat now, 0, true, false⟩

/-! ## Departure times -/

section DepTime

variable (o : Options) (bytes : ℕ)

/-- The interval time, in microseconds, as a `timeval`. -/
def intervlTv : Timeval :=
  let usec := 8000 * bytes / o.speed
  if 1000000 ≤ usec then ⟨usec / 1000000, usec % 1000000⟩ else ⟨0, usec⟩

/-- The differential transmission delay, in 32-bit arithmetic. -/
def transD : ℕ :=
  if o.speed < o.ether then
    let trans_d := bytes * 8 * (o.ether - o.speed) % 2 ^ 32
    if trans_d < 4294967 then trans_d * 1000 % 2 ^ 32 / (o.ether * o.speed % 2 ^ 32)
    else trans_d / o.ether * 1000 % 2 ^ 32 / o.speed
  else 0

/-- The delay as a `timeval`: past a second, its microseconds are those of the variable before. -/
def transTv : Timeval :=
  if 1000000 ≤ transD o bytes then ⟨transD o bytes / 1000000, 0 % 1000000⟩
  else ⟨0, transD o bytes⟩

/-- `calcDepTime`: the departure time, and `prvIntervled_tv` after it. -/
def calcDepTime (now prvIntervled : Timeval) : Timeval × Timeval :=
  let intervled :=
    if o.calcMode = 1 then addTimeval now (intervlTv o bytes)
    else addTimeval prvIntervled (intervlTv o bytes)
  let delayed := maxTimeval prvIntervled (addTimeval now o.delay)
  (addTimeval delayed (transTv o bytes), intervled)

end DepTime

/-! ## Reading -/

def incQUsed (qUsed : ℤ) (bytes qBufSize : ℕ) : Option ℤ :=
  if (qBufSize : ℤ) < qUsed + bytes then none else some (qUsed + bytes)

def decQUsed (qUsed : ℤ) (bytes qBufSize : ℕ) : Option ℤ :=
  if (qBufSize : ℤ) < qUsed then none
  else if qUsed - bytes < 0 then none
  else some (qUsed - bytes)

/-- `checkHost`: port 0 stands for every port. -/
def checkHost (sockAddr host : Host) : Bool :=
  sockAddr.s_addr = host.s_addr ∧ (host.sin_port ≠ 0 → sockAddr.sin_port = host.sin_port)

/-- The receiving speed: the division fails where two packets have come at the same time. -/
def recvSp (rBytes : ℕ) (interval : Timeval) : Option ℕ :=
  if interval.micros = 0 then none
  else some (((rBytes * 8 * 1000000 % 2 ^ 32 : ℕ) : ℤ).tdiv interval.micros % 2 ^ 32).toNat

/-- The statistics of a packet received. They start anew if the last one came on a full second. -/
def Statistics.received (stat : Statistics) (rBytes : ℕ) (now : Timeval) : Option Statistics :=
  if stat.prvRcv.tv_sec = 0 ∨ stat.prvRcv.tv_usec = 0 then
    some { stat with prvRcv := now, minSp := MAX_KBPS }
  else do
    let sp ← recvSp rBytes (subTimeval now stat.prvRcv)
    return { stat with prvRcv := now, minSp := min sp stat.minSp, maxSp := max stat.maxSp sp }

/-- What a handler does with a packet. -/
inductive Effect
  | idle
  /-- it is from another host -/
  | rejected (d : Bytes)
  /-- there is no room for it -/
  | congested (d : Bytes)
  /-- it is received, and put in the queue or refused there -/
  | accepted (d : Bytes) (queued : Bool)
  /-- it is taken from the queue and dropped as a random loss -/
  | lost (d : Bytes)
  /-- it is taken from the queue and sent as `d'` -/
  | sent (d d' : Bytes)
  /-- it is taken from the queue and `sendto` fails -/
  | unsent (d : Bytes)
  deriving DecidableEq, Repr

namespace Emulator

variable (o : Options)

/-- The end of `readHandler`, for a packet there is room for. -/
def accept (e : Emulator) (d : Bytes) (now : Timeval) : Option (Emulator × Effect) := do
  let queue := Fifo.add e.queue d
  let (dept, prvIntervled) := calcDepTime o d.length now e.stat.prvIntervled
  let rUdpC := (e.rUdpC + d.length) % 2 ^ 32
  let timers ← e.timers.timerSet (some dept) .sendHandler rUdpC none
  return ({ e with
    queue := queue.getD e.queue
    timers := timers
    rUdpC := rUdpC
    stat := { e.stat with
      startime := if e.rUdpC = 0 then now else e.stat.startime
      prvIntervled := prvIntervled
      rPacket := int32 (e.stat.rPacket + 1) } }, .accepted d queue.isSome)

/-- `readHandler`, what `recvfrom` brings being given; `none` is -1. -/
def readHandler (e : Emulator) (received : Option (Host × Bytes)) (now : Timeval) :
    Option (Emulator × Effect) :=
  match received with
  | none => some ({ e with stop := true }, .idle)
  | some (readAddr, d) =>
    let d := d.take BUFSIZE
    let congested (e : Emulator) : Emulator × Effect :=
      ({ e with stat := { e.stat with
          congPack := int32 (e.stat.congPack + 1)
          congBytes := int32 (e.stat.congBytes + d.length) } }, .congested d)
    if !checkHost readAddr o.srceHost then
      some ({ e with stat := { e.stat with
          rejPack := int32 (e.stat.rejPack + 1)
          rejBytes := int32 (e.stat.rejBytes + d.length) } }, .rejected d)
    else if o.inQBufSize < d.length then some (congested e)
    else do
      let stat ← e.stat.received d.length now
      let e := { e with stat := stat }
      match incQUsed e.qUsed d.length o.inQBufSize with
      | none => return congested e
      | some qUsed => accept o { e with qUsed := qUsed } d now

end Emulator

/-! ## Sending -/

/-- What `sendHandler` reads of the outside: the clock, the values of `rand()` in `isPacketLoss`, in
`isBitError` (one for each bit `bnldev` says to corrupt) and in `isOutOfOrder`, what the draws of
`gilbRand` come to, and whether `sendto` writes the packet. -/
structure Draws where
  now : Timeval
  loss : ℕ
  belowPa : Bool
  belowPc : Bool
  bits : List ℕ
  order : ℕ
  written : Bool
  deriving DecidableEq, Repr

/-- `gilbRand`, with the stage after it: whether there is an error. -/
def gilbRand (stage : ℕ) (belowPa belowPc : Bool) : Bool × ℕ :=
  if stage = 0 then if belowPa then (true, stage + 1) else (false, stage)
  else if stage = 1 then if belowPc then (true, stage) else (false, stage - 1)
  else (false, stage)

/-- `((long)rand() * 100) / RAND_MAX >= rate`. -/
def spared (r rate : ℕ) : Bool := rate ≤ r * 100 / RAND_MAX

section Errors

variable (o : Options)

/-- `isPacketLoss`, with the stage after it. -/
def isPacketLoss (stage : ℕ) (draws : Draws) : Bool × ℕ :=
  if o.randomLoss ≠ 0 ∧ spared draws.loss o.randomLoss then (false, stage)
  else if o.gilCondLoss.positive then gilbRand stage draws.belowPa draws.belowPc
  else (true, stage)

/-- A round of the loop of `isBitError`. -/
def corruptBit (wBytes : ℕ) (wBuff : Bytes) (r : ℕ) : Option Bytes :=
  let seqBitNum := (int32 (int32 (r * wBytes) * 8)).tdiv RAND_MAX
  let byteNum := seqBitNum.tdiv wBytes
  let bit := seqBitNum.tmod wBytes
  if wBytes = 0 ∨ byteNum < 0 ∨ bit < 0 ∨ 31 ≤ bit then none
  else some (wBuff.modify byteNum.toNat (· ^^^ UInt8.ofNat (2 ^ bit.toNat)))

/-- `isBitError`, of the packet in `wBuff`. -/
def isBitError (wBuff : Bytes) (bits : List ℕ) : Option Bytes :=
  bits.foldlM (corruptBit wBuff.length) wBuff

/-- `isOutOfOrder`, with the queue after it: the oldest packet goes to the rear. -/
def isOutOfOrder (queue : List Bytes) (r : ℕ) : Bool × List Bytes :=
  if spared r o.outOfOrder then (false, queue)
  else if queue.length < 2 then (false, queue)
  else
    match Fifo.get queue with
    | none => (true, queue)
    | some (d, queue) => (true, (Fifo.add queue d).getD queue)

namespace Emulator

/-- `sendHandler` from the loss test to its end, the packet `d` taken from the queue. -/
def lose (e : Emulator) (d : Bytes) : Emulator × Effect :=
  match decQUsed e.qUsed d.length o.inQBufSize with
  | none => ({ e with stop := true }, .lost d)
  | some qUsed =>
    ({ e with
      qUsed := qUsed
      stat := { e.stat with randomLoss := int32 (e.stat.randomLoss + 1) } }, .lost d)

/-- The error generation behind the loss test, with the packet as it is to be sent. -/
def corrupt (e : Emulator) (d : Bytes) (draws : Draws) : Option (Emulator × Bytes) :=
  if o.bitError ≠ 0 then do
    let d' ← isBitError d draws.bits
    return ({ e with
      stat := { e.stat with biterror := int32 (e.stat.biterror + draws.bits.length) } }, d')
  else some (e, d)

def reorder (e : Emulator) (draws : Draws) : Emulator :=
  if o.outOfOrder ≠ 0 ∧ (isOutOfOrder o e.queue draws.order).1 then
    { e with
      queue := (isOutOfOrder o e.queue draws.order).2
      stat := { e.stat with outOfOrder := int32 (e.stat.outOfOrder + 1) } }
  else e

/-- The packet `d` is sent as `d'`. -/
def send (e : Emulator) (d d' : Bytes) (draws : Draws) : Emulator × Effect :=
  if !draws.written then ({ e with stop := true }, .unsent d)
  else
    match decQUsed e.qUsed d.length o.inQBufSize with
    | none => ({ e with stop := true }, .sent d d')
    | some qUsed =>
      ({ e with
        qUsed := qUsed
        sUdpC := (e.sUdpC + d.length) % 2 ^ 32
        stat := { e.stat with
          sPacket := int32 (e.stat.sPacket + 1)
          lasttime := draws.now } }, .sent d d')

/-- `sendHandler`. With nothing in the queue its packet is not set. -/
def sendHandler (e : Emulator) (draws : Draws) : Option (Emulator × Effect) := do
  let (d, queue) ← Fifo.get e.queue
  let e := { e with queue := queue }
  let (loss, stage) :=
    if o.randomLoss ≠ 0 ∨ o.gilCondLoss.positive then isPacketLoss o e.stage draws
    else (false, e.stage)
  let e := { e with stage := stage }
  if loss then return e.lose o d
  else
    let (e, d') ← e.corrupt o d draws
    return (e.reorder o draws).send o d d' draws

end Emulator

end Errors

/-! ## The notifier -/

def UINT32_MAX : ℕ := 4294967295

/-- The bound of the first loop of `flushQueue`, whose counter is a `uint32_t`. -/
def flushBound (rUdpC : ℕ) : ℕ := (rUdpC + 100) % 2 ^ 32

/-- What the notifier comes upon: a datagram, a pass of `timer_get` in its loop or in that of
`flushQueue`, the user's command to end, and the end of the flushing it starts. It looks at `stop`
only at the head of its loop, and handlers may run before it gets there. -/
inductive Event
  | read (received : Option (Host × Bytes)) (now : Timeval)
  | timer (now : Timeval) (draws : Draws)
  | quit
  | flushed
  deriving DecidableEq, Repr

/-- A step of the emulator, with what it does. The `timer_check` before the first pass of
`timer_get` is left to the notifier; it holds in every state the emulator reaches
(`TimersInv.check`). A command to end that runs a loop without end has no result. -/
def Emulator.emit (o : Options) (e : Emulator) : Event → Option (Emulator × Effect)
  | .read received now => if e.reading then e.readHandler o received now else none
  | .timer now draws =>
    match e.timers.timerPass now with
    | none => none
    | some (.call .sendHandler _ timers) => { e with timers := timers }.sendHandler o draws
    | some _ => some (e, .idle)
  | .quit =>
    if flushBound e.rUdpC = UINT32_MAX then none else some ({ e with reading := false }, .idle)
  | .flushed =>
    if !e.reading ∧ e.timers.timerQ = [] then some ({ e with stop := true }, .idle) else none

end TcpLike
