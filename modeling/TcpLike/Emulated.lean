import TcpLike.Newudpl
import TcpLike.System

/-!
# The two programs over the link emulator

The sender sends to the port of the emulator and the emulator to that of the receiver; what the
receiver sends goes straight to the sender. What is in flight before and behind the emulator is in
the hands of UDP.
-/

namespace TcpLike

/-- The way from the sender to the receiver. -/
structure EmulatedPath where
  toEmulator : Channel Bytes
  emulator : Emulator
  toReceiver : Channel Bytes
  deriving DecidableEq, Repr

inductive PathAction
  /-- a datagram of the sender reaches the emulator, which reads where it comes from -/
  | toEmulator (readAddr : Host) (d : Bytes) (now : Timeval)
  /-- anything else the emulator comes upon -/
  | emulator (ev : Event)
  | faultToEmulator (f : Channel.Fault Bytes)
  | faultToReceiver (f : Channel.Fault Bytes)
  deriving DecidableEq, Repr

/-- What the effect puts on the wire. -/
def Effect.out : Effect → List Bytes
  | .sent _ d' => [d']
  | _ => []

variable (o : Options)

namespace EmulatedPath

/-- The sender has sent some datagrams, the emulator runs from `start`. -/
def init (sent : List Bytes) (start : Timeval) : EmulatedPath where
  toEmulator := Channel.empty.send sent
  emulator := .init start
  toReceiver := .empty

def send (p : EmulatedPath) (ds : List Bytes) : EmulatedPath :=
  { p with toEmulator := p.toEmulator.send ds }

def deliver (p : EmulatedPath) (d : Bytes) : Option EmulatedPath :=
  (p.toReceiver.deliver d).map fun ch => { p with toReceiver := ch }

def event (p : EmulatedPath) (ev : Event) : Option EmulatedPath :=
  (p.emulator.emit o ev).map fun (e, eff) =>
    { p with emulator := e, toReceiver := p.toReceiver.send eff.out }

def step (p : EmulatedPath) : PathAction → Option EmulatedPath
  | .toEmulator readAddr d now =>
    (p.toEmulator.deliver d).bind fun ch =>
      { p with toEmulator := ch }.event o (.read (some (readAddr, d)) now)
  | .emulator ev => p.event o ev
  | .faultToEmulator f => (p.toEmulator.fault f).map fun ch => { p with toEmulator := ch }
  | .faultToReceiver f => (p.toReceiver.fault f).map fun ch => { p with toReceiver := ch }

end EmulatedPath

/-- The emulator comes upon something that is no datagram of its source host. -/
def Event.elsewhere : Event → Bool
  | .read (some (readAddr, _)) _ => !checkHost readAddr o.srceHost
  | _ => true

/-- UDP alters nothing, and nobody else sends from the source host. -/
def PathAction.fair : PathAction → Bool
  | .toEmulator _ _ _ => true
  | .emulator ev => ev.elsewhere o
  | .faultToEmulator f => f.unaltered
  | .faultToReceiver f => f.unaltered

/-- The two programs and the emulator. -/
structure EmulatedSystem where
  sender : Sender
  receiver : Receiver
  path : EmulatedPath
  toSender : Channel Bytes
  deriving DecidableEq, Repr

inductive EmulatedAction
  | senderRun
  | timeout
  | toSender (d : Bytes)
  | toReceiver (d : Bytes) (w : WriteOutcome)
  | faultToSender (f : Channel.Fault Bytes)
  | path (a : PathAction)
  deriving DecidableEq, Repr

variable (c : Config)

namespace EmulatedSystem

def init (file : Bytes) (start : Timeval) : EmulatedSystem where
  sender := .init file
  receiver := .init
  path := .init [windowDatagram c.sender] start
  toSender := .empty

def senderInput (s : EmulatedSystem) (i : SenderInput) : Option EmulatedSystem :=
  (senderStep c.sender s.sender i).map fun (snd, out) =>
    { s with sender := snd, path := s.path.send out }

def receiverInput (s : EmulatedSystem) (d : Bytes) (w : WriteOutcome) : Option EmulatedSystem :=
  (receiverStep c.receiver s.receiver d w).map fun (rcv, out) =>
    { s with receiver := rcv, toSender := s.toSender.send out }

def step (s : EmulatedSystem) : EmulatedAction → Option EmulatedSystem
  | .senderRun => s.senderInput c .run
  | .timeout => s.senderInput c (.receive .timeout)
  | .toSender d =>
    (s.toSender.deliver d).bind fun ch =>
      senderInput c { s with toSender := ch } (.receive (.datagram d))
  | .toReceiver d w =>
    (s.path.deliver d).bind fun p => receiverInput c { s with path := p } d w
  | .faultToSender f => (s.toSender.fault f).map fun ch => { s with toSender := ch }
  | .path a => (s.path.step o a).map fun p => { s with path := p }

end EmulatedSystem

namespace EmulatedAction

/-- UDP alters nothing, and nobody else sends from the emulator's source host. -/
def fair : EmulatedAction → Bool
  | .faultToSender f => f.unaltered
  | .path a => a.fair o
  | _ => true

/-- What the action is to the two programs, if it is any. -/
def base : EmulatedAction → Option Action
  | .senderRun => some .senderRun
  | .timeout => some .timeout
  | .toSender d => some (.toSender d)
  | .toReceiver d w => some (.toReceiver d w)
  | .faultToSender f => some (.faultToSender f)
  | .path _ => none

end EmulatedAction

/-- A run of the two programs over the emulator whose steps each meet `ok`. -/
abbrev EmulatedRun (ok : EmulatedSystem → EmulatedAction → Prop) :
    EmulatedSystem → EmulatedSystem → Prop :=
  Transition.Run (EmulatedSystem.step o c) ok

end TcpLike
