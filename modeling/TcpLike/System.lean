import TcpLike.Sender
import TcpLike.Receiver
import TcpLike.Lib.Channel
import TcpLike.Lib.Runs

/-!
# Sender, receiver and the network between them

The two programs run one after the other in any order, each step ending at a receive. The network
is a channel each way.
-/

namespace TcpLike

structure Config where
  sender : SenderConfig
  receiver : ReceiverConfig
  deriving DecidableEq, Repr

/-- The two programs on one host, a segment carrying one byte. -/
def Config.oneByte : Config := ⟨⟨12010, 12001, 25⟩, ⟨12001, 12010⟩⟩

structure System where
  sender : Sender
  receiver : Receiver
  toReceiver : Channel Bytes
  toSender : Channel Bytes
  deriving DecidableEq, Repr

inductive Action
  /-- the sender goes on without a receive -/
  | senderRun
  /-- the sender's receive times out -/
  | timeout
  /-- a datagram reaches the sender -/
  | toSender (d : Bytes)
  /-- a datagram reaches the receiver, and what becomes of a write it causes -/
  | toReceiver (d : Bytes) (w : WriteOutcome)
  | faultToSender (f : Channel.Fault Bytes)
  | faultToReceiver (f : Channel.Fault Bytes)
  deriving DecidableEq, Repr

namespace Action

/-- The network alters nothing. -/
def unaltered : Action → Bool
  | .faultToSender f => f.unaltered
  | .faultToReceiver f => f.unaltered
  | _ => true

/-- The network alters nothing but bytes of datagrams on their way to the sender. -/
def altersOnlyAcks : Action → Bool
  | .faultToSender (.alter d d') => d'.length = d.length
  | .faultToReceiver f => f.unaltered
  | _ => true

/-- No write to the data file fails. -/
def writes : Action → Bool
  | .toReceiver _ (.failed _) => false
  | _ => true

end Action

variable (c : Config)

/-- The handshake: the sender has sent its window-size datagram, the receiver awaits it. -/
def System.init (file : Bytes) : System where
  sender := .init file
  receiver := .init
  toReceiver := Channel.empty.send [windowDatagram c.sender]
  toSender := .empty

namespace System

def senderInput (s : System) (i : SenderInput) : Option System :=
  (senderStep c.sender s.sender i).map fun (snd, out) =>
    { s with sender := snd, toReceiver := s.toReceiver.send out }

def receiverInput (s : System) (d : Bytes) (w : WriteOutcome) : Option System :=
  (receiverStep c.receiver s.receiver d w).map fun (rcv, out) =>
    { s with receiver := rcv, toSender := s.toSender.send out }

def step (s : System) : Action → Option System
  | .senderRun => s.senderInput c .run
  | .timeout => s.senderInput c (.receive .timeout)
  | .toSender d =>
    (s.toSender.deliver d).bind fun ch =>
      { s with toSender := ch }.senderInput c (.receive (.datagram d))
  | .toReceiver d w =>
    (s.toReceiver.deliver d).bind fun ch =>
      { s with toReceiver := ch }.receiverInput c d w
  | .faultToSender f => (s.toSender.fault f).map fun ch => { s with toSender := ch }
  | .faultToReceiver f => (s.toReceiver.fault f).map fun ch => { s with toReceiver := ch }

end System

/-- A run of the system whose steps each meet `ok`. -/
abbrev Run (ok : System → Action → Prop) : System → System → Prop :=
  Transition.Run (System.step c) ok

end TcpLike
