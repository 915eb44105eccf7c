import TcpLike.Tool
import TcpLike.Packet

/-!
# The receiver

The constructor `receiver()`, `responseData`, `writeData` and `closeProcess`, as a state machine
that stops at each `socket.receive`. A step is given the datagram received and what becomes of a
write to the data file in it, and gives back the datagrams it sent. The log is left out.
-/

namespace TcpLike

structure ReceiverConfig where
  SRC_PORT : ℤ
  DEST_PORT : ℤ
  deriving DecidableEq, Repr

/-- Where the receiver stands. -/
inductive ReceiverPc
  /-- receiving the window size -/
  | handshake
  /-- in the receive loop -/
  | receiveLoop
  /-- in `closeProcess`, both its datagrams sent, receiving -/
  | closing
  /-- has printed "Receiver is over..." -/
  | over
  /-- `closeProcess` has ended without -/
  | ended
  /-- an exception has ended the handshake or the receive loop -/
  | aborted
  deriving DecidableEq, Repr

structure Receiver where
  pc : ReceiverPc
  WINDOW_SIZE : ℤ
  inPacket : DatagramPacket
  outData : Option Bytes
  seqNum : ℤ
  ackNum : ℤ
  ackFlag : ℕ
  /-- the bytes written to the data file -/
  file : Bytes
  deriving DecidableEq, Repr

def Receiver.init : Receiver where
  pc := .handshake
  WINDOW_SIZE := -1
  inPacket := .new 24
  outData := none
  seqNum := 0
  ackNum := 0
  ackFlag := 0
  file := []

/-- The receiver has left its receive loop through the FIN test. -/
def ReceiverPc.left : ReceiverPc → Bool
  | .closing | .over | .ended => true
  | _ => false

/-- What becomes of a write to the data file: done, or an `IOException` after the first `n` bytes,
which are never all of them. -/
inductive WriteOutcome
  | written
  | failed (n : ℕ)
  deriving DecidableEq, Repr

def WriteOutcome.stored (data : Bytes) : WriteOutcome → Bytes
  | .written => data
  | .failed n => data.dropLast.take n

/-- `outPacket_forSize`. -/
def sizeReply : Bytes := tcpHeader 0 0 0 0 0 0 0 0 0 24

namespace Receiver

variable (c : ReceiverConfig)

/-- `writeData`, which catches the `IOException`. -/
def writeData (r : Receiver) (size : ℤ) (w : WriteOutcome) : Java Receiver := do
  let data ← copyOfRange r.inPacket.data 24 (int32 (24 + size))
  return { r with file := r.file ++ w.stored data }

/-- The reply to the packet in hand, once `seqNum` and `ackNum` are set. -/
def ackHeader (r : Receiver) : Bytes :=
  tcpHeader c.SRC_PORT c.DEST_PORT r.seqNum r.ackNum 5 16 r.WINDOW_SIZE 0 0 24

/-- `responseData`. -/
def responseData (r : Receiver) (size : ℤ) (w : WriteOutcome) : Java (Receiver × Bytes) := do
  let header ← copyOfRange r.inPacket.data 0 24
  let seq ← decodeField header [4, 5, 6, 7]
  -- the length is the buffer's, not the datagram's
  let r := { r with ackNum := int32 (seq + r.inPacket.data.length - header.length) }
  let r ← r.writeData size w
  let ack ← decodeField header [8, 9, 10, 11]
  let r := { r with seqNum := ack }
  return (r, r.ackHeader c)

def closeAckDatagram (r : Receiver) : Bytes :=
  tcpHeader c.SRC_PORT c.DEST_PORT 0 1 5 16 r.WINDOW_SIZE 0 0 24

def closeFinDatagram (r : Receiver) : Bytes :=
  tcpHeader c.SRC_PORT c.DEST_PORT 2 0 5 1 r.WINDOW_SIZE 0 0 24

/-- `closeProcess`, up to its receive. -/
def closeProcess (r : Receiver) : Receiver × List Bytes :=
  ({ r with pc := .closing }, [r.closeAckDatagram c, r.closeFinDatagram c])

/-- The accept branch: the segment is written, the reply kept in `outData`. -/
def accept (r : Receiver) (size : ℤ) (w : WriteOutcome) : Java Receiver := do
  let (r, outData) ← r.responseData c size w
  return { r with outData := some outData, ackFlag := r.ackFlag + 1 }

/-- A segment seen before is not written again. -/
def acceptNew (r : Receiver) (ack size : ℤ) (w : WriteOutcome) : Java Receiver :=
  if (r.ackFlag : ℤ) < ack then r.accept c size w else .ok r

/-- A round of the receive loop, the datagram received. -/
def loopBody (r : Receiver) (w : WriteOutcome) : Java (Receiver × List Bytes) := do
  let flags ← getFlags r.inPacket
  let _ ← getSeqNum r.inPacket
  let ack ← getAckNum r.inPacket
  if r.inPacket.data.length = 24 ∧ ack ≠ 0 then
    return (r, [sizeReply])
  if flags = 1 then
    return r.closeProcess c
  let size ← getPacketSize r.inPacket
  let test_1 ← getCheckSum r.inPacket
  let temp ← copyOfRange r.inPacket.data 0 r.inPacket.length
  let test_2 ← generateChecksum temp
  if test_1 = test_2 then
    let r ← r.acceptNew c ack size w
    match r.outData with
    | some outData => return (r, [outData])
    | none => throw .nullPointer
  else
    return (r, [])

def receive (r : Receiver) (d : Bytes) : Receiver := { r with inPacket := r.inPacket.receive d }

/-- The first receive, and the answer to it. -/
def handshake (r : Receiver) (d : Bytes) : Receiver × List Bytes :=
  let r := r.receive d
  match getWindowSize r.inPacket with
  | .error _ => ({ r with pc := .aborted }, [])
  | .ok size =>
    ({ r with pc := .receiveLoop, WINDOW_SIZE := size, inPacket := .new size.toNat }, [sizeReply])

def receiveLoop (r : Receiver) (d : Bytes) (w : WriteOutcome) : Receiver × List Bytes :=
  let r := r.receive d
  match r.loopBody c w with
  | .error _ => ({ r with pc := .aborted }, [])
  | .ok result => result

/-- The flags of the packet in hand, its numbers decoded for the log. -/
def closeFlags (r : Receiver) : Java ℕ := do
  let flags ← getFlags r.inPacket
  let _ ← getSeqNum r.inPacket
  let _ ← getAckNum r.inPacket
  return flags

/-- The receive of `closeProcess`, which catches every exception. -/
def closing (r : Receiver) (d : Bytes) : Receiver :=
  let r := r.receive d
  match r.closeFlags with
  | .ok 16 => { r with pc := .over }
  | _ => { r with pc := .ended }

end Receiver

variable (c : ReceiverConfig)

/-- A step of the receiver, with the datagrams it sends. -/
def receiverStep (r : Receiver) (d : Bytes) (w : WriteOutcome) :
    Option (Receiver × List Bytes) :=
  match r.pc with
  | .handshake => some (r.handshake d)
  | .receiveLoop => some (r.receiveLoop c d w)
  | .closing => some (r.closing d, [])
  | _ => none

end TcpLike
