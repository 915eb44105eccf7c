import TcpLike.Tool
import TcpLike.Packet

/-!
# The sender

The constructor `sender()` and `closeProcess`, as a state machine that stops at each
`socket.receive`, at the head of the file loop and at the decision behind it. A step is given what
the receive returned, and gives back the datagrams it sent. Sends, file reads and host name lookups
succeed; the log, the clock and the round trip estimates are left out.
-/

namespace TcpLike

structure SenderConfig where
  SRC_PORT : ℤ
  DEST_PORT : ℤ
  WINDOW_SIZE : ℕ
  deriving DecidableEq, Repr

def MAXTRIES : ℕ := 100

/-- Where the sender stands. -/
inductive SenderPc
  /-- in the handshake loop, receiving -/
  | handshake
  /-- at the head of the file loop -/
  | fileLoop
  /-- receiving after the first transmission of a segment -/
  | firstReceive
  /-- receiving in the retry loop entered on a wrong ack -/
  | wrongAck
  /-- receiving in the retry loop entered on an exception -/
  | noResponse
  /-- past the file loop, about to look at `isBroken` -/
  | leftLoop
  /-- in `closeProcess`, at its first receive -/
  | closeAck
  /-- in `closeProcess`, at its second receive -/
  | closeFin
  /-- has printed "Delivery completed successfully" -/
  | delivered
  /-- has printed "Failed to send file..." -/
  | failed
  /-- an exception has reached the constructor's own `catch` -/
  | aborted
  deriving DecidableEq, Repr

structure Sender where
  pc : SenderPc
  /-- what `fis` has not read yet -/
  fis : Bytes
  FILE_SIZE : ℤ
  TOTAL_BYTE : ℤ
  SEGMENT_NUM : ℤ
  RETRANSMIT_NUM : ℤ
  seqNum : ℕ
  ackNum : ℕ
  flag : ℤ
  CHECKSUM : ℤ
  PACKET_SIZE : ℤ
  /-- the bytes last read; `len` is their number -/
  data : Bytes
  tries : ℕ
  isBroken : Bool
  inPacket : DatagramPacket
  deriving DecidableEq, Repr

/-- What a `socket.receive` comes back with. -/
inductive Outcome
  | timeout
  | datagram (d : Bytes)
  deriving DecidableEq, Repr

/-- The constructor up to its first receive, the window-size datagram sent. `available()` answers
`Integer.MAX_VALUE` for a longer file. -/
def Sender.init (file : Bytes) : Sender where
  pc := .handshake
  fis := file
  FILE_SIZE := min (file.length : ℤ) (2 ^ 31 - 1)
  TOTAL_BYTE := 0
  SEGMENT_NUM := 0
  RETRANSMIT_NUM := 0
  seqNum := 0
  ackNum := 1
  flag := 0
  CHECKSUM := 0
  PACKET_SIZE := 0
  data := []
  tries := 0
  isBroken := false
  inPacket := .new 24

variable (c : SenderConfig)

/-- The datagram of the handshake: flags 0, sequence number 0, ack number 1. -/
def windowDatagram : Bytes :=
  tcpHeader c.SRC_PORT c.DEST_PORT 0 1 5 0 c.WINDOW_SIZE 0 0 0

/-- `fis.read(buf)`, for a `buf` of `n` bytes: `none` is -1. -/
def fisRead (n : ℕ) (fis : Bytes) : Option Bytes :=
  if n = 0 then some [] else if fis = [] then none else some (fis.take n)

namespace Sender

/-- `tool.byteMerge(header, data)`, the header built from the counters given. -/
def message (s : Sender) (seqNum ackNum : ℤ) : Bytes :=
  byteMerge
    (tcpHeader c.SRC_PORT c.DEST_PORT seqNum ackNum 5 s.flag c.WINDOW_SIZE s.CHECKSUM 0
      s.PACKET_SIZE)
    s.data

def receive (s : Sender) (d : Bytes) : Sender := { s with inPacket := s.inPacket.receive d }

/-! ## The handshake -/

/-- The test on the answer. -/
def isSizeReply (inPacket : DatagramPacket) : Java Bool := do
  if (← getAckNum inPacket) = 0 then return (← getSeqNum inPacket) = 0 else return false

/-- A round of the handshake loop: what is no answer is passed over, an exception sends again. -/
def handshake (s : Sender) : Outcome → Sender × List Bytes
  | .timeout => (s, [windowDatagram c])
  | .datagram d =>
    let s := s.receive d
    match isSizeReply s.inPacket with
    | .ok true => ({ s with pc := .fileLoop }, [])
    | .ok false => (s, [])
    | .error _ => (s, [windowDatagram c])

/-! ## The file loop -/

/-- The head of the file loop: a chunk is read, sent and counted, or the loop is left at the end of
the file. -/
def readChunk (s : Sender) : Sender × List Bytes :=
  match fisRead (c.WINDOW_SIZE - 24) s.fis with
  | none => ({ s with pc := .leftLoop }, [])
  | some data =>
    let s := { s with
      fis := s.fis.drop data.length
      TOTAL_BYTE := int32 (s.TOTAL_BYTE + data.length)
      SEGMENT_NUM := int32 (s.SEGMENT_NUM + 1)
      data := data
      PACKET_SIZE := data.length
      flag := 16 }
    -- the checksum is taken with the previous segment's checksum still in the header
    match generateChecksum (s.message c s.seqNum s.ackNum) with
    | .error _ => ({ s with pc := .aborted }, [])
    | .ok sum =>
      let s := { s with CHECKSUM := sum }
      let message := s.message c s.seqNum s.ackNum
      ({ s with
        ackNum := s.ackNum + 1
        seqNum := s.seqNum + data.length
        pc := .firstReceive }, [message])

/-- The segment sent again, its header rebuilt with the counters taken back. -/
def retransmit (s : Sender) : Sender × List Bytes :=
  ({ s with
    SEGMENT_NUM := int32 (s.SEGMENT_NUM + 1)
    RETRANSMIT_NUM := int32 (s.RETRANSMIT_NUM + 1) },
   [s.message c (s.seqNum - s.data.length) (s.ackNum - 1)])

/-- The `finally` of a segment. -/
def finallyBlock (s : Sender) : Sender :=
  { s with pc := if s.tries = MAXTRIES then .leftLoop else .fileLoop }

/-- The head of the retry loop in the `catch`. -/
def noResponseLoop (s : Sender) : Sender × List Bytes :=
  if s.tries < MAXTRIES then { s with pc := .noResponse }.retransmit c else (s.finallyBlock, [])

/-- The `catch` of a segment. -/
def catchBlock (s : Sender) : Sender × List Bytes :=
  { s with tries := 1, isBroken := true }.noResponseLoop c

/-- `while (!isValidAck(inPacket, seqNum, len) && seqNum != FILE_SIZE)`: a round of it starts its
retry loop at `tries = 1`, so at least one retransmission follows. -/
def wrongAckWhile (s : Sender) : Sender × List Bytes :=
  match isValidAck s.inPacket s.seqNum with
  | .error _ => s.catchBlock c
  | .ok valid =>
    if !valid ∧ (s.seqNum : ℤ) ≠ s.FILE_SIZE then
      { s with tries := 1, isBroken := true, pc := .wrongAck }.retransmit c
    else (s.finallyBlock, [])

/-- What follows the inner retry loop of the wrong-ack loop. -/
def afterWrongAck (s : Sender) : Sender × List Bytes :=
  if s.tries = MAXTRIES then (s.finallyBlock, []) else s.wrongAckWhile c

/-- The head of the inner retry loop of the wrong-ack loop. -/
def wrongAckLoop (s : Sender) : Sender × List Bytes :=
  if s.tries < MAXTRIES then { s with pc := .wrongAck }.retransmit c else s.afterWrongAck c

/-- A receive of the file loop, with the decoding of both numbers for the log. -/
def receiveAck (s : Sender) : Outcome → Sender × Java Unit
  | .timeout => (s, .error .socketTimeout)
  | .datagram d =>
    let s := s.receive d
    (s, do
      let _ ← getSeqNum s.inPacket
      let _ ← getAckNum s.inPacket)

/-- A receive of a retry loop: the ack is looked at too. -/
def retryReceive (s : Sender) (o : Outcome) : Sender × Java Bool :=
  let (s, logged) := s.receiveAck o
  (s, do
    logged
    isValidAck s.inPacket s.seqNum)

/-- The receive after the first transmission. -/
def firstReceive (s : Sender) (o : Outcome) : Sender × List Bytes :=
  match s.receiveAck o with
  | (s, .error _) => s.catchBlock c
  | (s, .ok _) => s.wrongAckWhile c

/-- A receive of the wrong-ack loop. Its `finally` counts every try, its `catch` the failed ones
once more. -/
def wrongAck (s : Sender) (o : Outcome) : Sender × List Bytes :=
  match s.retryReceive o with
  | (s, .error _) => { s with tries := s.tries + 2 }.wrongAckLoop c
  | (s, .ok true) => { s with isBroken := false, tries := s.tries + 1 }.afterWrongAck c
  | (s, .ok false) => { s with tries := s.tries + 1 }.wrongAckLoop c

/-- A receive of the no-response loop. -/
def noResponse (s : Sender) (o : Outcome) : Sender × List Bytes :=
  match s.retryReceive o with
  | (s, .error _) => { s with tries := s.tries + 1 }.noResponseLoop c
  | (s, .ok true) => ({ s with isBroken := false }.finallyBlock, [])
  | (s, .ok false) => { s with tries := s.tries + 1 }.noResponseLoop c

/-! ## The close -/

def finDatagram : Bytes := tcpHeader c.SRC_PORT c.DEST_PORT 0 0 5 1 c.WINDOW_SIZE 0 0 24

/-- The final ACK, of a FIN with sequence number `rcvSeq`. -/
def finalAck (rcvSeq : ℤ) : Bytes :=
  tcpHeader c.SRC_PORT c.DEST_PORT 0 (rcvSeq + 1) 5 16 c.WINDOW_SIZE 0 0 24

/-- The decision behind the file loop, and `closeProcess` up to its first receive. -/
def finalDecision (s : Sender) : Sender × List Bytes :=
  if s.isBroken then ({ s with pc := .failed }, [])
  else ({ s with flag := 1, pc := .closeAck }, [finDatagram c])

/-- The sequence number, the ack number and the flags of the packet in hand. -/
def closeFields (s : Sender) : Java (ℤ × ℤ × ℕ) := do
  let seq ← getSeqNum s.inPacket
  let ack ← getAckNum s.inPacket
  let flags ← getFlags s.inPacket
  return (seq, ack, flags)

/-- The first receive of `closeProcess`. A timeout is an `IOException`, which `closeProcess`
catches; a `NumberFormatException` passes through it. -/
def closeAck (s : Sender) : Outcome → Sender × List Bytes
  | .timeout => ({ s with pc := .delivered }, [])
  | .datagram d =>
    let s := s.receive d
    match s.closeFields with
    | .error _ => ({ s with pc := .aborted }, [])
    | .ok (_, rcvAck, f1) =>
      if rcvAck = 1 ∧ f1 = 16 then ({ s with pc := .closeFin }, [])
      else ({ s with pc := .delivered }, [])

/-- The second receive of `closeProcess`. -/
def closeFin (s : Sender) : Outcome → Sender × List Bytes
  | .timeout => ({ s with pc := .delivered }, [])
  | .datagram d =>
    let s := s.receive d
    match s.closeFields with
    | .error _ => ({ s with pc := .aborted }, [])
    | .ok (rcvSeq, _, f2) =>
      if f2 = 1 then ({ s with flag := 16, pc := .delivered }, [finalAck c rcvSeq])
      else ({ s with pc := .delivered }, [])

end Sender

/-- What drives the sender on: a receive that comes back, or nothing at all. -/
inductive SenderInput
  | run
  | receive (o : Outcome)
  deriving DecidableEq, Repr

/-- A step of the sender, with the datagrams it sends. -/
def senderStep (s : Sender) : SenderInput → Option (Sender × List Bytes)
  | .run =>
    match s.pc with
    | .fileLoop => some (s.readChunk c)
    | .leftLoop => some (s.finalDecision c)
    | _ => none
  | .receive o =>
    match s.pc with
    | .handshake => some (s.handshake c o)
    | .firstReceive => some (s.firstReceive c o)
    | .wrongAck => some (s.wrongAck c o)
    | .noResponse => some (s.noResponse c o)
    | .closeAck => some (s.closeAck o)
    | .closeFin => some (s.closeFin c o)
    | _ => none

end TcpLike
