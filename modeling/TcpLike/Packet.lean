import TcpLike.Java

/-!
# `DatagramPacket` and the field decoders

A field is decoded by way of the binary text of its bytes, parsed as an `int`: a field of four
bytes whose top bit is set throws.
-/

namespace TcpLike

/-- A `DatagramPacket`: the whole buffer, and the length of the datagram last put there. -/
structure DatagramPacket where
  data : Bytes
  length : ℕ
  length_le : length ≤ data.length
  deriving DecidableEq, Repr

namespace DatagramPacket

/-- A packet with a buffer of `n` zero bytes. -/
def new (n : ℕ) : DatagramPacket := ⟨List.replicate n 0, n, by simp⟩

/-- `socket.receive`: the datagram is cut to the buffer, and what it does not reach keeps its old
contents. -/
def receive (p : DatagramPacket) (d : Bytes) : DatagramPacket :=
  ⟨d.take p.data.length ++ p.data.drop d.length, min d.length p.data.length, by simp; omega⟩

end DatagramPacket

/-- `dfShort.format(Double.parseDouble(Integer.toBinaryString(b & 255)))`. -/
def binary8 (b : UInt8) : List Char := decimalFormat 8 (parseDouble (toBinaryString b.toNat))

/-- The binary texts of the bytes at `idx`, joined and parsed. -/
def decodeField (header : Bytes) (idx : List ℕ) : Java ℤ := do
  let bs ← idx.mapM (getByte header)
  parseInt (bs.flatMap binary8) 2

def getSeqNum (inPacket : DatagramPacket) : Java ℤ := decodeField inPacket.data [4, 5, 6, 7]

def getAckNum (inPacket : DatagramPacket) : Java ℤ := decodeField inPacket.data [8, 9, 10, 11]

def getPacketSize (inPacket : DatagramPacket) : Java ℤ := decodeField inPacket.data [20, 21, 22, 23]

def getCheckSum (inPacket : DatagramPacket) : Java ℤ := decodeField inPacket.data [16, 17]

def getWindowSize (inPacket : DatagramPacket) : Java ℤ := decodeField inPacket.data [14, 15]

/-- `inPacket.getData()[13] & 63`. -/
def getFlags (inPacket : DatagramPacket) : Java ℕ := do
  let b ← getByte inPacket.data 13
  return b.toNat % 64

/-- The test of the ACK bit: the signed decimal text of the flags byte, read as hexadecimal,
printed in binary, and looked at in its fourth character. -/
def ackBit (flags : UInt8) : Java Bool := do
  let i ← parseInt (byteToString flags) 16
  let binary := decimalFormat 8 (parseDouble (toBinaryString i))
  return binary[3]? = some '1'

/-- `sender.isValidAck`. Its argument `len` is not used. -/
def isValidAck (inPacket : DatagramPacket) (seqNum : ℕ) : Java Bool := do
  let flags ← getByte inPacket.data 13
  if ← ackBit flags then
    let ack ← decodeField inPacket.data [8, 9, 10, 11]
    return ack = seqNum
  else
    return false

end TcpLike
