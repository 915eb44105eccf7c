import TcpLike.Java

/-!
# `Tool`

The header and the checksum. The two programs carry the same `tcpHeader` and `generateChecksum`.
-/

namespace TcpLike

/-- `Tool.byteMerge`. -/
def byteMerge (byte_1 byte_2 : Bytes) : Bytes := byte_1 ++ byte_2

/-- `Tool.tcpHeader`. -/
def tcpHeader (srcPort dstPort seqNum ackNum data_offset flags window checksum urg_pointer
    packet_size : ℤ) : Bytes :=
  [octet srcPort 8, octet srcPort 0,
   octet dstPort 8, octet dstPort 0,
   octet seqNum 24, octet seqNum 16, octet seqNum 8, octet seqNum 0,
   octet ackNum 24, octet ackNum 16, octet ackNum 8, octet ackNum 0,
   octet (data_offset % 16 * 16) 0,
   octet (flags % 64) 0,
   octet window 8, octet window 0,
   octet checksum 8, octet checksum 0,
   octet urg_pointer 8, octet urg_pointer 0,
   octet packet_size 24, octet packet_size 16, octet packet_size 8, octet packet_size 0]

@[simp] theorem length_tcpHeader (sp dp seq ack off fl win ck urg size : ℤ) :
    (tcpHeader sp dp seq ack off fl win ck urg size).length = 24 := rfl

/-- The array padded with a zero byte to an even length. -/
def padEven (byteArray : Bytes) : Bytes :=
  if byteArray.length % 2 ≠ 0 then byteArray ++ [0] else byteArray

/-- The summing loop of `generateChecksum`, over pairs of bytes. -/
def sumLoop : ℤ → Bytes → ℤ
  | sum, firstByte :: nextbyte :: stream =>
    sumLoop (int32 (sum + (firstByte.toNat * 256 + nextbyte.toNat))) stream
  | sum, _ => sum

/-- `while (sum > 65535) sum = sum - 65536 + 1`, for at most `fuel` rounds. -/
def carryLoop : ℕ → ℤ → ℤ
  | 0, sum => sum
  | fuel + 1, sum => if 65535 < sum then carryLoop fuel (sum - 65536 + 1) else sum

/-- `Tool.generateChecksum`. A round of the carry loop takes 65535 off `sum`, so `sum` rounds are
more than enough. An array of 16 bytes or fewer has no `stream[16]`. -/
def generateChecksum (byteArray : Bytes) : Java ℤ :=
  let stream := padEven byteArray
  if stream.length < 18 then .error .arrayIndexOutOfBounds
  else
    let sum := sumLoop 0 ((stream.set 16 0).set 17 0)
    -- `~sum & 0xFFFF`
    .ok ((-1 - carryLoop sum.toNat sum) % 65536)

end TcpLike
