import TcpLike.System
import TcpLike.Proofs.ReceiverStep
import TcpLike.Proofs.SenderCases
import TcpLike.Proofs.SenderInv
import TcpLike.Proofs.SystemStep
import TcpLike.Proofs.CloseInv
import TcpLike.Proofs.Close
import TcpLike.Proofs.ReceiverData
import TcpLike.Proofs.Transfer
import TcpLike.Proofs.Stored
import TcpLike.Proofs.Delivery
import TcpLike.Proofs.Forged
import TcpLike.Proofs.Chunks
import TcpLike.Proofs.Corruption
import TcpLike.Proofs.Handshake
import TcpLike.Proofs.AckNumbers
import TcpLike.Proofs.Faultless
import TcpLike.Proofs.AckFlag
import TcpLike.Proofs.HeaderFormat
import TcpLike.Lib.OnesComplement
import TcpLike.Proofs.InternetChecksum
import TcpLike.Proofs.ErrorDetection
import TcpLike.Proofs.Wire
import TcpLike.Proofs.RetryEnd
import TcpLike.Proofs.RetryBudget
import TcpLike.Proofs.WindowSize
import TcpLike.Proofs.Round
import TcpLike.Proofs.Crash
import TcpLike.Proofs.Stale
import TcpLike.Proofs.Accounts
import TcpLike.Timeval
import TcpLike.Lib.Deadlines
import TcpLike.Multimer
import TcpLike.Proofs.Multimer
import TcpLike.Proofs.Queue
import TcpLike.Newudpl
import TcpLike.Proofs.EmulatorAccounts
import TcpLike.Proofs.DepTime
import TcpLike.Proofs.EmulatorOrder
import TcpLike.Proofs.EmulatorFlush
import TcpLike.Proofs.EmulatedPath
import TcpLike.Proofs.OverEmulator
import TcpLike.Lib.Related
import TcpLike.CmdLine
import TcpLike.Proofs.CmdLine
import TcpLike.Notify
import TcpLike.Proofs.Notify
