import TcpipCourse.L01.Address
import TcpipCourse.L03.Ttl
import TcpipCourse.L05.Canonical
import TcpipCourse.L06.Codec
import TcpipCourse.L07.Order
import TcpipCourse.L07.Integrity
import TcpipCourse.L07.Outcome
import TcpipCourse.L08.Eof
import TcpipCourse.L08.Deadline
import TcpipCourse.L08.EchoSystem
import TcpipCourse.L09.Encode
import TcpipCourse.L09.Stores
import TcpipCourse.L09.Stable
import TcpipCourse.L09.Accesses
import TcpipCourse.L10.ContentLength
import TcpipCourse.L10.Reads
import TcpipCourse.L10.Receive
import TcpipCourse.L10.Build
import TcpipCourse.L10.Deadline
import TcpipCourse.L10.Transaction
import TcpipCourse.L07.Connection
import TcpipCourse.L07.Serial
import TcpipCourse.L11.Blocks
import TcpipCourse.L02.Codec
import TcpipCourse.L11.Allocate
import TcpipCourse.L11.Expiry
import TcpipCourse.LinuxL01.Buffer
import TcpipCourse.LinuxL01.Return
import TcpipCourse.LinuxL01.Wakeup
import TcpipCourse.LinuxL04.Walkthrough
import TcpipCourse.LinuxL02.TcpInfo
import TcpipCourse.LinuxL03.Timeout
import TcpipCourse.LinuxL03.Counters
import TcpipCourse.LinuxL03.Queue
import TcpipCourse.L12.Window
import TcpipCourse.L12.Invariant
import TcpipCourse.L12.Format
import TcpipCourse.L12.Names
import TcpipCourse.L12.Kept
import TcpipCourse.L12.Agree
import TcpipCourse.L12.Compose
import TcpipCourse.L12.Chain
import TcpipCourse.L12.Http
import TcpipCourse.L12.Dns
import TcpipCourse.L12.Cut
import TcpipCourse.L12.Flip
import TcpipCourse.L12.Forward
import TcpipCourse.L12.Line
import TcpipCourse.L12.Query
import TcpipCourse.L12.Accesses
import TcpipCourse.L12.Checksums
import TcpipCourse.LinuxL03.Consumers
import TcpipCourse.Corruption
import TcpipCourse.Deadlines
import TcpipCourse.L12.Sections
