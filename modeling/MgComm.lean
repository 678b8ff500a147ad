import MgComm.Library.StreamMachine
import MgComm.Library.DoubledSeparator
import MgComm.Library.WordExtraction
import MgComm.Library.Monitor
import MgComm.Library.RingList
import MgComm.Library.WireWords
import MgComm.Library.BitMask
import MgComm.Bytes
import MgComm.Server.TcpServer
import MgComm.Server.Framing
import MgComm.Server.Bounds
import MgComm.Server.Interference
import MgComm.Command.CommandProcessor
import MgComm.Command.CommandLink
import MgComm.Server.ClientHandler
import MgComm.Server.Writeline
import MgComm.Server.Teardown
import MgComm.Server.Ownership
import MgComm.Server.Sessions
import MgComm.Dci.DCIBase
import MgComm.Dci.LogCodes
import MgComm.Dci.DiagLog
import MgComm.Dci.Delivery
import MgComm.Dci.Hardware
import MgComm.Dci.Requests
import MgComm.Dci.Payload
import MgComm.Dci.ClientTable
import MgComm.Dci.ReadThread
import MgComm.Dci.MemoryPool
import MgComm.Dci.Lifecycle
import MgComm.Dci.StreamRequest
import MgComm.Dci.Masks
import MgComm.Dci.Reports
import MgComm.Parser.ProcessLog
import MgComm.Qscan.Shutdown
import MgComm.Atcmd.ModemAt
import MgComm.Atcmd.Attribution
import MgComm.Atcmd.CommandLines
import MgComm.Atcmd.ReadResults
import MgComm.Dci.Packets
