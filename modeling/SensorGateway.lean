import SensorGateway.Interaction
import SensorGateway.Termination
import SensorGateway.Remainders
import SensorGateway.Traces
import SensorGateway.Threads
import SensorGateway.CString
import SensorGateway.Numerals
import SensorGateway.Binary64
import SensorGateway.Libc
import SensorGateway.TcpParser
import SensorGateway.ParserSpec
import SensorGateway.Grammar
import SensorGateway.SharedStrtok
import SensorGateway.SensorTable
import SensorGateway.System
import SensorGateway.SqliteDb
import SensorGateway.Gateway
import SensorGateway.TcpServer
import SensorGateway.Surroundings
import SensorGateway.Paging
import SensorGateway.Report
import SensorGateway.SqlRules
import SensorGateway.SqliteDbSpec
import SensorGateway.QuerySpec
import SensorGateway.Snapshot
import SensorGateway.QueryText
import SensorGateway.QuietQuery
import SensorGateway.GatewaySpec
import SensorGateway.QuietGateway
import SensorGateway.Separated
import SensorGateway.Capacity
import SensorGateway.ReportFormat
import SensorGateway.RoundTrip
import SensorGateway.ServerSpec
import SensorGateway.QuietServer
import SensorGateway.Framing
import SensorGateway.CommandStream
import SensorGateway.Segmentation
import SensorGateway.LongCommands
import SensorGateway.Clients
import SensorGateway.Acknowledged
import SensorGateway.Sending
import SensorGateway.Sigpipe
import SensorGateway.HelpRange
import SensorGateway.Replies
import SensorGateway.BatchContract
import SensorGateway.CleanPrefix
import SensorGateway.QueryBound
import SensorGateway.SwappedBounds
import SensorGateway.EmbeddedNul
import SensorGateway.Interpretation
import SensorGateway.ConnectionEvents
import SensorGateway.Lifecycle
import SensorGateway.ListeningFd
import SensorGateway.Teardown
import SensorGateway.ExactIntegers
import SensorGateway.PartialSends
import SensorGateway.Statements
import SensorGateway.Guarantees
import SensorGateway.AtomicObject
import SensorGateway.RunRules
import SensorGateway.Service
import SensorGateway.Linearized
import SensorGateway.Visibility
import SensorGateway.Conversations
import SensorGateway.Nesting
import SensorGateway.Startup
import SensorGateway.Connections
import SensorGateway.StartupSpec
import SensorGateway.WholeProgram
import SensorGateway.Rounding
import SensorGateway.Reprint
import SensorGateway.Replay
import SensorGateway.Expansion
import SensorGateway.Scans
