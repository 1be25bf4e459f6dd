import NanoPowServer.Library.Execution
import NanoPowServer.Library.Containers
import NanoPowServer.Library.PriorityQueue
import NanoPowServer.Library.LexicalPath
import NanoPowServer.Library.Locking
import NanoPowServer.Library.DeadlineTimer
import NanoPowServer.Library.Toml
import NanoPowServer.Library.TomlText
import NanoPowServer.Library.Regex
import NanoPowServer.Library.RegexSyntax
import NanoPowServer.Util.Bigint
import NanoPowServer.Util.HexCodec
import NanoPowServer.Util.Multiplier
import NanoPowServer.Util.HexInput
import NanoPowServer.Util.MultiplierRange
import NanoPowServer.Config
import NanoPowServer.ConfigFile
import NanoPowServer.ConfigRoundTrip
import NanoPowServer.ConfigSchema
import NanoPowServer.WorkHandler.Job
import NanoPowServer.WorkHandler.Call
import NanoPowServer.WorkHandler.Queue
import NanoPowServer.WorkHandler.Request
import NanoPowServer.WorkHandler.System
import NanoPowServer.WorkHandler.Steps
import NanoPowServer.WorkHandler.QueueReport
import NanoPowServer.WorkHandler.ServiceOrder
import NanoPowServer.WorkHandler.Stranding
import NanoPowServer.WorkHandler.Admission
import NanoPowServer.WorkHandler.Devices
import NanoPowServer.WorkHandler.Disposal
import NanoPowServer.WorkHandler.Ledger
import NanoPowServer.WorkHandler.ActiveSet
import NanoPowServer.WorkHandler.Lifecycle
import NanoPowServer.WorkHandler.Pairing
import NanoPowServer.WorkHandler.Fifo
import NanoPowServer.WorkHandler.Standing
import NanoPowServer.WorkHandler.Threads
import NanoPowServer.WorkHandler.SharedData
import NanoPowServer.WorkHandler.Snapshot
import NanoPowServer.WorkHandler.Removal
import NanoPowServer.WorkHandler.Failures
import NanoPowServer.WorkHandler.Difficulty
import NanoPowServer.WorkHandler.PriorityOrder
import NanoPowServer.WorkHandler.ReportedRequest
import NanoPowServer.WebServer.HttpSession
import NanoPowServer.WebServer.Delivery
import NanoPowServer.WebServer.Reading
import NanoPowServer.WebServer.Pipelining
import NanoPowServer.WebServer.Responses
import NanoPowServer.WebServer.Interleaving
import NanoPowServer.WebServer.SendQueue
import NanoPowServer.WebServer.Draining
import NanoPowServer.WebServer.StaticFiles
import NanoPowServer.WebServer.IoThreads
import NanoPowServer.WebServer.KeepAlive
import NanoPowServer.WebServer.Endpoints
import NanoPowServer.WebServer.Dispatch
import NanoPowServer.WebServer.Routing
import NanoPowServer.Library.Progress
import NanoPowServer.WorkHandler.Completion
import NanoPowServer.Entry.Process
import NanoPowServer.Entry.Steps
import NanoPowServer.Entry.Sessions
import NanoPowServer.Entry.Wiring
import NanoPowServer.Entry.Answers
import NanoPowServer.WebServer.IdleTimeout
import NanoPowServer.WorkHandler.Atomicity
import NanoPowServer.WorkHandler.Capacity
import NanoPowServer.WorkHandler.Overtaking
import NanoPowServer.WorkHandler.Starvation
import NanoPowServer.Entry.Delivered
import NanoPowServer.Entry.Startup
import NanoPowServer.Entry.Shutdown
import NanoPowServer.Library.Framing
import NanoPowServer.WebServer.StaticResponses
