import ClawKernel.Lib.Runs
import ClawKernel.Lib.LengthPrefix
import ClawKernel.Lib.Ranking
import ClawKernel.Lib.Utf8
import ClawKernel.Lib.Pieces
import ClawKernel.Server.Connection
import ClawKernel.A2A.Priority
import ClawKernel.Memory.Sqlite
import ClawKernel.Memory.Secure
import ClawKernel.Memory.Quota
import ClawKernel.Memory.Reads
import ClawKernel.Provider.Types
import ClawKernel.Provider.Sse
import ClawKernel.Lib.Json
import ClawKernel.Lib.Loops
import ClawKernel.Loop.States
import ClawKernel.Provider.Retry
import ClawKernel.Loop.Types
import ClawKernel.Loop.Run
import ClawKernel.Loop.Streaming
import ClawKernel.Loop.Conversation
import ClawKernel.Loop.Refinement
import ClawKernel.Loop.Assembly
import ClawKernel.Loop.Agreement
import ClawKernel.Loop.Pairing
import ClawKernel.Lib.Effects
import ClawKernel.Loop.Traces
import ClawKernel.Loop.Paths
import ClawKernel.Loop.Budget
import ClawKernel.Loop.Emitted
import ClawKernel.Loop.Protocol
import ClawKernel.Loop.Attempts
import ClawKernel.Lib.Arranged
import ClawKernel.Memory.History
import ClawKernel.Lib.Postings
import ClawKernel.Memory.FullText
import ClawKernel.Lib.Upsert
import ClawKernel.Memory.Worker
import ClawKernel.A2A.Order
import ClawKernel.A2A.Closing
import ClawKernel.A2A.Routing
import ClawKernel.Lib.Schema
import ClawKernel.Server.Protocol
import ClawKernel.Server.Params
import ClawKernel.Server.Dispatch
import ClawKernel.Server.Outbound
import ClawKernel.Tools.Registry
import ClawKernel.Runtime.Cron
import ClawKernel.Runtime.Restart
import ClawKernel.Server.Restored
import ClawKernel.Server.Inbound
import ClawKernel.Script.Fs
import ClawKernel.Lib.Mailbox
import ClawKernel.Lib.Serde
import ClawKernel.Lib.Cascade
import ClawKernel.A2A.Codec
import ClawKernel.Pal.Framing
import ClawKernel.Tools.Versioned
import ClawKernel.Tools.Audit
import ClawKernel.Server.Backpressure
import ClawKernel.Server.Streams
import ClawKernel.Server.ToolBridge
import ClawKernel.Runtime.TokioScheduler
import ClawKernel.Runtime.OneShot
import ClawKernel.Runtime.WebhookServer
import ClawKernel.Runtime.TriggerRegistry
import ClawKernel.Lib.Inverse
import ClawKernel.Server.Sessions
import ClawKernel.Lib.Interleaving
import ClawKernel.Server.SessionLimit
import ClawKernel.Server.Agents
import ClawKernel.Server.Resources
import ClawKernel.Lib.Window
import ClawKernel.Server.Channels
import ClawKernel.Server.Conversations
import ClawKernel.Server.ThreadRace
import ClawKernel.Server.Duplicates
import ClawKernel.Server.Deliveries
import ClawKernel.Server.AuthGate
import ClawKernel.Server.Senders
import ClawKernel.Runtime.Ticks
import ClawKernel.Runtime.Executions
import ClawKernel.Lib.Broadcast
import ClawKernel.Server.Listeners
import ClawKernel.Tools.SandboxGate
import ClawKernel.Runtime.Entries
import ClawKernel.Runtime.Lifecycle
import ClawKernel.Runtime.Registrations
import ClawKernel.Runtime.Departures
import ClawKernel.Runtime.Deduplication
import ClawKernel.Tools.Validation
import ClawKernel.Tools.HotReload
import ClawKernel.Runtime.Cancellation
import ClawKernel.Runtime.Stopping
import ClawKernel.Adapters.Router
import ClawKernel.Adapters.WebhookConnection
import ClawKernel.Server.Subscriptions
import ClawKernel.Loop.Reassembly
import ClawKernel.Loop.Results
import ClawKernel.Script.Modules
import ClawKernel.Script.Net
import ClawKernel.Script.Events
import ClawKernel.Script.EventCalls
import ClawKernel.Sdk.Rpc
import ClawKernel.Sdk.Multiplexing
import ClawKernel.Script.HotReload
import ClawKernel.Script.Mirror
import ClawKernel.Lib.Delays
import ClawKernel.Lib.Retrying
import ClawKernel.Pal.Retry
import ClawKernel.Provider.Backoff
import ClawKernel.Adapters.Retryable
import ClawKernel.Lib.RateWindow
import ClawKernel.Runtime.RateLimit
import ClawKernel.Server.Routes
import ClawKernel.Runtime.RuleMatching
import ClawKernel.Lib.Hmac
import ClawKernel.Runtime.Signatures
import ClawKernel.Lib.Transcoding
import ClawKernel.Provider.Fields
import ClawKernel.Provider.OpenAI
import ClawKernel.Provider.Anthropic
import ClawKernel.Lib.Quotes
import ClawKernel.Loop.Outcomes
import ClawKernel.Lib.Regex
import ClawKernel.Server.EventConditions
import ClawKernel.Server.EventPatterns
import ClawKernel.Runtime.FilteredReceiver
import ClawKernel.Lib.Search
import ClawKernel.Skills.Manifest
import ClawKernel.Lib.Champions
import ClawKernel.Skills.Loader
import ClawKernel.Lib.Turned
import ClawKernel.Memory.Episodic
import ClawKernel.Tools.Metadata
import ClawKernel.Script.Conversion
import ClawKernel.Script.RoundTrip
import ClawKernel.Tools.Brackets
import ClawKernel.Lib.Rewriting
import ClawKernel.Script.Transpile
import ClawKernel.Script.Transpiled
import ClawKernel.Lib.Calendar
import ClawKernel.Tools.Timestamps
import ClawKernel.Lib.Newest
import ClawKernel.Tools.AuditLog
import ClawKernel.Pal.Security
import ClawKernel.Lib.Sized
import ClawKernel.Loop.Summarizer
import ClawKernel.Tools.SignedRecords
import ClawKernel.Lib.Trials
import ClawKernel.Script.Literals
import ClawKernel.Script.Enums
import ClawKernel.Lib.Cutting
import ClawKernel.Sdk.FrameBuffer
import ClawKernel.Sdk.KernelClient
import ClawKernel.Sdk.MessageStream
import ClawKernel.Sdk.Answers
import ClawKernel.Lib.Sexpr
import ClawKernel.Pal.SandboxProfile
import ClawKernel.Pal.Lockfile
import ClawKernel.Pal.ProcessManager
import ClawKernel.Sdk.AsyncRpc
import ClawKernel.Sdk.Reconnect
import ClawKernel.Sdk.Retries
import ClawKernel.Sdk.Reconnections
import ClawKernel.Lib.FileGrowth
import ClawKernel.Tools.FileTools
import ClawKernel.A2A.Remote
