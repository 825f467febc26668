import Crossbridge.Lib.Runs
import Crossbridge.Lib.Codec
import Crossbridge.Protocol.Message
import Crossbridge.Protocol.Framing
import Crossbridge.Protocol.Streams
import Crossbridge.Server.Session
import Crossbridge.Crosslink.Db
import Crossbridge.Client.Labels
import Crossbridge.Server.Handler
import Crossbridge.Server.HandlerEffect
import Crossbridge.Server.Atomicity
import Crossbridge.Server.Idempotency
import Crossbridge.Server.Answers
import Crossbridge.Client.Commands
import Crossbridge.Bridge.Routing
import Crossbridge.Bridge.Network
import Crossbridge.Bridge.RefLabels
import Crossbridge.Bridge.Resubmission
import Crossbridge.Lib.FileTree
import Crossbridge.Supervisor.Maps
import Crossbridge.Supervisor.EventLoop
import Crossbridge.Supervisor.Views
import Crossbridge.Supervisor.Containment
import Crossbridge.Supervisor.SlugDirs
import Crossbridge.Server.Listeners
import Crossbridge.Server.AcceptLoops
import Crossbridge.Topology.Model
import Crossbridge.Topology.ProcStep
import Crossbridge.Topology.Links
import Crossbridge.Topology.Sockets
import Crossbridge.Topology.Isolation
import Crossbridge.Client.Peers
import Crossbridge.Topology.Informed
import Crossbridge.Topology.Discovery
import Crossbridge.Topology.GhostDirs
import Crossbridge.Bridge.LocalSteps
import Crossbridge.Bridge.AnswerScope
import Crossbridge.Bridge.StatusLabels
import Crossbridge.Bridge.Exchange
import Crossbridge.Lib.Text
import Crossbridge.Server.Slug
import Crossbridge.Client.Slug
import Crossbridge.Bridge.Slugs
import Crossbridge.Protocol.Frames
import Crossbridge.Protocol.Payloads
import Crossbridge.Server.StreamEnd
import Crossbridge.Server.Reconnect
import Crossbridge.Supervisor.Registry
import Crossbridge.Bridge.OriginUrls
import Crossbridge.Direnv.Slug
import Crossbridge.Bridge.ShellSlugs
import Crossbridge.Bridge.Sizes
import Crossbridge.Lib.Links
import Crossbridge.Server.Attachment
import Crossbridge.Direnv.Up
import Crossbridge.Direnv.OneServer
import Crossbridge.Supervisor.Tasks
import Crossbridge.Supervisor.LiveStreams
import Crossbridge.Supervisor.Ledger
import Crossbridge.Bridge.Rpc
import Crossbridge.Bridge.AnswerAgain
import Crossbridge.Bridge.Results
import Crossbridge.Supervisor.Startup
import Crossbridge.Server.Serving
import Crossbridge.Bridge.Completion
import Crossbridge.Direnv.Pinned
import Crossbridge.Bridge.Connections
