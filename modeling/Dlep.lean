import Dlep.Core.Codec.Decode
import Dlep.Fsm.ModemStep
import Dlep.Fsm.RouterStep
import Dlep.Lib.Machine
import Dlep.Fsm.Observation
import Dlep.Fsm.LifeCycle
import Dlep.Fsm.Safety
import Dlep.Fsm.Transactions
import Dlep.Fsm.Discipline
import Dlep.Fsm.Reports
import Dlep.System.Model
import Dlep.System.Coupling
import Dlep.System.Conservation
import Dlep.Fsm.Metrics
import Dlep.System.Learning
import Dlep.System.Mirror
import Dlep.System.Agreement
import Dlep.Fsm.Grammar
import Dlep.Fsm.Admissible
import Dlep.System.Sound
import Dlep.System.Crossing
import Dlep.Lib.Closing
import Dlep.System.Closing
import Dlep.System.Advertised
import Dlep.Fsm.Atomicity
import Dlep.Fsm.Ownership
import Dlep.Fsm.Replay
import Dlep.Core.Codec.RoundTrip
import Dlep.Core.Codec.Canonical
import Dlep.Core.Codec.Checked
import Dlep.Core.Codec.Grammar
import Dlep.Lib.Bounds
import Dlep.Lib.Ranked
import Dlep.Lib.Framing
import Dlep.Net.Framed
import Dlep.Lib.Bpf
import Dlep.Net.Monitor
import Dlep.Net.Filter
import Dlep.Lib.Timers
import Dlep.Fsm.Timers
import Dlep.Fsm.Deadlines
import Dlep.Lib.LastWriter
import Dlep.Fsm.MetricHistory
import Dlep.Fsm.Support
import Dlep.Fsm.Fit
import Dlep.Fsm.Welcome
import Dlep.Fsm.Encoding
import Dlep.Daemon.TimerSet
import Dlep.Daemon.Commands
import Dlep.Daemon.Dispatch
import Dlep.Daemon.LinkControl
import Dlep.Daemon.LinkAnswers
import Dlep.Daemon.Connections
import Dlep.Daemon.ConnectionLedger
import Dlep.Radio.Bridge
import Dlep.Radio.Answers
import Dlep.Radio.MacText
import Dlep.Daemon.Extensions
import Dlep.Daemon.Session
import Dlep.Daemon.Turns
import Dlep.Daemon.Noninterference
import Dlep.Daemon.Lifecycle
import Dlep.Fsm.Formats
import Dlep.Daemon.Formats
import Dlep.Lib.Permutation
import Dlep.Fsm.Permuted
import Dlep.Fsm.Order
import Dlep.Router.Driver
import Dlep.Router.Attempts
import Dlep.Router.Peers
import Dlep.Router.Dialing
import Dlep.Router.Backoff
import Dlep.Fsm.Deltas
import Dlep.Core.Net
import Dlep.Fsm.Discovery
import Dlep.Lib.Quiescence
import Dlep.System.Draining
import Dlep.Net.Datagrams
import Dlep.Fsm.Offers
import Dlep.Daemon.Discovery
import Dlep.System.Discovering
import Dlep.Daemon.Accepting
import Dlep.Daemon.Closing
import Dlep.Daemon.Relaying
