import Aionetx.Runs.Machine
import Aionetx.Runs.Waits
import Aionetx.Model.Api
import Aionetx.Dispatcher.Stranding
import Aionetx.Dispatcher.Accounting
import Aionetx.Dispatcher.Ordering
import Aionetx.Dispatcher.Wakeups
import Aionetx.Dispatcher.Barrier
import Aionetx.Dispatcher.Restart
import Aionetx.Dispatcher.Provenance
import Aionetx.Dispatcher.FailureRouting
import Aionetx.Client.Attentive
import Aionetx.Connection.Grammar
import Aionetx.Connection.Stream
import Aionetx.Connection.HandlerClose
import Aionetx.Lifecycle.ConvergenceRuns
import Aionetx.Lifecycle.CallersLocal
import Aionetx.Lifecycle.Coherence
import Aionetx.Server.Broadcast
import Aionetx.Server.StateLock
import Aionetx.Client.ReconnectView
import Aionetx.Client.RuntimeView
import Aionetx.Client.ReconnectGrammar
import Aionetx.Client.SingleSupervision
import Aionetx.Connection.CallbackFirst
import Aionetx.Connection.DeferredClose
import Aionetx.Server.CloseView
import Aionetx.Client.Backoff
import Aionetx.RuntimeUtils.RateLimiter
import Aionetx.RuntimeUtils.PreservingAwait
import Aionetx.ReleaseGate.Gates
import Aionetx.Server.BroadcastPayload
import Aionetx.Heartbeat.Sender
import Aionetx.Lifecycle.RejectedStart
import Aionetx.Client.HeartbeatOwnership
import Aionetx.Framing.EndToEnd
import Aionetx.Client.StatusWaits
import Aionetx.Server.StatusWaits
import Aionetx.Settings.Accepted
import Aionetx.Udp.Datagrams
import Aionetx.Datagram.Sessions
import Aionetx.Lifecycle.StopView
