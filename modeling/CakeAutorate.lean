import CakeAutorate.UciTransaction.ForeignCommits
import CakeAutorate.Transfer.Uploads
import CakeAutorate.Publisher.LogFollower
import CakeAutorate.Protocol.Control
import CakeAutorate.Lease.Table
import CakeAutorate.Controller.RatePolicy
import CakeAutorate.Autotune.PairCandidates
import CakeAutorate.Autotune.RepeatBudget
import CakeAutorate.Autotune.MonotoneLink
import CakeAutorate.Routing.Uplink
import CakeAutorate.Journal.Creation
import CakeAutorate.Override.Ownership
import CakeAutorate.Override.ProbeRetirement
import CakeAutorate.NativeApply.FinalAnswer
import CakeAutorate.Accounting.PacketRuns
import CakeAutorate.Topology.Determined
import CakeAutorate.History.Hold
import CakeAutorate.ProbeOwner.Reuse
import CakeAutorate.DaemonLog.Retention
import CakeAutorate.SchedulerConfig.Committed
import CakeAutorate.Candidate.Validation
import CakeAutorate.OwnedTraffic.Attempts
import CakeAutorate.Journal.RecordCodec
import CakeAutorate.UciEdits.Frame
import CakeAutorate.Service.TakeDown
import CakeAutorate.Controller.BaselineWarmup
import CakeAutorate.Scheduler.QuietEvidence
import CakeAutorate.Autotune.CounterRates
import CakeAutorate.Mqtt.Means
import CakeAutorate.SchedulerConfig.Scalar
import CakeAutorate.RoutedDns.Reply
import CakeAutorate.Routing.DefaultRoute
import CakeAutorate.Scheduler.Codec
import CakeAutorate.Reflectors.Integrity
import CakeAutorate.Snapshot.Reader
import CakeAutorate.HistoryTraffic.Window
import CakeAutorate.Rating.Capture
