import Multilife.Client.ClientRuntime
import Multilife.Client.GameNetworkClient
import Multilife.Client.InfiniteGridView
import Multilife.Client.SidePanel
import Multilife.Foundations.Sorting
import Multilife.Refinement.Addressing
import Multilife.Refinement.Cancelling
import Multilife.Refinement.ChunkUpdate
import Multilife.Refinement.ClientModel
import Multilife.Refinement.DeltaContent
import Multilife.Refinement.Dirty
import Multilife.Refinement.Economy
import Multilife.Refinement.FramingRoundTrip
import Multilife.Refinement.GapDetection
import Multilife.Refinement.Generation
import Multilife.Refinement.Independence
import Multilife.Refinement.LightCone
import Multilife.Refinement.PendingEdits
import Multilife.Refinement.Permissions
import Multilife.Refinement.Ranking
import Multilife.Refinement.Replication
import Multilife.Refinement.Restamp
import Multilife.Refinement.Snapshot
import Multilife.Refinement.Stats
import Multilife.Refinement.StatsStream
import Multilife.Refinement.UdpFraming
import Multilife.Server.BoostNetworkManager
import Multilife.System.Accounts
import Multilife.System.Announcements
import Multilife.System.Clicks
import Multilife.System.ClientProcess
import Multilife.System.CommandQueue
import Multilife.System.Convergence
import Multilife.System.Delivery
import Multilife.System.Downlink
import Multilife.System.Execution
import Multilife.System.Futures
import Multilife.System.Gaps
import Multilife.System.Ledger
import Multilife.System.LedgerCalls
import Multilife.System.Lifecycle
import Multilife.System.Overflow
import Multilife.System.Pairing
import Multilife.System.Play
import Multilife.System.Reconnecting
import Multilife.System.Registry
import Multilife.System.Schedules
import Multilife.System.Sequence
import Multilife.System.Service
import Multilife.System.Shutdown
import Multilife.System.TickLoops
import Multilife.System.Uplink
import Multilife.System.WaitAndPop
import Multilife.System.Waiting
