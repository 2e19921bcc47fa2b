import HotRod.Data.CyclicOrder
import HotRod.Data.SetDifference
import HotRod.Data.SortedMap
import HotRod.Data.Lines
import HotRod.Data.WireFormat
import HotRod.Semantics.Execution
import HotRod.Semantics.Rounds
import HotRod.Semantics.Transition
import HotRod.Semantics.Machines
import HotRod.Semantics.Monitors
import HotRod.Exceptions
import HotRod.Transport.BlockingQueue
import HotRod.Transport.ConnectionPool
import HotRod.Transport.Inventory
import HotRod.Transport.Scan
import HotRod.Transport.Account
import HotRod.Transport.Conservation
import HotRod.Transport.Limits
import HotRod.Transport.Capacity
import HotRod.Transport.Counters
import HotRod.Transport.Queues
import HotRod.Transport.Sections
import HotRod.Transport.Alone
import HotRod.Transport.Standing
import HotRod.Transport.Stealing
import HotRod.Transport.Allocation
import HotRod.Transport.Sleepers
import HotRod.Transactions.Context
import HotRod.Transactions.Cache
import HotRod.Transactions.Entries
import HotRod.Transactions.Footprint
import HotRod.Transactions.Pointers
import HotRod.Transactions.Abstraction
import HotRod.Transactions.Prepare
import HotRod.Transactions.Manager
import HotRod.Transactions.Decision
import HotRod.Transactions.Atomicity
import HotRod.Transactions.Completion
import HotRod.Transactions.Verdicts
import HotRod.Transactions.PrivateMap
import HotRod.Transactions.Bulk
import HotRod.Transactions.ContainsKey
import HotRod.Transactions.Versions
import HotRod.Transactions.Handles
import HotRod.Operations.RetryOnFailure
import HotRod.Operations.Pairing
import HotRod.Operations.Retries
import HotRod.Operations.Repetition
import HotRod.Topology.MurmurHash3
import HotRod.Topology.TopologyInfo
import HotRod.Topology.SegmentOwners
import HotRod.Topology.Routing
import HotRod.Topology.TransportFactory
import HotRod.Topology.RoundRobin
import HotRod.Topology.Views
import HotRod.Topology.NewTopology
import HotRod.Topology.FailedServers
import HotRod.Topology.Blocks
import HotRod.Topology.Responses
import HotRod.Topology.Succession
import HotRod.Topology.ClusterSwitch
import HotRod.Topology.Failover
import HotRod.Protocol.InputStream
import HotRod.Protocol.Connection
import HotRod.Protocol.TcpTransport
import HotRod.Protocol.Codec
import HotRod.Protocol.Response
import HotRod.Protocol.RequestHeader
import HotRod.Operations.Commands
import HotRod.Operations.Answers
import HotRod.Operations.Bodies
import HotRod.Operations.Exchanges
import HotRod.Operations.ListenerEvents
import HotRod.Operations.Synchronisation
import HotRod.Operations.PrepareRequest
import HotRod.Operations.RequestFlags
import HotRod.Transactions.Wire
import HotRod.Events.Dispatchers
import HotRod.Events.Endings
import HotRod.Events.Decoders
import HotRod.Events.CounterListeners
import HotRod.NearCache.NearRemoteCache
import HotRod.NearCache.Freshness
import HotRod.NearCache.ReadYourWrites
import HotRod.NearCache.Eviction
import HotRod.NearCache.Registrations
import HotRod.Marshalling.JBasicMarshaller
import HotRod.Configuration.ServerList
import HotRod.Operations.Conversation
import HotRod.Operations.Expiration
import HotRod.Operations.KeyOperations
import HotRod.Operations.Caches
import HotRod.Operations.BulkReads
import HotRod.Operations.SplitGetAll
import HotRod.Operations.ListenerParameters
import HotRod.Query.Projections
import HotRod.Query.ContinuousQueries
import HotRod.Counters.Handles
import HotRod.Counters.Requests
import HotRod.Counters.Names
import HotRod.Counters.Configurations
import HotRod.Counters.Service
import HotRod.Counters.Bounds
import HotRod.Async.GoAsync
import HotRod.Async.Threads
import HotRod.Async.Variants
import HotRod.Manager.Lifecycle
import HotRod.Transport.Sockets
import HotRod.Manager.CacheNames
import HotRod.Manager.Administration
