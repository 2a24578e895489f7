import PySOA.Lib.DelimitedScan
import PySOA.Lib.Documents
import PySOA.Lib.DocumentGrafts
import PySOA.Lib.DocumentOverlay
import PySOA.Lib.DocumentEquality
import PySOA.Lib.Rearrangement
import PySOA.Lib.ReflectedWalk
import PySOA.Lib.Results
import PySOA.Lib.Slices
import PySOA.Lib.Splits
import PySOA.Lib.RoundRobin
import PySOA.Lib.Runs
import PySOA.Lib.Loops
import PySOA.Lib.BoundedDeque
import PySOA.Lib.Utf8
import PySOA.Lib.BigEndian
import PySOA.Lib.GreedyCuts
import PySOA.Common.Types
import PySOA.Common.Serializer
import PySOA.Common.ResponseRoundTrip
import PySOA.Common.Decimal
import PySOA.Common.Censoring
import PySOA.Common.Hashable
import PySOA.Common.Syslog
import PySOA.Common.SyslogFragments
import PySOA.Common.SyslogPackets
import PySOA.Common.Msgpack
import PySOA.Common.MsgpackRoundTrip
import PySOA.Common.MsgpackErrors
import PySOA.RedisGateway.Constants
import PySOA.RedisGateway.Core
import PySOA.RedisGateway.Chunks
import PySOA.RedisGateway.Framing
import PySOA.RedisGateway.Unchunked
import PySOA.RedisGateway.Interleaving
import PySOA.RedisGateway.Client
import PySOA.RedisGateway.ListKey
import PySOA.RedisGateway.Capacity
import PySOA.RedisGateway.Accounting
import PySOA.RedisGateway.Sharding
import PySOA.RedisGateway.Broker
import PySOA.RedisGateway.Server
import PySOA.Client.ServiceHandler
import PySOA.Client.Arrivals
import PySOA.Client.Client
import PySOA.Client.Sending
import PySOA.Client.Resolving
import PySOA.Client.Futures
import PySOA.Client.IndependentFutures
import PySOA.Client.Retry
import PySOA.Client.FutureCells
import PySOA.Client.ParallelJobs
import PySOA.Client.Threads
import PySOA.Client.Isolation
import PySOA.Client.Switches
import PySOA.Client.LocalTransport
import PySOA.Client.LocalCalls
import PySOA.Client.Expander
import PySOA.Client.ExpansionTrees
import PySOA.Client.ExpansionMerging
import PySOA.Client.Expansions
import PySOA.Client.ObjectSearch
import PySOA.Client.ExpansionRouting
import PySOA.Client.ExpansionRounds
import PySOA.Server.Schemas
import PySOA.Server.Server
import PySOA.Server.Execution
import PySOA.Server.Actions
import PySOA.Server.Requests
import PySOA.Server.Transports
import PySOA.Server.Answering
import PySOA.Server.ResponseFraming
import PySOA.Server.RunLoop
import PySOA.Server.ShutdownSignals
import PySOA.Server.Standalone
import PySOA.Server.Forks
import PySOA.Server.Switched
import PySOA.Server.Introspection
import PySOA.Server.IntrospectionAgreement
import PySOA.RedisGateway.Gateway
import PySOA.RedisGateway.Deliveries
import PySOA.Test.Paths
import PySOA.Test.Substitution
import PySOA.Test.Templates
import PySOA.Test.SubstitutionGrafts
import PySOA.Test.PathRoundTrip
import PySOA.Test.TestCaseMerge
import PySOA.Test.Assertions
import PySOA.Test.ExactStructure
import PySOA.Test.NotExpected
import PySOA.Test.AnyOrder
import PySOA.Test.StubActions
import PySOA.Test.StubTransparency
