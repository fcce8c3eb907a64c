import PrismHTTP.Library.ByteLayout
import PrismHTTP.Library.BoundedMap
import PrismHTTP.Library.Transition
import PrismHTTP.Switch.Lookup
import PrismHTTP.Switch.RequestExecution
import PrismHTTP.Switch.Datagram
import PrismHTTP.Switch.ReplyStatus
import PrismHTTP.Library.OnesComplement
import PrismHTTP.Switch.Checksums
import PrismHTTP.Switch.LockedFlows
import PrismHTTP.Switch.HandoffHistory
import PrismHTTP.Control.Channel
import PrismHTTP.Control.Retries
import PrismHTTP.Control.Callbacks
import PrismHTTP.Handoff.Flow
import PrismHTTP.Handoff.Ownership
import PrismHTTP.Library.Framing
import PrismHTTP.Library.MemoryBlock
import PrismHTTP.Server.HandoffServer
import PrismHTTP.Server.HandoffFraming
import PrismHTTP.Handoff.TcpRepair
import PrismHTTP.Handoff.TcpExport
import PrismHTTP.Handoff.TcpTransfer
import PrismHTTP.Library.Strtoll
import PrismHTTP.Server.HttpRequest
import PrismHTTP.Server.HttpServer
import PrismHTTP.Server.Reception
import PrismHTTP.Server.Picohttpparser
import PrismHTTP.Server.Pipelining
import PrismHTTP.Kvs.Jenkins
import PrismHTTP.Server.BufferGrowth
import PrismHTTP.Server.RequestTransfer
import PrismHTTP.Switch.LockRequests
import PrismHTTP.Switch.FlowIsolation
import PrismHTTP.Server.HttpResponse
import PrismHTTP.Server.ResponseGrammar
import PrismHTTP.Kvs.Handlers
import PrismHTTP.Kvs.Chain
import PrismHTTP.Kvs.Responses
import PrismHTTP.Kvs.Acknowledged
import PrismHTTP.Kvs.Convergence
import PrismHTTP.Handoff.FailedStart
import PrismHTTP.Switch.ReplyChecksum
import PrismHTTP.Library.LastRecord
import PrismHTTP.Switch.Learning
import PrismHTTP.Switch.RequestLocality
import PrismHTTP.Server.HeaderLookup
import PrismHTTP.Server.RequestImport
import PrismHTTP.Library.Numeral
import PrismHTTP.Server.ContentLength
import PrismHTTP.Kvs.Sharding
import PrismHTTP.Handoff.ChunkedSend
import PrismHTTP.Handoff.QueueRestore
import PrismHTTP.Library.Resumption
import PrismHTTP.Server.RequestGrammar
import PrismHTTP.Server.ResumedParsing
import PrismHTTP.Server.HeadDelivery
import PrismHTTP.Server.FastScanning
import PrismHTTP.Handoff.ManyClients
import PrismHTTP.Handoff.Transparency
import PrismHTTP.Library.BigEndian
import PrismHTTP.Library.CursorParsing
import PrismHTTP.Tls.Context
import PrismHTTP.Tls.Import
import PrismHTTP.Tls.SavedState
import PrismHTTP.Tls.Restoring
import PrismHTTP.Tls.RoundTrip
import PrismHTTP.Tls.KeyExpansion
import PrismHTTP.Tls.Ktls
import PrismHTTP.Library.PartitionedMap
import PrismHTTP.Kvs.ShardedStore
import PrismHTTP.Kvs.ShardedRuns
import PrismHTTP.Kvs.ShardedProgress
