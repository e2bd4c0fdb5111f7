import ContractWorks.Json.Record

namespace ContractWorks

/-- This type says how many workers a queue has and how much it takes. -/
structure QueueConfig where
  workers : UInt64 := 4
  channelCapacity : UInt64 := 256
  maxSourceBytes : UInt64 := 1048576
  startRetryMillis : UInt64 := 500
  deriving DecidableEq, Repr

namespace QueueConfig

/-- This decoder reads the settings of a queue. -/
def decode : Decoder QueueConfig := fun draft => do
  let default : QueueConfig := {}
  let (workers, channelCapacity, maxSourceBytes, startRetryMillis, ()) ← Row.decode
    (.field (.withDefault "workers" Decode.size default.workers) <|
      .field (.withDefault "channel_capacity" Decode.size default.channelCapacity) <|
      .field (.withDefault "max_source_bytes" Decode.size default.maxSourceBytes) <|
      .field (.withDefault "start_retry_ms" Decode.uint64 default.startRetryMillis) .done)
    "QueueConfig" draft
  return ⟨workers, channelCapacity, maxSourceBytes, startRetryMillis⟩

/-- This function encodes the settings of a queue. -/
def encode (config : QueueConfig) : Json :=
  .object [("workers", .count config.workers.toNat),
    ("channel_capacity", .count config.channelCapacity.toNat),
    ("max_source_bytes", .count config.maxSourceBytes.toNat),
    ("start_retry_ms", .count config.startRetryMillis.toNat)]

end QueueConfig

end ContractWorks
