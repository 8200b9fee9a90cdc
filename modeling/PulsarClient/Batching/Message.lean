/-
  `producer::Message` on its way out: what the application hands to a producer, and the records it
  becomes.

  * `Message` → `ProducerMessage` — a null value becomes an empty payload with a flag, a binary key its
    base64 text with a flag.

  * `ProducerMessage` → the metadata and the data of an entry (`messages::send`), or one message of a
    batch (`send_raw` of a batching producer): TWO records, filled field by field.

  * `compressMessage` — compression of the payload of an entry, a batch being one payload.

  base64, `prost` and the compression libraries are parameters (`Libraries`).  A `HashMap` is its
  entries in the order of its iterator.
-/
import PulsarClient.Codec
import PulsarClient.Consumer.Payload
import PulsarClient.Error
import PulsarClient.Message

namespace PulsarClient.Batching

open Proto

/-- `n as i32`. -/
def asI32 (n : Nat) : Int :=
  if n % 2 ^ 32 < 2 ^ 31 then ((n % 2 ^ 32 : Nat) : Int) else ((n % 2 ^ 32 : Nat) : Int) - 2 ^ 32

theorem asI32_of_lt {n : Nat} (h : n < 2 ^ 31) : asI32 n = n := by
  unfold asI32
  split <;> omega

/-- … which an `as u32` takes back. -/
theorem asI32_emod {n : Nat} (h : n < 2 ^ 32) : (asI32 n % 2 ^ 32).toNat = n := by
  unfold asI32
  split <;> omega

/-! ## The data -/

/-- `HashMap<String, String>` -/
structure Properties where
  entries : List (String × String)
  nodup : (entries.map Prod.fst).Nodup
  deriving DecidableEq

namespace Properties

def empty : Properties := { entries := [], nodup := List.nodup_nil }

def get? (p : Properties) (key : String) : Option String := p.entries.lookup key

/-- `into_iter().map(|(key, value)| proto::KeyValue { key, value }).collect()` -/
def keyValues (p : Properties) : List KeyValue :=
  p.entries.map fun entry => { key := entry.1, value := entry.2 }

end Properties

/-- The value of a key among the properties of a message that was received. -/
def valueOf (properties : List KeyValue) (key : String) : Option String :=
  (properties.map fun kv => (kv.key, kv.value)).lookup key

theorem Properties.valueOf_keyValues (p : Properties) (key : String) :
    valueOf p.keyValues key = p.get? key := by
  have hentries : (p.keyValues.map fun kv => (kv.key, kv.value)) = p.entries := by
    unfold keyValues
    rw [List.map_map]
    exact List.map_id p.entries
  show List.lookup key _ = List.lookup key p.entries
  rw [hentries]

inductive PartitionKey where
  | Text (key : String)
  | Bytes (key : Bytes)
  | Null
  deriving DecidableEq, Repr

/-- `producer::Message`.  No payload is a null value. -/
structure Message where
  payload : Option Bytes := none
  properties : Properties := Properties.empty
  partitionKey : Option PartitionKey := none
  orderingKey : Option Bytes := none
  /-- "Override namespace's replication" -/
  replicateTo : List String := []
  eventTime : Option Nat := none
  schemaVersion : Option Bytes := none
  /-- "time at which the message should be delivered to consumers" -/
  deliverAtTime : Option Int := none
  deriving DecidableEq

/-- `ProducerMessage`, without the fields for encryption, which nothing fills in. -/
structure ProducerMessage where
  payload : Bytes := []
  nullValue : Option Bool := none
  partitionKeyB64Encoded : Option Bool := none
  nullPartitionKey : Option Bool := none
  properties : Properties := Properties.empty
  partitionKey : Option String := none
  orderingKey : Option Bytes := none
  replicateTo : List String := []
  compression : Option Int := none
  uncompressedSize : Option Nat := none
  numMessagesInBatch : Option Int := none
  eventTime : Option Nat := none
  schemaVersion : Option Bytes := none
  deliverAtTime : Option Int := none
  deriving DecidableEq

/-- The `Error`s of the producer side: the `ProducerError`s, and the errors of the rest. -/
inductive ProducerError where
  | Connection (e : ConnectionError)
  | Custom (text : String)
  | Io (text : String)
  /-- an error of sending a batch, shared across the batch -/
  | Batch (e : ProducerError)
  | Closed
  /-- no `Error::Producer` -/
  | Other (e : Error)
  deriving DecidableEq, Repr

/-! ## Third-party code -/

inductive CompressionMode where
  | HighCompression (level : Int)
  | Fast (acceleration : Int)
  | Default
  deriving DecidableEq, Repr

/-- `compression::Compression` -/
inductive Compression where
  | None
  | Lz4 (mode : CompressionMode)
  | Zlib (level : Nat)
  | Zstd (level : Int)
  | Snappy
  deriving DecidableEq, Repr

/-- `proto::CompressionType` of a configured compression. -/
def Compression.type : Compression → CompressionType
  | None => .None
  | Lz4 _ => .Lz4
  | Zlib _ => .Zlib
  | Zstd _ => .Zstd
  | Snappy => .Snappy

/-- `CompressionType::into`, the number on the wire. -/
def compressionNumber : CompressionType → Int
  | .None => 0
  | .Lz4 => 1
  | .Zlib => 2
  | .Zstd => 3
  | .Snappy => 4

@[simp] theorem compressionType_number (t : CompressionType) :
    compressionType (compressionNumber t) = some t := by
  cases t <;> rfl

/-- What the producer side calls, beside what the consumer side calls. -/
structure Libraries extends Codecs where
  /-- `BASE64.encode` -/
  base64 : Bytes → String
  /-- `SingleMessageMetadata::encode` -/
  encodeSingleMessageMetadata : SingleMessageMetadata → Bytes
  /-- the compression, or the error of the library -/
  compress : Compression → Bytes → Except String Bytes

/-! ## Conversions -/

variable (lib : Libraries)

/-- `From<Message> for ProducerMessage` -/
def Message.into (m : Message) : ProducerMessage :=
  { payload := m.payload.getD []
    nullValue := if m.payload.isNone then some true else none
    partitionKey :=
      match m.partitionKey with
      | some (.Text key) => some key
      | some (.Bytes key) => some (lib.base64 key)
      | some .Null => none
      | none => none
    partitionKeyB64Encoded :=
      match m.partitionKey with
      | some (.Bytes _) => some true
      | _ => none
    nullPartitionKey :=
      match m.partitionKey with
      | some .Null => some true
      | _ => none
    properties := m.properties
    orderingKey := m.orderingKey
    replicateTo := m.replicateTo
    eventTime := m.eventTime
    schemaVersion := m.schemaVersion
    deliverAtTime := m.deliverAtTime }

/-- `compress_message` -/
def compressMessage (message : ProducerMessage) :
    Option Compression → Except ProducerError ProducerMessage
  | none | some .None => .ok message
  | some compression =>
    match lib.compress compression message.payload with
    | .error text => .error (.Io text)
    | .ok payload =>
      .ok { message with
        uncompressedSize := some (message.payload.length % 2 ^ 32)
        payload
        compression := some (compressionNumber compression.type) }

/-- The payload that `messages::send` puts into the entry. -/
def ProducerMessage.toPayload (message : ProducerMessage) (producerName : String)
    (sequenceId publishTime : Nat) : Payload where
  metadata :=
    { producerName
      sequenceId
      properties := message.properties.keyValues
      publishTime
      partitionKey := message.partitionKey
      partitionKeyB64Encoded := message.partitionKeyB64Encoded
      nullPartitionKey := message.nullPartitionKey
      nullValue := message.nullValue
      orderingKey := message.orderingKey
      replicateTo := message.replicateTo
      compression := message.compression
      uncompressedSize := message.uncompressedSize
      numMessagesInBatch := message.numMessagesInBatch
      eventTime := message.eventTime
      schemaVersion := message.schemaVersion
      deliverAtTime := message.deliverAtTime }
  data := message.payload

/-- The message of a batch that `send_raw` makes of it: no schema version ("structurally dropped here"),
    and the field has no place for `replicate_to` and `deliver_at_time` either. -/
def ProducerMessage.batched (message : ProducerMessage) : BatchedMessage where
  metadata :=
    { properties := message.properties.keyValues
      partitionKey := message.partitionKey
      partitionKeyB64Encoded := message.partitionKeyB64Encoded
      nullPartitionKey := message.nullPartitionKey
      nullValue := message.nullValue
      orderingKey := message.orderingKey
      payloadSize := asI32 message.payload.length
      eventTime := message.eventTime }
  payload := message.payload

@[simp] theorem ProducerMessage.batched_payload (m : ProducerMessage) :
    m.batched.payload = m.payload := rfl

@[simp] theorem ProducerMessage.batched_payloadSize (m : ProducerMessage) :
    m.batched.metadata.payloadSize = asI32 m.payload.length := by
  simp only [ProducerMessage.batched]

/-- `BatchedMessage::serialize` -/
def serialize (m : BatchedMessage) : Bytes :=
  putU32 (lib.encodeSingleMessageMetadata m.metadata).length ++
    (lib.encodeSingleMessageMetadata m.metadata ++ m.payload)

/-! ## What the libraries promise -/

/-- `prost` reads back what it has written. -/
def Libraries.ProstInverts (m : SingleMessageMetadata) : Prop :=
  lib.decodeSingleMessageMetadata (lib.encodeSingleMessageMetadata m) = some m

/-- What has been compressed is decompressed to what it was. -/
def Libraries.CompressionInverts : Option Compression → Prop
  | none | some .None => True
  | some compression => ∀ payload compressed, lib.compress compression payload = .ok compressed →
      lib.decompress compression.type (some (payload.length % 2 ^ 32)) compressed = .ok payload

section

variable {lib : Libraries} {compression : Option Compression} {message sent : ProducerMessage}

/-- What `compress_message` lets through: the message as it is, or with a payload that is decompressed
    to the one it had. -/
theorem compressMessage_ok (hlib : lib.CompressionInverts compression)
    (h : compressMessage lib message compression = .ok sent) :
    sent = message ∨ ∃ type payload, type ≠ CompressionType.None ∧
      lib.decompress type (some (message.payload.length % 2 ^ 32)) payload = .ok message.payload ∧
      sent = { message with
        uncompressedSize := some (message.payload.length % 2 ^ 32)
        payload
        compression := some (compressionNumber type) } := by
  unfold compressMessage at h
  split at h
  · exact Or.inl (Except.ok.inj h).symm
  · exact Or.inl (Except.ok.inj h).symm
  · rename_i c hnone
    split at h
    · simp at h
    · rename_i payload hpayload
      have hinverts : lib.decompress c.type (some (message.payload.length % 2 ^ 32)) payload =
          .ok message.payload := by
        cases c with
        | None => exact absurd rfl hnone
        | Lz4 _ | Zlib _ | Zstd _ | Snappy => exact hlib message.payload payload hpayload
      have htype : c.type ≠ .None := by
        cases c with
        | None => exact absurd rfl hnone
        | Lz4 _ | Zlib _ | Zstd _ | Snappy =>
          intro hc
          cases hc
      exact Or.inr ⟨c.type, payload, htype, hinverts, (Except.ok.inj h).symm⟩

/-- The consumer takes an entry apart as if it had never been compressed, but for the two fields of the
    metadata that tell of it. -/
theorem unpack_toPayload (hlib : lib.CompressionInverts compression)
    (hplain : message.compression = none)
    (h : compressMessage lib message compression = .ok sent) (id : MessageIdData)
    (producerName : String) (sequenceId publishTime : Nat) :
    Consumer.unpack lib.toCodecs id (sent.toPayload producerName sequenceId publishTime) =
      match message.numMessagesInBatch with
      | some n =>
        match Consumer.BatchedMessageIterator.new lib.toCodecs id
          { sent.toPayload producerName sequenceId publishTime with data := message.payload } n with
        | .ok it => .ok it.collect
        | .error e => .error (.Connection e)
      | none =>
        .ok [(id, { sent.toPayload producerName sequenceId publishTime with data := message.payload })]
    := by
  rcases compressMessage_ok hlib h with rfl | ⟨type, payload, htype, hinverts, rfl⟩
  · -- sent as it is: the metadata names no compression
    have hcompression : Consumer.compressionOf
        (sent.toPayload producerName sequenceId publishTime).metadata = .ok .None := by
      have hnone : (sent.toPayload producerName sequenceId publishTime).metadata.compression = none :=
        hplain
      unfold Consumer.compressionOf
      rw [hnone]
    unfold Consumer.unpack
    rw [hcompression]
    rfl
  · -- what follows needs only that its metadata name the type and the size
    generalize hsent : ProducerMessage.toPayload { message with
        uncompressedSize := some (message.payload.length % 2 ^ 32)
        payload
        compression := some (compressionNumber type) } producerName sequenceId publishTime = p
    have hcompression : Consumer.compressionOf p.metadata = .ok type := by
      have hsome : p.metadata.compression = some (compressionNumber type) := by
        rw [← hsent]
        rfl
      unfold Consumer.compressionOf
      simp only [hsome, compressionType_number]
    have hdecompressed : Consumer.decompressed lib.toCodecs p type =
        .ok { p with data := message.payload } := by
      have hdata : lib.decompress type p.metadata.uncompressedSize p.data = .ok message.payload := by
        rw [← hsent]
        exact hinverts
      cases type with
      | None => exact absurd rfl htype
      | Lz4 | Zlib | Zstd | Snappy =>
        unfold Consumer.decompressed
        simp only [hdata]
    unfold Consumer.unpack
    rw [hcompression]
    show (do
      Consumer.rejectChunkedMessage p.metadata
      let p ← Consumer.decompressed lib.toCodecs p type
      _) = _
    rw [hdecompressed, ← hsent]
    rfl

end

end PulsarClient.Batching
