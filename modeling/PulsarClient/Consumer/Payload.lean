/-
  FROM AN ENTRY TO ITS MESSAGES — what `process_payload` does before it hands anything out.

  The broker delivers ENTRIES; a producer that batches puts several messages into one.  In the order of
  the code:

  1. a chunk of a chunked message is refused (`reject_chunked_message`);
  2. the payload is decompressed;
  3. an entry with `num_messages_in_batch` is taken apart (`parse_batched_message`,
     `BatchedMessageIterator`): every message gets the id of the ENTRY, with its own `batch_index` and
     the `batch_size` filled in;
  4. messages at or before `start_message_id` are dropped (`is_before_start_message`), and what is left
     is dead-lettered or delivered, message by message (that loop is `Consumer.Engine`).

  Decoding a protobuf and decompressing are third-party code: parameters (`Codecs`).
-/
import Mathlib.Algebra.Group.Int.Defs
import Mathlib.Algebra.Group.Nat.Defs
import PulsarClient.Error
import PulsarClient.Message

namespace PulsarClient

open Proto

/-! ## The batch format -/

/-- One message of a batch, as it stands in the payload of the entry. -/
structure BatchedMessage where
  metadata : SingleMessageMetadata
  payload : Bytes
  deriving DecidableEq, Repr

/-- `proto::CompressionType`. -/
inductive CompressionType where
  | None | Lz4 | Zlib | Zstd | Snappy
  deriving DecidableEq, Repr

/-- `CompressionType::try_from`. -/
def compressionType : Int → Option CompressionType
  | 0 => some .None
  | 1 => some .Lz4
  | 2 => some .Zlib
  | 3 => some .Zstd
  | 4 => some .Snappy
  | _ => none

/-- Third-party decoders. -/
structure Codecs where
  /-- `SingleMessageMetadata::decode` -/
  decodeSingleMessageMetadata : Bytes → Option SingleMessageMetadata
  /-- the decompression of the type, or the error that the feature is off or the data is bad -/
  decompress : CompressionType → Option Nat → Bytes → Except String Bytes

/-- `be_u32` -/
def beU32 : Bytes → Option (Nat × Bytes)
  | a :: b :: c :: d :: rest =>
    some (((a.toNat * 256 + b.toNat) * 256 + c.toNat) * 256 + d.toNat, rest)
  | _ => none

/-- `nom`'s `take`. -/
def takeBytes (n : Nat) (i : Bytes) : Option (Bytes × Bytes) :=
  if n ≤ i.length then some (i.take n, i.drop n) else none

/-- `batched_message`: a size, the metadata of that size, the payload of the size it tells. -/
def batchedMessage (codecs : Codecs) (i : Bytes) : Option (BatchedMessage × Bytes) := do
  let (metadataSize, i) ← beU32 i
  let (bytes, i) ← takeBytes metadataSize i
  let metadata ← codecs.decodeSingleMessageMetadata bytes
  if 0 ≤ metadata.payloadSize then
    let (payload, i) ← takeBytes metadata.payloadSize.toNat i
    some ({ metadata, payload }, i)
  else none

/-- `nom::multi::count` of `batched_message`. -/
def batchedMessages (codecs : Codecs) : Nat → Bytes → Option (List BatchedMessage)
  | 0, _ => some []
  | n + 1, i => do
    let (m, i) ← batchedMessage codecs i
    let ms ← batchedMessages codecs n i
    some (m :: ms)

/-- `parse_batched_message`.  What is left of the payload is ignored. -/
def parseBatchedMessage (codecs : Codecs) (count : Nat) (payload : Bytes) :
    Except ConnectionError (List BatchedMessage) :=
  match batchedMessages codecs count payload with
  | some ms => .ok ms
  | none => .error (.Decoding "Error decoding batched messages")

namespace Consumer

/-! ## The batch iterator -/

structure BatchedMessageIterator where
  messages : List BatchedMessage
  messageId : MessageIdData
  metadata : MessageMetadata
  totalMessages : Nat
  currentIndex : Nat

namespace BatchedMessageIterator

/-- `BatchedMessageIterator::new`, for a payload with a `num_messages_in_batch`.  A negative one is a
    huge count after `as u32`. -/
def new (codecs : Codecs) (messageId : MessageIdData) (payload : Payload) (numMessages : Int) :
    Except ConnectionError BatchedMessageIterator :=
  let totalMessages := (numMessages % 2 ^ 32).toNat
  match parseBatchedMessage codecs totalMessages payload.data with
  | .ok messages => .ok { messages, messageId, metadata := payload.metadata, totalMessages, currentIndex := 0 }
  | .error e => .error e

/-- The id of the message at `index`: the ENTRY's id with the index and the size filled in. -/
def idAt (it : BatchedMessageIterator) (index : Nat) : MessageIdData :=
  { it.messageId with batchIndex := some index, batchSize := some it.totalMessages }

/-- The metadata of a message: its own fields over those of the envelope. -/
def metadataOf (it : BatchedMessageIterator) (m : BatchedMessage) : MessageMetadata :=
  { it.metadata with
    properties := m.metadata.properties
    partitionKey := m.metadata.partitionKey
    partitionKeyB64Encoded := m.metadata.partitionKeyB64Encoded
    nullPartitionKey := m.metadata.nullPartitionKey
    nullValue := m.metadata.nullValue
    orderingKey := m.metadata.orderingKey
    eventTime := m.metadata.eventTime }

/-- `Iterator::next` -/
def next (it : BatchedMessageIterator) :
    Option ((MessageIdData × Payload) × BatchedMessageIterator) :=
  if it.totalMessages - it.currentIndex = 0 then none
  else
    match it.messages with
    | [] => none
    | m :: rest =>
      some ((it.idAt it.currentIndex, { metadata := it.metadataOf m, data := m.payload }),
        { it with messages := rest, currentIndex := it.currentIndex + 1 })

/-- `collect`, with as many calls of `next` as there are messages at most. -/
def collectUpTo : Nat → BatchedMessageIterator → List (MessageIdData × Payload)
  | 0, _ => []
  | n + 1, it =>
    match it.next with
    | none => []
    | some (item, it') => item :: collectUpTo n it'

def collect (it : BatchedMessageIterator) : List (MessageIdData × Payload) :=
  it.collectUpTo it.messages.length

end BatchedMessageIterator

/-! ## The start message -/

/-- `is_persistent_topic` -/
def isPersistentTopic (topic : String) : Bool := !topic.startsWith "non-persistent://"

/-- `ConsumerOptions`, with the fields that the engine reads. -/
structure ConsumerOptions where
  startMessageId : Option MessageIdData := none
  startMessageIdInclusive : Bool := false
  receiverQueueSize : Option Nat := none
  deriving DecidableEq, Repr

/-- `is_before_start_message` -/
def isBeforeStartMessage (topic : String) (options : ConsumerOptions) (messageId : MessageIdData) :
    Bool :=
  if isPersistentTopic topic then
    match options.startMessageId with
    | none => false
    | some start =>
      if messageId.ledgerId ≠ start.ledgerId ∨ messageId.entryId ≠ start.entryId then false
      else
        match messageId.batchIndex, start.batchIndex with
        | some index, some startIndex =>
          if options.startMessageIdInclusive then decide (index < startIndex)
          else decide (index ≤ startIndex)
        | _, _ => !options.startMessageIdInclusive
  else false

/-! ## Unpacking an entry -/

structure DeadLetterPolicy where
  maxRedeliverCount : Nat
  deadLetterTopic : String
  deriving DecidableEq, Repr

/-- `reject_chunked_message` -/
def rejectChunkedMessage (metadata : MessageMetadata) : Except Error Unit :=
  match metadata.numChunksFromMsg with
  | some numChunks =>
    if 1 < numChunks then .error (.Consumer (.UnsupportedChunkedMessage metadata.uuid numChunks))
    else .ok ()
  | none => .ok ()

/-- The compression of an entry; an unknown number is an error. -/
def compressionOf (metadata : MessageMetadata) : Except Error CompressionType :=
  match metadata.compression with
  | none => .ok .None
  | some compression =>
    match compressionType compression with
    | some t => .ok t
    | none => .error (.Consumer (.Io s!"unknown compression type {compression}"))

/-- The payload without its compression. -/
def decompressed (codecs : Codecs) (payload : Payload) : CompressionType → Except Error Payload
  | .None => .ok payload
  | t =>
    match codecs.decompress t payload.metadata.uncompressedSize payload.data with
    | .ok data => .ok { payload with data }
    | .error text => .error (.Consumer (.Io text))

/-- `process_payload`, down to its loop: the messages of an entry, with their ids. -/
def unpack (codecs : Codecs) (messageId : MessageIdData) (payload : Payload) :
    Except Error (List (MessageIdData × Payload)) := do
  rejectChunkedMessage payload.metadata
  let compression ← compressionOf payload.metadata
  let payload ← decompressed codecs payload compression
  match payload.metadata.numMessagesInBatch with
  | some numMessages =>
    match BatchedMessageIterator.new codecs messageId payload numMessages with
    | .ok it => .ok it.collect
    | .error e => .error (.Connection e)
  | none => .ok [(messageId, payload)]

end Consumer

end PulsarClient
