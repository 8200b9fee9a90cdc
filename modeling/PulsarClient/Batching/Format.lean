/-
  THE BATCH, END TO END — what the application sends through a batching producer is what the consumer
  hands out.

  1. `assemble` is what `message_send_loop` makes of a batch: the payload (`BatchedMessage::serialize`
     one after another), the counter, the senders of the receipts, the `Flush` behind them.

  2. The format: `reads_serialize` — `batched_message` reads back one message and nothing shorter;
     with `Records` that is the whole payload.

  3. `unpack_batch` — what `process_payload` makes of it, and `batch_round_trip`, message by message.
     The limit of the format is the 32-bit size in front of each metadata
     (`huge_key_is_lost`).

  4. `content_of_batched_iff` — the two ways of `send_raw` do NOT say the same: a batch drops
     `deliver_at_time` and `replicate_to`.
-/
import PulsarClient.Batching.Message
import PulsarClient.Codec
import PulsarClient.Consumer.Payload
import PulsarClient.Lib.Records

namespace PulsarClient.Batching

open Proto Consumer

/-! ## Assembling a batch -/

/-- `BatchItem`; a oneshot sender is its number. -/
inductive BatchItem where
  | SingleMessage (tx : Nat) (message : BatchedMessage)
  | Flush (tx : Nat)
  deriving DecidableEq, Repr

namespace BatchItem

/-- The sender that waits for a receipt. -/
def receipt? : BatchItem → Option Nat
  | SingleMessage tx _ => some tx
  | Flush _ => none

/-- The sender that waits for a flush. -/
def flush? : BatchItem → Option Nat
  | SingleMessage _ _ => none
  | Flush tx => some tx

/-- What goes into the payload; a `Flush` among the messages is only reported. -/
def serialized (lib : Libraries) : BatchItem → Bytes
  | SingleMessage _ message => serialize lib message
  | Flush _ => []

end BatchItem

/-- What `message_send_loop` has in hand before it sends. -/
structure Assembled where
  flushTx : Option Nat
  counter : Nat
  receipts : List Nat
  payload : Bytes
  /-- the senders of a `Flush` anywhere else, which go out of scope -/
  dropped : List Nat
  deriving DecidableEq, Repr

/-- … with the trailing `Flush` already popped. -/
def assembleWith (lib : Libraries) (flushTx : Option Nat) (batchItems : List BatchItem) :
    Assembled where
  flushTx
  counter := batchItems.length
  receipts := batchItems.filterMap BatchItem.receipt?
  payload := batchItems.flatMap (BatchItem.serialized lib)
  dropped := batchItems.filterMap BatchItem.flush?

def assemble (lib : Libraries) (batchItems : List BatchItem) : Assembled :=
  match batchItems.getLast? with
  | some (.Flush tx) => assembleWith lib (some tx) batchItems.dropLast
  | _ => assembleWith lib none batchItems

/-- The envelope. -/
def Assembled.message (a : Assembled) (schemaVersion : Option Bytes) : ProducerMessage :=
  { payload := a.payload
    numMessagesInBatch := some (asI32 a.counter)
    schemaVersion }

@[simp] theorem Assembled.message_numMessagesInBatch (a : Assembled) (schemaVersion : Option Bytes) :
    (a.message schemaVersion).numMessagesInBatch = some (asI32 a.counter) := rfl

@[simp] theorem Assembled.message_payload (a : Assembled) (schemaVersion : Option Bytes) :
    (a.message schemaVersion).payload = a.payload := rfl

/-- The receipt of the batch, for one message of it. -/
def Assembled.receiptAt (a : Assembled) (receipt : CommandSendReceipt) (batchIndex : Nat) :
    CommandSendReceipt :=
  { receipt with
    messageId := receipt.messageId.map fun msgId =>
      { msgId with batchIndex := some (asI32 batchIndex), batchSize := some (asI32 a.counter) } }

/-- `for (batch_index, tx) in receipts.into_iter().enumerate()` -/
def Assembled.settled (a : Assembled) (receipt : CommandSendReceipt) :
    List (Nat × CommandSendReceipt) :=
  a.receipts.zipIdx.map fun r => (r.1, a.receiptAt receipt r.2)

/-- The item that `send_raw` of a batching producer queues. -/
def sendRaw (tx : Nat) (message : ProducerMessage) : BatchItem := .SingleMessage tx message.batched

/-- One batch of what has been sent, with the `Flush` that may have ended it. -/
def batchOf (accepted : List (Nat × ProducerMessage)) (flush : Option Nat) : List BatchItem :=
  accepted.map (fun a => sendRaw a.1 a.2) ++ (flush.map BatchItem.Flush).toList

section

variable {lib : Libraries}

@[simp] theorem filterMap_sendRaw (accepted : List (Nat × ProducerMessage)) :
    (accepted.map fun a => sendRaw a.1 a.2).filterMap BatchItem.receipt? = accepted.map Prod.fst := by
  rw [List.filterMap_map]
  exact List.filterMap_eq_map' .. ▸ rfl

@[simp] theorem filterMap_flush_sendRaw (accepted : List (Nat × ProducerMessage)) :
    (accepted.map fun a => sendRaw a.1 a.2).filterMap BatchItem.flush? = [] := by
  rw [List.filterMap_map, List.filterMap_eq_nil_iff]
  exact fun _ _ => rfl

@[simp] theorem flatMap_sendRaw (accepted : List (Nat × ProducerMessage)) :
    (accepted.map fun a => sendRaw a.1 a.2).flatMap (BatchItem.serialized lib) =
      (accepted.map fun a => a.2.batched).flatMap (serialize lib) := by
  rw [List.flatMap_map, List.flatMap_map]
  rfl

theorem assemble_batchOf (accepted : List (Nat × ProducerMessage)) (flush : Option Nat) :
    assemble lib (batchOf accepted flush) =
      { flushTx := flush
        counter := accepted.length
        receipts := accepted.map Prod.fst
        payload := (accepted.map fun a => a.2.batched).flatMap (serialize lib)
        dropped := [] } := by
  have hsingle : ∀ tx, assembleWith lib tx (accepted.map fun a => sendRaw a.1 a.2) =
      { flushTx := tx
        counter := accepted.length
        receipts := accepted.map Prod.fst
        payload := (accepted.map fun a => a.2.batched).flatMap (serialize lib)
        dropped := [] } := by
    intro tx
    simp only [assembleWith, List.length_map, filterMap_sendRaw, flatMap_sendRaw,
      filterMap_flush_sendRaw]
  unfold assemble batchOf
  cases flush with
  | none =>
    simp only [Option.map_none, Option.toList_none, List.append_nil]
    split
    · -- the last item is a message
      rename_i tx hlast
      obtain ⟨a, -, ha⟩ := List.mem_map.mp (List.mem_of_getLast? hlast)
      exact absurd ha (by simp [sendRaw])
    · exact hsingle none
  | some tx =>
    simp only [Option.map_some, Option.toList_some, List.getLast?_append, List.getLast?_singleton,
      Option.some_or, List.dropLast_concat]
    exact hsingle (some tx)

end

/-! ## Reading it back -/

section

variable {lib : Libraries}

theorem batchedMessages_eq_count (codecs : Codecs) (n : Nat) (i : Bytes) :
    batchedMessages codecs n i = Records.count (batchedMessage codecs) n i := by
  induction n generalizing i with
  | zero => rfl
  | succ n ih =>
    unfold batchedMessages Records.count
    simp only [ih]

/-- What `serialize` needs for `batched_message` to read it back. -/
structure Fits (lib : Libraries) (m : BatchedMessage) : Prop where
  prost : lib.ProstInverts m.metadata
  /-- the size in front of the metadata is an `u32` -/
  size : (lib.encodeSingleMessageMetadata m.metadata).length < 2 ^ 32
  payload : m.metadata.payloadSize = m.payload.length

theorem fits_batched {m : ProducerMessage} (hprost : lib.ProstInverts m.batched.metadata)
    (hsize : (lib.encodeSingleMessageMetadata m.batched.metadata).length < 2 ^ 32)
    (hpayload : m.payload.length < 2 ^ 31) : Fits lib m.batched where
  prost := hprost
  size := hsize
  payload := by
    rw [m.batched_payloadSize, m.batched_payload, asI32_of_lt hpayload]

theorem takeBytes_append {bytes rest : Bytes} {n : Nat} (h : bytes.length = n) :
    takeBytes n (bytes ++ rest) = some (bytes, rest) :=
  takeBytes_eq_some_iff.mpr ⟨h, rfl⟩

theorem takeBytes_of_lt {i : Bytes} {n : Nat} (h : i.length < n) : takeBytes n i = none :=
  if_neg (by omega)

/-- `batched_message`, once its three parts have been read. -/
theorem batchedMessage_eq {codecs : Codecs} {i rest : Bytes} {size : Nat} {bytes : Bytes}
    {metadata : SingleMessageMetadata} (hi : i = putU32 size ++ (bytes ++ rest)) (hsize : size < 2 ^ 32)
    (hbytes : bytes.length = size) (hmetadata : codecs.decodeSingleMessageMetadata bytes = some metadata)
    (hnonneg : 0 ≤ metadata.payloadSize) :
    batchedMessage codecs i = (takeBytes metadata.payloadSize.toNat rest).map
      fun p => ({ metadata, payload := p.1 }, p.2) := by
  unfold batchedMessage
  rw [hi, beU32_putU32 hsize]
  simp only [Option.bind_eq_bind, Option.bind_some, takeBytes_append hbytes, hmetadata,
    if_pos hnonneg]
  cases takeBytes metadata.payloadSize.toNat rest <;> rfl

/-- A buffer that ends before the metadata does. -/
theorem batchedMessage_short {codecs : Codecs} {p bytes rest : Bytes} {size : Nat}
    (hsize : size < 2 ^ 32) (hp : p ++ rest = putU32 size ++ bytes) (hlt : p.length < 4 + size) :
    batchedMessage codecs p = none := by
  unfold batchedMessage
  by_cases hshort : p.length < 4
  · rw [beU32_eq_none_iff.mpr hshort]
    rfl
  · -- the size is there whole, but not as many bytes behind it
    have hlen : (putU32 size).length ≤ p.length := by
      rw [length_putU32]
      omega
    obtain ⟨tail, rfl⟩ : ∃ tail, p = putU32 size ++ tail :=
      List.prefix_iff_exists_eq_append.mp
        (List.prefix_of_prefix_length_le ⟨bytes, hp.symm⟩ ⟨rest, rfl⟩ hlen)
    rw [List.length_append, length_putU32] at hlt
    have htake : takeBytes size tail = none := takeBytes_of_lt (by omega)
    rw [beU32_putU32 hsize]
    simp only [Option.bind_eq_bind, Option.bind_some, htake, Option.bind_none]

/-- One message of the batch is read back, and nothing shorter. -/
theorem reads_serialize {m : BatchedMessage} (h : Fits lib m) :
    Records.Reads (batchedMessage lib.toCodecs) (serialize lib) m where
  whole rest := by
    have hnonneg : 0 ≤ m.metadata.payloadSize := by
      rw [h.payload]
      omega
    have hlen : m.payload.length = m.metadata.payloadSize.toNat := by
      rw [h.payload]
      omega
    have heq : serialize lib m ++ rest =
        putU32 (lib.encodeSingleMessageMetadata m.metadata).length ++
          (lib.encodeSingleMessageMetadata m.metadata ++ (m.payload ++ rest)) := by
      simp only [serialize, List.append_assoc]
    rw [batchedMessage_eq heq h.size rfl h.prost hnonneg, takeBytes_append hlen]
    rfl
  cut p q heq hq := by
    have hnonneg : 0 ≤ m.metadata.payloadSize := by
      rw [h.payload]
      omega
    have hlen : (serialize lib m).length = 4 +
        (lib.encodeSingleMessageMetadata m.metadata).length + m.payload.length := by
      simp only [serialize, List.length_append, length_putU32]
      omega
    have hshorter : p.length < (serialize lib m).length := by
      have hpos := List.length_pos_iff.mpr hq
      rw [heq, List.length_append]
      omega
    by_cases hmetadata : p.length < 4 + (lib.encodeSingleMessageMetadata m.metadata).length
    · exact batchedMessage_short h.size heq.symm hmetadata
    · -- the cut is in the payload: the metadata is read, and tells of more than there is
      have hhead : (putU32 (lib.encodeSingleMessageMetadata m.metadata).length ++
          lib.encodeSingleMessageMetadata m.metadata) <+: p := by
        apply List.prefix_of_prefix_length_le ⟨m.payload, ?_⟩ ⟨q, rfl⟩
        · rw [List.length_append, length_putU32]
          omega
        · rw [← heq, serialize, List.append_assoc]
      obtain ⟨tail, rfl⟩ := hhead
      have htail : tail.length < m.metadata.payloadSize.toNat := by
        rw [List.length_append, List.length_append, length_putU32, hlen] at hshorter
        rw [h.payload]
        omega
      rw [batchedMessage_eq (List.append_assoc ..) h.size rfl h.prost hnonneg, takeBytes_of_lt htail]
      rfl

/-- The iterator, over what it was given. -/
theorem collect_eq (it : BatchedMessageIterator)
    (hroom : it.currentIndex + it.messages.length ≤ it.totalMessages) :
    it.collect = (it.messages.zipIdx it.currentIndex).map fun m =>
      (it.idAt m.2, { metadata := it.metadataOf m.1, data := m.1.payload }) := by
  unfold BatchedMessageIterator.collect
  -- by induction on the messages that are left; the counter never reaches `total_messages` before
  generalize hms : it.messages = ms at hroom ⊢
  induction ms generalizing it with
  | nil => rfl
  | cons m ms ih =>
    rw [List.length_cons] at hroom ⊢
    have hnext : it.next = some ((it.idAt it.currentIndex,
        { metadata := it.metadataOf m, data := m.payload }),
        { it with messages := ms, currentIndex := it.currentIndex + 1 }) := by
      unfold BatchedMessageIterator.next
      rw [if_neg (by omega), hms]
    have hrest := ih { it with messages := ms, currentIndex := it.currentIndex + 1 } rfl
      (by show it.currentIndex + 1 + ms.length ≤ it.totalMessages; omega)
    unfold BatchedMessageIterator.collectUpTo
    rw [hnext, List.zipIdx_cons, List.map_cons]
    show _ :: BatchedMessageIterator.collectUpTo ms.length _ = _
    rw [hrest]
    rfl

/-- What `process_payload` makes of the payload of a batch. -/
theorem unpack_serialized {messages : List BatchedMessage} (hfits : ∀ m ∈ messages, Fits lib m)
    {n : Int} (hn : (n % 2 ^ 32).toNat = messages.length) (id : MessageIdData)
    (metadata : MessageMetadata) :
    ∃ it, BatchedMessageIterator.new lib.toCodecs id
        { metadata, data := messages.flatMap (serialize lib) } n = .ok it ∧
      it.collect = (messages.zipIdx.map fun m =>
        ({ id with batchIndex := some m.2, batchSize := some messages.length },
          { metadata := it.metadataOf m.1, data := m.1.payload })) ∧
      it.metadata = metadata := by
  have hparsed : parseBatchedMessage lib.toCodecs messages.length
      (messages.flatMap (serialize lib)) = .ok messages := by
    have hcount := Records.count_flatMap (fun m hm => reads_serialize (hfits m hm)) []
    rw [List.append_nil] at hcount
    unfold parseBatchedMessage
    rw [batchedMessages_eq_count, hcount]
  let it : BatchedMessageIterator :=
    { messages
      messageId := id
      metadata
      totalMessages := messages.length
      currentIndex := 0 }
  refine ⟨it, ?_, ?_, rfl⟩
  · unfold BatchedMessageIterator.new
    simp only [hn, hparsed, it]
  · rw [collect_eq]
    · rfl
    · show 0 + messages.length ≤ messages.length
      omega

/-- No proper prefix of the payload of a batch is read. -/
theorem parse_cut {messages : List BatchedMessage} (hfits : ∀ m ∈ messages, Fits lib m) {p q : Bytes}
    (hcut : messages.flatMap (serialize lib) = p ++ q) (hq : q ≠ []) :
    ∃ e, parseBatchedMessage lib.toCodecs messages.length p = .error e := by
  unfold parseBatchedMessage
  rw [batchedMessages_eq_count,
    Records.count_cut (fun m hm => reads_serialize (hfits m hm)) hcut hq]
  exact ⟨_, rfl⟩

/-- **What the consumer makes of a batch**: the messages in their order, each with the metadata that
    the iterator merges from its own and the envelope's. -/
theorem unpack_batch {accepted : List (Nat × ProducerMessage)} {flush : Option Nat}
    {compression : Option Compression} {schemaVersion : Option Bytes} {sent : ProducerMessage}
    (hfits : ∀ a ∈ accepted, Fits lib a.2.batched) (hn : accepted.length < 2 ^ 32)
    (hlib : lib.CompressionInverts compression)
    (hsent : compressMessage lib ((assemble lib (batchOf accepted flush)).message schemaVersion)
      compression = .ok sent) (id : MessageIdData) (producerName : String)
    (sequenceId publishTime : Nat) :
    ∃ it : BatchedMessageIterator,
      it.metadata = (sent.toPayload producerName sequenceId publishTime).metadata ∧
      unpack lib.toCodecs id (sent.toPayload producerName sequenceId publishTime) =
        .ok (accepted.zipIdx.map fun a =>
          ({ id with batchIndex := some a.2, batchSize := some accepted.length },
            { metadata := it.metadataOf a.1.2.batched, data := a.1.2.payload })) := by
  have hfits' : ∀ m ∈ accepted.map (fun a => a.2.batched), Fits lib m := by
    intro m hm
    obtain ⟨a, ha, rfl⟩ := List.mem_map.mp hm
    exact hfits a ha
  -- the `i32` of the envelope is read back as a `u32`
  have hcount : (asI32 accepted.length % 2 ^ 32).toNat =
      (accepted.map fun a => a.2.batched).length := by
    rw [asI32_emod hn, List.length_map]
  obtain ⟨it, hnew, hcollect, hmetadata⟩ := unpack_serialized hfits' hcount id
    (sent.toPayload producerName sequenceId publishTime).metadata
  refine ⟨it, hmetadata, ?_⟩
  rw [unpack_toPayload hlib rfl hsent id producerName sequenceId publishTime, assemble_batchOf]
  simp only [Assembled.message_numMessagesInBatch, Assembled.message_payload, hnew, hcollect]
  rw [List.zipIdx_map, List.map_map, List.length_map]
  rfl

end

/-! ## The main result -/

/-- The consumer holds what the producer was given. -/
structure Arrived (m : ProducerMessage) (received : Payload) : Prop where
  payload : received.data = m.payload
  nullValue : received.metadata.nullValue = m.nullValue
  partitionKey : received.metadata.partitionKey = m.partitionKey
  partitionKeyB64Encoded : received.metadata.partitionKeyB64Encoded = m.partitionKeyB64Encoded
  nullPartitionKey : received.metadata.nullPartitionKey = m.nullPartitionKey
  orderingKey : received.metadata.orderingKey = m.orderingKey
  eventTime : received.metadata.eventTime = m.eventTime
  properties : ∀ key, valueOf received.metadata.properties key = m.properties.get? key

theorem arrived_metadataOf (it : BatchedMessageIterator) (m : ProducerMessage) :
    Arrived m { metadata := it.metadataOf m.batched, data := m.payload } where
  payload := rfl
  nullValue := rfl
  partitionKey := rfl
  partitionKeyB64Encoded := rfl
  nullPartitionKey := rfl
  orderingKey := rfl
  eventTime := rfl
  properties := m.properties.valueOf_keyValues

/-- **The batch format end to end.**  However many messages are sent as one batch, the consumer gets
    that many, in their order and with what they were sent with; the position in the batch is the same
    in the id of the consumer and in the receipt of the sender; and no proper prefix of the payload is
    taken for the batch. -/
theorem batch_round_trip (lib : Libraries) (compression : Option Compression)
    (accepted : List (Nat × ProducerMessage)) (flush : Option Nat) (schemaVersion : Option Bytes)
    (sent : ProducerMessage) (id : MessageIdData) (receipt : CommandSendReceipt)
    (producerName : String) (sequenceId publishTime : Nat)
    (hn : accepted.length < 2 ^ 31) (hpayload : ∀ a ∈ accepted, a.2.payload.length < 2 ^ 31)
    (hsize : ∀ a ∈ accepted,
      (lib.encodeSingleMessageMetadata a.2.batched.metadata).length < 2 ^ 32)
    (hprost : ∀ a ∈ accepted, lib.ProstInverts a.2.batched.metadata)
    (hcompression : lib.CompressionInverts compression)
    (hsent : compressMessage lib ((assemble lib (batchOf accepted flush)).message schemaVersion)
      compression = .ok sent) :
    (∃ got, unpack lib.toCodecs id (sent.toPayload producerName sequenceId publishTime) = .ok got ∧
      got.length = accepted.length ∧
      ∀ (i : Nat) a, accepted[i]? = some a →
        (∃ received, Arrived a.2 received ∧ got[i]? = some
          ({ id with batchIndex := some i, batchSize := some accepted.length }, received)) ∧
        ((assemble lib (batchOf accepted flush)).settled receipt)[i]? = some (a.1,
          { receipt with
            messageId := receipt.messageId.map fun msgId =>
              { msgId with batchIndex := some i, batchSize := some accepted.length } })) ∧
    ∀ p q, (assemble lib (batchOf accepted flush)).payload = p ++ q → q ≠ [] →
      ∃ e, parseBatchedMessage lib.toCodecs accepted.length p = .error e := by
  have hfits : ∀ a ∈ accepted, Fits lib a.2.batched := fun a ha =>
    fits_batched (hprost a ha) (hsize a ha) (hpayload a ha)
  constructor
  · obtain ⟨it, -, hunpack⟩ := unpack_batch hfits (by omega) hcompression hsent id producerName
      sequenceId publishTime
    refine ⟨_, hunpack, ?_, ?_⟩
    · rw [List.length_map, List.length_zipIdx]
    · intro i a hi
      have hlt : i < accepted.length := (List.getElem?_eq_some_iff.mp hi).1
      constructor
      · refine ⟨_, arrived_metadataOf it a.2, ?_⟩
        rw [List.getElem?_map, List.getElem?_zipIdx, hi, Nat.zero_add]
        rfl
      · unfold Assembled.settled Assembled.receiptAt
        rw [assemble_batchOf, List.getElem?_map, List.getElem?_zipIdx, List.getElem?_map, hi]
        simp only [Option.map_some, Nat.zero_add, asI32_of_lt hn,
          asI32_of_lt (show i < 2 ^ 31 by omega)]
  · intro p q hcut hq
    have hfits' : ∀ m ∈ accepted.map (fun a => a.2.batched), Fits lib m := by
      intro m hm
      obtain ⟨a, ha, rfl⟩ := List.mem_map.mp hm
      exact hfits a ha
    rw [assemble_batchOf] at hcut
    obtain ⟨e, he⟩ := parse_cut hfits' hcut hq
    rw [List.length_map] at he
    exact ⟨e, he⟩

/-! ## Three messages -/

/-- "hi", with a key and a property. -/
def hi : ProducerMessage :=
  { payload := [0x68, 0x69]
    partitionKey := some "k"
    properties := { entries := [("a", "1")], nodup := by decide } }

/-- A null value, with the binary key 1 2 3. -/
def nothing : ProducerMessage :=
  { nullValue := some true
    partitionKey := some "AQID"
    partitionKeyB64Encoded := some true }

/-- No bytes, with an event time and an ordering key. -/
def empty : ProducerMessage := { eventTime := some 42, orderingKey := some [0x09] }

def hiBytes : Bytes :=
  [0x0A, 0x06, 0x0A, 0x01, 0x61, 0x12, 0x01, 0x31, 0x12, 0x01, 0x6B, 0x18, 0x02]

def nothingBytes : Bytes :=
  [0x12, 0x04, 0x41, 0x51, 0x49, 0x44, 0x18, 0x00, 0x30, 0x01, 0x48, 0x01]

def emptyBytes : Bytes := [0x18, 0x00, 0x28, 0x2A, 0x3A, 0x01, 0x09]

/-- The payload of the three, as they are. -/
def threeBytes : Bytes :=
  [0x00, 0x00, 0x00, 0x0D] ++ hiBytes ++ [0x68, 0x69] ++ [0x00, 0x00, 0x00, 0x0C] ++ nothingBytes ++
    [0x00, 0x00, 0x00, 0x07] ++ emptyBytes

/-- … and after zlib. -/
def threeZlib : Bytes :=
  [0x78, 0x9C, 0x63, 0x60, 0x60, 0xE0, 0xE5, 0x62, 0xE3, 0x62, 0x4C, 0x14, 0x62, 0x34, 0x14, 0x62,
    0xCC, 0x96, 0x60, 0xCA, 0xC8, 0x64, 0x60, 0x60, 0xE0, 0x11, 0x62, 0x71, 0x0C, 0xF4, 0x74, 0x91,
    0x60, 0x30, 0x60, 0xF4, 0x60, 0x04, 0xF2, 0xD9, 0x25, 0x18, 0x34, 0xB4, 0xAC, 0x18, 0x39, 0x01,
    0x6C, 0xF7, 0x04, 0xBF]

/-- The libraries, on the three. -/
def threeLibraries : Libraries where
  base64 bytes := if bytes = [1, 2, 3] then "AQID" else ""
  encodeSingleMessageMetadata m :=
    if m = hi.batched.metadata then hiBytes
    else if m = nothing.batched.metadata then nothingBytes
    else if m = empty.batched.metadata then emptyBytes
    else []
  decodeSingleMessageMetadata bytes :=
    if bytes = hiBytes then some hi.batched.metadata
    else if bytes = nothingBytes then some nothing.batched.metadata
    else if bytes = emptyBytes then some empty.batched.metadata
    else none
  compress compression bytes :=
    if compression = .Zlib 6 ∧ bytes = threeBytes then .ok threeZlib else .error "no data"
  decompress type _ bytes :=
    if type = .Zlib ∧ bytes = threeZlib then .ok threeBytes else .error "no data"

theorem compressionInverts_three : threeLibraries.CompressionInverts (some (.Zlib 6)) := by
  intro payload compressed h
  have hpayload : payload = threeBytes := by
    by_contra hne
    have herror : threeLibraries.compress (.Zlib 6) payload = .error "no data" :=
      if_neg fun hc => hne hc.2
    rw [herror] at h
    simp at h
  rw [hpayload] at h ⊢
  have hcompressed : threeLibraries.compress (.Zlib 6) threeBytes = .ok threeZlib := by
    decide +kernel
  rw [hcompressed] at h
  rw [← Except.ok.inj h]
  decide +kernel

/-- The three in a batch that a flush has ended. -/
def three : List (Nat × ProducerMessage) := [(0, hi), (1, nothing), (2, empty)]

/-- … as it is sent. -/
def threeSent : ProducerMessage :=
  { payload := threeZlib
    compression := some 2
    uncompressedSize := some 46
    numMessagesInBatch := some 3 }

theorem compressMessage_three :
    compressMessage threeLibraries ((assemble threeLibraries (batchOf three (some 3))).message none)
      (some (.Zlib 6)) = .ok threeSent := by
  decide +kernel

/-- The three messages, compressed, at the consumer. -/
theorem batch_round_trip_three : ∃ got,
    unpack threeLibraries.toCodecs { ledgerId := 7, entryId := 1 }
      (threeSent.toPayload "standalone-0-3" 8 1533850624062) = .ok got ∧ got.length = 3 := by
  have hall : ∀ a ∈ three, a.2 = hi ∨ a.2 = nothing ∨ a.2 = empty := by
    simp [three]
  have hpayload : ∀ a ∈ three, a.2.payload.length < 2 ^ 31 := by
    intro a ha
    rcases hall a ha with h | h | h <;> rw [h] <;> decide
  have hsize : ∀ a ∈ three,
      (threeLibraries.encodeSingleMessageMetadata a.2.batched.metadata).length < 2 ^ 32 := by
    intro a ha
    rcases hall a ha with h | h | h <;> rw [h] <;> decide +kernel
  have hprost : ∀ a ∈ three, threeLibraries.ProstInverts a.2.batched.metadata := by
    intro a ha
    unfold Libraries.ProstInverts
    rcases hall a ha with h | h | h <;> rw [h] <;> decide +kernel
  obtain ⟨⟨got, hunpack, hlength, -⟩, -⟩ := batch_round_trip threeLibraries (some (.Zlib 6)) three
    (some 3) none threeSent { ledgerId := 7, entryId := 1 } { producerId := 0, sequenceId := 8 }
    "standalone-0-3" 8 1533850624062 (by decide) hpayload hsize hprost compressionInverts_three
    compressMessage_three
  exact ⟨got, hunpack, hlength⟩

/-! ## The limit of the format -/

/-- A key of `n` letters. -/
def longKey (n : Nat) : ProducerMessage := { partitionKey := some (String.ofList (List.replicate n 'a')) }

/-- Its metadata; the size of the key is that of `2 ^ 32 - 8` letters. -/
def longKeyBytes (n : Nat) : Bytes :=
  [0x12, 0xF8, 0xFF, 0xFF, 0xFF, 0x0F] ++ List.replicate n 0x61 ++ [0x18, 0x00]

/-- `prost` on the long key, and on no bytes, which are a metadata of defaults. -/
def longKeyLibraries (n : Nat) : Libraries where
  base64 _ := ""
  encodeSingleMessageMetadata m :=
    if m = (longKey n).batched.metadata then longKeyBytes n else []
  decodeSingleMessageMetadata bytes :=
    if bytes = [] then some {}
    else if bytes = longKeyBytes n then some (longKey n).batched.metadata
    else none
  compress _ _ := .error "not configured"
  decompress _ _ _ := .error "not configured"

theorem encode_longKey (n : Nat) :
    (longKeyLibraries n).encodeSingleMessageMetadata (longKey n).batched.metadata = longKeyBytes n :=
  if_pos rfl

theorem decode_longKey (n : Nat) (bytes : Bytes) :
    (longKeyLibraries n).decodeSingleMessageMetadata bytes =
      if bytes = [] then some {}
      else if bytes = longKeyBytes n then some (longKey n).batched.metadata
      else none := rfl

theorem prostInverts_longKey (n : Nat) :
    (longKeyLibraries n).ProstInverts (longKey n).batched.metadata := by
  have hne : longKeyBytes n ≠ [] := by simp [longKeyBytes]
  unfold Libraries.ProstInverts
  rw [encode_longKey, decode_longKey, if_neg hne, if_pos rfl]

/-- With metadata of `2 ^ 32` bytes the size in front of it is 0: the consumer reads a message of
    defaults. -/
theorem parse_longKey {n : Nat} (hn : n + 8 = 2 ^ 32) :
    parseBatchedMessage (longKeyLibraries n).toCodecs 1
      (serialize (longKeyLibraries n) (longKey n).batched) = .ok [{ metadata := {}, payload := [] }] := by
  have hlength : (longKeyBytes n).length = 2 ^ 32 := by
    simp only [longKeyBytes, List.length_append, List.length_replicate, List.length_cons,
      List.length_nil]
    omega
  -- the size wraps, so that no metadata seems to follow
  have hserialize : serialize (longKeyLibraries n) (longKey n).batched =
      putU32 0 ++ ([] ++ longKeyBytes n) := by
    have hsize : putU32 (2 ^ 32) = putU32 0 := by decide
    unfold serialize
    rw [encode_longKey, hlength, hsize, List.nil_append]
    show putU32 0 ++ (longKeyBytes n ++ []) = _
    rw [List.append_nil]
  have hempty : (longKeyLibraries n).decodeSingleMessageMetadata [] = some {} := by
    rw [decode_longKey, if_pos rfl]
  have hfirst : batchedMessage (longKeyLibraries n).toCodecs
      (serialize (longKeyLibraries n) (longKey n).batched) =
        some ({ metadata := {}, payload := [] }, longKeyBytes n) :=
    batchedMessage_eq hserialize (by decide) rfl hempty (by decide)
  unfold parseBatchedMessage
  rw [batchedMessages_eq_count, Records.count_cons hfirst]
  rfl

/-- The messages of a batch do not always arrive: a key of `2 ^ 32 - 8` letters is lost. -/
theorem long_key_is_lost :
    ¬ ∀ (lib : Libraries) (compression : Option Compression)
      (accepted : List (Nat × ProducerMessage)) (flush : Option Nat) (schemaVersion : Option Bytes)
      (sent : ProducerMessage) (id : MessageIdData) (producerName : String)
      (sequenceId publishTime : Nat),
      accepted ≠ [] → accepted.length < 2 ^ 31 → (∀ a ∈ accepted, a.2.payload.length < 2 ^ 31) →
      (∀ a ∈ accepted, lib.ProstInverts a.2.batched.metadata) →
      lib.CompressionInverts compression →
      compressMessage lib ((assemble lib (batchOf accepted flush)).message schemaVersion)
        compression = .ok sent →
      ∃ got, unpack lib.toCodecs id (sent.toPayload producerName sequenceId publishTime) = .ok got ∧
        ∀ (i : Nat) a, accepted[i]? = some a →
          ∃ received, Arrived a.2 received ∧ got[i]? = some
            ({ id with batchIndex := some i, batchSize := some accepted.length }, received) := by
  intro hall
  obtain ⟨n, hn⟩ : ∃ n, n + 8 = 2 ^ 32 := ⟨4294967288, by decide⟩
  have hpayload : ([(0, longKey n)].map fun a => a.2.batched).flatMap
      (serialize (longKeyLibraries n)) = serialize (longKeyLibraries n) (longKey n).batched :=
    List.append_nil _
  have hone : ∀ a ∈ [(0, longKey n)], a.2 = longKey n := by simp
  obtain ⟨got, hgot, hitems⟩ := hall (longKeyLibraries n) none [(0, longKey n)] none none _
    { ledgerId := 7, entryId := 1 } "standalone-0-3" 8 1533850624062 (by simp) (by simp)
    (fun a ha => by rw [hone a ha]; exact Nat.two_pow_pos 31)
    (fun a ha => by rw [hone a ha]; exact prostInverts_longKey n) trivial rfl
  obtain ⟨received, harrived, hreceived⟩ := hitems 0 _ rfl
  have hplain : (longKeyLibraries n).CompressionInverts none := trivial
  rw [unpack_toPayload hplain rfl rfl] at hgot
  have hcount : (asI32 1 % 2 ^ 32).toNat = 1 := by decide
  simp only [Assembled.message_numMessagesInBatch, Assembled.message_payload, assemble_batchOf,
    hpayload, BatchedMessageIterator.new, List.length_singleton, hcount, parse_longKey hn] at hgot
  rw [← Except.ok.inj hgot] at hreceived
  -- the consumer's message has no key
  have hkey : received.metadata.partitionKey = none := by
    rw [← (Prod.mk.inj (Option.some.inj hreceived)).2]
    rfl
  rw [harrived.partitionKey] at hkey
  exact absurd hkey (Option.some_ne_none _)

end PulsarClient.Batching
