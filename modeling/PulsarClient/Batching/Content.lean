/-
  WHAT A MESSAGE SAYS, by either way of `send_raw`.

  `send_raw` builds an entry of its own (`messages::send`), or a message of a batch that travels inside
  the envelope of `message_send_loop`.  `contentOf` is what the broker and the consumer read in the end;
  the schema version is excepted by a comment of the source.

  1. `contents_of_batch`, `content_of_direct` — what arrives by either way, down to the bytes.

  2. `content_of_batched_iff` — the two say the same exactly for a message that neither sets
     `deliver_at_time` nor `replicate_to`: a `SingleMessageMetadata` has no field for them, and the
     envelope leaves both at their defaults.
-/
import PulsarClient.Batching.Format
import PulsarClient.Batching.Message

namespace PulsarClient.Batching

open Proto Consumer

/-- What a message says, apart from its schema version. -/
structure Content where
  payload : Bytes
  nullValue : Option Bool
  partitionKey : Option String
  partitionKeyB64Encoded : Option Bool
  nullPartitionKey : Option Bool
  orderingKey : Option Bytes
  properties : List KeyValue
  eventTime : Option Nat
  deliverAtTime : Option Int
  replicateTo : List String
  deriving DecidableEq, Repr

def contentOf (received : Payload) : Content where
  payload := received.data
  nullValue := received.metadata.nullValue
  partitionKey := received.metadata.partitionKey
  partitionKeyB64Encoded := received.metadata.partitionKeyB64Encoded
  nullPartitionKey := received.metadata.nullPartitionKey
  orderingKey := received.metadata.orderingKey
  properties := received.metadata.properties
  eventTime := received.metadata.eventTime
  deliverAtTime := received.metadata.deliverAtTime
  replicateTo := received.metadata.replicateTo

/-- What `send_raw` of a producer that does not batch hands to `compress_message`. -/
def direct (lib : Libraries) (schemaVersion : Option Bytes) (m : Message) : ProducerMessage :=
  { m.into lib with schemaVersion := m.schemaVersion <|> schemaVersion }

/-- The content of a message in an entry of its own. -/
def directContent (lib : Libraries) (schemaVersion : Option Bytes) (m : Message)
    (producerName : String) (sequenceId publishTime : Nat) : Content :=
  contentOf ((direct lib schemaVersion m).toPayload producerName sequenceId publishTime)

/-- The content of a message in a batch: its own fields over those of the envelope. -/
def batchedContent (lib : Libraries) (a : Assembled) (schemaVersion : Option Bytes) (m : Message)
    (producerName : String) (sequenceId publishTime : Nat) : Content :=
  let it : BatchedMessageIterator :=
    { messages := []
      messageId := { ledgerId := 0, entryId := 0 }
      metadata := ((a.message schemaVersion).toPayload producerName sequenceId publishTime).metadata
      totalMessages := a.counter
      currentIndex := 0 }
  contentOf
    { metadata := it.metadataOf (m.into lib).batched, data := (m.into lib).batched.payload }

section

variable {lib : Libraries} {compression : Option Compression} {schemaVersion : Option Bytes}
  {producerName : String} {sequenceId publishTime : Nat}

/-! ## What arrives -/

/-- Compression changes nothing of what the iterator takes from the envelope. -/
theorem contentOf_metadataOf {it it' : BatchedMessageIterator} {message sent : ProducerMessage}
    (hlib : lib.CompressionInverts compression)
    (h : compressMessage lib message compression = .ok sent)
    (hit : it.metadata = (sent.toPayload producerName sequenceId publishTime).metadata)
    (hit' : it'.metadata = (message.toPayload producerName sequenceId publishTime).metadata)
    (m : BatchedMessage) :
    contentOf { metadata := it.metadataOf m, data := m.payload } =
      contentOf { metadata := it'.metadataOf m, data := m.payload } := by
  rcases compressMessage_ok hlib h with rfl | ⟨type, payload, -, -, rfl⟩ <;>
    simp only [contentOf, BatchedMessageIterator.metadataOf, hit, hit', ProducerMessage.toPayload]

/-- A batch that is read back delivers the batched contents. -/
theorem contents_of_batch {accepted : List (Nat × Message)} {flush : Option Nat}
    {sent : ProducerMessage} (hfits : ∀ a ∈ accepted, Fits lib (a.2.into lib).batched)
    (hn : accepted.length < 2 ^ 32) (hlib : lib.CompressionInverts compression) (id : MessageIdData)
    (hsent : compressMessage lib ((assemble lib
      (batchOf (accepted.map fun a => (a.1, a.2.into lib)) flush)).message schemaVersion) compression =
        .ok sent) :
    ∃ got, unpack lib.toCodecs id (sent.toPayload producerName sequenceId publishTime) = .ok got ∧
      (got.map fun g => contentOf g.2) = accepted.map fun a =>
        batchedContent lib (assemble lib (batchOf (accepted.map fun a => (a.1, a.2.into lib)) flush))
          schemaVersion a.2 producerName sequenceId publishTime := by
  have hfits' : ∀ a ∈ accepted.map (fun a => (a.1, a.2.into lib)), Fits lib a.2.batched := by
    intro a ha
    obtain ⟨a', ha', rfl⟩ := List.mem_map.mp ha
    exact hfits a' ha'
  have hn' : (accepted.map fun a => (a.1, a.2.into lib)).length < 2 ^ 32 := by
    rw [List.length_map]
    exact hn
  obtain ⟨it, hit, hunpack⟩ := unpack_batch hfits' hn' hlib hsent id producerName sequenceId
    publishTime
  refine ⟨_, hunpack, ?_⟩
  rw [List.map_map, List.zipIdx_map, List.map_map]
  -- the content does not depend on the position
  have hzip : ∀ f : Message → Content,
      (accepted.zipIdx.map fun a => f a.1.2) = accepted.map fun a => f a.2 := by
    intro f
    conv_rhs => rw [← List.zipIdx_map_fst 0 accepted, List.map_map]
    rfl
  rw [← hzip fun m => batchedContent lib
    (assemble lib (batchOf (accepted.map fun a => (a.1, a.2.into lib)) flush)) schemaVersion m
    producerName sequenceId publishTime]
  apply List.map_congr_left
  intro a _
  exact contentOf_metadataOf hlib hsent hit rfl _

/-- An entry that is read back delivers the direct content. -/
theorem content_of_direct {m : Message} {sent : ProducerMessage}
    (hlib : lib.CompressionInverts compression) (id : MessageIdData)
    (hsent : compressMessage lib (direct lib schemaVersion m) compression = .ok sent) :
    ∃ received, unpack lib.toCodecs id (sent.toPayload producerName sequenceId publishTime) =
        .ok [(id, received)] ∧
      contentOf received = directContent lib schemaVersion m producerName sequenceId publishTime := by
  refine ⟨_, unpack_toPayload hlib rfl hsent id producerName sequenceId publishTime, ?_⟩
  rcases compressMessage_ok hlib hsent with rfl | ⟨type, payload, -, -, rfl⟩ <;> rfl

/-! ## The main result -/

/-- **Batching keeps the content of a message exactly when it sets neither `deliver_at_time` nor
    `replicate_to`**, whatever batch it is in. -/
theorem content_of_batched_iff (lib : Libraries) (a : Assembled) (schemaVersion : Option Bytes)
    (m : Message) (producerName : String) (sequenceId publishTime : Nat) :
    batchedContent lib a schemaVersion m producerName sequenceId publishTime =
        directContent lib schemaVersion m producerName sequenceId publishTime ↔
      m.deliverAtTime = none ∧ m.replicateTo = [] := by
  have hbatched : batchedContent lib a schemaVersion m producerName sequenceId publishTime =
      { directContent lib schemaVersion m producerName sequenceId publishTime with
        deliverAtTime := none
        replicateTo := [] } := rfl
  have hdirect : directContent lib schemaVersion m producerName sequenceId publishTime =
      { directContent lib schemaVersion m producerName sequenceId publishTime with
        deliverAtTime := m.deliverAtTime
        replicateTo := m.replicateTo } := rfl
  rw [hbatched]
  constructor
  · intro h
    have htime := congrArg Content.deliverAtTime h
    have hreplicate := congrArg Content.replicateTo h
    exact ⟨htime.symm, hreplicate.symm⟩
  · rintro ⟨htime, hreplicate⟩
    rw [hdirect, htime, hreplicate]

end

/-- "hi", not before the first second of 2030. -/
def delayed : Message :=
  { payload := some [0x68, 0x69]
    partitionKey := some (.Text "k")
    properties := hi.properties
    deliverAtTime := some 1893456000000 }

/-- In a batch it is delivered at once. -/
theorem delivery_time_is_lost : ∃ got received,
    unpack threeLibraries.toCodecs { ledgerId := 7, entryId := 1 }
      (((assemble threeLibraries (batchOf [(0, delayed.into threeLibraries)] none)).message
        none).toPayload "standalone-0-3" 8 1533850624062) = .ok [got] ∧
    unpack threeLibraries.toCodecs { ledgerId := 7, entryId := 1 }
      ((direct threeLibraries none delayed).toPayload "standalone-0-3" 8 1533850624062) =
        .ok [received] ∧
    (contentOf got.2).deliverAtTime = none ∧
    (contentOf received.2).deliverAtTime = some 1893456000000 := by
  refine ⟨({ ledgerId := 7, entryId := 1, batchIndex := some 0, batchSize := some 1 },
    { metadata :=
        { producerName := "standalone-0-3"
          sequenceId := 8
          publishTime := 1533850624062
          numMessagesInBatch := some 1
          properties := [{ key := "a", value := "1" }]
          partitionKey := some "k" }
      data := [0x68, 0x69] }), _, ?_, rfl, rfl, rfl⟩
  decide +kernel

end PulsarClient.Batching
