/-
  IN TRANSIT — a message on its way from one application to another.

    application -> Entry -> compress_message, messages::send -> Codec::encode -> bytes
      -> (broker) -> bytes -> Codec::decode -> process_payload -> application

  Each part has been looked at by itself: batches (`Batching.Format`), frames (`Codec`), the engine
  (`Consumer.Handout`).  Here they are put together, the broker being somebody who reads entries and
  passes them on as they are.

  1. `unpack_entry` — an entry is taken apart into what it says, whatever it was compressed with.

  2. `reads_what_was_sent` — what the application reads is, in order, what was sent; all of it, if the
     consumer is a plain one.  Neither the cuts of the streams nor the compression shows, and the batches
     only in what they cannot say.

  3. `batched_reads_in_order` — the same for the runs of a batching producer: what is read is out of what
     `send_raw` has queued, in its order.

  4. `receipt_names_message` — and the message id of a receipt is the one under which the consumer reads
     that very message.
-/
import Mathlib.Data.List.Forall2
import PulsarClient.Batching.Content
import PulsarClient.Batching.Settlement
import PulsarClient.Consumer.Handout

namespace PulsarClient.Transit

open Runs Proto Batching Consumer

/-! ## What is sent -/

/-- What `send_raw`, or `message_send_loop`, sends as one entry. -/
inductive Entry where
  | Single (m : Batching.Message)
  | Batch (items : List BatchItem)

def message? : BatchItem → Option BatchedMessage
  | .SingleMessage _ m => some m
  | .Flush _ => none

/-- The messages among the items of a batch. -/
def messagesOf (items : List BatchItem) : List BatchedMessage := items.filterMap message?

/-- What a message of a batch says.  The batch has no field for the time of its delivery, or for clusters:
    what the application has said of these is lost before anything is sent (`content_of_batched_iff`), and
    a message keeps all it says if that is nothing (`saidInBatch_batched`). -/
def saidInBatch (m : BatchedMessage) : Content where
  payload := m.payload
  nullValue := m.metadata.nullValue
  partitionKey := m.metadata.partitionKey
  partitionKeyB64Encoded := m.metadata.partitionKeyB64Encoded
  nullPartitionKey := m.metadata.nullPartitionKey
  orderingKey := m.metadata.orderingKey
  properties := m.metadata.properties
  eventTime := m.metadata.eventTime
  deliverAtTime := none
  replicateTo := []

section

variable (lib : Libraries)

/-- What a message says. -/
def said (m : Batching.Message) : Content where
  payload := (m.into lib).payload
  nullValue := (m.into lib).nullValue
  partitionKey := (m.into lib).partitionKey
  partitionKeyB64Encoded := (m.into lib).partitionKeyB64Encoded
  nullPartitionKey := (m.into lib).nullPartitionKey
  orderingKey := (m.into lib).orderingKey
  properties := (m.into lib).properties.keyValues
  eventTime := (m.into lib).eventTime
  deliverAtTime := (m.into lib).deliverAtTime
  replicateTo := (m.into lib).replicateTo

def Entry.said : Entry → List Content
  | Single m => [Transit.said lib m]
  | Batch items => (messagesOf items).map saidInBatch

/-- What `compress_message` gets. -/
def Entry.message (schemaVersion : Option Bytes) : Entry → ProducerMessage
  | Single m => direct lib schemaVersion m
  | Batch items => (assemble lib items).message schemaVersion

/-- What a batch needs to be read back: a `Flush` at the end at most, and sizes within their fields. -/
def Entry.Ready : Entry → Prop
  | Single _ => True
  | Batch items => (∀ item ∈ items.dropLast, item.flush? = none) ∧ items.length < 2 ^ 32 ∧
      ∀ m ∈ messagesOf items, Fits lib m

end

/-- The numbers and the time of an entry. -/
structure Stamp where
  sequenceId : Nat
  publishTime : Nat
  schemaVersion : Option Bytes := none

/-- What is the same for all the entries of a producer. -/
structure Sender where
  producerId : Nat
  producerName : String
  compression : Option Compression := none

/-- `compress_message`, and `messages::send` -/
def Sender.send (lib : Libraries) (p : Sender) (stamp : Stamp) (e : Entry) :
    Except ProducerError PulsarClient.Message :=
  (compressMessage lib (e.message lib stamp.schemaVersion) p.compression).map fun message =>
    Messages.send p.producerId stamp.sequenceId message.numMessagesInBatch
      (message.toPayload p.producerName stamp.sequenceId stamp.publishTime)

/-! ## One entry -/

section

variable {lib : Libraries} {p : Sender} {stamp : Stamp} {e : Entry} {m : PulsarClient.Message}

/-- A batch says what its messages say if these set neither a time of delivery nor clusters. -/
theorem saidInBatch_batched (m : Batching.Message) (htime : m.deliverAtTime = none)
    (hreplicate : m.replicateTo = []) : saidInBatch (m.into lib).batched = said lib m := by
  have hsaid : said lib m = { saidInBatch (m.into lib).batched with
      deliverAtTime := m.deliverAtTime
      replicateTo := m.replicateTo } := rfl
  rw [hsaid, htime, hreplicate]
  rfl

theorem messagesOf_of_no_flush {items : List BatchItem} (h : ∀ item ∈ items, item.flush? = none) :
    items.length = (messagesOf items).length ∧
      items.flatMap (BatchItem.serialized lib) = (messagesOf items).flatMap (serialize lib) := by
  induction items with
  | nil => exact ⟨rfl, rfl⟩
  | cons item items ih =>
    obtain ⟨hlength, hpayload⟩ := ih fun i hi => h i (List.mem_cons_of_mem item hi)
    cases item with
    | SingleMessage tx m =>
      constructor
      · show items.length + 1 = (m :: messagesOf items).length
        rw [hlength, List.length_cons]
      · show serialize lib m ++ items.flatMap _ = serialize lib m ++ (messagesOf items).flatMap _
        rw [hpayload]
    | Flush tx => exact absurd (h _ List.mem_cons_self) (Option.some_ne_none tx)

/-- What is made of a batch: its messages are serialised and counted, and its `Flush` is not. -/
theorem assemble_items {items : List BatchItem} (h : ∀ item ∈ items.dropLast, item.flush? = none) :
    (assemble lib items).counter = (messagesOf items).length ∧
      (assemble lib items).payload = (messagesOf items).flatMap (serialize lib) := by
  unfold assemble
  rcases List.eq_nil_or_concat items with rfl | ⟨front, last, rfl⟩
  · exact ⟨rfl, rfl⟩
  · rw [List.concat_eq_append] at h ⊢
    rw [List.dropLast_concat] at h
    rw [List.getLast?_concat]
    cases last with
    | SingleMessage tx m =>
      refine messagesOf_of_no_flush fun item hitem => ?_
      rcases List.mem_append.mp hitem with hitem | hitem
      · exact h item hitem
      · exact List.mem_singleton.mp hitem ▸ rfl
    | Flush tx =>
      have hmessages : messagesOf (front ++ [.Flush tx]) = messagesOf front := by
        unfold messagesOf
        rw [List.filterMap_append]
        exact List.append_nil _
      rw [hmessages]
      show ((front ++ [BatchItem.Flush tx]).dropLast).length = _ ∧
        ((front ++ [BatchItem.Flush tx]).dropLast).flatMap _ = _
      rw [List.dropLast_concat]
      exact messagesOf_of_no_flush h

theorem length_messagesOf_le (items : List BatchItem) : (messagesOf items).length ≤ items.length :=
  List.length_filterMap_le message? items

/-- **A batch is taken apart** into its messages, each with its position. -/
theorem unpack_items {items : List BatchItem} {compression : Option Compression}
    {schemaVersion : Option Bytes} {sent : ProducerMessage} (hready : (Entry.Batch items).Ready lib)
    (hlib : lib.CompressionInverts compression)
    (hsent : compressMessage lib ((assemble lib items).message schemaVersion) compression = .ok sent)
    (id : MessageIdData) (producerName : String) (sequenceId publishTime : Nat) :
    ∃ got, unpack lib.toCodecs id (sent.toPayload producerName sequenceId publishTime) = .ok got ∧
      got.map (fun g => contentOf g.2) = (messagesOf items).map saidInBatch ∧
      ∀ i < got.length, (got[i]?).map Prod.fst =
        some { id with batchIndex := some i, batchSize := some (messagesOf items).length } := by
  obtain ⟨hflush, hlength, hfits⟩ := hready
  obtain ⟨hcounter, hpayload⟩ := @assemble_items lib items hflush
  have hcount : (asI32 (messagesOf items).length % 2 ^ 32).toNat = (messagesOf items).length :=
    asI32_emod (Nat.lt_of_le_of_lt (length_messagesOf_le items) hlength)
  obtain ⟨it, hnew, hcollect, hmetadata⟩ := unpack_serialized hfits hcount id
    (sent.toPayload producerName sequenceId publishTime).metadata
  refine ⟨it.collect, ?_, ?_, ?_⟩
  · rw [unpack_toPayload hlib rfl hsent id producerName sequenceId publishTime]
    simp only [Assembled.message_numMessagesInBatch, Assembled.message_payload, hcounter, hpayload,
      hnew]
  · -- the envelope says nothing that a message of the batch does not say itself
    have henvelope : it.metadata.deliverAtTime = none ∧ it.metadata.replicateTo = [] := by
      rw [hmetadata]
      rcases compressMessage_ok hlib hsent with rfl | ⟨type, payload, -, -, rfl⟩ <;> exact ⟨rfl, rfl⟩
    rw [hcollect, List.map_map]
    have hone : ∀ m : BatchedMessage,
        contentOf { metadata := it.metadataOf m, data := m.payload } = saidInBatch m := by
      intro m
      unfold contentOf BatchedMessageIterator.metadataOf saidInBatch
      simp only [henvelope.1, henvelope.2]
    conv_rhs => rw [← List.zipIdx_map_fst 0 (messagesOf items), List.map_map]
    exact List.map_congr_left fun m _ => hone m.1
  · intro i hi
    rw [hcollect, List.length_map, List.length_zipIdx] at hi
    rw [hcollect, List.getElem?_map, List.getElem?_zipIdx, List.getElem?_eq_getElem hi, Nat.zero_add]
    rfl

/-- **The entry lemma**: whatever entry it is, the consumer takes it apart into what it says. -/
theorem unpack_entry (hready : e.Ready lib) (hlib : lib.CompressionInverts p.compression)
    (hsent : p.send lib stamp e = .ok m) :
    ∃ payload, m.payload = some payload ∧ m.command.send.isSome = true ∧
      ∀ id, ∃ got, unpack lib.toCodecs id payload = .ok got ∧
        got.map (fun g => contentOf g.2) = e.said lib := by
  unfold Sender.send at hsent
  cases hcompress : compressMessage lib (e.message lib stamp.schemaVersion) p.compression with
  | error err =>
    rw [hcompress] at hsent
    cases hsent
  | ok sent =>
    rw [hcompress] at hsent
    obtain rfl := Except.ok.inj hsent
    refine ⟨_, rfl, rfl, fun id => ?_⟩
    cases e with
    | Single message =>
      obtain ⟨received, hunpack, hcontent⟩ := @content_of_direct lib p.compression stamp.schemaVersion
        p.producerName stamp.sequenceId stamp.publishTime message sent hlib id hcompress
      refine ⟨_, hunpack, ?_⟩
      show [contentOf received] = [said lib message]
      rw [hcontent]
      rfl
    | Batch items =>
      obtain ⟨got, hunpack, hcontent, -⟩ := unpack_items hready hlib hcompress id p.producerName
        stamp.sequenceId stamp.publishTime
      exact ⟨got, hunpack, hcontent⟩

end

/-! ## The broker -/

/-- The entries among what a broker reads. -/
def entriesOf (frames : List PulsarClient.Message) : List Payload :=
  frames.filterMap fun m => m.command.send.bind fun _ => m.payload

/-- An entry on its way to a consumer, as it is. -/
def relay (e : CommandMessage × Payload) : PulsarClient.Message :=
  { command := { message := some e.1 }, payload := some e.2 }

/-- What a consumer hears of an entry, whatever its id. -/
def heard (codecs : Codecs) (payload : Payload) : List Content :=
  (itemsOf codecs (relay ({ consumerId := 0, messageId := { ledgerId := 0, entryId := 0 } }, payload))).map
    fun g => contentOf g.2

/-- The frames that the forwarder puts into the queue of the engine. -/
def forwarded : Consumer.Action → List PulsarClient.Message
  | .arrive (some m) => [m]
  | _ => []

section

variable {lib : Libraries} {p : Sender} {entries : List (Stamp × Entry)}
  {frames : List PulsarClient.Message}

theorem itemsOf_relay {codecs : Codecs} {e : CommandMessage × Payload}
    {got : List (MessageIdData × Payload)} (h : unpack codecs e.1.messageId e.2 = .ok got) :
    itemsOf codecs (relay e) = got :=
  itemsOf_entry rfl rfl rfl rfl h

/-- The broker reads one entry for each that is sent, and a consumer hears of it what it says. -/
theorem entriesOf_sent (hready : ∀ e ∈ entries, e.2.Ready lib)
    (hlib : lib.CompressionInverts p.compression)
    (hsent : List.Forall₂ (fun e m => p.send lib e.1 e.2 = .ok m) entries frames) :
    List.Forall₂ (fun e payload => ∀ message : CommandMessage,
      (itemsOf lib.toCodecs (relay (message, payload))).map (fun g => contentOf g.2) = e.2.said lib)
      entries (entriesOf frames) := by
  induction hsent with
  | nil => exact .nil
  | @cons e m es ms hone _ ih =>
    have hes : ∀ e ∈ es, e.2.Ready lib := fun e' he' => hready e' (List.mem_cons_of_mem e he')
    obtain ⟨payload, hpayload, hsend, hunpack⟩ := unpack_entry (hready e List.mem_cons_self) hlib hone
    have hhead : entriesOf (m :: ms) = payload :: entriesOf ms := by
      unfold entriesOf
      obtain ⟨send, hsend⟩ := Option.isSome_iff_exists.mp hsend
      rw [List.filterMap_cons_some]
      rw [hsend, hpayload]
      rfl
    rw [hhead]
    refine .cons (fun message => ?_) (ih hes)
    obtain ⟨got, hgot, hsaid⟩ := hunpack message.messageId
    rw [itemsOf_relay hgot, hsaid]

/-- What the consumers hear of the entries of a topic, is what was said. -/
theorem heard_sent (hready : ∀ e ∈ entries, e.2.Ready lib)
    (hlib : lib.CompressionInverts p.compression)
    (hsent : List.Forall₂ (fun e m => p.send lib e.1 e.2 = .ok m) entries frames) :
    (entriesOf frames).map (heard lib.toCodecs) = entries.map (fun e => e.2.said lib) ∧
      ∀ payload ∈ entriesOf frames, ∀ message : CommandMessage,
        (itemsOf lib.toCodecs (relay (message, payload))).map (fun g => contentOf g.2) =
          heard lib.toCodecs payload := by
  have hall := entriesOf_sent hready hlib hsent
  generalize entriesOf frames = payloads at hall
  clear hsent
  induction hall with
  | nil => exact ⟨rfl, fun _ h => absurd h List.not_mem_nil⟩
  | @cons e payload es payloads hone _ ih =>
    obtain ⟨hmap, hid⟩ := ih fun e he => hready e (List.mem_cons_of_mem _ he)
    constructor
    · rw [List.map_cons, List.map_cons, hmap]
      exact congrArg (· :: _) (hone _)
    · intro payload' hmem message
      rcases List.mem_cons.mp hmem with rfl | hmem
      · exact (hone message).trans (hone _).symm
      · exact hid payload' hmem message

end

/-! ## From end to end -/

theorem feed_encoded {w : Wire} {ms : List PulsarClient.Message} {chunks : List Bytes}
    (hwire : ∀ m ∈ ms, w.Inverts m ∧ (w.encode m).length < 2 ^ 32)
    (hcut : chunks.flatten = ms.flatMap w.encode) : w.codec.feed [] chunks = (ms, [], none) := by
  have hframed : ∀ m ∈ ms, Framing.Framed w.codec w.encode m :=
    fun m hm => framed_encode (hwire m hm).1 (hwire m hm).2
  exact Framing.feed_flatten rfl hframed hcut

/-- What has come in with the first entries that are passed on. -/
theorem arrived_relayed {c : Config} {as : List Consumer.Action} {s t : Consumer.State}
    {relayed : List (CommandMessage × Payload)} (hexec : (consumer c).exec s as = some t)
    (hheard : ∀ e ∈ relayed, (itemsOf c.codecs (relay e)).map (fun g => contentOf g.2) =
      heard c.codecs e.2)
    (hforwarded : as.flatMap forwarded <+: relayed.map relay) :
    ((consumer c).outputs (fun _ a => brings c a) s as).map (fun g => contentOf g.2) =
      (((relayed.map Prod.snd).take (as.flatMap forwarded).length).flatMap (heard c.codecs)) := by
  have hbrings : ∀ a : Consumer.Action, brings c a = (forwarded a).flatMap (itemsOf c.codecs) := by
    intro a
    cases a with
    | arrive m =>
      cases m with
      | none => rfl
      | some m => exact (List.append_nil _).symm
    | _ => rfl
  have hfront : as.flatMap forwarded = (relayed.take (as.flatMap forwarded).length).map relay := by
    rw [List.map_take]
    exact List.prefix_iff_eq_take.mp hforwarded
  rw [Sys.outputs_eq_flatMap _ hexec, funext hbrings, ← List.flatMap_assoc, ← List.map_take]
  generalize (as.flatMap forwarded).length = k at hfront ⊢
  rw [hfront, List.map_flatMap, List.flatMap_map, List.flatMap_map]
  exact List.flatMap_congr fun e he => hheard e (List.mem_of_mem_take he)

/-- **The pipe from end to end**, between the streams of bytes. -/
theorem reads_relayed {lib : Libraries} {p : Sender} {entries : List (Stamp × Entry)}
    {frames : List PulsarClient.Message} {relayed : List (CommandMessage × Payload)} {c : Config}
    {as : List Consumer.Action} {s : Consumer.State} (hlib : lib.CompressionInverts p.compression)
    (hready : ∀ e ∈ entries, e.2.Ready lib)
    (hsent : List.Forall₂ (fun e m => p.send lib e.1 e.2 = .ok m) entries frames)
    (hrelayed : (relayed.map Prod.snd).Sublist (entriesOf frames)) (hcodecs : c.codecs = lib.toCodecs)
    (hexec : (consumer c).exec { remainingMessages := c.batchSize } as = some s)
    (hforwarded : as.flatMap forwarded <+: relayed.map relay) :
    (((consumer c).outputs reads { remainingMessages := c.batchSize } as).map
        fun g => contentOf g.2).Sublist (entries.flatMap fun e => e.2.said lib) ∧
    (c.Plain → .dropConsumer ∉ as → relayed.map Prod.snd = entriesOf frames →
      (((consumer c).outputs reads { remainingMessages := c.batchSize } as ++ s.toRead c).map
          fun g => contentOf g.2) =
        (entries.take (as.flatMap forwarded).length).flatMap fun e => e.2.said lib) := by
  obtain ⟨hsaid, hheard⟩ := heard_sent hready hlib hsent
  have hheard' : ∀ e ∈ relayed, (itemsOf c.codecs (relay e)).map (fun g => contentOf g.2) =
      heard c.codecs e.2 := by
    intro e he
    rw [hcodecs]
    exact hheard e.2 (hrelayed.subset (List.mem_map_of_mem he)) e.1
  have harrived := arrived_relayed hexec hheard' hforwarded
  rw [hcodecs] at harrived
  have hnothing : Consumer.State.toRead c { remainingMessages := c.batchSize } = [] := rfl
  constructor
  · have hsub := (reads_sublist hexec).map fun g => contentOf g.2
    rw [hnothing, List.nil_append, harrived, List.map_append] at hsub
    have hall : (entriesOf frames).flatMap (heard lib.toCodecs) =
        entries.flatMap fun e => e.2.said lib := by
      rw [List.flatMap_def, List.flatMap_def, hsaid]
    rw [← hall]
    exact (List.sublist_append_left _ _).trans
      (hsub.trans (((List.take_sublist _ _).trans hrelayed).flatMap _))
  · intro hplain hdrop heverything
    have hfront : ∀ k, ((entriesOf frames).take k).flatMap (heard lib.toCodecs) =
        (entries.take k).flatMap fun e => e.2.said lib := by
      intro k
      rw [List.flatMap_def, List.flatMap_def, List.map_take, List.map_take, hsaid]
    rw [reads_conserved hplain ⟨rfl, fun _ _ _ => Pc.noConfusion⟩ hdrop hexec, hnothing,
      List.nil_append, harrived, heverything, hfront]

/-- **What the application reads is what was sent.**  Let entries be sent, their frames be written to a
    connection and reach the broker in whatever pieces; let the broker pass on entries of these, in order,
    and their frames reach the consumer in whatever pieces.  Then, at any time of any run of the consumer,
    the application has read messages that were sent, in their order, and each says what its entry says
    of it.  And a plain consumer to which all the entries are passed on misses none: what it has read
    and what it is about to read is what the entries say that have come in. -/
theorem reads_what_was_sent (w : Wire) (lib : Libraries) (p : Sender)
    (entries : List (Stamp × Entry)) (frames : List PulsarClient.Message)
    (outbound inbound : List Bytes) (relayed : List (CommandMessage × Payload)) (c : Config)
    (as : List Consumer.Action) (s : Consumer.State)
    (hlib : lib.CompressionInverts p.compression) (hready : ∀ e ∈ entries, e.2.Ready lib)
    (hsent : List.Forall₂ (fun e m => p.send lib e.1 e.2 = .ok m) entries frames)
    (hwire : ∀ m ∈ frames ++ relayed.map relay, w.Inverts m ∧ (w.encode m).length < 2 ^ 32)
    (hout : outbound.flatten = frames.flatMap w.encode)
    (hrelayed : (relayed.map Prod.snd).Sublist (entriesOf (w.codec.feed [] outbound).1))
    (hin : inbound.flatten = (relayed.map relay).flatMap w.encode)
    (hcodecs : c.codecs = lib.toCodecs)
    (hexec : (consumer c).exec { remainingMessages := c.batchSize } as = some s)
    (hforwarded : as.flatMap forwarded <+: (w.codec.feed [] inbound).1) :
    (((consumer c).outputs reads { remainingMessages := c.batchSize } as).map
        fun g => contentOf g.2).Sublist (entries.flatMap fun e => e.2.said lib) ∧
    (c.Plain → .dropConsumer ∉ as →
      relayed.map Prod.snd = entriesOf (w.codec.feed [] outbound).1 →
      (((consumer c).outputs reads { remainingMessages := c.batchSize } as ++ s.toRead c).map
          fun g => contentOf g.2) =
        (entries.take (as.flatMap forwarded).length).flatMap fun e => e.2.said lib) := by
  rw [feed_encoded (fun m hm => hwire m (List.mem_append_left _ hm)) hout] at hrelayed ⊢
  rw [feed_encoded (fun m hm => hwire m (List.mem_append_right _ hm)) hin] at hforwarded
  exact reads_relayed hlib hready hsent hrelayed hcodecs hexec hforwarded

/-! ## A message, and a batch, on their way -/

/-- "hello-pulsar-8" -/
def hello : Batching.Message := { payload := some sampleData }

/-- "hi" and an event, in a batch that a `Flush` ends. -/
def helloBatch : List BatchItem :=
  [.SingleMessage 0 Batching.hi.batched, .SingleMessage 1 Batching.empty.batched, .Flush 2]

def batchData : Bytes :=
  [0x00, 0x00, 0x00, 0x0D] ++ hiBytes ++ [0x68, 0x69] ++ [0x00, 0x00, 0x00, 0x07] ++ emptyBytes

def helloSender : Sender := { producerId := 0, producerName := "standalone-0-3" }

def helloStamp : Stamp := { sequenceId := 8, publishTime := 1533850624062 }

def batchCommand : BaseCommand :=
  { send := some { producerId := 0, sequenceId := 8, numMessages := some 2 } }

def batchMetadata : MessageMetadata := { sampleMetadata with numMessagesInBatch := some 2 }

def batchFrame : PulsarClient.Message :=
  { command := batchCommand, payload := some { metadata := batchMetadata, data := batchData } }

/-- `Message`, of entry 7:1, to consumer 1. -/
def toConsumer : CommandMessage := { consumerId := 1, messageId := { ledgerId := 7, entryId := 1 } }

def batchCommandBytes : Bytes := [0x08, 0x06, 0x32, 0x06, 0x08, 0x00, 0x10, 0x08, 0x18, 0x02]

def batchMetadataBytes : Bytes := sampleMetadataBytes ++ [0x58, 0x02]

def toConsumerBytes : Bytes :=
  [0x08, 0x09, 0x4A, 0x08, 0x08, 0x01, 0x12, 0x04, 0x08, 0x07, 0x10, 0x01]

/-- `prost` on these, and the CRC. -/
def helloWire : Wire where
  encodeCommand c :=
    if c = sampleCommand then sampleCommandBytes
    else if c = batchCommand then batchCommandBytes
    else if c = { message := some toConsumer } then toConsumerBytes
    else []
  decodeCommand b :=
    if b = sampleCommandBytes then .ok sampleCommand
    else if b = batchCommandBytes then .ok batchCommand
    else if b = toConsumerBytes then .ok { message := some toConsumer }
    else .error "unexpected bytes"
  encodeMetadata m :=
    if m = sampleMetadata then sampleMetadataBytes
    else if m = batchMetadata then batchMetadataBytes
    else []
  decodeMetadata b :=
    if b = sampleMetadataBytes then .ok sampleMetadata
    else if b = batchMetadataBytes then .ok batchMetadata
    else .error "unexpected bytes"
  checksum := crc32c

/-- The consumer at the other end. -/
def helloConsumer : Config := { codecs := threeLibraries.toCodecs }

theorem helloConsumer_plain : helloConsumer.Plain := ⟨rfl, rfl⟩

/-- It arrives, and is read, message by message. -/
def helloRun (n : Nat) (m : PulsarClient.Message) : List Consumer.Action :=
  [.arrive (some m), .top false, .flow none, .next] ++ List.replicate n .item ++ List.replicate n .read

/-- The frames of these are read back, whatever the cuts. -/
theorem hello_fed {ms : List PulsarClient.Message} {chunks : List Bytes}
    (h : ∀ m ∈ ms, helloWire.Inverts m ∧ (helloWire.encode m).length < 2 ^ 32)
    (hcut : chunks.flatten = ms.flatMap helloWire.encode) : (helloWire.codec.feed [] chunks).1 = ms := by
  rw [feed_encoded h hcut]

theorem hello_wire {m : PulsarClient.Message}
    (h : decide (helloWire.decodeCommand (helloWire.encodeCommand m.command) = .ok m.command ∧
      (m.payload.all fun p =>
        decide (helloWire.decodeMetadata (helloWire.encodeMetadata p.metadata) = .ok p.metadata)) ∧
      (helloWire.encode m).length < 2 ^ 32) = true) :
    helloWire.Inverts m ∧ (helloWire.encode m).length < 2 ^ 32 := by
  obtain ⟨hcommand, hmetadata, hlength⟩ := of_decide_eq_true h
  refine ⟨⟨hcommand, fun p hp => ?_⟩, hlength⟩
  rw [hp] at hmetadata
  exact of_decide_eq_true hmetadata

/-- One message, the frames cut in the middle. -/
theorem reads_what_was_sent_hello : ∃ as s,
    (consumer helloConsumer).exec { remainingMessages := helloConsumer.batchSize } as = some s ∧
      (((consumer helloConsumer).outputs reads { remainingMessages := helloConsumer.batchSize } as ++
        s.toRead helloConsumer).map fun g => contentOf g.2) = [said threeLibraries hello] := by
  have hframe : helloSender.send threeLibraries helloStamp (.Single hello) = .ok sampleMessage := by
    decide +kernel
  let passed : CommandMessage × Payload := (toConsumer, { metadata := sampleMetadata, data := sampleData })
  obtain ⟨s, hs⟩ : ∃ s, (consumer helloConsumer).exec { remainingMessages := helloConsumer.batchSize }
      (helloRun 1 (relay passed)) = some s := Option.isSome_iff_exists.mp (by decide +kernel)
  have hwire : ∀ m ∈ [sampleMessage] ++ [passed].map relay,
      helloWire.Inverts m ∧ (helloWire.encode m).length < 2 ^ 32 := by
    intro m hm
    rcases List.mem_cons.mp hm with rfl | hm
    · exact hello_wire (by decide +kernel)
    · rw [List.mem_singleton.mp hm]
      exact hello_wire (by decide +kernel)
  have hout : [(helloWire.encode sampleMessage).take 30, (helloWire.encode sampleMessage).drop 30].flatten =
      [sampleMessage].flatMap helloWire.encode := by
    simp
  have hin : [helloWire.encode (relay passed)].flatten = ([passed].map relay).flatMap helloWire.encode := by
    simp
  have hread := hello_fed (fun m hm => hwire m (List.mem_append_left _ hm)) hout
  have harrived := hello_fed (fun m hm => hwire m (List.mem_append_right _ hm)) hin
  refine ⟨_, s, hs, ?_⟩
  exact (reads_what_was_sent helloWire threeLibraries helloSender [(helloStamp, .Single hello)]
    [sampleMessage] _ _ [passed] helloConsumer (helloRun 1 (relay passed)) s trivial
    (fun e he => by rw [List.mem_singleton.mp he]; trivial) (.cons hframe .nil) hwire hout
    (by rw [hread]; exact List.Sublist.refl _) hin rfl hs (by rw [harrived]; exact List.prefix_rfl)).2
    helloConsumer_plain (by decide) (by rw [hread]; rfl)

/-! ## The runs of a batching producer -/

section

variable {lib : Libraries} {q : Batching.State}

theorem messagesOf_append (front rest : List BatchItem) :
    messagesOf (front ++ rest) = messagesOf front ++ messagesOf rest :=
  List.filterMap_append

/-- What has been emitted has been queued before everything else. -/
theorem queued_emitted (h : QueueInv q) : q.queued =
    q.emitted.flatten ++ (q.batchStorage.storage ++ q.unsent ++ q.msgs) := by
  rw [h.queued, h.received, List.append_assoc]

theorem batch_sublist (h : QueueInv q) {batch : List BatchItem} (hbatch : batch ∈ q.emitted) :
    batch.Sublist q.queued := by
  rw [queued_emitted h]
  exact (List.sublist_flatten_of_mem hbatch).trans (List.sublist_append_left _ _)

theorem messagesOf_sublist {items items' : List BatchItem} (h : items.Sublist items') :
    (messagesOf items).Sublist (messagesOf items') := h.filterMap message?

/-- A batch that is emitted can be read back, if it is not too long and its messages fit. -/
theorem ready_of_emitted (h : QueueInv q) {batch : List BatchItem} (hbatch : batch ∈ q.emitted)
    (hlength : batch.length < 2 ^ 32) (hfits : ∀ m ∈ messagesOf batch, Fits lib m) :
    (Entry.Batch batch).Ready lib :=
  ⟨(h.shaped batch hbatch).flush, hlength, hfits⟩

theorem said_batches (batches : List (List BatchItem)) :
    (batches.map Entry.Batch).flatMap (Entry.said lib) =
      (messagesOf batches.flatten).map saidInBatch := by
  induction batches with
  | nil => rfl
  | cons batch batches ih =>
    rw [List.map_cons, List.flatMap_cons, ih, List.flatten_cons, messagesOf_append, List.map_append]
    rfl

/-- **Batches keep the order of `send_raw`.**  Let a batching producer have come to whatever state, and
    the broker have stored some of its batches, each once and in order, with less than `2 ^ 32` items and of
    sizes that fit their fields.  Then what the application reads at the other end is out of the messages
    that were queued, in their order; and if every batch is stored and passed on, nothing is left at the
    producer and a plain consumer is through, it has read exactly the messages that were queued. -/
theorem batched_reads_in_order (w : Wire) (lib : Libraries) (p : Sender) (q : Batching.State)
    (stored : List (Stamp × List BatchItem)) (frames : List PulsarClient.Message)
    (outbound inbound : List Bytes) (relayed : List (CommandMessage × Payload)) (c : Config)
    (as : List Consumer.Action) (s : Consumer.State) (hreach : (batching lib).Reach q)
    (hlength : ∀ e ∈ stored, e.2.length < 2 ^ 32)
    (hfits : ∀ e ∈ stored, ∀ m ∈ messagesOf e.2, Fits lib m)
    (hstored : (stored.map Prod.snd).Sublist q.emitted)
    (hlib : lib.CompressionInverts p.compression)
    (hsent : List.Forall₂ (fun e m => p.send lib e.1 (.Batch e.2) = .ok m) stored frames)
    (hwire : ∀ m ∈ frames ++ relayed.map relay, w.Inverts m ∧ (w.encode m).length < 2 ^ 32)
    (hout : outbound.flatten = frames.flatMap w.encode)
    (hrelayed : (relayed.map Prod.snd).Sublist (entriesOf (w.codec.feed [] outbound).1))
    (hin : inbound.flatten = (relayed.map relay).flatMap w.encode)
    (hcodecs : c.codecs = lib.toCodecs)
    (hexec : (consumer c).exec { remainingMessages := c.batchSize } as = some s)
    (hforwarded : as.flatMap forwarded <+: (w.codec.feed [] inbound).1) :
    (((consumer c).outputs reads { remainingMessages := c.batchSize } as).map
        fun g => contentOf g.2).Sublist ((messagesOf q.queued).map saidInBatch) ∧
    (c.Plain → .dropConsumer ∉ as → stored.map Prod.snd = q.emitted →
      relayed.map Prod.snd = entriesOf (w.codec.feed [] outbound).1 →
      as.flatMap forwarded = (w.codec.feed [] inbound).1 → s.toRead c = [] →
      q.batchStorage.storage ++ q.unsent ++ q.msgs = [] →
      (((consumer c).outputs reads { remainingMessages := c.batchSize } as).map
        fun g => contentOf g.2) = (messagesOf q.queued).map saidInBatch) := by
  rw [feed_encoded (fun m hm => hwire m (List.mem_append_left _ hm)) hout] at hrelayed ⊢
  rw [feed_encoded (fun m hm => hwire m (List.mem_append_right _ hm)) hin] at hforwarded ⊢
  have hqueue := queueInv_of_reach hreach
  obtain ⟨entries, hentries⟩ : ∃ entries : List (Stamp × Entry),
      entries = stored.map fun e => (e.1, .Batch e.2) := ⟨_, rfl⟩
  have hready : ∀ e ∈ entries, e.2.Ready lib := by
    intro e he
    rw [hentries] at he
    obtain ⟨b, hb, rfl⟩ := List.mem_map.mp he
    exact ready_of_emitted hqueue (hstored.subset (List.mem_map_of_mem hb)) (hlength b hb) (hfits b hb)
  have hsaid : (entries.flatMap fun e => e.2.said lib) =
      (messagesOf (stored.map Prod.snd).flatten).map saidInBatch := by
    rw [← @said_batches lib, hentries, List.flatMap_map, List.flatMap_map, List.flatMap_map]
  have hsent' : List.Forall₂ (fun e m => p.send lib e.1 e.2 = .ok m) entries frames := by
    rw [hentries]
    exact List.forall₂_map_left_iff.mpr hsent
  obtain ⟨hsub, hall⟩ := reads_relayed hlib hready hsent' hrelayed hcodecs hexec hforwarded
  constructor
  · rw [hsaid] at hsub
    refine hsub.trans (List.Sublist.map _ (messagesOf_sublist ?_))
    rw [queued_emitted hqueue]
    exact hstored.flatten.trans (List.sublist_append_left _ _)
  · intro hplain hdrop hemitted heverything harrived hread hempty
    have hlen : entries.length ≤ (as.flatMap forwarded).length := by
      have hrelays := congrArg List.length heverything
      rw [List.length_map] at hrelays
      rw [harrived, List.length_map, hrelays]
      exact Nat.le_of_eq (entriesOf_sent hready hlib hsent').length_eq
    have hreads := hall hplain hdrop heverything
    rw [hread, List.append_nil, List.take_of_length_le hlen, hsaid, hemitted] at hreads
    rw [hreads, queued_emitted hqueue, hempty, List.append_nil]

/-- Two messages and a `Flush` are queued, and one batch is made of them. -/
theorem reach_helloBatch : ∃ q, (batching threeLibraries).Reach q ∧
    decide (q.queued = helloBatch ∧ q.emitted = [helloBatch] ∧
      q.batchStorage.storage ++ q.unsent ++ q.msgs = [] ∧
      q.outcomes.map Prod.fst = [helloBatch] ∧ q.settled = [(0, .ok
        { producerId := 0, sequenceId := 8,
          messageId := some { ledgerId := 7, entryId := 1, batchIndex := some 0, batchSize := some 2 } })])
      = true :=
  Sys.exists_reach_of_exec ⟨none, none, none, rfl⟩
    [.sendRaw Batching.hi.batched, .sendRaw Batching.empty.batched, .sendBatch, .recv, .recv, .recv,
      .recvBatch, .sent (.ok { producerId := 0, sequenceId := 8, messageId := some toConsumer.messageId }),
      .settle]
    (by decide +kernel)

theorem fits_helloBatch : ∀ m ∈ messagesOf helloBatch, Fits threeLibraries m := by
  intro m hm
  have hm : m = Batching.hi.batched ∨ m = Batching.empty.batched := by
    simpa [helloBatch, messagesOf, message?] using hm
  rcases hm with rfl | rfl
  · exact fits_batched (by unfold Libraries.ProstInverts; decide +kernel) (by decide +kernel) (by decide)
  · exact fits_batched (by unfold Libraries.ProstInverts; decide +kernel) (by decide +kernel) (by decide)

/-- The batch, passed on and read. -/
theorem batched_reads_in_order_hello : ∃ as s,
    (consumer helloConsumer).exec { remainingMessages := helloConsumer.batchSize } as = some s ∧
      (((consumer helloConsumer).outputs reads { remainingMessages := helloConsumer.batchSize } as).map
        fun g => contentOf g.2) = (messagesOf helloBatch).map saidInBatch := by
  obtain ⟨q, hreach, hq⟩ := reach_helloBatch
  obtain ⟨hqueued, hemitted, hrest, -, -⟩ := of_decide_eq_true hq
  have hframe : helloSender.send threeLibraries helloStamp (.Batch helloBatch) = .ok batchFrame := by
    decide +kernel
  let passed : CommandMessage × Payload := (toConsumer, { metadata := batchMetadata, data := batchData })
  obtain ⟨s, hs, hread⟩ : ∃ s, (consumer helloConsumer).exec
      { remainingMessages := helloConsumer.batchSize } (helloRun 2 (relay passed)) = some s ∧
        s.toRead helloConsumer = [] := by
    obtain ⟨s, hs⟩ : ∃ s, (consumer helloConsumer).exec { remainingMessages := helloConsumer.batchSize }
        (helloRun 2 (relay passed)) = some s := Option.isSome_iff_exists.mp (by decide +kernel)
    refine ⟨s, hs, ?_⟩
    have hnone : ((consumer helloConsumer).exec { remainingMessages := helloConsumer.batchSize }
        (helloRun 2 (relay passed))).map (fun s => s.toRead helloConsumer) = some [] := by decide +kernel
    rw [hs] at hnone
    exact Option.some.inj hnone
  have hwire : ∀ m ∈ [batchFrame] ++ [passed].map relay,
      helloWire.Inverts m ∧ (helloWire.encode m).length < 2 ^ 32 := by
    intro m hm
    rcases List.mem_cons.mp hm with rfl | hm
    · exact hello_wire (by decide +kernel)
    · rw [List.mem_singleton.mp hm]
      exact hello_wire (by decide +kernel)
  have hout : [helloWire.encode batchFrame].flatten = [batchFrame].flatMap helloWire.encode := by simp
  have hin : [helloWire.encode (relay passed)].flatten = ([passed].map relay).flatMap helloWire.encode := by
    simp
  have hsent := hello_fed (fun m hm => hwire m (List.mem_append_left _ hm)) hout
  have harrived := hello_fed (fun m hm => hwire m (List.mem_append_right _ hm)) hin
  refine ⟨_, s, hs, ?_⟩
  have hall := (batched_reads_in_order helloWire threeLibraries helloSender q [(helloStamp, helloBatch)]
    [batchFrame] _ _ [passed] helloConsumer (helloRun 2 (relay passed)) s hreach
    (fun e he => List.mem_singleton.mp he ▸ (by decide))
    (fun e he => List.mem_singleton.mp he ▸ fits_helloBatch)
    (by rw [hemitted]; exact List.Sublist.refl _) trivial (.cons hframe .nil) hwire hout
    (by rw [hsent]; exact List.Sublist.refl _) hin rfl hs (by rw [harrived]; exact List.prefix_rfl)).2
    helloConsumer_plain (by decide) (by rw [hemitted]; rfl) (by rw [hsent]; rfl) (by rw [harrived]; rfl)
    hread hrest
  rw [hqueued] at hall
  exact hall

theorem message_of_receipt {items : List BatchItem} {i tx : Nat} (h : (receipts items)[i]? = some tx) :
    ∃ m, (messagesOf items)[i]? = some m ∧ BatchItem.SingleMessage tx m ∈ items := by
  induction items generalizing i with
  | nil => cases h
  | cons item items ih =>
    cases item with
    | Flush f =>
      obtain ⟨m, hm, hmem⟩ := ih h
      exact ⟨m, hm, List.mem_cons_of_mem _ hmem⟩
    | SingleMessage tx' m' =>
      cases i with
      | zero =>
        obtain rfl := Option.some.inj h
        exact ⟨m', rfl, List.mem_cons_self⟩
      | succ i =>
        obtain ⟨m, hm, hmem⟩ := ih h
        exact ⟨m, hm, List.mem_cons_of_mem _ hmem⟩

/-- **A receipt names the message.**  In every state of every run: the sender that has been told a receipt
    has queued one message, in a batch that was answered; and whoever takes the entry of that batch apart
    under the id that the broker has answered finds, under the id of the receipt, that message and no
    other — if the batch has less than `2 ^ 31` messages, of sizes that fit their fields. -/
theorem receipt_names_message (lib : Libraries) (compression : Option Compression) (q : Batching.State)
    (hreach : (batching lib).Reach q) (hlib : lib.CompressionInverts compression) (tx : Nat)
    (receipt : CommandSendReceipt) (htold : (tx, .ok receipt) ∈ q.settled) :
    ∃ m batch answer, BatchItem.SingleMessage tx m ∈ q.queued ∧ (batch, .ok answer) ∈ q.outcomes ∧
      (batch.length < 2 ^ 31 → (∀ m' ∈ messagesOf batch, Fits lib m') →
        ∀ schemaVersion producerName sequenceId publishTime sent id, answer.messageId = some id →
        compressMessage lib ((assemble lib batch).message schemaVersion) compression = .ok sent →
        ∃ got messageId, receipt.messageId = some messageId ∧
          unpack lib.toCodecs id (sent.toPayload producerName sequenceId publishTime) = .ok got ∧
          (∃ g ∈ got, g.1 = messageId) ∧
          ∀ g ∈ got, g.1 = messageId → contentOf g.2 = saidInBatch m) := by
  obtain ⟨hqueue, hsettle⟩ := settleInv_of_reach hreach
  obtain ⟨batch, answer, i, hanswer, hbatch, hi, rfl⟩ :=
    hsettle.ok tx receipt (List.mem_append_left _ htold)
  obtain ⟨m, hm, hmem⟩ := message_of_receipt hi
  have hsub := batch_sublist hqueue hbatch
  refine ⟨m, batch, answer, hsub.subset hmem, hanswer, ?_⟩
  intro hlength hfits schemaVersion producerName sequenceId publishTime sent id hid hsent
  have hready := ready_of_emitted hqueue hbatch (by omega) hfits
  obtain ⟨got, hunpack, hcontent, hids⟩ := unpack_items hready hlib hsent id producerName sequenceId
    publishTime
  have hcount := length_messagesOf_le batch
  have hilt : i < (messagesOf batch).length := (List.getElem?_eq_some_iff.mp hm).1
  have hgot : got.length = (messagesOf batch).length := by
    have hlen := congrArg List.length hcontent
    rwa [List.length_map, List.length_map] at hlen
  refine ⟨got, { id with batchIndex := some i, batchSize := some (messagesOf batch).length }, ?_,
    hunpack, ?_, ?_⟩
  · unfold Assembled.receiptAt
    rw [(assemble_items (hqueue.shaped batch hbatch).flush).1, asI32_of_lt (by omega),
      asI32_of_lt (by omega)]
    simp only [hid, Option.map_some]
  · have hat := hids i (by omega)
    obtain ⟨g, hg, hgid⟩ := Option.map_eq_some_iff.mp hat
    exact ⟨g, List.mem_of_getElem? hg, hgid⟩
  · intro g hg hgid
    obtain ⟨j, hj⟩ := List.mem_iff_getElem?.mp hg
    have hjlt : j < got.length := (List.getElem?_eq_some_iff.mp hj).1
    have hat := hids j hjlt
    rw [hj, Option.map_some, hgid, Option.some.injEq] at hat
    -- the position is in the id
    obtain rfl : i = j := by
      have hindex := congrArg MessageIdData.batchIndex hat
      simp only [Option.some.injEq] at hindex
      exact_mod_cast hindex
    have hsaid := congrArg (fun l => l[i]?) hcontent
    simp only [List.getElem?_map, hj, hm, Option.map_some, Option.some.injEq] at hsaid
    exact hsaid

/-- The first of the two has been told that it is 7:1:0. -/
theorem receipt_names_message_hello : ∃ (q : Batching.State) (m : BatchedMessage) (batch : List BatchItem)
    (answer : CommandSendReceipt), q.queued = helloBatch ∧ BatchItem.SingleMessage 0 m ∈ q.queued ∧
      (batch, .ok answer) ∈ q.outcomes ∧
      ∀ sent id, answer.messageId = some id →
        compressMessage threeLibraries ((assemble threeLibraries batch).message none) none = .ok sent →
        ∃ got, unpack threeLibraries.toCodecs id (sent.toPayload "standalone-0-3" 8 1533850624062) =
            .ok got ∧
          ∀ g ∈ got, g.1 = { ledgerId := 7, entryId := 1, batchIndex := some 0, batchSize := some 2 } →
            contentOf g.2 = saidInBatch m := by
  obtain ⟨q, hreach, hq⟩ := reach_helloBatch
  obtain ⟨hqueued, -, -, houtcomes, hsettled⟩ := of_decide_eq_true hq
  obtain ⟨m, batch, answer, hm, hanswer, hentry⟩ := receipt_names_message threeLibraries none q hreach
    trivial 0 _ (by rw [hsettled]; exact List.mem_singleton_self _)
  obtain rfl : batch = helloBatch := by
    have hmem : batch ∈ q.outcomes.map Prod.fst := List.mem_map_of_mem hanswer
    rw [houtcomes] at hmem
    exact List.mem_singleton.mp hmem
  refine ⟨q, m, helloBatch, answer, hqueued, hm, hanswer, fun sent id hid hsent => ?_⟩
  obtain ⟨got, messageId, hreceipt, hunpack, -, honly⟩ := hentry (by decide) fits_helloBatch none
    "standalone-0-3" 8 1533850624062 sent id hid hsent
  obtain rfl := Option.some.inj hreceipt
  exact ⟨got, hunpack, honly⟩

end

end PulsarClient.Transit
