/-
  `PulsarApi.proto`, `src/message.rs`, `connection::messages`: the commands that travel on a
  connection, and how an inbound one is told apart.

  * `proto::BaseCommand` is a record with ONE OPTIONAL FIELD PER COMMAND (nothing in the wire format
    says that exactly one is present), and so it is here: `requestKey` and the receiver look at the
    fields in a fixed order and take the first that is present.  Each command carries the fields
    some modelled function reads or writes.

  * `requestKey` — the key by which the receiver routes an inbound message: a request id, a
    producer's sequence id, a consumer, a broker-side close of a consumer, an auth challenge.

  * `Messages.*` — the constructors of outbound commands.

  `uint64` fields are `Nat`, `int32`/`int64` fields are `Int`, `bytes` are `List UInt8`.
-/
import PulsarClient.Error

namespace PulsarClient

abbrev Bytes := List UInt8

namespace Proto

/-- `MessageIdData`: a position in a topic — ledger, entry, and inside a batched entry the index of
    the message.  `ack_set` is the bit set of a partially acknowledged batch, as 64-bit words. -/
structure MessageIdData where
  ledgerId : Nat
  entryId : Nat
  partition : Option Int := none
  batchIndex : Option Int := none
  ackSet : List Int := []
  batchSize : Option Int := none
  deriving DecidableEq, Repr

structure KeyValue where
  key : String
  value : String
  deriving DecidableEq, Repr

/-- `MessageMetadata`, the metadata of an entry. -/
structure MessageMetadata where
  producerName : String := ""
  sequenceId : Nat := 0
  publishTime : Nat := 0
  properties : List KeyValue := []
  partitionKey : Option String := none
  partitionKeyB64Encoded : Option Bool := none
  nullPartitionKey : Option Bool := none
  nullValue : Option Bool := none
  orderingKey : Option Bytes := none
  replicateTo : List String := []
  compression : Option Int := none
  uncompressedSize : Option Nat := none
  numMessagesInBatch : Option Int := none
  eventTime : Option Nat := none
  schemaVersion : Option Bytes := none
  deliverAtTime : Option Int := none
  uuid : Option String := none
  numChunksFromMsg : Option Int := none
  deriving DecidableEq, Repr

/-- `SingleMessageMetadata`, the metadata of one message inside a batch. -/
structure SingleMessageMetadata where
  properties : List KeyValue := []
  partitionKey : Option String := none
  partitionKeyB64Encoded : Option Bool := none
  nullPartitionKey : Option Bool := none
  nullValue : Option Bool := none
  orderingKey : Option Bytes := none
  payloadSize : Int := 0
  eventTime : Option Nat := none
  deriving DecidableEq, Repr

/-- A command whose only field a modelled function reads is its request id. -/
structure Request where
  requestId : Nat
  deriving DecidableEq, Repr

structure CommandError where
  requestId : Nat
  error : Int
  message : String
  deriving DecidableEq, Repr

structure CommandProducer where
  topic : String
  producerId : Nat
  requestId : Nat
  producerName : Option String
  deriving DecidableEq, Repr

structure CommandProducerSuccess where
  requestId : Nat
  producerName : String
  schemaVersion : Option Bytes := none
  producerReady : Option Bool := none
  deriving DecidableEq, Repr

structure CommandSubscribe where
  topic : String
  subscription : String
  consumerId : Nat
  requestId : Nat
  startMessageId : Option MessageIdData := none
  deriving DecidableEq, Repr

/-- `CommandUnsubscribe`, `CommandSeek`, `CommandConsumerStats`, `CommandGetLastMessageId`: a
    request about a consumer. -/
structure ConsumerRequest where
  consumerId : Nat
  requestId : Nat
  deriving DecidableEq, Repr

structure CommandCloseProducer where
  producerId : Nat
  requestId : Nat
  deriving DecidableEq, Repr

structure CommandCloseConsumer where
  consumerId : Nat
  requestId : Nat
  deriving DecidableEq, Repr

structure CommandGetLastMessageIdResponse where
  requestId : Nat
  lastMessageId : MessageIdData
  deriving DecidableEq, Repr

structure CommandSend where
  producerId : Nat
  sequenceId : Nat
  numMessages : Option Int := none
  deriving DecidableEq, Repr

structure CommandSendReceipt where
  producerId : Nat
  sequenceId : Nat
  messageId : Option MessageIdData := none
  deriving DecidableEq, Repr

structure CommandSendError where
  producerId : Nat
  sequenceId : Nat
  error : Int
  message : String
  deriving DecidableEq, Repr

structure CommandMessage where
  consumerId : Nat
  messageId : MessageIdData
  redeliveryCount : Option Nat := none
  deriving DecidableEq, Repr

structure CommandActiveConsumerChange where
  consumerId : Nat
  isActive : Option Bool := none
  deriving DecidableEq, Repr

structure CommandFlow where
  consumerId : Nat
  messagePermits : Nat
  deriving DecidableEq, Repr

structure CommandRedeliverUnacknowledgedMessages where
  consumerId : Nat
  messageIds : List MessageIdData
  deriving DecidableEq, Repr

structure CommandReachedEndOfTopic where
  consumerId : Nat
  deriving DecidableEq, Repr

inductive AckType where
  | Individual
  | Cumulative
  deriving DecidableEq, Repr

structure CommandAck where
  consumerId : Nat
  ackType : AckType
  messageId : List MessageIdData
  deriving DecidableEq, Repr

/-- `BaseCommand`: every command field is optional, and the wire format lets any subset through. -/
structure BaseCommand where
  connect : Option Unit := none
  connected : Option Unit := none
  subscribe : Option CommandSubscribe := none
  producer : Option CommandProducer := none
  send : Option CommandSend := none
  sendReceipt : Option CommandSendReceipt := none
  sendError : Option CommandSendError := none
  message : Option CommandMessage := none
  ack : Option CommandAck := none
  flow : Option CommandFlow := none
  unsubscribe : Option ConsumerRequest := none
  success : Option Request := none
  error : Option CommandError := none
  closeProducer : Option CommandCloseProducer := none
  closeConsumer : Option CommandCloseConsumer := none
  producerSuccess : Option CommandProducerSuccess := none
  ping : Option Unit := none
  pong : Option Unit := none
  redeliverUnacknowledgedMessages : Option CommandRedeliverUnacknowledgedMessages := none
  partitionMetadata : Option Request := none
  partitionMetadataResponse : Option Request := none
  lookupTopic : Option Request := none
  lookupTopicResponse : Option Request := none
  consumerStats : Option ConsumerRequest := none
  consumerStatsResponse : Option Request := none
  reachedEndOfTopic : Option CommandReachedEndOfTopic := none
  seek : Option ConsumerRequest := none
  getLastMessageId : Option ConsumerRequest := none
  getLastMessageIdResponse : Option CommandGetLastMessageIdResponse := none
  activeConsumerChange : Option CommandActiveConsumerChange := none
  getTopicsOfNamespace : Option Request := none
  getTopicsOfNamespaceResponse : Option Request := none
  getSchema : Option Request := none
  getSchemaResponse : Option Request := none
  authChallenge : Option Unit := none
  authResponse : Option Unit := none
  deriving DecidableEq, Repr

end Proto

open Proto

/-- The payload of a topic message: the metadata of the entry and its bytes. -/
structure Payload where
  metadata : MessageMetadata
  data : Bytes
  deriving DecidableEq, Repr

/-- `message::Message`, what travels on a connection. -/
structure Message where
  command : BaseCommand
  payload : Option Payload := none
  deriving DecidableEq, Repr

/-- `connection::RequestKey`. -/
inductive RequestKey where
  | RequestId (requestId : Nat)
  | ProducerSend (producerId sequenceId : Nat)
  | Consumer (consumerId : Nat)
  | CloseConsumer (consumerId requestId : Nat)
  | AuthChallenge
  deriving DecidableEq, Repr

namespace BaseCommand

/-- The request id of the first arm of `request_key`: the first present command of the twenty. -/
def requestId? (c : BaseCommand) : Option Nat :=
  c.subscribe.map (·.requestId)
    <|> c.partitionMetadata.map (·.requestId)
    <|> c.partitionMetadataResponse.map (·.requestId)
    <|> c.lookupTopic.map (·.requestId)
    <|> c.lookupTopicResponse.map (·.requestId)
    <|> c.producer.map (·.requestId)
    <|> c.producerSuccess.map (·.requestId)
    <|> c.unsubscribe.map (·.requestId)
    <|> c.seek.map (·.requestId)
    <|> c.closeProducer.map (·.requestId)
    <|> c.success.map (·.requestId)
    <|> c.error.map (·.requestId)
    <|> c.consumerStats.map (·.requestId)
    <|> c.consumerStatsResponse.map (·.requestId)
    <|> c.getLastMessageId.map (·.requestId)
    <|> c.getLastMessageIdResponse.map (·.requestId)
    <|> c.getTopicsOfNamespace.map (·.requestId)
    <|> c.getTopicsOfNamespaceResponse.map (·.requestId)
    <|> c.getSchema.map (·.requestId)
    <|> c.getSchemaResponse.map (·.requestId)

/-- The producer and sequence id of the second arm. -/
def producerSend? (c : BaseCommand) : Option (Nat × Nat) :=
  c.send.map (fun s => (s.producerId, s.sequenceId))
    <|> c.sendError.map (fun s => (s.producerId, s.sequenceId))
    <|> c.sendReceipt.map (fun s => (s.producerId, s.sequenceId))

/-- The consumer id of the third arm. -/
def consumerId? (c : BaseCommand) : Option Nat :=
  c.activeConsumerChange.map (·.consumerId)
    <|> c.message.map (·.consumerId)
    <|> c.flow.map (·.consumerId)
    <|> c.redeliverUnacknowledgedMessages.map (·.consumerId)
    <|> c.reachedEndOfTopic.map (·.consumerId)
    <|> c.ack.map (·.consumerId)

end BaseCommand

/-- `Message::request_key`: the arms of the `match`, first present command wins.  `connect`,
    `connected`, `ping`, `pong` and anything unknown have no key. -/
def Message.requestKey (m : Message) : Option RequestKey :=
  (BaseCommand.requestId? m.command).map RequestKey.RequestId
    <|> (BaseCommand.producerSend? m.command).map (fun k => RequestKey.ProducerSend k.1 k.2)
    <|> (BaseCommand.consumerId? m.command).map RequestKey.Consumer
    <|> m.command.closeConsumer.map (fun c => RequestKey.CloseConsumer c.consumerId c.requestId)
    <|> m.command.authChallenge.map (fun _ => RequestKey.AuthChallenge)

/-! ## Outbound commands -/

namespace Messages

def ping : Message := { command := { ping := some () } }

def pong : Message := { command := { pong := some () } }

def closeProducer (producerId requestId : Nat) : Message :=
  { command := { closeProducer := some { producerId, requestId } } }

/-- `messages::send`, with the payload already assembled. -/
def send (producerId sequenceId : Nat) (numMessages : Option Int) (payload : Payload) : Message :=
  { command := { send := some { producerId, sequenceId, numMessages } }, payload := some payload }

def closeConsumer (consumerId requestId : Nat) : Message :=
  { command := { closeConsumer := some { consumerId, requestId } } }

end Messages

end PulsarClient
