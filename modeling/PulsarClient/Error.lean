/-
  `src/error.rs`, `src/retry_op.rs`: the errors of the connection layer, which of them are retried,
  and the error cell a connection shares with everything that uses it.

  * `ConnectionError` — the error type of the connection layer.  `std::io::Error` is its `ErrorKind`
    (the kinds the code tells apart; the rest are `other`), since no modelled function reads more.

  * `establishRetryable` — which errors `ConnectionManager.connectInner` retries.
    `retryableOperation` — which errors `handle_retry_error` retries (a DIFFERENT set: the two share
    `TimedOut` only).

  * `SharedError` — a flag and an optional error behind one lock.  Everyone holding a connection
    holds the SAME cell: `set` marks the connection failed, `isSet` is what `Connection::is_valid`
    negates, and `remove` is what `Connection::error` calls — it takes the error AND clears the flag.
-/
import Mathlib.Data.List.Basic

namespace PulsarClient

/-- The kinds of `std::io::Error` the client tells apart. -/
inductive ErrorKind where
  | ConnectionRefused | ConnectionReset | ConnectionAborted | NotConnected | BrokenPipe
  | TimedOut | Interrupted | UnexpectedEof | other
  deriving DecidableEq, Repr

/-- `proto::ServerError`. -/
inductive ServerError where
  | UnknownError | MetadataError | PersistenceError | AuthenticationError | AuthorizationError
  | ConsumerBusy | ServiceNotReady | ProducerBlockedQuotaExceededError
  | ProducerBlockedQuotaExceededException | ChecksumError | UnsupportedVersionError
  | TopicNotFound | SubscriptionNotFound | ConsumerNotFound | TooManyRequests
  | TopicTerminatedError | ProducerBusy | InvalidTopicName | IncompatibleSchema
  | ConsumerAssignError | TransactionCoordinatorNotFound | InvalidTxnStatus | NotAllowedError
  | TransactionConflict | TransactionNotFound | ProducerFenced
  deriving DecidableEq, Repr

/-- `server_error`: the wire number of a broker error, when it is a known one. -/
def serverError : Int → Option ServerError
  | 0 => some .UnknownError
  | 1 => some .MetadataError
  | 2 => some .PersistenceError
  | 3 => some .AuthenticationError
  | 4 => some .AuthorizationError
  | 5 => some .ConsumerBusy
  | 6 => some .ServiceNotReady
  | 7 => some .ProducerBlockedQuotaExceededError
  | 8 => some .ProducerBlockedQuotaExceededException
  | 9 => some .ChecksumError
  | 10 => some .UnsupportedVersionError
  | 11 => some .TopicNotFound
  | 12 => some .SubscriptionNotFound
  | 13 => some .ConsumerNotFound
  | 14 => some .TooManyRequests
  | 15 => some .TopicTerminatedError
  | 16 => some .ProducerBusy
  | 17 => some .InvalidTopicName
  | 18 => some .IncompatibleSchema
  | 19 => some .ConsumerAssignError
  | 20 => some .TransactionCoordinatorNotFound
  | 21 => some .InvalidTxnStatus
  | 22 => some .NotAllowedError
  | 23 => some .TransactionConflict
  | 24 => some .TransactionNotFound
  | 25 => some .ProducerFenced
  | _ => none

inductive AuthenticationError where
  | Custom (text : String)
  | Retriable (text : String)
  deriving DecidableEq, Repr

inductive ConnectionError where
  | Io (kind : ErrorKind)
  | SlowDown
  | Disconnected
  | PulsarError (kind : Option ServerError) (text : Option String)
  | Unexpected (text : String)
  | NotSupported (text : String)
  | Decoding (text : String)
  | Encoding (text : String)
  | SocketAddr (text : String)
  | UnexpectedResponse (text : String)
  | Tls
  | DnsName
  | Authentication (e : AuthenticationError)
  | NotFound
  | Canceled
  | Shutdown
  deriving DecidableEq, Repr

namespace ConnectionError

/-- `ConnectionError::establish_retryable`: retried while a connection is being established. -/
def establishRetryable : ConnectionError → Bool
  | Io kind => kind == .ConnectionRefused || kind == .TimedOut
  | Authentication (.Retriable _) => true
  | _ => false

/-- The `matches!` arms of `handle_retry_error`: retried after a failed `subscribe` or
    `create_producer`. -/
def retryableOperation : ConnectionError → Bool
  | PulsarError (some kind) _ =>
    kind == .ServiceNotReady || kind == .ConsumerBusy || kind == .ProducerBusy
      || kind == .ProducerBlockedQuotaExceededError
      || kind == .ProducerBlockedQuotaExceededException
  | Io kind =>
    kind == .ConnectionReset || kind == .ConnectionAborted || kind == .NotConnected
      || kind == .BrokenPipe || kind == .TimedOut || kind == .Interrupted
      || kind == .UnexpectedEof
  | _ => false

end ConnectionError

/-- The `ConsumerError`s the engine and the consumer produce.  An `io::Error` is its text. -/
inductive ConsumerError where
  | Connection (e : ConnectionError)
  | Io (text : String)
  | ChannelFull
  | Closed
  | UnsupportedChunkedMessage (uuid : Option String) (numChunks : Int)
  deriving DecidableEq, Repr

/-- The `Error`s of the consumer side. -/
inductive Error where
  | Connection (e : ConnectionError)
  | Consumer (e : ConsumerError)
  | ServiceDiscovery (e : ConnectionError)
  | Custom (text : String)
  deriving DecidableEq, Repr

/-- `OperationRetryOptions`, of which the modelled loops read the retry budget. -/
structure OperationRetryOptions where
  /-- `none` is "infinite retries". -/
  maxRetries : Option Nat := none
  deriving DecidableEq, Repr

/-- `OperationRetryOptions::allow_retry`. -/
def OperationRetryOptions.allowRetry (o : OperationRetryOptions) (current : Nat) : Bool :=
  match o.maxRetries with
  | none => true
  | some m => decide (current < m)

/-! ## The shared error cell -/

/-- `SharedError`: the flag `errorSet` and the last error, shared by all holders of a connection. -/
structure SharedError where
  errorSet : Bool
  error : Option ConnectionError
  deriving DecidableEq, Repr

namespace SharedError

def new : SharedError := { errorSet := false, error := none }

def isSet (e : SharedError) : Bool := e.errorSet

/-- `SharedError::remove`: take the error and CLEAR the flag. -/
def remove (_ : SharedError) : SharedError := { errorSet := false, error := none }

/-- What `SharedError::remove` returns. -/
def removed (e : SharedError) : Option ConnectionError := e.error

def set (_ : SharedError) (err : ConnectionError) : SharedError :=
  { errorSet := true, error := some err }

@[simp] theorem isSet_new : new.isSet = false := rfl

@[simp] theorem isSet_remove (e : SharedError) : e.remove.isSet = false := rfl

@[simp] theorem isSet_set (e : SharedError) (err : ConnectionError) : (e.set err).isSet = true := rfl

@[simp] theorem removed_set (e : SharedError) (err : ConnectionError) :
    (e.set err).removed = some err := rfl

end SharedError

end PulsarClient
