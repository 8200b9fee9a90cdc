/-
  `send_message` and `retry_create_producer`: SENDING, and coming back after a lost connection.

  A producer is registered on ONE connection.  `send_message` sends there as long as the connection is
  valid; when it is not (or the send finds it closed) it closes the producer, looks the topic up again
  and calls `retry_create_producer`, which REPLACES the stored connection before it registers the
  producer there, and retries for a while.  Every one of these steps can fail, and the future of a
  direct send can be dropped at every `await`.

  1. The SYSTEM (`producer`): one task that sends — the caller itself, or the `message_send_loop` of a
     batching producer with its own copy of the connection — and the handle (`TopicProducer`), which is
     closed and dropped.  The broker, the topic lookup and the pool are the environment: they answer
     what they like.  Addresses and names are only passed on to them and are left out.

  2. The LOG of the commands for the producer's id, and what it says about where the producer is
     registered (`registration`): on the connection of the last `create_producer`, once it has
     succeeded, until a `CloseProducer` is issued there.

  3. `unregistered_send` — after a failed reconnect the new connection stays behind, is valid, and the
     next send uses it without having registered there.

  4. `sends_registered_iff` — the exact condition (`sendsClean`): a run sends only where the producer
     is registered exactly when no send happens after an INTERRUPTED reconnect, or after the handle has
     CLOSED the producer under the sender's feet.
-/
import PulsarClient.Error
import PulsarClient.Lib.Runs
import PulsarClient.Message

namespace PulsarClient.Producer

open Runs Proto

/-! ## The data -/

/-- `ProducerOptions`, of which sending reads whether to batch and whether to wait for room. -/
structure ProducerOptions where
  batchSize : Option Nat := none
  batchByteSize : Option Nat := none
  batchTimeout : Option Nat := none
  blockQueueIfFull : Bool := false
  deriving DecidableEq, Repr

def ProducerOptions.enabledBatching (o : ProducerOptions) : Bool :=
  match o.batchSize with
  | some batchSize => decide (1 < batchSize)
  | none => o.batchByteSize.isSome || o.batchTimeout.isSome

/-- `ProducerMessage`, with the fields that the send path reads or fills in. -/
structure ProducerMessage where
  payload : Bytes
  numMessagesInBatch : Option Int := none
  schemaVersion : Option Bytes := none
  deriving DecidableEq, Repr

/-- What a producer is configured with. -/
structure Config where
  options : ProducerOptions := {}
  operationRetry : OperationRetryOptions := {}
  /-- `compress_message` with the producer's compression -/
  compress : ProducerMessage → Option ProducerMessage := some

/-- What the client does for the producer's id, and on which connection. -/
inductive Command where
  /-- `CommandProducer` is sent -/
  | create (conn : Nat)
  /-- … and has succeeded: the producer is ready -/
  | created (conn : Nat)
  | closeProducer (conn : Nat)
  | send (conn sequenceId : Nat) (message : ProducerMessage)
  deriving DecidableEq, Repr

/-- Where the producer is registered. -/
inductive Registration where
  | nowhere
  /-- the last `create_producer` went to `conn` and has not succeeded (yet) -/
  | pending (conn : Nat)
  | registered (conn : Nat)
  deriving DecidableEq, Repr

namespace Registration

/-- The connection it speaks of. -/
def on : Registration → Option Nat
  | nowhere => none
  | pending conn => some conn
  | registered conn => some conn

/-- The registration after one more command. -/
def next (r : Registration) : Command → Registration
  | .create conn => .pending conn
  | .created conn => if r = .pending conn then .registered conn else r
  | .closeProducer conn => if r.on = some conn then .nowhere else r
  | .send .. => r

end Registration

/-- The registration after a log of commands. -/
def registration (log : List Command) : Registration := log.foldl Registration.next .nowhere

@[simp] theorem registration_concat (log : List Command) (c : Command) :
    registration (log ++ [c]) = (registration log).next c := by
  unfold registration
  rw [List.foldl_append]
  rfl

/-! ## The system -/

/-- What a producer is created for. -/
inductive Job where
  /-- `TopicProducer::new` -/
  | build
  /-- the `send_message` of this message -/
  | send (message : ProducerMessage)
  deriving DecidableEq, Repr

/-- Where the sending task is: in `TopicProducer::new`, in `send_message`, in the
    `retry_create_producer` that either calls, or between two calls. -/
inductive Pc where
  /-- `TopicProducer::new`: `get_connection(&addr).await` -/
  | opening
  /-- between two calls of `send_message` -/
  | idle
  /-- the top of the loop of `send_message` -/
  | check (message : ProducerMessage)
  /-- `sender().send(..).await` -/
  | sending (sequenceId : Nat) (message : ProducerMessage)
  /-- before `close_producer` -/
  | disconnected (message : ProducerMessage)
  /-- `close_producer(..).await` -/
  | closing (message : ProducerMessage)
  /-- `lookup_topic(..).await` -/
  | lookup (message : ProducerMessage)
  /-- `retry_create_producer`: `get_connection(&addr).await` -/
  | getConnection (job : Job)
  /-- the top of its loop -/
  | create (job : Job) (retries : Nat)
  /-- `create_producer(..).await` -/
  | creating (job : Job) (retries : Nat)
  /-- `wait_for_exclusive_access(..).await`, after a partial success -/
  | exclusive (job : Job) (schemaVersion : Option Bytes)
  /-- `handle_retry_error`: `delay(retry_delay).await` -/
  | delay (job : Job) (retries : Nat)
  /-- … `lookup_topic(..).await` -/
  | retryLookup (job : Job) (retries : Nat)
  /-- … `get_connection(addr).await` -/
  | retryGetConnection (job : Job) (retries : Nat)
  /-- the task is over -/
  | gone
  deriving DecidableEq, Repr

/-- The `TopicProducer` in the hands of the application. -/
inductive Handle where
  /-- not built yet -/
  | absent
  | held
  /-- its `batch` is taken by `close` -/
  | closed
  /-- dropped; the task that closes the producer has not run -/
  | dropping
  | dropped
  deriving DecidableEq, Repr

structure State where
  /-- the error cells of the connections -/
  errors : Nat → SharedError := fun _ => SharedError.new
  /-- the channels of the connection are closed for good -/
  down : Nat → Bool := fun _ => false
  pc : Pc := .opening
  /-- the connection of the sending task -/
  connection : Nat := 0
  schemaVersion : Option Bytes := none
  sequenceId : Nat := 0
  handle : Handle := .absent
  /-- the connection in the handle of a batching producer -/
  handleConnection : Nat := 0
  log : List Command := []
  /-- the last reconnect ended without a registration -/
  interrupted : Bool := false
  /-- the handle has issued a `CloseProducer` where the task last asked to be registered -/
  closedUnder : Bool := false

inductive Action where
  /-- `send_raw` of a producer that does not batch -/
  | sendRaw (message : ProducerMessage)
  /-- the `message_send_loop` has a batch -/
  | batch (payload : Bytes) (counter : Nat)
  | check
  /-- the connection's `send` is over: `Ok`, or an error -/
  | sent (err : Option ConnectionError)
  | closeProducer
  | closeReturned
  | lookedUp (ok : Bool)
  | gotConnection (conn : Option Nat)
  | createProducer
  | created (res : Except ConnectionError CommandProducerSuccess)
  | exclusive (res : Except ConnectionError CommandProducerSuccess)
  | delayed
  /-- the future of the task is dropped at an `await` -/
  | drop
  /-- `TopicProducer::close` -/
  | close
  /-- the `message_send_loop` sees the end of its batches -/
  | batchesEnd
  /-- the handle is dropped -/
  | dropHandle
  /-- … and the task spawned by `Drop` runs -/
  | dropTask
  /-- somebody sets the error of a connection, or takes it -/
  | setError (conn : Nat) (e : ConnectionError)
  | takeError (conn : Nat)
  | goDown (conn : Nat)

namespace State

/-- `Connection::is_valid` -/
def valid (s : State) (conn : Nat) : Bool := !(s.errors conn).isSet

def issue (s : State) (c : Command) : State := { s with log := s.log ++ [c] }

/-- An error leaves `retry_create_producer`, and its caller. -/
def fail (s : State) : Job → State
  | .build => { s with pc := .gone }
  | .send _ => { s with pc := .idle, interrupted := true }

/-- `handle_retry_error`, up to its first `await`. -/
def handleRetryError (c : Config) (s : State) (job : Job) (retries : Nat) (e : ConnectionError) :
    State :=
  if e.retryableOperation then
    if c.operationRetry.allowRetry retries then { s with pc := .delay job retries } else s.fail job
  else s.fail job

/-- `retry_create_producer` returns `Ok`, to `TopicProducer::new` or to `send_message`. -/
def ready (s : State) (job : Job) (schemaVersion : Option Bytes) : State :=
  let s := { s.issue (.created s.connection) with schemaVersion, interrupted := false }
  match job with
  | .build => { s with pc := .idle, handle := .held, handleConnection := s.connection }
  | .send message => { s with pc := .check message }

/-- The connection of the handle: the task's own, unless the task is a `message_send_loop`. -/
def ownConnection (c : Config) (s : State) : Nat :=
  if c.options.enabledBatching then s.handleConnection else s.connection

/-- The handle calls `close_producer` on its connection. -/
def closeHandle (c : Config) (s : State) : State :=
  let conn := s.ownConnection c
  if s.down conn then s
  else
    { s.issue (.closeProducer conn) with
      closedUnder := s.closedUnder || conn == s.connection }

/-- `send_message` is called. -/
def call (c : Config) (s : State) (message : ProducerMessage) : State :=
  match c.compress message with
  | some compressed => { s with pc := .check compressed }
  | none => s

end State

/-- The await points of a task that can be dropped, with what the task was doing. -/
def Pc.awaits (o : ProducerOptions) : Pc → Option (Option Job)
  | .opening => some (some .build)
  | .sending _ _ => if o.blockQueueIfFull then some none else none
  | .closing message => some (some (.send message))
  | .lookup message => some (some (.send message))
  | .getConnection job => some (some job)
  | .creating job _ => some (some job)
  | .exclusive job _ => some (some job)
  | .delay job _ => some (some job)
  | .retryLookup job _ => some (some job)
  | .retryGetConnection job _ => some (some job)
  | _ => none

def step (c : Config) (s : State) : Action → Option State
  | .sendRaw message =>
    if c.options.enabledBatching = false ∧ s.handle = .held ∧ s.pc = .idle then
      some (s.call c { message with schemaVersion := message.schemaVersion <|> s.schemaVersion })
    else none
  | .batch payload counter =>
    if c.options.enabledBatching = true ∧ s.pc = .idle then
      some (s.call c
        { payload, numMessagesInBatch := some counter, schemaVersion := s.schemaVersion })
    else none
  | .check =>
    match s.pc with
    | .check message =>
      if s.valid s.connection then
        some { s with pc := .sending s.sequenceId message, sequenceId := s.sequenceId + 1 }
      else some { s with pc := .disconnected message }
    | _ => none
  | .sent err =>
    match s.pc, err with
    | .sending sequenceId message, none =>
      if s.down s.connection then none
      else some { s.issue (.send s.connection sequenceId message) with pc := .idle }
    | .sending _ message, some .Disconnected => some { s with pc := .disconnected message }
    | .sending _ message, some (.Io .TimedOut) => some { s with pc := .disconnected message }
    | .sending _ _, some _ => some { s with pc := .idle }
    | _, _ => none
  | .closeProducer =>
    match s.pc with
    | .disconnected message =>
      -- an error of `close_producer` is only logged
      if s.down s.connection then some { s with pc := .lookup message }
      else some { s.issue (.closeProducer s.connection) with pc := .closing message }
    | _ => none
  | .closeReturned =>
    match s.pc with
    | .closing message => some { s with pc := .lookup message }
    | _ => none
  | .lookedUp ok =>
    match s.pc with
    | .lookup message =>
      some (if ok then { s with pc := .getConnection (.send message) } else s.fail (.send message))
    | .retryLookup job retries =>
      some (if ok then { s with pc := .retryGetConnection job retries } else s.fail job)
    | _ => none
  | .gotConnection conn =>
    match s.pc, conn with
    | .opening, some conn => some { s with connection := conn, pc := .getConnection .build }
    | .opening, none => some (s.fail .build)
    -- the connection is replaced BEFORE the producer is registered on it
    | .getConnection job, some conn => some { s with connection := conn, pc := .create job 0 }
    | .getConnection job, none => some (s.fail job)
    | .retryGetConnection job retries, some conn =>
      some { s with connection := conn, pc := .create job (retries + 1) }
    | .retryGetConnection job _, none => some (s.fail job)
    | _, _ => none
  | .createProducer =>
    match s.pc with
    | .create job retries =>
      if s.down s.connection then some (s.handleRetryError c job retries .Disconnected)
      else
        some { s.issue (.create s.connection) with
          pc := .creating job retries, closedUnder := false }
    | _ => none
  | .created res =>
    match s.pc, res with
    | .creating job _, .ok success =>
      if success.producerReady = some false then
        some { s with pc := .exclusive job success.schemaVersion }
      else some (s.ready job success.schemaVersion)
    | .creating job retries, .error e => some (s.handleRetryError c job retries e)
    | _, _ => none
  | .exclusive res =>
    match s.pc, res with
    | .exclusive job schemaVersion, .ok success =>
      some (s.ready job (success.schemaVersion <|> schemaVersion))
    | .exclusive job _, .error _ => some (s.fail job)
    | _, _ => none
  | .delayed =>
    match s.pc with
    | .delay job retries => some { s with pc := .retryLookup job retries }
    | _ => none
  | .drop =>
    match s.pc.awaits c.options with
    | some (some .build) => some (s.fail .build)
    | some (some (.send message)) =>
      if c.options.enabledBatching then none else some (s.fail (.send message))
    | some none => if c.options.enabledBatching then none else some { s with pc := .idle }
    | none => none
  | .close =>
    if c.options.enabledBatching then
      if s.handle = .held then some { s with handle := .closed }
      else if s.handle = .closed then some (s.closeHandle c)
      else none
    else if s.handle = .held ∧ s.pc = .idle then some (s.closeHandle c)
    else none
  | .batchesEnd =>
    if c.options.enabledBatching = true ∧ s.pc = .idle ∧ s.handle ≠ .held then
      if s.down s.connection then some { s with pc := .gone }
      else some { s.issue (.closeProducer s.connection) with pc := .gone }
    else none
  | .dropHandle =>
    if (s.handle = .held ∨ s.handle = .closed) ∧
        (c.options.enabledBatching = true ∨ s.pc = .idle) then
      some { s with handle := .dropping }
    else none
  | .dropTask =>
    if s.handle = .dropping then some { s.closeHandle c with handle := .dropped } else none
  | .setError conn e =>
    some { s with errors := Function.update s.errors conn ((s.errors conn).set e) }
  | .takeError conn =>
    some { s with errors := Function.update s.errors conn (s.errors conn).remove }
  | .goDown conn => some { s with down := Function.update s.down conn true }

/-- A producer, from the call of `TopicProducer::new`. -/
def producer (c : Config) : Sys State Action where
  init s := s = {}
  step := step c

/-! ## What a step can do -/

/-- The steps of a producer, one by one: what each needs and what it leaves. -/
inductive Moves (c : Config) (s : State) : Action → State → Prop where
  | sendRaw {message} (hbatch : c.options.enabledBatching = false) (hheld : s.handle = .held)
    (hpc : s.pc = .idle) :
    Moves c s (.sendRaw message)
      (s.call c { message with schemaVersion := message.schemaVersion <|> s.schemaVersion })
  | batch {payload counter} (hbatch : c.options.enabledBatching = true) (hpc : s.pc = .idle) :
    Moves c s (.batch payload counter)
      (s.call c
        { payload, numMessagesInBatch := some (counter : Int), schemaVersion := s.schemaVersion })
  | check {message} (hpc : s.pc = .check message) (hvalid : s.valid s.connection = true) :
    Moves c s .check
      { s with pc := .sending s.sequenceId message, sequenceId := s.sequenceId + 1 }
  | invalid {message} (hpc : s.pc = .check message) (hvalid : s.valid s.connection = false) :
    Moves c s .check { s with pc := .disconnected message }
  | sent {sequenceId message} (hpc : s.pc = .sending sequenceId message)
    (hup : s.down s.connection = false) :
    Moves c s (.sent none)
      { s.issue (.send s.connection sequenceId message) with pc := .idle }
  /-- the send finds the connection closed -/
  | lost {sequenceId message e} (hpc : s.pc = .sending sequenceId message)
    (he : e = .Disconnected ∨ e = .Io .TimedOut) :
    Moves c s (.sent (some e)) { s with pc := .disconnected message }
  /-- any other error goes to the caller -/
  | refused {sequenceId message e} (hpc : s.pc = .sending sequenceId message)
    (hlost : e ≠ .Disconnected) (htimeout : e ≠ .Io .TimedOut) :
    Moves c s (.sent (some e)) { s with pc := .idle }
  | unreachable {message} (hpc : s.pc = .disconnected message)
    (hdown : s.down s.connection = true) :
    Moves c s .closeProducer { s with pc := .lookup message }
  | closeProducer {message} (hpc : s.pc = .disconnected message)
    (hup : s.down s.connection = false) :
    Moves c s .closeProducer { s.issue (.closeProducer s.connection) with pc := .closing message }
  | closeReturned {message} (hpc : s.pc = .closing message) :
    Moves c s .closeReturned { s with pc := .lookup message }
  | lookedUp {message} (hpc : s.pc = .lookup message) :
    Moves c s (.lookedUp true) { s with pc := .getConnection (.send message) }
  | notFound {message} (hpc : s.pc = .lookup message) :
    Moves c s (.lookedUp false) (s.fail (.send message))
  | lookedUpAgain {job retries} (hpc : s.pc = .retryLookup job retries) :
    Moves c s (.lookedUp true) { s with pc := .retryGetConnection job retries }
  | notFoundAgain {job retries} (hpc : s.pc = .retryLookup job retries) :
    Moves c s (.lookedUp false) (s.fail job)
  | opened {conn} (hpc : s.pc = .opening) :
    Moves c s (.gotConnection (some conn))
      { s with connection := conn, pc := .getConnection .build }
  | notOpened (hpc : s.pc = .opening) : Moves c s (.gotConnection none) (s.fail .build)
  | gotConnection {conn job} (hpc : s.pc = .getConnection job) :
    Moves c s (.gotConnection (some conn)) { s with connection := conn, pc := .create job 0 }
  | noConnection {job} (hpc : s.pc = .getConnection job) :
    Moves c s (.gotConnection none) (s.fail job)
  | gotConnectionAgain {conn job retries} (hpc : s.pc = .retryGetConnection job retries) :
    Moves c s (.gotConnection (some conn))
      { s with connection := conn, pc := .create job (retries + 1) }
  | noConnectionAgain {job retries} (hpc : s.pc = .retryGetConnection job retries) :
    Moves c s (.gotConnection none) (s.fail job)
  /-- `create_producer` cannot even be sent -/
  | uncreated {job retries} (hpc : s.pc = .create job retries)
    (hdown : s.down s.connection = true) :
    Moves c s .createProducer (s.handleRetryError c job retries .Disconnected)
  | createProducer {job retries} (hpc : s.pc = .create job retries)
    (hup : s.down s.connection = false) :
    Moves c s .createProducer
      { s.issue (.create s.connection) with pc := .creating job retries, closedUnder := false }
  /-- a partial success -/
  | partly {job retries success} (hpc : s.pc = .creating job retries)
    (hready : success.producerReady = some false) :
    Moves c s (.created (.ok success)) { s with pc := .exclusive job success.schemaVersion }
  | created {job retries success} (hpc : s.pc = .creating job retries)
    (hready : success.producerReady ≠ some false) :
    Moves c s (.created (.ok success)) (s.ready job success.schemaVersion)
  | notCreated {job retries e} (hpc : s.pc = .creating job retries) :
    Moves c s (.created (.error e)) (s.handleRetryError c job retries e)
  | exclusive {job schemaVersion success} (hpc : s.pc = .exclusive job schemaVersion) :
    Moves c s (.exclusive (.ok success)) (s.ready job (success.schemaVersion <|> schemaVersion))
  | noExclusive {job schemaVersion e} (hpc : s.pc = .exclusive job schemaVersion) :
    Moves c s (.exclusive (.error e)) (s.fail job)
  | delayed {job retries} (hpc : s.pc = .delay job retries) :
    Moves c s .delayed { s with pc := .retryLookup job retries }
  | dropped {job} (hjob : s.pc.awaits c.options = some (some job))
    (hbatch : job = .build ∨ c.options.enabledBatching = false) :
    Moves c s .drop (s.fail job)
  /-- the message was not sent, and nothing else is lost -/
  | droppedSend (hjob : s.pc.awaits c.options = some none)
    (hbatch : c.options.enabledBatching = false) :
    Moves c s .drop { s with pc := .idle }
  | close (hbatch : c.options.enabledBatching = true) (hheld : s.handle = .held) :
    Moves c s .close { s with handle := .closed }
  | closeHandle (hopen : if c.options.enabledBatching then s.handle = .closed
      else s.handle = .held ∧ s.pc = .idle) :
    Moves c s .close (s.closeHandle c)
  | batchesEnd {log} (hbatch : c.options.enabledBatching = true) (hpc : s.pc = .idle)
    (hheld : s.handle ≠ .held)
    (hlog : log = if s.down s.connection then s.log else s.log ++ [.closeProducer s.connection]) :
    Moves c s .batchesEnd { s with log, pc := .gone }
  | dropHandle (hheld : s.handle = .held ∨ s.handle = .closed)
    (hfree : c.options.enabledBatching = true ∨ s.pc = .idle) :
    Moves c s .dropHandle { s with handle := .dropping }
  | dropTask (hdropping : s.handle = .dropping) :
    Moves c s .dropTask { s.closeHandle c with handle := .dropped }
  | setError {conn e} :
    Moves c s (.setError conn e)
      { s with errors := Function.update s.errors conn ((s.errors conn).set e) }
  | takeError {conn} :
    Moves c s (.takeError conn)
      { s with errors := Function.update s.errors conn (s.errors conn).remove }
  | goDown {conn} : Moves c s (.goDown conn) { s with down := Function.update s.down conn true }

/-- **The inversion lemma** for the step of a producer. -/
theorem step_moves {c : Config} {s s' : State} {a : Action} (hs : step c s a = some s') :
    Moves c s a s' := by
  cases a with
  | sendRaw message =>
    simp only [step, Option.ite_none_right_eq_some, Option.some.injEq] at hs
    obtain ⟨⟨hbatch, hheld, hpc⟩, rfl⟩ := hs
    exact .sendRaw hbatch hheld hpc
  | batch payload counter =>
    simp only [step, Option.ite_none_right_eq_some, Option.some.injEq] at hs
    obtain ⟨⟨hbatch, hpc⟩, rfl⟩ := hs
    exact .batch hbatch hpc
  | check =>
    simp only [step] at hs
    split at hs
    · rename_i message hpc
      split at hs
      · rename_i hvalid
        obtain rfl := Option.some.inj hs
        exact .check hpc hvalid
      · rename_i hvalid
        obtain rfl := Option.some.inj hs
        exact .invalid hpc (Bool.eq_false_iff.mpr hvalid)
    · exact absurd hs (Option.some_ne_none s').symm
  | sent err =>
    simp only [step] at hs
    split at hs
    · rename_i sequenceId message hpc
      split at hs
      · exact absurd hs (Option.some_ne_none s').symm
      · rename_i hup
        obtain rfl := Option.some.inj hs
        exact .sent hpc (Bool.eq_false_iff.mpr hup)
    · rename_i sequenceId message hpc
      obtain rfl := Option.some.inj hs
      exact .lost hpc (Or.inl rfl)
    · rename_i sequenceId message hpc
      obtain rfl := Option.some.inj hs
      exact .lost hpc (Or.inr rfl)
    · rename_i sequenceId message e htimeout hlost hpc
      obtain rfl := Option.some.inj hs
      exact .refused hpc htimeout hlost
    · exact absurd hs (Option.some_ne_none s').symm
  | closeProducer =>
    simp only [step] at hs
    split at hs
    · rename_i message hpc
      split at hs
      · rename_i hdown
        obtain rfl := Option.some.inj hs
        exact .unreachable hpc hdown
      · rename_i hup
        obtain rfl := Option.some.inj hs
        exact .closeProducer hpc (Bool.eq_false_iff.mpr hup)
    · exact absurd hs (Option.some_ne_none s').symm
  | closeReturned =>
    simp only [step] at hs
    split at hs
    · rename_i message hpc
      obtain rfl := Option.some.inj hs
      exact .closeReturned hpc
    · exact absurd hs (Option.some_ne_none s').symm
  | lookedUp ok =>
    simp only [step] at hs
    split at hs
    · rename_i message hpc
      obtain rfl := Option.some.inj hs
      cases ok with
      | true => exact .lookedUp hpc
      | false => exact .notFound hpc
    · rename_i job retries hpc
      obtain rfl := Option.some.inj hs
      cases ok with
      | true => exact .lookedUpAgain hpc
      | false => exact .notFoundAgain hpc
    · exact absurd hs (Option.some_ne_none s').symm
  | gotConnection conn =>
    simp only [step] at hs
    split at hs
    · rename_i x hpc
      obtain rfl := Option.some.inj hs
      exact .opened hpc
    · rename_i hpc
      obtain rfl := Option.some.inj hs
      exact .notOpened hpc
    · rename_i job x hpc
      obtain rfl := Option.some.inj hs
      exact .gotConnection hpc
    · rename_i job hpc
      obtain rfl := Option.some.inj hs
      exact .noConnection hpc
    · rename_i job retries x hpc
      obtain rfl := Option.some.inj hs
      exact .gotConnectionAgain hpc
    · rename_i job retries hpc
      obtain rfl := Option.some.inj hs
      exact .noConnectionAgain hpc
    · exact absurd hs (Option.some_ne_none s').symm
  | createProducer =>
    simp only [step] at hs
    split at hs
    · rename_i job retries hpc
      split at hs
      · rename_i hdown
        obtain rfl := Option.some.inj hs
        exact .uncreated hpc hdown
      · rename_i hup
        obtain rfl := Option.some.inj hs
        exact .createProducer hpc (Bool.eq_false_iff.mpr hup)
    · exact absurd hs (Option.some_ne_none s').symm
  | created res =>
    simp only [step] at hs
    split at hs
    · rename_i job retries success hpc
      split at hs
      · rename_i hready
        obtain rfl := Option.some.inj hs
        exact .partly hpc hready
      · rename_i hready
        obtain rfl := Option.some.inj hs
        exact .created hpc hready
    · rename_i job retries e hpc
      obtain rfl := Option.some.inj hs
      exact .notCreated hpc
    · exact absurd hs (Option.some_ne_none s').symm
  | exclusive res =>
    simp only [step] at hs
    split at hs
    · rename_i job schemaVersion success hpc
      obtain rfl := Option.some.inj hs
      exact .exclusive hpc
    · rename_i job schemaVersion e hpc
      obtain rfl := Option.some.inj hs
      exact .noExclusive hpc
    · exact absurd hs (Option.some_ne_none s').symm
  | delayed =>
    simp only [step] at hs
    split at hs
    · rename_i job retries hpc
      obtain rfl := Option.some.inj hs
      exact .delayed hpc
    · exact absurd hs (Option.some_ne_none s').symm
  | drop =>
    simp only [step] at hs
    split at hs
    · rename_i hjob
      obtain rfl := Option.some.inj hs
      exact .dropped hjob (Or.inl rfl)
    · rename_i message hjob
      split at hs
      · exact absurd hs (Option.some_ne_none s').symm
      · rename_i hbatch
        obtain rfl := Option.some.inj hs
        exact .dropped hjob (Or.inr (Bool.eq_false_iff.mpr hbatch))
    · rename_i hjob
      split at hs
      · exact absurd hs (Option.some_ne_none s').symm
      · rename_i hbatch
        obtain rfl := Option.some.inj hs
        exact .droppedSend hjob (Bool.eq_false_iff.mpr hbatch)
    · exact absurd hs (Option.some_ne_none s').symm
  | close =>
    simp only [step] at hs
    split at hs
    · rename_i hbatch
      split at hs
      · rename_i hheld
        obtain rfl := Option.some.inj hs
        exact .close hbatch hheld
      · split at hs
        · rename_i hclosed
          obtain rfl := Option.some.inj hs
          exact .closeHandle (by rw [if_pos hbatch]; exact hclosed)
        · exact absurd hs (Option.some_ne_none s').symm
    · rename_i hbatch
      split at hs
      · rename_i hopen
        obtain rfl := Option.some.inj hs
        exact .closeHandle (by rw [if_neg hbatch]; exact hopen)
      · exact absurd hs (Option.some_ne_none s').symm
  | batchesEnd =>
    simp only [step] at hs
    split at hs
    · rename_i hcond
      obtain ⟨hbatch, hpc, hheld⟩ := hcond
      split at hs
      · rename_i hdown
        obtain rfl := Option.some.inj hs
        exact .batchesEnd hbatch hpc hheld (if_pos hdown).symm
      · rename_i hup
        obtain rfl := Option.some.inj hs
        exact .batchesEnd hbatch hpc hheld (if_neg hup).symm
    · exact absurd hs (Option.some_ne_none s').symm
  | dropHandle =>
    simp only [step, Option.ite_none_right_eq_some, Option.some.injEq] at hs
    obtain ⟨⟨hheld, hfree⟩, rfl⟩ := hs
    exact .dropHandle hheld hfree
  | dropTask =>
    simp only [step, Option.ite_none_right_eq_some, Option.some.injEq] at hs
    obtain ⟨hdropping, rfl⟩ := hs
    exact .dropTask hdropping
  | setError conn e =>
    obtain rfl := Option.some.inj hs
    exact .setError
  | takeError conn =>
    obtain rfl := Option.some.inj hs
    exact .takeError
  | goDown conn =>
    obtain rfl := Option.some.inj hs
    exact .goDown

/-! ## Where the producer may send -/

/-- Every `Send` went to a connection where the producer was registered at that moment. -/
def SendsRegistered (s : State) : Prop :=
  Each (fun before command => ∀ conn sequenceId message,
    command = .send conn sequenceId message → registration before = .registered conn) s.log

/-- A message is sent neither after an interrupted reconnect nor after the handle has closed the
    producer where it last asked to be registered. -/
def sendsClean (s : State) : Action → Bool
  | .sent none => !s.interrupted && !s.closedUnder
  | _ => true

/-- If the log says that the producer is registered somewhere, nothing can be sent there. -/
def Unregistered (s : State) : Prop :=
  ∀ conn, registration s.log = .registered conn → s.down conn = true

/-- Sending, or between two sends. -/
def Pc.settled : Pc → Bool
  | .idle => true
  | .check _ => true
  | .sending _ _ => true
  | .disconnected _ => true
  | _ => false

/-- Waiting for the answer to `create_producer`. -/
def Pc.registering : Pc → Bool
  | .creating _ _ => true
  | .exclusive _ _ => true
  | _ => false

/-- What the flags and the place in the code say about the registration. -/
structure Inv (s : State) : Prop where
  settled : s.pc.settled = true →
    if s.interrupted || s.closedUnder then Unregistered s
    else registration s.log = .registered s.connection
  registering : s.pc.registering = true →
    registration s.log = if s.closedUnder then .nowhere else .pending s.connection
  lost : s.pc.settled = false → s.pc.registering = false → s.pc ≠ .gone → Unregistered s

namespace Inv

variable {c : Config} {s s' : State}

/-- The task is over: nothing is owed any more. -/
theorem gone (hpc : s'.pc = .gone) : Inv s' where
  settled h := by
    rw [hpc] at h
    exact absurd h Bool.false_ne_true
  registering h := by
    rw [hpc] at h
    exact absurd h Bool.false_ne_true
  lost _ _ h := absurd hpc h

/-- On the way back to a registration, there is none. -/
theorem ofLost (hs : s'.pc.settled = false) (hr : s'.pc.registering = false)
    (hun : Unregistered s') : Inv s' where
  settled h := by
    rw [hs] at h
    exact absurd h Bool.false_ne_true
  registering h := by
    rw [hr] at h
    exact absurd h Bool.false_ne_true
  lost _ _ _ := hun

theorem not_registering_of_settled {pc : Pc} (hs : pc.settled = true) : pc.registering = false := by
  cases pc with
  | creating job retries => exact absurd hs Bool.false_ne_true
  | exclusive job sv => exact absurd hs Bool.false_ne_true
  | _ => rfl

theorem ofSettled (hs : s'.pc.settled = true)
    (h : if s'.interrupted || s'.closedUnder then Unregistered s'
      else registration s'.log = .registered s'.connection) : Inv s' where
  settled _ := h
  registering hr := by
    rw [not_registering_of_settled hs] at hr
    exact absurd hr Bool.false_ne_true
  lost hs' := by
    rw [hs] at hs'
    exact absurd hs'.symm Bool.false_ne_true

theorem ofRegistering (hr : s'.pc.registering = true)
    (h : registration s'.log = if s'.closedUnder then .nowhere else .pending s'.connection) :
    Inv s' where
  settled hs := by
    rw [not_registering_of_settled hs] at hr
    exact absurd hr Bool.false_ne_true
  registering _ := h
  lost _ hr' := by
    rw [hr] at hr'
    exact absurd hr'.symm Bool.false_ne_true

/-- While the answer to `create_producer` is outstanding the producer is registered nowhere. -/
theorem unregistered_of_registering (h : Inv s) (hr : s.pc.registering = true) :
    Unregistered s := by
  intro conn hreg
  have heq := h.registering hr
  rw [hreg] at heq
  split at heq
  · exact Registration.noConfusion heq
  · exact Registration.noConfusion heq

/-- An error leaves the task without a registration: with the flag, or for good. -/
theorem fail {job : Job} (hun : Unregistered s) : Inv (s.fail job) := by
  cases job with
  | build => exact gone rfl
  | send message => exact ofSettled rfl hun

theorem handleRetryError {job : Job} {retries : Nat} {e : ConnectionError} (hun : Unregistered s) :
    Inv (s.handleRetryError c job retries e) := by
  unfold State.handleRetryError
  split
  · split
    · exact ofLost rfl rfl hun
    · exact fail hun
  · exact fail hun

/-- The creation succeeds: the task is registered on its connection, unless the handle has closed the
    producer there in the meantime. -/
theorem ready {job : Job} {sv : Option Bytes} (h : Inv s) (hr : s.pc.registering = true) :
    Inv (s.ready job sv) := by
  have heq := h.registering hr
  have hreg : if s.closedUnder then Unregistered (s.issue (.created s.connection))
      else registration (s.issue (.created s.connection)).log = .registered s.connection := by
    unfold Unregistered State.issue
    rw [registration_concat, heq]
    by_cases hc : s.closedUnder = true
    · rw [if_pos hc, if_pos hc]
      intro conn hconn
      exact absurd hconn (by simp [Registration.next])
    · rw [if_neg hc, if_neg hc]
      simp [Registration.next]
  have hflags : if (false || s.closedUnder) then Unregistered (s.issue (.created s.connection))
      else registration (s.issue (.created s.connection)).log = .registered s.connection := by
    rw [Bool.false_or]
    exact hreg
  cases job with
  | build => exact ofSettled rfl hflags
  | send message => exact ofSettled rfl hflags

/-- A `CloseProducer` registers nobody. -/
theorem unregistered_close {conn : Nat} (h : Unregistered s) :
    Unregistered (s.issue (.closeProducer conn)) := by
  intro x hx
  rw [show (s.issue (.closeProducer conn)).log = s.log ++ [.closeProducer conn] from rfl,
    registration_concat] at hx
  apply h x
  simp only [Registration.next] at hx
  split at hx
  · exact Registration.noConfusion hx
  · exact hx

/-- The handle closes the producer: under the task, if it closes it where the task has registered. -/
theorem closeHandle (h : Inv s) : Inv (s.closeHandle c) := by
  unfold State.closeHandle
  generalize s.ownConnection c = conn
  by_cases hdown : s.down conn = true
  · rw [if_pos hdown]
    exact h
  · rw [if_neg hdown]
    have hlog : registration (s.issue (.closeProducer conn)).log =
        (registration s.log).next (.closeProducer conn) := registration_concat ..
    constructor
    · intro hs
      have hset := h.settled hs
      show if (s.interrupted || (s.closedUnder || conn == s.connection)) = true then
          Unregistered (s.issue (.closeProducer conn))
        else registration (s.issue (.closeProducer conn)).log = .registered s.connection
      rw [← Bool.or_assoc]
      by_cases hf : (s.interrupted || s.closedUnder) = true
      · rw [if_pos hf] at hset
        rw [hf, Bool.true_or, if_pos rfl]
        exact unregistered_close hset
      · rw [if_neg hf] at hset
        rw [Bool.not_eq_true] at hf
        rw [hf, Bool.false_or]
        rw [hset] at hlog
        by_cases hconn : conn = s.connection
        · subst hconn
          rw [if_pos (beq_self_eq_true _)]
          intro x hx
          rw [hlog] at hx
          exact absurd hx (by simp [Registration.next, Registration.on])
        · rw [if_neg (by simpa using hconn), hlog]
          have hne : (Registration.registered s.connection).on ≠ some conn := by
            intro heq
            exact hconn (Option.some.inj heq).symm
          show (if _ then _ else _) = _
          rw [if_neg hne]
    · intro hr
      show registration (s.issue (.closeProducer conn)).log =
        if (s.closedUnder || conn == s.connection) = true then .nowhere else .pending s.connection
      rw [hlog, h.registering hr]
      by_cases hc : s.closedUnder = true
      · rw [hc, Bool.true_or, if_pos rfl]
        rfl
      · rw [Bool.not_eq_true] at hc
        rw [hc, Bool.false_or, if_neg Bool.false_ne_true]
        by_cases hconn : conn = s.connection
        · subst hconn
          rw [if_pos (beq_self_eq_true _)]
          exact if_pos rfl
        · rw [if_neg (by simpa using hconn)]
          have hne : (Registration.pending s.connection).on ≠ some conn := by
            intro heq
            exact hconn (Option.some.inj heq).symm
          exact if_neg hne
    · intro hs hr hg
      exact unregistered_close (h.lost hs hr hg)

/-- Nothing the invariant speaks of changes, but for the step within the same part of the code. -/
theorem move (h : Inv s) (hs : s'.pc.settled = s.pc.settled)
    (hr : s'.pc.registering = s.pc.registering) (hg : s.pc = .gone → s'.pc = .gone)
    (hlog : registration s'.log = registration s.log) (hconn : s'.connection = s.connection)
    (hdown : ∀ x, s.down x = true → s'.down x = true) (hi : s'.interrupted = s.interrupted)
    (hc : s'.closedUnder = s.closedUnder) : Inv s' := by
  have hun : Unregistered s → Unregistered s' := fun hu x hx => hdown x (hu x (hlog ▸ hx))
  constructor
  · intro hs'
    have hset := h.settled (hs ▸ hs')
    rw [hi, hc]
    by_cases hf : (s.interrupted || s.closedUnder) = true
    · rw [if_pos hf] at hset ⊢
      exact hun hset
    · rw [if_neg hf] at hset ⊢
      rw [hlog, hconn]
      exact hset
  · intro hr'
    rw [hlog, hconn, hc]
    exact h.registering (hr ▸ hr')
  · intro hs' hr' hg'
    exact hun (h.lost (hs ▸ hs') (hr ▸ hr') (fun hpc => hg' (hg hpc)))

/-- The task comes back from, or goes on to, a place between two sends. -/
theorem stay (h : Inv s) (hs : s.pc.settled = true) {p : Pc} (hp : p.settled = true) {n : Nat} :
    Inv { s with pc := p, sequenceId := n } := by
  exact ofSettled hp (h.settled hs)

/-- A call of `send_message`. -/
theorem call {message : ProducerMessage} (h : Inv s) (hpc : s.pc = .idle) :
    Inv (s.call c message) := by
  unfold State.call
  split
  · exact h.stay (by rw [hpc]; rfl) rfl
  · exact h

/-- The task finds the connection gone before it can close the producer there. -/
theorem unreachable {message : ProducerMessage} (h : Inv s) (hpc : s.pc = .disconnected message)
    (hdown : s.down s.connection = true) : Inv { s with pc := .lookup message } := by
  have hset := h.settled (by rw [hpc]; rfl)
  refine ofLost rfl rfl ?_
  by_cases hf : (s.interrupted || s.closedUnder) = true
  · rw [if_pos hf] at hset
    exact hset
  · rw [if_neg hf] at hset
    intro x hx
    obtain rfl : s.connection = x := Registration.registered.inj (hset.symm.trans hx)
    exact hdown

/-- The task closes the producer before it reconnects. -/
theorem closeProducer {message : ProducerMessage} (h : Inv s) (hpc : s.pc = .disconnected message) :
    Inv { s.issue (.closeProducer s.connection) with pc := .closing message } := by
  have hset := h.settled (by rw [hpc]; rfl)
  refine ofLost rfl rfl ?_
  by_cases hf : (s.interrupted || s.closedUnder) = true
  · rw [if_pos hf] at hset
    exact unregistered_close hset
  · rw [if_neg hf] at hset
    intro x hx
    have hx' : registration (s.log ++ [.closeProducer s.connection]) = .registered x := hx
    rw [registration_concat, hset] at hx'
    exact absurd hx' (by simp [Registration.next, Registration.on])

/-- What `lost` says at a given place. -/
theorem lostAt {p : Pc} (h : Inv s) (hpc : s.pc = p) (hs : p.settled = false)
    (hr : p.registering = false) (hg : p ≠ .gone) : Unregistered s := by
  subst hpc
  exact h.lost hs hr hg

/-- What a task that is dropped was doing. -/
theorem awaits_spec {o : ProducerOptions} {p : Pc} {job : Job} (h : p.awaits o = some (some job)) :
    p.settled = false ∧ p ≠ .gone := by
  cases p with
  | sending sequenceId message =>
    simp only [Pc.awaits] at h
    split at h
    · exact absurd h (by simp)
    · exact absurd h (by simp)
  | idle => exact absurd h (by simp [Pc.awaits])
  | check message => exact absurd h (by simp [Pc.awaits])
  | disconnected message => exact absurd h (by simp [Pc.awaits])
  | gone => exact absurd h (by simp [Pc.awaits])
  | _ => exact ⟨rfl, Pc.noConfusion⟩

/-- A send waits in no other place than its own. -/
theorem settled_of_awaits {o : ProducerOptions} {p : Pc} (h : p.awaits o = some none) :
    p.settled = true := by
  cases p with
  | sending sequenceId message => rfl
  | idle => rfl
  | check message => rfl
  | disconnected message => rfl
  | _ => exact absurd h (by simp [Pc.awaits])

/-- The task is dropped on the way back to a registration. -/
theorem dropped {job : Job} (h : Inv s) (hjob : s.pc.awaits c.options = some (some job)) :
    Inv (s.fail job) := by
  obtain ⟨hset, hgone⟩ := awaits_spec hjob
  by_cases hr : s.pc.registering = true
  · exact fail (h.unregistered_of_registering hr)
  · exact fail (h.lost hset (Bool.eq_false_iff.mpr hr) hgone)

/-- A step that neither issues anything nor touches the task. -/
theorem calm (h : Inv s) (hpc : s'.pc = s.pc) (hlog : s'.log = s.log)
    (hconn : s'.connection = s.connection) (hdown : ∀ x, s.down x = true → s'.down x = true)
    (hi : s'.interrupted = s.interrupted) (hc : s'.closedUnder = s.closedUnder) : Inv s' :=
  h.move (congrArg Pc.settled hpc) (congrArg Pc.registering hpc) (fun hg => hpc.trans hg)
    (congrArg registration hlog) hconn hdown hi hc

/-- **The step lemma.**  Whatever happens, the flags say where the producer is registered. -/
theorem step {a : Action} (h : Inv s) (hs : Producer.step c s a = some s') : Inv s' := by
  cases step_moves hs with
  | sendRaw _ _ hpc => exact h.call hpc
  | batch _ hpc => exact h.call hpc
  | check hpc _ => exact h.stay (by rw [hpc]; rfl) rfl
  | invalid hpc _ => exact h.stay (by rw [hpc]; rfl) rfl
  | sent hpc _ =>
    -- a `Send` registers nobody anywhere
    exact h.move (by rw [hpc]; rfl) (by rw [hpc]; rfl)
      (fun hg => absurd (hpc.symm.trans hg) Pc.noConfusion) (registration_concat ..) rfl
      (fun _ hx => hx) rfl rfl
  | lost hpc _ => exact h.stay (by rw [hpc]; rfl) rfl
  | refused hpc _ _ => exact h.stay (by rw [hpc]; rfl) rfl
  | unreachable hpc hdown => exact h.unreachable hpc hdown
  | closeProducer hpc _ => exact h.closeProducer hpc
  | closeReturned hpc => exact ofLost rfl rfl (h.lostAt hpc rfl rfl Pc.noConfusion)
  | lookedUp hpc => exact ofLost rfl rfl (h.lostAt hpc rfl rfl Pc.noConfusion)
  | notFound hpc => exact fail (h.lostAt hpc rfl rfl Pc.noConfusion)
  | lookedUpAgain hpc => exact ofLost rfl rfl (h.lostAt hpc rfl rfl Pc.noConfusion)
  | notFoundAgain hpc => exact fail (h.lostAt hpc rfl rfl Pc.noConfusion)
  -- the connection is replaced: there is no registration that could be left behind
  | opened hpc => exact ofLost rfl rfl (h.lostAt hpc rfl rfl Pc.noConfusion)
  | notOpened hpc => exact gone rfl
  | gotConnection hpc => exact ofLost rfl rfl (h.lostAt hpc rfl rfl Pc.noConfusion)
  | noConnection hpc => exact fail (h.lostAt hpc rfl rfl Pc.noConfusion)
  | gotConnectionAgain hpc => exact ofLost rfl rfl (h.lostAt hpc rfl rfl Pc.noConfusion)
  | noConnectionAgain hpc => exact fail (h.lostAt hpc rfl rfl Pc.noConfusion)
  | uncreated hpc _ => exact handleRetryError (h.lostAt hpc rfl rfl Pc.noConfusion)
  | createProducer hpc _ =>
    exact ofRegistering rfl (registration_concat s.log (.create s.connection))
  | partly hpc _ => exact ofRegistering rfl (h.registering (by rw [hpc]; rfl))
  | created hpc _ => exact h.ready (by rw [hpc]; rfl)
  | notCreated hpc =>
    exact handleRetryError (h.unregistered_of_registering (by rw [hpc]; rfl))
  | exclusive hpc => exact h.ready (by rw [hpc]; rfl)
  | noExclusive hpc => exact fail (h.unregistered_of_registering (by rw [hpc]; rfl))
  | delayed hpc => exact ofLost rfl rfl (h.lostAt hpc rfl rfl Pc.noConfusion)
  | dropped hjob _ => exact h.dropped hjob
  | droppedSend hjob _ => exact h.stay (settled_of_awaits hjob) rfl
  | close _ _ => exact h.calm rfl rfl rfl (fun _ hx => hx) rfl rfl
  | closeHandle _ => exact h.closeHandle
  | batchesEnd _ _ _ _ => exact gone rfl
  | dropHandle _ _ => exact h.calm rfl rfl rfl (fun _ hx => hx) rfl rfl
  | dropTask _ =>
    have hclose := h.closeHandle (c := c)
    exact hclose.calm rfl rfl rfl (fun _ hx => hx) rfl rfl
  | setError => exact h.calm rfl rfl rfl (fun _ hx => hx) rfl rfl
  | takeError => exact h.calm rfl rfl rfl (fun _ hx => hx) rfl rfl
  | goDown =>
    rename_i conn
    refine h.calm rfl rfl rfl (fun x hx => ?_) rfl rfl
    show Function.update s.down conn true x = true
    by_cases hxc : x = conn
    · rw [hxc, Function.update_self]
    · rw [Function.update_of_ne hxc]
      exact hx

end Inv

/-! ## What a step adds to the log -/

/-- A command that is not a `Send`. -/
def Command.isSend : Command → Bool
  | .send .. => true
  | _ => false

section Log

variable {c : Config} {s s' : State}

/-- The log is as it was, or has one more entry that is no `Send`. -/
def Quiet (s s' : State) : Prop :=
  s'.log = s.log ∨ ∃ command : Command, command.isSend = false ∧ s'.log = s.log ++ [command]

theorem quiet_fail (s : State) (job : Job) : Quiet s (s.fail job) := by
  cases job with
  | build => exact Or.inl rfl
  | send message => exact Or.inl rfl

theorem quiet_handleRetryError (s : State) (job : Job) (retries : Nat) (e : ConnectionError) :
    Quiet s (s.handleRetryError c job retries e) := by
  unfold State.handleRetryError
  split
  · split
    · exact Or.inl rfl
    · exact quiet_fail s job
  · exact quiet_fail s job

theorem quiet_ready (s : State) (job : Job) (sv : Option Bytes) : Quiet s (s.ready job sv) := by
  cases job with
  | build => exact Or.inr ⟨.created s.connection, rfl, rfl⟩
  | send message => exact Or.inr ⟨.created s.connection, rfl, rfl⟩

theorem quiet_call (s : State) (message : ProducerMessage) : Quiet s (s.call c message) := by
  unfold State.call
  split
  · exact Or.inl rfl
  · exact Or.inl rfl

theorem quiet_closeHandle (s : State) : Quiet s (s.closeHandle c) := by
  show Quiet s (if s.down (s.ownConnection c) = true then s else _)
  split
  · exact Or.inl rfl
  · exact Or.inr ⟨.closeProducer (s.ownConnection c), rfl, rfl⟩

/-- Only a `send` that returns `Ok` adds a `Send`: on the connection of the task, which is up. -/
theorem log_of_step {a : Action} (hs : step c s a = some s') :
    (Quiet s s' ∧ a ≠ .sent none) ∨
    (a = .sent none ∧ s.pc.settled = true ∧ s.down s.connection = false ∧
      ∃ sequenceId message, s'.log = s.log ++ [.send s.connection sequenceId message]) := by
  cases step_moves hs with
  | sent hpc hup => exact Or.inr ⟨rfl, by rw [hpc]; rfl, hup, _, _, rfl⟩
  | lost _ _ => exact Or.inl ⟨Or.inl rfl, by simp⟩
  | refused _ _ _ => exact Or.inl ⟨Or.inl rfl, by simp⟩
  | sendRaw _ _ _ => exact Or.inl ⟨quiet_call s _, Action.noConfusion⟩
  | batch _ _ => exact Or.inl ⟨quiet_call s _, Action.noConfusion⟩
  | closeProducer _ _ => exact Or.inl ⟨Or.inr ⟨_, rfl, rfl⟩, Action.noConfusion⟩
  | notFound _ => exact Or.inl ⟨quiet_fail s _, Action.noConfusion⟩
  | notFoundAgain _ => exact Or.inl ⟨quiet_fail s _, Action.noConfusion⟩
  | notOpened _ => exact Or.inl ⟨quiet_fail s _, Action.noConfusion⟩
  | noConnection _ => exact Or.inl ⟨quiet_fail s _, Action.noConfusion⟩
  | noConnectionAgain _ => exact Or.inl ⟨quiet_fail s _, Action.noConfusion⟩
  | uncreated _ _ => exact Or.inl ⟨quiet_handleRetryError s _ _ _, Action.noConfusion⟩
  | createProducer _ _ => exact Or.inl ⟨Or.inr ⟨_, rfl, rfl⟩, Action.noConfusion⟩
  | created _ _ => exact Or.inl ⟨quiet_ready s _ _, Action.noConfusion⟩
  | notCreated _ => exact Or.inl ⟨quiet_handleRetryError s _ _ _, Action.noConfusion⟩
  | exclusive _ => exact Or.inl ⟨quiet_ready s _ _, Action.noConfusion⟩
  | noExclusive _ => exact Or.inl ⟨quiet_fail s _, Action.noConfusion⟩
  | dropped _ _ => exact Or.inl ⟨quiet_fail s _, Action.noConfusion⟩
  | closeHandle _ => exact Or.inl ⟨quiet_closeHandle s, Action.noConfusion⟩
  | batchesEnd _ _ _ hlog =>
    refine Or.inl ⟨?_, Action.noConfusion⟩
    split at hlog
    · exact Or.inl hlog
    · exact Or.inr ⟨.closeProducer s.connection, rfl, hlog⟩
  | dropTask _ => exact Or.inl ⟨quiet_closeHandle (c := c) s, Action.noConfusion⟩
  | _ => exact Or.inl ⟨Or.inl rfl, Action.noConfusion⟩

/-- A step sends only where the producer is registered exactly when it sends cleanly. -/
theorem sendsRegistered_step_iff {a : Action} (h : Inv s) (hP : SendsRegistered s)
    (hs : step c s a = some s') : SendsRegistered s' ↔ sendsClean s a = true := by
  rcases log_of_step hs with ⟨hquiet, ha⟩ | ⟨rfl, hset, hup, sequenceId, message, hlog⟩
  · have hclean : sendsClean s a = true := by
      unfold sendsClean
      split
      · exact absurd rfl ha
      · rfl
    refine ⟨fun _ => hclean, fun _ => ?_⟩
    unfold SendsRegistered
    rcases hquiet with hlog | ⟨command, hno, hlog⟩
    · rw [hlog]
      exact hP
    · rw [hlog, each_concat]
      refine ⟨hP, ?_⟩
      rintro conn sequenceId message rfl
      exact absurd hno.symm Bool.false_ne_true
  · have hreg := h.settled hset
    unfold SendsRegistered
    rw [hlog, each_concat]
    show _ ↔ (!s.interrupted && !s.closedUnder) = true
    rw [← Bool.not_or, Bool.not_eq_true']
    constructor
    · rintro ⟨-, hsend⟩
      have hhere := hsend _ _ _ rfl
      rw [← Bool.not_eq_true]
      intro hflag
      rw [if_pos hflag] at hreg
      have hdown := hreg s.connection hhere
      rw [hup] at hdown
      exact absurd hdown Bool.false_ne_true
    · intro hflag
      rw [hflag, if_neg Bool.false_ne_true] at hreg
      refine ⟨hP, ?_⟩
      rintro conn sequenceId' message' heq
      injection heq with hconn
      rw [← hconn]
      exact hreg

end Log

/-! ## Runs -/

/-- **Exactness.**  A run of a producer — sends, reconnects, failures, dropped futures, closes, in any
    order — sends only on the connection where the producer is registered, exactly when no message is
    sent after an interrupted reconnect or after the handle has closed the producer there. -/
theorem sends_registered_iff (c : Config) (as : List Action) :
    (producer c).Along SendsRegistered {} as ↔
      (producer c).Guarded (fun s a => sendsClean s a = true) {} as := by
  refine Sys.along_iff_guarded (S := producer c) (I := Inv) (fun _ _ _ h hs => h.step hs)
    (fun _ _ _ h hP hs => sendsRegistered_step_iff h hP hs) as {} ?_ each_nil
  refine Inv.ofLost rfl rfl fun conn hreg => ?_
  exact absurd hreg Registration.noConfusion

/-- The reconnect of one `send_message` fails with a new connection stored; the next one finds that
    connection valid, and sends. -/
theorem unregistered_send :
    ¬ ∀ (c : Config) (s : State), (producer c).Reach s → SendsRegistered s := by
  intro hall
  obtain ⟨s, hs, hp⟩ := Sys.exists_reach_of_exec (S := producer {})
    (p := fun s => s.log == [.create 0, .created 0, .closeProducer 0, .create 1,
      .send 1 0 { payload := [2] }]) (s := {}) rfl
    [.gotConnection (some 0), .gotConnection (some 0), .createProducer,
      .created (.ok ⟨0, "p", none, none⟩), .setError 0 .Disconnected,
      .sendRaw { payload := [1] }, .check, .closeProducer, .closeReturned, .lookedUp true,
      .gotConnection (some 1), .createProducer,
      .created (.error (.PulsarError (some .AuthorizationError) none)),
      .sendRaw { payload := [2] }, .check, .sent none] (by decide)
  have hlog := eq_of_beq hp
  have hbad := hall {} s hs [.create 0, .created 0, .closeProducer 0, .create 1] _ [] hlog _ _ _ rfl
  exact absurd hbad (by decide)

end PulsarClient.Producer
