/-
  THE SESSION — the engine, its connections, and `reconnect` await by await.

  `Consumer.Engine` takes the whole of `ConsumerEngine::reconnect` as one step that ends well or not.
  Here the step is taken apart (`Phase`), over what it works on:

  * the CONNECTIONS, by number.  Each has the error cell that its holders share and, while its receiver
    runs, the source registered for this consumer.  The receiver takes all registrations before it looks
    at a message (`Connection.Receiver`), so a registration counts from the moment it is pushed.

  * the SOURCES, by number: `retry_subscribe_consumer` makes one channel, whose receiving end becomes
    `messages_rx`, and at the next top of the loop the input of a forwarder task.  Forwarders of older
    sources live on, so an event carries the source it came from (`origins`).

  What the code does not have: the `log` of the subscriptions, of the permits granted on them, and of
  the broker messages the engine took.

  The outcome of every await is part of the action.  That the connection fails, that another holder of
  it takes the error, and that the application closes the consumer are actions of their own.
-/
import Mathlib.Logic.Function.Basic
import PulsarClient.Consumer.Engine
import PulsarClient.Lib.Runs

namespace PulsarClient.Consumer

open Runs Proto

/-! ## The data -/

/-- `InitialPosition` -/
inductive InitialPosition where
  | Earliest | Latest
  deriving DecidableEq, Repr

/-- What the engine is made with, and what it passes to `retry_subscribe_consumer`. -/
structure Settings where
  consumer : Config
  durable : Option Bool := none
  initialPosition : InitialPosition := .Latest
  operationRetryOptions : OperationRetryOptions := {}
  /-- `batch_size` is a `u32` -/
  batchSize_lt : consumer.batchSize < 2 ^ 32

/-- The fields of `CommandSubscribe` that say where the subscription starts. -/
structure Subscribe where
  durable : Option Bool
  initialPosition : Int
  startMessageId : Option MessageIdData
  deriving DecidableEq, Repr

/-- `messages::subscribe`, with the options the engine was made with. -/
def Settings.subscribe (c : Settings) : Subscribe where
  durable := c.durable
  initialPosition :=
    match c.initialPosition with
    | .Earliest => 1
    | .Latest => 0
  startMessageId := c.consumer.options.startMessageId

/-- The await that `reconnect` is at. -/
inductive Phase where
  /-- `close_consumer` -/
  | closing
  /-- `lookup_topic` -/
  | lookup
  /-- `get_connection` -/
  | connecting
  /-- `subscribe`, with the registration or without -/
  | subscribing (currentRetries : Nat) (registered : Bool)
  /-- `handle_retry_error`: the delay, its `lookup_topic`, its `get_connection` -/
  | delaying (currentRetries : Nat)
  | retryLookup (currentRetries : Nat)
  | retryConnecting (currentRetries : Nat)
  /-- `send_flow` -/
  | granting
  deriving DecidableEq, Repr

inductive Note where
  /-- a `Subscribe` is answered -/
  | subscribed (source : Nat) (command : Subscribe)
  /-- a `Flow` is sent -/
  | granted (messagePermits : Nat)
  /-- the engine takes a broker message -/
  | received (source : Nat) (m : PulsarClient.Message)
  deriving DecidableEq, Repr

structure Session where
  consumer : State
  /-- while the engine is in `reconnect` -/
  phase : Option Phase := none
  /-- `self.connection` -/
  connection : Nat := 0
  errors : Nat → SharedError := fun _ => SharedError.new
  /-- the receiver of the connection is running -/
  running : Nat → Bool := fun _ => true
  /-- the source that is registered on a connection -/
  consumers : Nat → Option Nat
  /-- the source of the last `retry_subscribe_consumer` -/
  resolver : Nat := 0
  /-- `self.messages_rx` -/
  messagesRx : Option Nat
  /-- the sources with a forwarder -/
  forwarded : List Nat := []
  /-- where the queued events come from -/
  origins : List (Option Nat) := []
  log : List Note

inductive SessionAction where
  /-- a step of the engine or of the application that is none of those below -/
  | inner (a : Action)
  /-- the forwarder of a source -/
  | arrive (source : Nat) (m : Option PulsarClient.Message)
  | top
  | flow (err : Option ConnectionError)
  | next
  /-- `close_consumer` returns -/
  | closed
  | lookedUp (err : Option Error)
  | connected (result : Except ConnectionError Nat)
  | subscribed (err : Option ConnectionError)
  | delayed
  | granted (err : Option ConnectionError)
  /-- an error is stored in the cell of a connection; its receiver ends, or goes on -/
  | fails (connection : Nat) (e : ConnectionError) (ends : Bool)
  /-- another holder of a connection calls `error()` -/
  | taken (connection : Nat)
  /-- `TopicConsumer::close`, on a connection that the application was given -/
  | close (connection : Nat)

/-! ## The steps -/

/-- The actions of `Consumer.Engine` that are not refined here. -/
def Action.inner : Action → Bool
  | arrive _ => false
  | top _ => false
  | reconnected _ => false
  | flow _ => false
  | next => false
  | _ => true

/-- The actions of the forwarder of the requests. -/
def Action.forwards : Action → Bool
  | forward => true
  | forwardEnd => true
  | _ => false

/-- `num_messages_in_batch` is an `i32`. -/
def wellTyped (m : PulsarClient.Message) : Bool :=
  match m.payload.bind fun p => p.metadata.numMessagesInBatch with
  | some n => decide (-2 ^ 31 ≤ n) && decide (n < 2 ^ 31)
  | none => true

namespace Session

/-- A request has no source. -/
def originsAfter (s : Session) (a : Action) : List (Option Nat) :=
  if a.forwards then s.origins ++ [none] else s.origins

/-- The broker message that is taken. -/
def receipt (s : Session) : List Note :=
  match s.consumer.events, s.origins with
  | .Message (some m) :: _, some source :: _ => [.received source m]
  | _, _ => []

/-- `(self.batch_size as i64 - self.remaining_messages) as u32` -/
def permits (c : Settings) (s : Session) : Nat :=
  ((c.consumer.batchSize - s.consumer.remainingMessages : Int) % 2 ^ 32).toNat

/-- The permits that a step gives. -/
def grant (c : Settings) (s : Session) (err : Option ConnectionError) : List Note :=
  if s.consumer.wantsFlow c.consumer ∧ err = none then [.granted (s.permits c)] else []

/-- `error.set(..)` in the cell of a connection. -/
def setError (s : Session) (connection : Nat) (e : ConnectionError) : Session :=
  { s with errors := Function.update s.errors connection ((s.errors connection).set e) }

/-- `close_consumer`: the source is unregistered, unless the receiver is gone. -/
def closeConsumer (s : Session) (connection : Nat) : Session :=
  if s.running connection then
    { s with consumers := Function.update s.consumers connection none }
  else s.setError connection .Disconnected

/-- `reconnect` begins. -/
def reconnect (s : Session) : Session :=
  { s.closeConsumer s.connection with phase := some .closing }

/-- `subscribe`: the source is registered, unless the receiver is gone. -/
def subscribe (s : Session) (currentRetries : Nat) : Session :=
  if s.running s.connection then
    { s with
      consumers := Function.update s.consumers s.connection (some s.resolver)
      phase := some (.subscribing currentRetries true) }
  else
    { s.setError s.connection .Disconnected with phase := some (.subscribing currentRetries false) }

/-- `register_source` for a new `messages_rx`. -/
def registerSource (s : Session) : Session :=
  { s with
    messagesRx := none
    forwarded := s.messagesRx.toList ++ s.forwarded }

/-- `reconnect` ends with an error. -/
def abandon (c : Settings) (s : Session) (e : Error) : Option Session :=
  (Consumer.step c.consumer s.consumer (.reconnected (some e))).map fun consumer =>
    { s with
      consumer
      phase := none }

def step (c : Settings) (s : Session) : SessionAction → Option Session
  | .inner a =>
    if a.inner then
      (Consumer.step c.consumer s.consumer a).map fun consumer =>
        { s with
          consumer
          origins := s.originsAfter a }
    else none
  | .arrive source m =>
    if source ∈ s.forwarded ∧ m.all wellTyped then
      (Consumer.step c.consumer s.consumer (.arrive m)).map fun consumer =>
        { s with
          consumer
          origins := s.origins ++ [some source] }
    else none
  | .top =>
    if (s.errors s.connection).isSet then
      -- `error()` clears the flag; the engine reconnects if there was an error behind it
      let s' :=
        { s with errors := Function.update s.errors s.connection (s.errors s.connection).remove }
      if (s.errors s.connection).removed.isSome then
        (Consumer.step c.consumer s.consumer (.top true)).map fun consumer =>
          { s' with consumer }.reconnect
      else
        (Consumer.step c.consumer s.consumer (.top false)).map fun consumer =>
          { s' with consumer }.registerSource
    else
      (Consumer.step c.consumer s.consumer (.top false)).map fun consumer =>
        { s with consumer }.registerSource
  | .flow err =>
    (Consumer.step c.consumer s.consumer (.flow err)).map fun consumer =>
      { s with
        consumer
        log := s.log ++ s.grant c err }
  | .next =>
    (Consumer.step c.consumer s.consumer .next).map fun consumer =>
      let s' :=
        { s with
          consumer
          origins := s.origins.tail
          log := s.log ++ s.receipt }
      if consumer.pc = .reconnecting true then s'.reconnect else s'
  | .closed =>
    match s.phase with
    -- an error is logged only
    | some .closing => some { s with phase := some .lookup }
    | _ => none
  | .lookedUp err =>
    match s.phase, err with
    | some .lookup, none => some { s with phase := some .connecting }
    | some (.retryLookup n), none => some { s with phase := some (.retryConnecting n) }
    | some .lookup, some e => s.abandon c e
    | some (.retryLookup _), some e => s.abandon c e
    | _, _ => none
  | .connected result =>
    match s.phase, result with
    | some .connecting, .ok connection =>
      some ({ s with connection, resolver := s.resolver + 1 }.subscribe 0)
    | some (.retryConnecting n), .ok connection => some ({ s with connection }.subscribe (n + 1))
    | some .connecting, .error e => s.abandon c (.Connection e)
    | some (.retryConnecting _), .error e => s.abandon c (.Connection e)
    | _, _ => none
  | .subscribed err =>
    match s.phase, err with
    | some (.subscribing _ true), none =>
      some { s with
        phase := some .granting
        log := s.log ++ [.subscribed s.resolver c.subscribe] }
    | some (.subscribing n registered), some e =>
      if registered ∨ e = .Disconnected then
        if e.retryableOperation ∧ c.operationRetryOptions.allowRetry n then
          some { s with phase := some (.delaying n) }
        else s.abandon c (.Connection e)
      else none
    | _, _ => none
  | .delayed =>
    match s.phase with
    | some (.delaying n) => some { s with phase := some (.retryLookup n) }
    | _ => none
  | .granted err =>
    match s.phase, err with
    | some .granting, none =>
      (Consumer.step c.consumer s.consumer (.reconnected none)).map fun consumer =>
        let s' :=
          { s with
            consumer
            phase := none
            messagesRx := some s.resolver
            log := s.log ++ [.granted c.consumer.batchSize] }
        -- called from the top of the loop, it returns to the lines that register the source
        if consumer.pc = .flow then s'.registerSource else s'
    | some .granting, some e => s.abandon c (.Consumer (.Connection e))
    | _, _ => none
  | .fails connection e ends =>
    some { s.setError connection e with
      running := if ends then Function.update s.running connection false else s.running
      consumers := if ends then Function.update s.consumers connection none else s.consumers }
  | .taken connection =>
    some { s with errors := Function.update s.errors connection (s.errors connection).remove }
  | .close connection => some (s.closeConsumer connection)

end Session

/-- Subscribed, with the first permits granted, and the engine about to start. -/
def Settings.start (c : Settings) : Session where
  consumer := { remainingMessages := c.consumer.batchSize }
  consumers := Function.update (fun _ => none) 0 (some 0)
  messagesRx := some 0
  log := [.subscribed 0 c.subscribe, .granted c.consumer.batchSize]

/-- A consumer with its engine and its connections, from the subscription on. -/
def session (c : Settings) : Sys Session SessionAction where
  init s := s = c.start
  step := Session.step c

/-- A consumer with its defaults. -/
def defaults : Settings where
  consumer :=
    { codecs :=
        { decodeSingleMessageMetadata := fun _ => none
          decompress := fun _ _ b => .ok b } }
  batchSize_lt := by decide

/-- The broker has closed the consumer. -/
def closedByBroker : PulsarClient.Message where
  command := { closeConsumer := some { consumerId := 0, requestId := 0 } }
  payload := none

/-! ## What a step is -/

/-- Neither a subscription nor its first permits are under way. -/
def Phase.early : Phase → Bool
  | subscribing _ _ => false
  | granting => false
  | _ => true

/-- The step of `Consumer.Engine` that an action is. -/
def SessionAction.engine : SessionAction → Option Action
  | inner a => some a
  | arrive _ m => some (.arrive m)
  | next => some .next
  | _ => none

/-- With this action `reconnect` ends with an error. -/
def Session.abandons (c : Settings) (s : Session) : SessionAction → Bool
  | .lookedUp (some _) => true
  | .connected (.error _) => true
  | .subscribed (some e) =>
    match s.phase with
    | some (.subscribing n _) => !(e.retryableOperation && c.operationRetryOptions.allowRetry n)
    | _ => false
  | .granted (some _) => true
  | _ => false

/-- The steps of a session. -/
inductive Turn (c : Settings) (s : Session) : SessionAction → Session → Prop where
  | inner {a consumer} (ha : a.inner = true) (hs : step c.consumer s.consumer a = some consumer) :
    Turn c s (.inner a)
      { s with
        consumer
        origins := s.originsAfter a }
  | arrive {source m} (hsource : source ∈ s.forwarded) (hm : m.all wellTyped = true) :
    Turn c s (.arrive source m)
      { s with
        consumer := { s.consumer with events := s.consumer.events ++ [.Message m] }
        origins := s.origins ++ [some source] }
  | lost (hpc : s.consumer.pc = .top) (hset : (s.errors s.connection).isSet = true) :
    Turn c s .top
      { s with
        consumer := { s.consumer with pc := .reconnecting false }
        errors := Function.update s.errors s.connection
          (s.errors s.connection).remove }.reconnect
  /-- no error behind the flag -/
  | cleared (hpc : s.consumer.pc = .top) (hset : (s.errors s.connection).isSet = true)
    (hremoved : (s.errors s.connection).removed = none) :
    Turn c s .top
      { s with
        consumer := { s.consumer with pc := .flow }
        errors := Function.update s.errors s.connection
          (s.errors s.connection).remove }.registerSource
  | valid (hpc : s.consumer.pc = .top) (hset : (s.errors s.connection).isSet = false) :
    Turn c s .top { s with consumer := { s.consumer with pc := .flow } }.registerSource
  | flow {err consumer} (hs : step c.consumer s.consumer (.flow err) = some consumer) :
    Turn c s (.flow err)
      { s with
        consumer
        log := s.log ++ s.grant c err }
  | next {consumer} (hs : step c.consumer s.consumer .next = some consumer)
    (hpc : consumer.pc ≠ .reconnecting true) :
    Turn c s .next
      { s with
        consumer
        origins := s.origins.tail
        log := s.log ++ s.receipt }
  /-- the broker has closed the consumer -/
  | closed {consumer} (hs : step c.consumer s.consumer .next = some consumer)
    (hpc : consumer.pc = .reconnecting true) :
    Turn c s .next
      { s with
        consumer
        origins := s.origins.tail
        log := s.log ++ s.receipt }.reconnect
  | awaits {a phase phase'} (hengine : a.engine = none) (hphase : s.phase = some phase)
    (hearly : phase'.early = true) : Turn c s a { s with phase := some phase' }
  | connected {connection} (hphase : s.phase = some .connecting) :
    Turn c s (.connected (.ok connection))
      ({ s with connection, resolver := s.resolver + 1 }.subscribe 0)
  | retried {connection n} (hphase : s.phase = some (.retryConnecting n)) :
    Turn c s (.connected (.ok connection)) ({ s with connection }.subscribe (n + 1))
  | subscribed {n} (hphase : s.phase = some (.subscribing n true)) :
    Turn c s (.subscribed none)
      { s with
        phase := some .granting
        log := s.log ++ [.subscribed s.resolver c.subscribe] }
  /-- `reconnect` is over, at the top of the loop or for a `CloseConsumer` -/
  | granted (hphase : s.phase = some .granting) (hpc : s.consumer.pc = .reconnecting false) :
    Turn c s (.granted none)
      { s with
        consumer := { s.consumer with remainingMessages := c.consumer.batchSize, pc := .flow }
        phase := none
        messagesRx := some s.resolver
        log := s.log ++ [Note.granted c.consumer.batchSize] }.registerSource
  | regranted (hphase : s.phase = some .granting) (hpc : s.consumer.pc = .reconnecting true) :
    Turn c s (.granted none)
      { s with
        consumer := { s.consumer with remainingMessages := c.consumer.batchSize, pc := .top }
        phase := none
        messagesRx := some s.resolver
        log := s.log ++ [.granted c.consumer.batchSize] }
  | abandoned {a e consumer phase} (ha : s.abandons c a = true) (hphase : s.phase = some phase)
    (hs : step c.consumer s.consumer (.reconnected (some e)) = some consumer) :
    Turn c s a
      { s with
        consumer
        phase := none }
  | fails {connection e ends} :
    Turn c s (.fails connection e ends)
      { s.setError connection e with
        running := if ends then Function.update s.running connection false else s.running
        consumers := if ends then Function.update s.consumers connection none else s.consumers }
  | taken {connection} :
    Turn c s (.taken connection)
      { s with errors := Function.update s.errors connection (s.errors connection).remove }
  | close {connection} : Turn c s (.close connection) (s.closeConsumer connection)

section

variable {c : Settings} {s s' : Session}

theorem turn_abandon {a : SessionAction} {e : Error} {phase : Phase} (ha : s.abandons c a = true)
    (hphase : s.phase = some phase) (hs : s.abandon c e = some s') : Turn c s a s' := by
  obtain ⟨consumer, h, rfl⟩ := Option.map_eq_some_iff.mp hs
  exact .abandoned ha hphase h

theorem turn_top (hs : s.step c .top = some s') : Turn c s .top s' := by
  have htop : ∀ {lost : Bool} {consumer : State},
      step c.consumer s.consumer (.top lost) = some consumer →
        s.consumer.pc = .top ∧
          consumer = { s.consumer with pc := if lost then .reconnecting false else .flow } := by
    intro lost consumer h
    cases step_moves h with
    | top hpc => exact ⟨hpc, rfl⟩
  simp only [Session.step] at hs
  split at hs
  · rename_i hset
    split at hs
    · obtain ⟨consumer, h, rfl⟩ := Option.map_eq_some_iff.mp hs
      obtain ⟨hpc, rfl⟩ := htop h
      exact .lost hpc hset
    · rename_i hremoved
      obtain ⟨consumer, h, rfl⟩ := Option.map_eq_some_iff.mp hs
      obtain ⟨hpc, rfl⟩ := htop h
      exact .cleared hpc hset (Option.not_isSome_iff_eq_none.mp hremoved)
  · rename_i hset
    obtain ⟨consumer, h, rfl⟩ := Option.map_eq_some_iff.mp hs
    obtain ⟨hpc, rfl⟩ := htop h
    exact .valid hpc (Bool.eq_false_iff.mpr hset)

theorem turn_granted (hs : s.step c (.granted none) = some s') : Turn c s (.granted none) s' := by
  simp only [Session.step] at hs
  split at hs
  · rename_i hphase _
    obtain ⟨consumer, h, rfl⟩ := Option.map_eq_some_iff.mp hs
    cases step_moves h with
    | reconnected hpc =>
      rename_i closed
      cases closed with
      | false => exact .granted hphase hpc
      | true => exact .regranted hphase hpc
  · exact absurd ‹none = some _› (Option.some_ne_none _).symm
  · exact absurd hs (Option.some_ne_none s').symm

/-- **The inversion lemma** for the step of a session. -/
theorem turn {a : SessionAction} (hs : s.step c a = some s') : Turn c s a s' := by
  cases a with
  | inner a =>
    simp only [Session.step] at hs
    split at hs
    · rename_i ha
      obtain ⟨consumer, h, rfl⟩ := Option.map_eq_some_iff.mp hs
      exact .inner ha h
    · exact absurd hs (Option.some_ne_none s').symm
  | arrive source m =>
    simp only [Session.step] at hs
    split at hs
    · rename_i harrive
      obtain ⟨consumer, h, rfl⟩ := Option.map_eq_some_iff.mp hs
      obtain rfl := Option.some.inj h
      exact .arrive harrive.1 harrive.2
    · exact absurd hs (Option.some_ne_none s').symm
  | top => exact turn_top hs
  | flow err =>
    obtain ⟨consumer, h, rfl⟩ := Option.map_eq_some_iff.mp hs
    exact .flow h
  | next =>
    obtain ⟨consumer, h, rfl⟩ := Option.map_eq_some_iff.mp hs
    by_cases hpc : consumer.pc = .reconnecting true
    · rw [if_pos hpc]
      exact .closed h hpc
    · rw [if_neg hpc]
      exact .next h hpc
  | closed =>
    simp only [Session.step] at hs
    split at hs
    · rename_i hphase
      obtain rfl := Option.some.inj hs
      exact .awaits rfl hphase rfl
    · exact absurd hs (Option.some_ne_none s').symm
  | lookedUp err =>
    simp only [Session.step] at hs
    split at hs
    · rename_i hphase
      obtain rfl := Option.some.inj hs
      exact .awaits rfl hphase rfl
    · rename_i n hphase
      obtain rfl := Option.some.inj hs
      exact .awaits rfl hphase rfl
    · rename_i e hphase
      exact turn_abandon rfl hphase hs
    · rename_i n e hphase
      exact turn_abandon rfl hphase hs
    · exact absurd hs (Option.some_ne_none s').symm
  | connected result =>
    simp only [Session.step] at hs
    split at hs
    · rename_i connection hphase
      obtain rfl := Option.some.inj hs
      exact .connected hphase
    · rename_i n connection hphase
      obtain rfl := Option.some.inj hs
      exact .retried hphase
    · rename_i e hphase
      exact turn_abandon rfl hphase hs
    · rename_i n e hphase
      exact turn_abandon rfl hphase hs
    · exact absurd hs (Option.some_ne_none s').symm
  | subscribed err =>
    simp only [Session.step] at hs
    split at hs
    · rename_i n hphase
      obtain rfl := Option.some.inj hs
      exact .subscribed hphase
    · rename_i n registered e hphase
      split at hs
      · split at hs
        · obtain rfl := Option.some.inj hs
          exact .awaits rfl hphase rfl
        · rename_i hretry
          have ha : s.abandons c (.subscribed (some e)) = true := by
            simp only [Session.abandons, hphase, Bool.not_eq_true', Bool.and_eq_false_iff]
            rcases not_and_or.mp hretry with h | h
            · exact Or.inl (Bool.eq_false_iff.mpr h)
            · exact Or.inr (Bool.eq_false_iff.mpr h)
          exact turn_abandon ha hphase hs
      · exact absurd hs (Option.some_ne_none s').symm
    · exact absurd hs (Option.some_ne_none s').symm
  | delayed =>
    simp only [Session.step] at hs
    split at hs
    · rename_i n hphase
      obtain rfl := Option.some.inj hs
      exact .awaits rfl hphase rfl
    · exact absurd hs (Option.some_ne_none s').symm
  | granted err =>
    cases err with
    | none => exact turn_granted hs
    | some e =>
      simp only [Session.step] at hs
      split at hs
      · exact absurd ‹some _ = none› (Option.some_ne_none _)
      · rename_i hphase _
        exact turn_abandon rfl hphase hs
      · exact absurd hs (Option.some_ne_none s').symm
  | fails connection e ends =>
    obtain rfl := Option.some.inj hs
    exact .fails
  | taken connection =>
    obtain rfl := Option.some.inj hs
    exact .taken
  | close connection =>
    obtain rfl := Option.some.inj hs
    exact .close

end

/-! ## Frames -/

namespace Session

/-- Only the connections change, and where `reconnect` is. -/
structure Frame (s s' : Session) : Prop where
  consumer : s'.consumer = s.consumer
  connection : s'.connection = s.connection
  resolver : s'.resolver = s.resolver
  messagesRx : s'.messagesRx = s.messagesRx
  forwarded : s'.forwarded = s.forwarded
  origins : s'.origins = s.origins
  log : s'.log = s.log

theorem frame_closeConsumer (s : Session) (connection : Nat) : Frame s (s.closeConsumer connection) := by
  unfold closeConsumer
  split
  · exact ⟨rfl, rfl, rfl, rfl, rfl, rfl, rfl⟩
  · exact ⟨rfl, rfl, rfl, rfl, rfl, rfl, rfl⟩

theorem frame_reconnect (s : Session) : Frame s s.reconnect := by
  obtain ⟨hc, hk, hr, hm, hf, ho, hl⟩ := s.frame_closeConsumer s.connection
  exact ⟨hc, hk, hr, hm, hf, ho, hl⟩

theorem frame_subscribe (s : Session) (currentRetries : Nat) : Frame s (s.subscribe currentRetries) := by
  unfold subscribe
  split
  · exact ⟨rfl, rfl, rfl, rfl, rfl, rfl, rfl⟩
  · exact ⟨rfl, rfl, rfl, rfl, rfl, rfl, rfl⟩

/-- The phase that `subscribe` leaves. -/
theorem phase_subscribe (s : Session) (currentRetries : Nat) :
    ∃ registered, (s.subscribe currentRetries).phase = some (.subscribing currentRetries registered) := by
  unfold subscribe
  split
  · exact ⟨true, rfl⟩
  · exact ⟨false, rfl⟩

end Session

/-! ## The session refines the engine -/

section

variable {c : Settings} {s s' : Session}

/-- A step of the session is the step of the engine that it is made of, or one of the lines around
    `reconnect`, or none. -/
theorem Turn.consumer {a : SessionAction} (h : Turn c s a s') :
    (∃ b, a.engine = some b ∧ step c.consumer s.consumer b = some s'.consumer) ∨
      a.engine = none ∧ (s'.consumer = s.consumer ∨
        ∃ b, ((∃ lost, b = .top lost) ∨ (∃ err, b = .reconnected err) ∨ ∃ err, b = .flow err) ∧
          step c.consumer s.consumer b = some s'.consumer) := by
  cases h with
  | inner ha hs => exact Or.inl ⟨_, rfl, hs⟩
  | arrive => exact Or.inl ⟨.arrive _, rfl, rfl⟩
  | lost hpc hset =>
    refine Or.inr ⟨rfl, Or.inr ⟨.top true, Or.inl ⟨true, rfl⟩, ?_⟩⟩
    rw [(Session.frame_reconnect _).consumer]
    exact if_pos hpc
  | cleared hpc => exact Or.inr ⟨rfl, Or.inr ⟨.top false, Or.inl ⟨false, rfl⟩, if_pos hpc⟩⟩
  | valid hpc => exact Or.inr ⟨rfl, Or.inr ⟨.top false, Or.inl ⟨false, rfl⟩, if_pos hpc⟩⟩
  | flow hs => exact Or.inr ⟨rfl, Or.inr ⟨_, Or.inr (Or.inr ⟨_, rfl⟩), hs⟩⟩
  | next hs => exact Or.inl ⟨_, rfl, hs⟩
  | closed hs =>
    refine Or.inl ⟨.next, rfl, ?_⟩
    rw [(Session.frame_reconnect _).consumer]
    exact hs
  | awaits hengine => exact Or.inr ⟨hengine, Or.inl rfl⟩
  | connected => exact Or.inr ⟨rfl, Or.inl (Session.frame_subscribe _ _).consumer⟩
  | retried => exact Or.inr ⟨rfl, Or.inl (Session.frame_subscribe _ _).consumer⟩
  | subscribed => exact Or.inr ⟨rfl, Or.inl rfl⟩
  | granted hphase hpc =>
    refine Or.inr ⟨rfl, Or.inr ⟨.reconnected none, Or.inr (Or.inl ⟨none, rfl⟩), ?_⟩⟩
    simp only [step, hpc]
    rfl
  | regranted hphase hpc =>
    refine Or.inr ⟨rfl, Or.inr ⟨.reconnected none, Or.inr (Or.inl ⟨none, rfl⟩), ?_⟩⟩
    simp only [step, hpc]
    rfl
  | abandoned ha hphase hs =>
    have hengine : a.engine = none := by
      cases a with
      | inner b => exact absurd ha Bool.false_ne_true
      | arrive source m => exact absurd ha Bool.false_ne_true
      | next => exact absurd ha Bool.false_ne_true
      | _ => rfl
    exact Or.inr ⟨hengine, Or.inr ⟨_, Or.inr (Or.inl ⟨_, rfl⟩), hs⟩⟩
  | fails => exact Or.inr ⟨rfl, Or.inl rfl⟩
  | taken => exact Or.inr ⟨rfl, Or.inl rfl⟩
  | close => exact Or.inr ⟨rfl, Or.inl (Session.frame_closeConsumer s _).consumer⟩

/-- **Refinement.**  The engine of a session runs as `Consumer.Engine` says, so that what is proved of
    every run of a consumer holds in every session. -/
theorem session_refines {ok : Session → SessionAction → Prop} {t : Session}
    (ht : (session c).ReachIf ok t) : (consumer c.consumer).Reach t.consumer := by
  apply ht.inv fun t => (consumer c.consumer).Reach t.consumer
  · rintro t rfl
    exact .init rfl
  · intro s a s' hreach _ hs
    rcases (turn hs).consumer with ⟨b, -, hb⟩ | ⟨-, heq | ⟨b, -, hb⟩⟩
    · exact .step hreach trivial hb
    · rw [heq]
      exact hreach
    · exact .step hreach trivial hb

end

end PulsarClient.Consumer
