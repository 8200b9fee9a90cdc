/-
  `ConsumerEngine` and `TopicConsumer`: TWO TASKS AND TWO CHANNELS.

  The engine owns the subscription.  It waits on one queue of EVENTS — broker messages, and requests of
  the application — and pushes the messages it unpacks into the BOUNDED channel that the application
  reads.  The application never touches the connection: it acks, and asks for the connection, through
  the unbounded request channel, which a forwarder task drains into the event queue.

  * The bounded channel is `futures::channel::mpsc` with one sender: a send always stores its item; it
    is suspended (`Pc.parked`) afterwards if that made more items than the buffer holds, until the
    application has taken one.

  * The forwarder of the broker's messages is not modelled apart: what it has not forwarded is not in
    the state, and `arrive` is one forwarding.  The same goes for the sources of older subscriptions.

  * A step is one piece of code between two awaits.  What the broker, the dead-letter producer, the
    connection and the clock answer is part of the action.

  Logs that the code does not have: what the client sent for the consumer (`sent`), what the
  application acknowledged (`acked`), and which dead-letter publishes returned a receipt
  (`deadLettered`).
-/
import PulsarClient.Consumer.Payload
import PulsarClient.Lib.Runs

namespace PulsarClient.Consumer

open Runs Proto

/-! ## The data -/

/-- `EngineMessage`.  A `GetConnection` carries the number of the request it answers. -/
inductive EngineMessage where
  | Ack (messageId : MessageIdData) (cumulative : Bool)
  | Nack (messageId : MessageIdData)
  | UnackedRedelivery
  | GetConnection (request : Nat)
  deriving DecidableEq, Repr

/-- `EngineEvent` -/
inductive Event where
  | Message (m : Option PulsarClient.Message)
  | EngineMessage (m : Option EngineMessage)
  deriving DecidableEq, Repr

/-- What the engine sends on the connection for its consumer. -/
inductive Command where
  | flow (messagePermits : Nat)
  | ack (messageId : MessageIdData) (cumulative : Bool)
  | redeliver (messageIds : List MessageIdData)
  deriving DecidableEq, Repr

/-- What the application reads. -/
inductive Delivery where
  | Ok (messageId : MessageIdData) (payload : Payload)
  | Err (e : Error)
  deriving DecidableEq, Repr

/-- What the engine is made with. -/
structure Config where
  topic : String := "t"
  batchSize : Nat := 1000
  unackedMessageRedeliveryDelay : Option Nat := none
  deadLetterPolicy : Option DeadLetterPolicy := none
  options : ConsumerOptions := {}
  codecs : Codecs

/-- The buffer of the channel to the application. -/
def Config.receiverQueueSize (c : Config) : Nat := c.options.receiverQueueSize.getD 1000

/-- Where the engine goes on after an await. -/
inductive Resume where
  /-- back to the top of its loop -/
  | top
  /-- with the rest of the entry -/
  | payload (redeliveryCount : Option Nat) (rest : List (MessageIdData × Payload))
  deriving DecidableEq, Repr

inductive Pc where
  /-- the top of the loop -/
  | top
  /-- in `reconnect`, called from the top or for a `CloseConsumer` -/
  | reconnecting (closed : Bool)
  /-- past the sources, before the permits -/
  | flow
  /-- `event_rx.next()`, for a second at most -/
  | waiting
  /-- the loop of `process_payload` -/
  | payload (redeliveryCount : Option Nat) (rest : List (MessageIdData × Payload))
  /-- the dead-letter publish, until its receipt -/
  | publishing (messageId : MessageIdData) (redeliveryCount : Option Nat)
      (rest : List (MessageIdData × Payload))
  /-- `send_ack(..).await` -/
  | acking (messageId : MessageIdData) (cumulative : Bool) (resume : Resume)
  /-- `send_redeliver_unacknowleged_messages(..).await`, for a nack or for the ticker -/
  | redelivering (messageIds : List MessageIdData) (ticker : Bool)
  /-- suspended in `tx.send`: the channel is over its buffer; what is to be remembered afterwards -/
  | parked (unacked : Option (MessageIdData × Nat)) (resume : Resume)
  | gone
  deriving DecidableEq, Repr

def Resume.pc : Resume → Pc
  | top => .top
  | payload redeliveryCount rest => .payload redeliveryCount rest

structure State where
  pc : Pc := .top
  remainingMessages : Int
  /-- when an unacknowledged message is to be redelivered -/
  unackedMessages : List (MessageIdData × Nat) := []
  now : Nat := 0
  /-- `event_rx` -/
  events : List Event := []
  /-- `engine_rx`, not forwarded yet -/
  requests : List EngineMessage := []
  /-- the bounded channel -/
  messages : List Delivery := []
  /-- the request that the application awaits in `connection()` -/
  waiting : Option Nat := none
  /-- the number of the next request -/
  nextRequest : Nat := 0
  /-- the application has dropped the consumer, or every sender of requests is gone -/
  dropped : Bool := false
  ended : Bool := false
  sent : List Command := []
  acked : List (MessageIdData × Bool) := []
  deadLettered : List MessageIdData := []
  deriving DecidableEq

inductive Action where
  /-- a forwarder puts a broker message, or the end of a source, into the event queue -/
  | arrive (m : Option PulsarClient.Message)
  /-- the forwarder of the requests -/
  | forward
  | forwardEnd
  /-- the top of the loop; is the connection lost? -/
  | top (lost : Bool)
  | reconnected (err : Option Error)
  /-- the permits; the outcome of `send_flow` -/
  | flow (err : Option ConnectionError)
  /-- nothing came for a second -/
  | timeout
  /-- the engine takes an event -/
  | next
  /-- the engine takes a message of the entry -/
  | item
  | published (err : Option Error)
  /-- an ack, or a redelivery request, is enqueued, or fails -/
  | sent (ok : Bool)
  /-- the application -/
  | read
  | ack (messageId : MessageIdData) (cumulative : Bool)
  | nack (messageId : MessageIdData)
  | getConnection
  /-- … drops the future of `connection()`, or learns that the engine is gone -/
  | dropRequest
  | dropConsumer
  /-- the redelivery ticker -/
  | tick
  | clock
  deriving DecidableEq

namespace State

/-- A `tx.send` is over: a delivered message is remembered, and the engine goes on. -/
def pushed (s : State) (unacked : Option (MessageIdData × Nat)) (resume : Resume) : State :=
  { s with
    unackedMessages :=
      match unacked with
      | some (messageId, t) =>
        (s.unackedMessages.filter fun u => u.1 ≠ messageId) ++ [(messageId, t)]
      | none => s.unackedMessages
    pc := resume.pc }

/-- What is remembered of a delivery: a message, until when it may stay unacknowledged. -/
def remembered (c : Config) (s : State) : Delivery → Option (MessageIdData × Nat)
  | .Ok messageId _ => c.unackedMessageRedeliveryDelay.map fun delay => (messageId, s.now + delay)
  | .Err _ => none

/-- The engine pushes into the channel, and goes on, or is suspended.  A push to a consumer that is
    gone is an error, and so is the push of that error: the engine stops. -/
def push (c : Config) (s : State) (d : Delivery) (resume : Resume) : State :=
  if s.dropped then { s with pc := .gone }
  else if c.receiverQueueSize < s.messages.length + 1 then
    { s with messages := s.messages ++ [d], pc := .parked (s.remembered c d) resume }
  else { s with messages := s.messages ++ [d] }.pushed (s.remembered c d) resume

/-- `process_message` -/
def processMessage (c : Config) (s : State) (m : PulsarClient.Message) : State :=
  if m.command.reachedEndOfTopic.isSome then { s with pc := .gone }
  else if m.command.activeConsumerChange.isSome then { s with pc := .top }
  else
    match m.command.message, m.payload with
    | some message, some payload =>
      match unpack c.codecs message.messageId payload with
      | .ok items => { s with pc := .payload message.redeliveryCount items }
      | .error e => s.push c (.Err e) .top
    | some _, none => { s with pc := .top }
    | none, _ =>
      if m.command.closeConsumer.isSome then { s with pc := .reconnecting true }
      else { s with pc := .top }

/-- `handle_message_opt` -/
def handleMessage (c : Config) (s : State) : Option PulsarClient.Message → State
  | none => { s with pc := .top }
  | some m =>
    let permits : Int := (m.payload.bind fun p => p.metadata.numMessagesInBatch).getD 1
    { s with remainingMessages := s.remainingMessages - permits }.processMessage c m

/-- `handle_ack_opt` -/
def handleRequest (s : State) : Option EngineMessage → State
  | none => { s with pc := .gone }
  | some (.Ack messageId cumulative) =>
    { s with
      unackedMessages := s.unackedMessages.filter fun u => u.1 ≠ messageId
      pc := .acking messageId cumulative .top }
  | some (.Nack messageId) => { s with pc := .redelivering [messageId] false }
  | some .UnackedRedelivery =>
    let ids := (s.unackedMessages.filter fun u => u.2 < s.now).map Prod.fst
    if ids.isEmpty then { s with pc := .top } else { s with pc := .redelivering ids true }
  | some (.GetConnection request) =>
    { s with
      waiting := if s.waiting = some request then none else s.waiting
      pc := .top }

def handle (c : Config) (s : State) : Event → State
  | .Message m => s.handleMessage c m
  | .EngineMessage m => s.handleRequest m

end State

/-- The dead-letter policy applies to an entry with this redelivery count. -/
def Config.deadLetters (c : Config) (redeliveryCount : Option Nat) : Bool :=
  match redeliveryCount, c.deadLetterPolicy with
  | some redeliveryCount, some policy => decide (policy.maxRedeliverCount ≤ redeliveryCount)
  | _, _ => false

/-- One round of the loop of `process_payload`. -/
def State.item (c : Config) (s : State) (redeliveryCount : Option Nat) :
    List (MessageIdData × Payload) → State
  | [] => { s with pc := .top }
  | (messageId, payload) :: rest =>
    if isBeforeStartMessage c.topic c.options messageId then
      { s with pc := .payload redeliveryCount rest }
    else if c.deadLetters redeliveryCount then
      { s with pc := .publishing messageId redeliveryCount rest }
    else s.push c (.Ok messageId payload) (.payload redeliveryCount rest)

theorem item_cons (c : Config) (s : State) (redeliveryCount : Option Nat) (messageId : MessageIdData)
    (payload : Payload) (rest : List (MessageIdData × Payload)) :
    s.item c redeliveryCount ((messageId, payload) :: rest) =
      if isBeforeStartMessage c.topic c.options messageId then
        { s with pc := .payload redeliveryCount rest }
      else if c.deadLetters redeliveryCount then
        { s with pc := .publishing messageId redeliveryCount rest }
      else s.push c (.Ok messageId payload) (.payload redeliveryCount rest) := rfl

/-- The permits are running low: `batch_size.div_ceil(2)`. -/
def State.wantsFlow (c : Config) (s : State) : Bool :=
  decide (s.remainingMessages < ((c.batchSize + 1) / 2 : Nat))

def step (c : Config) (s : State) : Action → Option State
  | .arrive m => some { s with events := s.events ++ [.Message m] }
  | .forward =>
    match s.requests with
    | [] => none
    | r :: rest => some { s with requests := rest, events := s.events ++ [.EngineMessage (some r)] }
  | .forwardEnd =>
    if s.dropped ∧ s.requests = [] ∧ s.ended = false then
      some { s with ended := true, events := s.events ++ [.EngineMessage none] }
    else none
  | .top lost =>
    if s.pc = .top then some { s with pc := if lost then .reconnecting false else .flow } else none
  | .reconnected err =>
    match s.pc, err with
    | .reconnecting closed, none =>
      some { s with
        remainingMessages := c.batchSize
        pc := if closed then .top else .flow }
    | .reconnecting false, some _ => some { s with pc := .gone }
    | .reconnecting true, some e => some (s.push c (.Err e) .top)
    | _, _ => none
  | .flow err =>
    if s.pc = .flow then
      if s.wantsFlow c then
        match err with
        | none =>
          some { s with
            sent := s.sent ++ [.flow ((c.batchSize - s.remainingMessages : Int) % 2 ^ 32).toNat]
            remainingMessages := c.batchSize
            pc := .waiting }
        | some .Disconnected => some { s with pc := .top }
        | some _ => some { s with pc := .gone }
      else some { s with pc := .waiting }
    else none
  | .timeout => if s.pc = .waiting then some { s with pc := .top } else none
  | .next =>
    match s.pc, s.events with
    | .waiting, e :: rest => some ({ s with events := rest }.handle c e)
    | _, _ => none
  | .item =>
    match s.pc with
    | .payload redeliveryCount items => some (s.item c redeliveryCount items)
    | _ => none
  | .published err =>
    match s.pc, err with
    | .publishing messageId redeliveryCount rest, none =>
      some { s with
        deadLettered := s.deadLettered ++ [messageId]
        unackedMessages := s.unackedMessages.filter fun u => u.1 ≠ messageId
        pc := .acking messageId false (.payload redeliveryCount rest) }
    -- the error leaves `process_payload`, with the rest of the entry
    | .publishing _ _ _, some e => some (s.push c (.Err e) .top)
    | _, _ => none
  | .sent ok =>
    match s.pc with
    | .acking messageId cumulative resume =>
      some { s with
        sent := if ok then s.sent ++ [.ack messageId cumulative] else s.sent
        pc := resume.pc }
    | .redelivering messageIds ticker =>
      some { s with
        sent := if ok then s.sent ++ [.redeliver messageIds] else s.sent
        unackedMessages :=
          if ok && ticker then s.unackedMessages.filter fun u => u.1 ∉ messageIds
          else s.unackedMessages
        pc := .top }
    | _ => none
  | .read =>
    if s.waiting = none ∧ s.dropped = false then
      match s.messages, s.pc with
      -- the channel is at its buffer again: the suspended send is over
      | _ :: rest, .parked unacked resume =>
        some ({ s with messages := rest }.pushed unacked resume)
      | _ :: rest, _ => some { s with messages := rest }
      | [], _ => none
    else none
  | .ack messageId cumulative =>
    if s.ended then none
    else
      some { s with
        requests := s.requests ++ [.Ack messageId cumulative]
        acked := s.acked ++ [(messageId, cumulative)] }
  | .nack messageId =>
    if s.ended then none else some { s with requests := s.requests ++ [.Nack messageId] }
  | .getConnection =>
    if s.waiting = none ∧ s.dropped = false then
      some { s with
        requests := s.requests ++ [.GetConnection s.nextRequest]
        waiting := some s.nextRequest
        nextRequest := s.nextRequest + 1 }
    else none
  | .dropRequest => some { s with waiting := none }
  | .dropConsumer =>
    if s.waiting = none ∧ s.dropped = false then
      match s.pc with
      -- a suspended send returns when the receiver is dropped
      | .parked unacked resume => some ({ s with dropped := true }.pushed unacked resume)
      | _ => some { s with dropped := true }
    else none
  | .tick =>
    if c.unackedMessageRedeliveryDelay.isSome ∧ s.ended = false then
      some { s with requests := s.requests ++ [.UnackedRedelivery] }
    else none
  | .clock => some { s with now := s.now + 1 }

/-- A consumer with its engine, from the subscription on. -/
def consumer (c : Config) : Sys State Action where
  init s := s = { remainingMessages := c.batchSize }
  step := step c

/-! ## What a step can do -/

/-- The steps, by their branches. -/
inductive Moves (c : Config) (s : State) : Action → State → Prop where
  | arrive {m} : Moves c s (.arrive m) { s with events := s.events ++ [.Message m] }
  | forward {r rest} (hreq : s.requests = r :: rest) :
    Moves c s .forward
      { s with
        requests := rest
        events := s.events ++ [.EngineMessage (some r)] }
  | forwardEnd (hdropped : s.dropped = true) (hreq : s.requests = []) (hended : s.ended = false) :
    Moves c s .forwardEnd
      { s with
        ended := true
        events := s.events ++ [.EngineMessage none] }
  | top {lost} (hpc : s.pc = .top) :
    Moves c s (.top lost) { s with pc := if lost then .reconnecting false else .flow }
  | reconnected {closed} (hpc : s.pc = .reconnecting closed) :
    Moves c s (.reconnected none)
      { s with
        remainingMessages := c.batchSize
        pc := if closed then .top else .flow }
  /-- the error ends the engine, or is told to the application -/
  | stopped {e} (hpc : s.pc = .reconnecting false) :
    Moves c s (.reconnected (some e)) { s with pc := .gone }
  | reported {e} (hpc : s.pc = .reconnecting true) :
    Moves c s (.reconnected (some e)) (s.push c (.Err e) .top)
  | granted (hpc : s.pc = .flow) (hwants : s.wantsFlow c = true) :
    Moves c s (.flow none)
      { s with
        sent := s.sent ++ [.flow ((c.batchSize - s.remainingMessages : Int) % 2 ^ 32).toNat]
        remainingMessages := c.batchSize
        pc := .waiting }
  | refused {err pc} (hpc : s.pc = .flow) (hwants : s.wantsFlow c = true)
    (hpc' : pc = .top ∨ pc = .gone) : Moves c s (.flow (some err)) { s with pc }
  | enough {err} (hpc : s.pc = .flow) (hwants : s.wantsFlow c = false) :
    Moves c s (.flow err) { s with pc := .waiting }
  | timeout (hpc : s.pc = .waiting) : Moves c s .timeout { s with pc := .top }
  | next {e rest} (hpc : s.pc = .waiting) (hev : s.events = e :: rest) :
    Moves c s .next ({ s with events := rest }.handle c e)
  | item {redeliveryCount items} (hpc : s.pc = .payload redeliveryCount items) :
    Moves c s .item (s.item c redeliveryCount items)
  | published {messageId redeliveryCount rest}
    (hpc : s.pc = .publishing messageId redeliveryCount rest) :
    Moves c s (.published none)
      { s with
        deadLettered := s.deadLettered ++ [messageId]
        unackedMessages := s.unackedMessages.filter fun u => u.1 ≠ messageId
        pc := .acking messageId false (.payload redeliveryCount rest) }
  | unpublished {messageId redeliveryCount rest e}
    (hpc : s.pc = .publishing messageId redeliveryCount rest) :
    Moves c s (.published (some e)) (s.push c (.Err e) .top)
  | acked {messageId cumulative resume ok} (hpc : s.pc = .acking messageId cumulative resume) :
    Moves c s (.sent ok)
      { s with
        sent := if ok then s.sent ++ [.ack messageId cumulative] else s.sent
        pc := resume.pc }
  | asked {messageIds ticker ok} (hpc : s.pc = .redelivering messageIds ticker) :
    Moves c s (.sent ok)
      { s with
        sent := if ok then s.sent ++ [.redeliver messageIds] else s.sent
        unackedMessages :=
          if ok && ticker then s.unackedMessages.filter fun u => u.1 ∉ messageIds
          else s.unackedMessages
        pc := .top }
  /-- a read ends a suspended send -/
  | unparked {d rest unacked resume} (hwaiting : s.waiting = none) (hdropped : s.dropped = false)
    (hmessages : s.messages = d :: rest) (hpc : s.pc = .parked unacked resume) :
    Moves c s .read ({ s with messages := rest }.pushed unacked resume)
  | read {d rest} (hwaiting : s.waiting = none) (hdropped : s.dropped = false)
    (hmessages : s.messages = d :: rest) (hpc : ∀ unacked resume, s.pc ≠ .parked unacked resume) :
    Moves c s .read { s with messages := rest }
  | ack {messageId cumulative} (hended : s.ended = false) :
    Moves c s (.ack messageId cumulative)
      { s with
        requests := s.requests ++ [.Ack messageId cumulative]
        acked := s.acked ++ [(messageId, cumulative)] }
  | nack {messageId} (hended : s.ended = false) :
    Moves c s (.nack messageId) { s with requests := s.requests ++ [.Nack messageId] }
  | getConnection (hwaiting : s.waiting = none) (hdropped : s.dropped = false) :
    Moves c s .getConnection
      { s with
        requests := s.requests ++ [.GetConnection s.nextRequest]
        waiting := some s.nextRequest
        nextRequest := s.nextRequest + 1 }
  | dropRequest : Moves c s .dropRequest { s with waiting := none }
  /-- so does dropping the consumer -/
  | released {unacked resume} (hwaiting : s.waiting = none) (hdropped : s.dropped = false)
    (hpc : s.pc = .parked unacked resume) :
    Moves c s .dropConsumer ({ s with dropped := true }.pushed unacked resume)
  | dropConsumer (hwaiting : s.waiting = none) (hdropped : s.dropped = false)
    (hpc : ∀ unacked resume, s.pc ≠ .parked unacked resume) :
    Moves c s .dropConsumer { s with dropped := true }
  | tick (hdelay : c.unackedMessageRedeliveryDelay.isSome = true) (hended : s.ended = false) :
    Moves c s .tick { s with requests := s.requests ++ [.UnackedRedelivery] }
  | clock : Moves c s .clock { s with now := s.now + 1 }

/-- **The inversion lemma** for the step of a consumer. -/
theorem step_moves {c : Config} {s s' : State} {a : Action} (hs : step c s a = some s') :
    Moves c s a s' := by
  cases a with
  | arrive m =>
    obtain rfl := Option.some.inj hs
    exact .arrive
  | forward =>
    simp only [step] at hs
    split at hs
    · exact absurd hs (Option.some_ne_none s').symm
    · rename_i r rest hreq
      obtain rfl := Option.some.inj hs
      exact .forward hreq
  | forwardEnd =>
    simp only [step, Option.ite_none_right_eq_some, Option.some.injEq] at hs
    obtain ⟨⟨hdropped, hreq, hended⟩, rfl⟩ := hs
    exact .forwardEnd hdropped hreq hended
  | top lost =>
    simp only [step, Option.ite_none_right_eq_some, Option.some.injEq] at hs
    obtain ⟨hpc, rfl⟩ := hs
    exact .top hpc
  | reconnected err =>
    simp only [step] at hs
    split at hs
    · rename_i closed hpc
      obtain rfl := Option.some.inj hs
      exact .reconnected hpc
    · rename_i hpc
      obtain rfl := Option.some.inj hs
      exact .stopped hpc
    · rename_i e hpc
      obtain rfl := Option.some.inj hs
      exact .reported hpc
    · exact absurd hs (Option.some_ne_none s').symm
  | flow err =>
    simp only [step] at hs
    split at hs
    · rename_i hpc
      split at hs
      · rename_i hwants
        split at hs
        · obtain rfl := Option.some.inj hs
          exact .granted hpc hwants
        · obtain rfl := Option.some.inj hs
          exact .refused hpc hwants (Or.inl rfl)
        · obtain rfl := Option.some.inj hs
          exact .refused hpc hwants (Or.inr rfl)
      · rename_i hwants
        obtain rfl := Option.some.inj hs
        exact .enough hpc (Bool.eq_false_iff.mpr hwants)
    · exact absurd hs (Option.some_ne_none s').symm
  | timeout =>
    simp only [step, Option.ite_none_right_eq_some, Option.some.injEq] at hs
    obtain ⟨hpc, rfl⟩ := hs
    exact .timeout hpc
  | next =>
    simp only [step] at hs
    split at hs
    · rename_i e rest hpc hev
      obtain rfl := Option.some.inj hs
      exact .next hpc hev
    · exact absurd hs (Option.some_ne_none s').symm
  | item =>
    simp only [step] at hs
    split at hs
    · rename_i redeliveryCount items hpc
      obtain rfl := Option.some.inj hs
      exact .item hpc
    · exact absurd hs (Option.some_ne_none s').symm
  | published err =>
    simp only [step] at hs
    split at hs
    · rename_i messageId redeliveryCount rest hpc
      obtain rfl := Option.some.inj hs
      exact .published hpc
    · rename_i messageId redeliveryCount rest e hpc
      obtain rfl := Option.some.inj hs
      exact .unpublished hpc
    · exact absurd hs (Option.some_ne_none s').symm
  | sent ok =>
    simp only [step] at hs
    split at hs
    · rename_i messageId cumulative resume hpc
      obtain rfl := Option.some.inj hs
      exact .acked hpc
    · rename_i messageIds ticker hpc
      obtain rfl := Option.some.inj hs
      exact .asked hpc
    · exact absurd hs (Option.some_ne_none s').symm
  | read =>
    simp only [step] at hs
    split at hs
    · rename_i hcond
      split at hs
      · rename_i d rest unacked resume hmessages hpc
        obtain rfl := Option.some.inj hs
        exact .unparked hcond.1 hcond.2 hmessages hpc
      · rename_i d rest hmessages hpc
        obtain rfl := Option.some.inj hs
        exact .read hcond.1 hcond.2 hmessages hpc
      · exact absurd hs (Option.some_ne_none s').symm
    · exact absurd hs (Option.some_ne_none s').symm
  | ack messageId cumulative =>
    simp only [step] at hs
    split at hs
    · exact absurd hs (Option.some_ne_none s').symm
    · rename_i hended
      obtain rfl := Option.some.inj hs
      exact .ack (Bool.eq_false_iff.mpr hended)
  | nack messageId =>
    simp only [step] at hs
    split at hs
    · exact absurd hs (Option.some_ne_none s').symm
    · rename_i hended
      obtain rfl := Option.some.inj hs
      exact .nack (Bool.eq_false_iff.mpr hended)
  | getConnection =>
    simp only [step, Option.ite_none_right_eq_some, Option.some.injEq] at hs
    obtain ⟨⟨hwaiting, hdropped⟩, rfl⟩ := hs
    exact .getConnection hwaiting hdropped
  | dropRequest =>
    obtain rfl := Option.some.inj hs
    exact .dropRequest
  | dropConsumer =>
    simp only [step] at hs
    split at hs
    · rename_i hcond
      split at hs
      · rename_i unacked resume hpc
        obtain rfl := Option.some.inj hs
        exact .released hcond.1 hcond.2 hpc
      · rename_i hpc
        obtain rfl := Option.some.inj hs
        exact .dropConsumer hcond.1 hcond.2 hpc
    · exact absurd hs (Option.some_ne_none s').symm
  | tick =>
    simp only [step, Option.ite_none_right_eq_some, Option.some.injEq] at hs
    obtain ⟨⟨hdelay, hended⟩, rfl⟩ := hs
    exact .tick hdelay hended
  | clock =>
    obtain rfl := Option.some.inj hs
    exact .clock

/-! ## What an event does -/

/-- The permits of a broker message are spent. -/
def State.spend (s : State) (m : PulsarClient.Message) : State :=
  { s with remainingMessages :=
      s.remainingMessages - (m.payload.bind fun p => p.metadata.numMessagesInBatch).getD 1 }

/-- What is to be redelivered. -/
def State.overdue (s : State) : List MessageIdData :=
  (s.unackedMessages.filter fun u => u.2 < s.now).map Prod.fst

/-- Taking an event, by the branches of `process_message` and `handle_ack_opt`. -/
inductive Handles (c : Config) (s : State) : Event → State → Prop where
  /-- a source has ended -/
  | source : Handles c s (.Message none) { s with pc := .top }
  | endOfTopic {m} (hend : m.command.reachedEndOfTopic.isSome = true) :
    Handles c s (.Message (some m)) { s.spend m with pc := .gone }
  | change {m} (hend : m.command.reachedEndOfTopic = none)
    (hchange : m.command.activeConsumerChange.isSome = true) :
    Handles c s (.Message (some m)) { s.spend m with pc := .top }
  | entry {m message payload items} (hend : m.command.reachedEndOfTopic = none)
    (hchange : m.command.activeConsumerChange = none) (hmessage : m.command.message = some message)
    (hpayload : m.payload = some payload)
    (hunpack : unpack c.codecs message.messageId payload = .ok items) :
    Handles c s (.Message (some m)) { s.spend m with pc := .payload message.redeliveryCount items }
  | broken {m message payload e} (hend : m.command.reachedEndOfTopic = none)
    (hchange : m.command.activeConsumerChange = none) (hmessage : m.command.message = some message)
    (hpayload : m.payload = some payload)
    (hunpack : unpack c.codecs message.messageId payload = .error e) :
    Handles c s (.Message (some m)) ((s.spend m).push c (.Err e) .top)
  | empty {m message} (hend : m.command.reachedEndOfTopic = none)
    (hchange : m.command.activeConsumerChange = none) (hmessage : m.command.message = some message)
    (hpayload : m.payload = none) : Handles c s (.Message (some m)) { s.spend m with pc := .top }
  | closed {m} (hend : m.command.reachedEndOfTopic = none)
    (hchange : m.command.activeConsumerChange = none) (hmessage : m.command.message = none)
    (hclose : m.command.closeConsumer.isSome = true) :
    Handles c s (.Message (some m)) { s.spend m with pc := .reconnecting true }
  | ignored {m} (hend : m.command.reachedEndOfTopic = none)
    (hchange : m.command.activeConsumerChange = none) (hmessage : m.command.message = none)
    (hclose : m.command.closeConsumer = none) :
    Handles c s (.Message (some m)) { s.spend m with pc := .top }
  /-- nobody can ask any more -/
  | requestsEnd : Handles c s (.EngineMessage none) { s with pc := .gone }
  | ack {messageId cumulative} :
    Handles c s (.EngineMessage (some (.Ack messageId cumulative)))
      { s with
        unackedMessages := s.unackedMessages.filter fun u => u.1 ≠ messageId
        pc := .acking messageId cumulative .top }
  | nack {messageId} :
    Handles c s (.EngineMessage (some (.Nack messageId)))
      { s with pc := .redelivering [messageId] false }
  | settled (hnone : s.overdue.isEmpty = true) :
    Handles c s (.EngineMessage (some .UnackedRedelivery)) { s with pc := .top }
  | ticked (hsome : s.overdue.isEmpty = false) :
    Handles c s (.EngineMessage (some .UnackedRedelivery))
      { s with pc := .redelivering s.overdue true }
  | getConnection {request} :
    Handles c s (.EngineMessage (some (.GetConnection request)))
      { s with
        waiting := if s.waiting = some request then none else s.waiting
        pc := .top }

/-- **The inversion lemma** for an event. -/
theorem handle_cases (c : Config) (s : State) (e : Event) : Handles c s e (s.handle c e) := by
  cases e with
  | Message m =>
    cases m with
    | none => exact .source
    | some m =>
      show Handles c s _ ((s.spend m).processMessage c m)
      unfold State.processMessage
      split
      · rename_i hend
        exact .endOfTopic hend
      · rename_i hend
        have hend := Option.not_isSome_iff_eq_none.mp hend
        split
        · rename_i hchange
          exact .change hend hchange
        · rename_i hchange
          have hchange := Option.not_isSome_iff_eq_none.mp hchange
          split
          · rename_i message payload hmessage hpayload
            split
            · rename_i items hunpack
              exact .entry hend hchange hmessage hpayload hunpack
            · rename_i e hunpack
              exact .broken hend hchange hmessage hpayload hunpack
          · rename_i message hmessage hpayload
            exact .empty hend hchange hmessage hpayload
          · rename_i hmessage
            split
            · rename_i hclose
              exact .closed hend hchange hmessage hclose
            · rename_i hclose
              exact .ignored hend hchange hmessage (Option.not_isSome_iff_eq_none.mp hclose)
  | EngineMessage r =>
    cases r with
    | none => exact .requestsEnd
    | some r =>
      cases r with
      | Ack => exact .ack
      | Nack => exact .nack
      | UnackedRedelivery =>
        show Handles c s _ (if s.overdue.isEmpty then _ else _)
        split
        · rename_i hnone
          exact .settled hnone
        · rename_i hsome
          exact .ticked (Bool.eq_false_iff.mpr hsome)
      | GetConnection => exact .getConnection

/-! ## Frames -/

/-- Working on a broker message touches the engine and its channel only, and does not end in an ack of
    its own. -/
structure Local (s s' : State) : Prop where
  events : s'.events = s.events
  requests : s'.requests = s.requests
  waiting : s'.waiting = s.waiting
  sent : s'.sent = s.sent
  acked : s'.acked = s.acked
  deadLettered : s'.deadLettered = s.deadLettered
  dropped : s'.dropped = s.dropped
  noAck : ∀ messageId cumulative resume, s'.pc ≠ .acking messageId cumulative resume

section

variable {c : Config}

theorem Resume.pc_ne_acking (resume : Resume) (messageId : MessageIdData) (cumulative : Bool)
    (resume' : Resume) : resume.pc ≠ .acking messageId cumulative resume' := by
  cases resume with
  | top => exact Pc.noConfusion
  | payload redeliveryCount rest => exact Pc.noConfusion

/-- Where a push leaves the engine: gone with the application, suspended, or going on. -/
theorem pc_push (s : State) (d : Delivery) (resume : Resume) :
    s.dropped = true ∧ (s.push c d resume).pc = .gone ∨
      (s.push c d resume).pc = .parked (s.remembered c d) resume ∨
      (s.push c d resume).pc = resume.pc := by
  unfold State.push
  split
  next hdropped => exact Or.inl ⟨hdropped, rfl⟩
  next =>
    split
    · exact Or.inr (Or.inl rfl)
    · exact Or.inr (Or.inr rfl)

theorem local_push (s : State) (d : Delivery) (resume : Resume) : Local s (s.push c d resume) := by
  unfold State.push
  split
  · exact ⟨rfl, rfl, rfl, rfl, rfl, rfl, rfl, fun _ _ _ => Pc.noConfusion⟩
  · split
    · exact ⟨rfl, rfl, rfl, rfl, rfl, rfl, rfl, fun _ _ _ => Pc.noConfusion⟩
    · exact ⟨rfl, rfl, rfl, rfl, rfl, rfl, rfl, resume.pc_ne_acking⟩

theorem local_item (s : State) (redeliveryCount : Option Nat)
    (items : List (MessageIdData × Payload)) : Local s (s.item c redeliveryCount items) := by
  cases items with
  | nil => exact ⟨rfl, rfl, rfl, rfl, rfl, rfl, rfl, fun _ _ _ => Pc.noConfusion⟩
  | cons i rest =>
    rw [item_cons]
    split
    · exact ⟨rfl, rfl, rfl, rfl, rfl, rfl, rfl, fun _ _ _ => Pc.noConfusion⟩
    · split
      · exact ⟨rfl, rfl, rfl, rfl, rfl, rfl, rfl, fun _ _ _ => Pc.noConfusion⟩
      · exact local_push s _ _

/-- So it is with a broker message. -/
theorem local_handle {s s' : State} {m : Option PulsarClient.Message} (h : Handles c s (.Message m) s') :
    Local s s' := by
  cases h with
  | broken =>
    obtain ⟨hev, hreq, hw, hsent, hacked, hdl, hd, hno⟩ := local_push (c := c) _ _ _
    exact ⟨hev, hreq, hw, hsent, hacked, hdl, hd, hno⟩
  | _ => exact ⟨rfl, rfl, rfl, rfl, rfl, rfl, rfl, fun _ _ _ => Pc.noConfusion⟩

end

section

variable {c : Config} {s s' : State}

/-- The engine neither makes an ack nor another request or event, and does not drop the consumer. -/
theorem handle_keeps {e : Event} (h : Handles c s e s') :
    s'.acked = s.acked ∧ s'.dropped = s.dropped ∧ s'.requests = s.requests ∧ s'.events = s.events := by
  cases e with
  | Message m =>
    have hlocal := local_handle h
    exact ⟨hlocal.acked, hlocal.dropped, hlocal.requests, hlocal.events⟩
  | EngineMessage r => cases h <;> exact ⟨rfl, rfl, rfl, rfl⟩

theorem dropped_moves {a : Action} (h : Moves c s a s') (hd : s.dropped = true) :
    s'.dropped = true := by
  cases h with
  | reported | unpublished => exact (local_push _ _ _).dropped.trans hd
  | item => exact (local_item _ _ _).dropped.trans hd
  | next => exact (handle_keeps (handle_cases _ _ _)).2.1.trans hd
  | released => rfl
  | dropConsumer => rfl
  | _ => exact hd

end

end PulsarClient.Consumer
