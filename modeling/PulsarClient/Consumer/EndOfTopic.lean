/-
  THE END OF THE TOPIC — are the messages before it still acknowledged?

  `ReachedEndOfTopic` comes in the queue of events like any message, and the engine returns on it.  With
  the engine goes the receiving end of the event queue, and what is in it; `Drop` closes the consumer at
  the broker.  The application still holds the sending end of the requests: the forwarder behind it
  notices only when it fails to pass a request on.

  1. The SYSTEM (`ending`): a consumer on a healthy connection, with the point at which the broker sent
     the end of the topic, and the acks that were refused or answered by a `CommandAck`.

  2. FIFO (`Inv.fifo`): while the engine runs, the acks that were accepted are those answered, followed
     by those queued.

  3. `keepsAcks` — the condition: when the engine stops no later ack is queued, and none is made
     afterwards.  `strandsNothing_iff` — it is exact, along every run.

  4. `ack_stranded` — one message, the end of the topic, and two acks.
-/
import PulsarClient.Consumer.Deadlock
import PulsarClient.Consumer.SessionInvariant

namespace PulsarClient.Consumer.EndOfTopic

open Runs Proto

/-! ## The system -/

/-- An ack: its message, and whether it is cumulative. -/
abbrev Ack := MessageIdData × Bool

structure State where
  consumer : Consumer.State
  /-- the number of acks at the time when the broker sent `ReachedEndOfTopic` -/
  endSent : Option Nat := none
  /-- the forwarder of the requests has ended, and `engine_rx` with it -/
  closed : Bool := false
  /-- what the application has read -/
  read : List MessageIdData := []
  /-- the acks that a `CommandAck` was sent for -/
  answered : List Ack := []
  /-- the acks that returned an error -/
  refused : List Ack := []

inductive Action where
  /-- the broker sends `ReachedEndOfTopic` -/
  | sendEnd
  /-- `TopicConsumer::ack`, or `cumulative_ack` -/
  | ack (messageId : MessageIdData) (cumulative : Bool)
  /-- everything else -/
  | world (a : Consumer.Action)

/-- The ack of the application that is being sent.  That of a dead letter goes on with its entry. -/
def sending : Pc → List Ack
  | .acking messageId cumulative .top => [(messageId, cumulative)]
  | _ => []

def ackOf : EngineMessage → Option Ack
  | .Ack messageId cumulative => some (messageId, cumulative)
  | _ => none

def eventAck : Event → Option Ack
  | .EngineMessage (some r) => ackOf r
  | _ => none

/-- The acks on their way, in order. -/
def pending (s : Consumer.State) : List Ack :=
  sending s.pc ++ s.events.filterMap eventAck ++ s.requests.filterMap ackOf

/-- The ack that a step answers. -/
def answers (s : Consumer.State) : Consumer.Action → List Ack
  | .sent true => sending s.pc
  | _ => []

/-- The message that a step hands to the application. -/
def reads (s : Consumer.State) : Consumer.Action → List MessageIdData
  | .read =>
    match s.messages with
    | .Ok messageId _ :: _ => [messageId]
    | _ => []
  | _ => []

/-- What does not happen on a healthy connection. -/
def fails : Consumer.Action → Bool
  | .flow (some _) => true
  | .reconnected (some _) => true
  | .sent false => true
  | _ => false

namespace State

/-- The end of the topic comes in when it has been sent; a request needs its channel. -/
def allows (s : State) : Consumer.Action → Bool
  | .ack _ _ => false
  | .arrive (some m) => m.command.reachedEndOfTopic.isNone || s.endSent.isSome
  | .forward => !s.closed
  | .forwardEnd => !s.closed
  | .nack _ => !s.closed
  | .getConnection => !s.closed
  | .tick => !s.closed
  | _ => true

/-- The forwarder has nobody to pass a request to: it ends, and drops what it has. -/
def breaks (s : State) : Option State :=
  if s.consumer.requests = [] then none
  else
    some { s with
      consumer := { s.consumer with requests := [] }
      closed := true }

def step (c : Config) (s : State) : Action → Option State
  | .sendEnd =>
    if s.endSent = none then some { s with endSent := some s.consumer.acked.length } else none
  | .ack messageId cumulative =>
    if s.consumer.dropped = false ∧ messageId ∈ s.read then
      if s.closed then some { s with refused := s.refused ++ [(messageId, cumulative)] }
      else
        (Consumer.step c s.consumer (.ack messageId cumulative)).map fun consumer =>
          { s with consumer }
    else none
  | .world a =>
    if fails a = false ∧ s.allows a then
      if s.consumer.pc = .gone ∧ a = .forward then s.breaks
      else
        (Consumer.step c s.consumer a).map fun consumer =>
          { s with
            consumer
            read := s.read ++ reads s.consumer a
            answered := s.answered ++ answers s.consumer a }
    else none

/-- The acks made since the end of the topic was sent that have no `CommandAck`. -/
def unanswered (s : State) : List Ack :=
  match s.endSent with
  | some n => s.consumer.acked.drop (max n s.answered.length)
  | none => []

end State

/-- A consumer with its engine, from the subscription on. -/
def ending (c : Config) : Sys State Action where
  init s := s = { consumer := { remainingMessages := c.batchSize } }
  step := State.step c

/-- No ack is refused, and when the engine has ended — and its `Drop` closes the consumer — every later
    one has been answered. -/
def StrandsNothing (s : State) : Prop :=
  s.refused = [] ∧ (s.consumer.pc = .gone → s.unanswered = [])

/-! ## The condition -/

/-- A message with an entry that is broken. -/
def broken (c : Config) : Event → Bool
  | .Message (some m) =>
    m.command.reachedEndOfTopic.isNone && m.command.activeConsumerChange.isNone &&
      match m.command.message, m.payload with
      | some message, some payload => !(unpack c.codecs message.messageId payload).toBool
      | _, _ => false
  | _ => false

/-- The engine stops with this step: at the end of the topic, at the end of the requests, or with
    something to push, when the consumer is dropped. -/
def stops (c : Config) (s : Consumer.State) : Consumer.Action → Bool
  | .next => s.events.head?.any fun e => e.ends || s.dropped && broken c e
  | .item =>
    match s.pc with
    | .payload redeliveryCount ((messageId, _) :: _) =>
      s.dropped && !isBeforeStartMessage c.topic c.options messageId && !c.deadLetters redeliveryCount
    | _ => false
  | .published (some _) => s.dropped
  | _ => false

/-- No ack made since the end of the topic was sent is queued. -/
def State.settled (s : State) : Bool :=
  match s.endSent with
  | some n => decide (s.consumer.acked.length ≤ n) || (pending s.consumer).isEmpty
  | none => true

def keepsAcks (c : Config) (s : State) : Action → Bool
  | .sendEnd => true
  | .ack _ _ => decide (s.consumer.pc ≠ .gone)
  | .world a => !stops c s.consumer a || s.settled

/-! ## When the engine stops -/

section

variable {c : Config} {s s' : Consumer.State}

theorem gone_push (d : Delivery) (resume : Resume) :
    (s.push c d resume).pc = .gone ↔ s.dropped = true := by
  unfold State.push
  cases hd : s.dropped with
  | true => exact ⟨fun _ => rfl, fun _ => rfl⟩
  | false =>
    rw [if_neg Bool.false_ne_true]
    refine ⟨fun hpc => ?_, fun h => absurd h Bool.false_ne_true⟩
    split at hpc
    · cases hpc
    · cases resume with
      | top => cases hpc
      | payload redeliveryCount rest => cases hpc

theorem gone_item (redeliveryCount : Option Nat) (items : List (MessageIdData × Payload))
    (hpc : s.pc = .payload redeliveryCount items) :
    (s.item c redeliveryCount items).pc = .gone ↔ stops c s .item = true := by
  cases items with
  | nil => simp [State.item, stops, hpc]
  | cons i rest =>
    obtain ⟨messageId, payload⟩ := i
    rw [item_cons]
    by_cases hbefore : isBeforeStartMessage c.topic c.options messageId = true
    · simp [stops, hpc, hbefore]
    · by_cases hdead : c.deadLetters redeliveryCount = true
      · simp [stops, hpc, hbefore, hdead]
      · simp [stops, hpc, hbefore, hdead, gone_push]

/-- Taking an event. -/
theorem gone_handle {e : Event} (h : Handles c s e s') :
    s'.pc = .gone ↔ (e.ends || s.dropped && broken c e) = true := by
  rw [Bool.or_eq_true, Bool.and_eq_true]
  cases h with
  | endOfTopic hend => exact ⟨fun _ => Or.inl hend, fun _ => rfl⟩
  | requestsEnd => exact ⟨fun _ => Or.inl rfl, fun _ => rfl⟩
  | broken hend hchange hmessage hpayload hunpack =>
    rw [gone_push]
    simp [Event.ends, EndOfTopic.broken, Consumer.State.spend, hend, hchange, hmessage, hpayload, hunpack,
      Except.toBool]
  | change hend hchange => simp [Event.ends, EndOfTopic.broken, hend, Option.isSome_iff_ne_none.mp hchange]
  | entry hend hchange hmessage hpayload hunpack =>
    simp [Event.ends, EndOfTopic.broken, hend, hmessage, hpayload, hunpack, Except.toBool]
  | empty hend hchange hmessage hpayload => simp [Event.ends, EndOfTopic.broken, hend, hmessage, hpayload]
  | closed hend hchange hmessage | ignored hend hchange hmessage =>
    simp [Event.ends, EndOfTopic.broken, hend, hmessage]
  | source | ack | nack | settled | ticked | getConnection =>
    refine ⟨(fun h => by cases h), ?_⟩
    rintro (h | ⟨-, h⟩)
    · cases h
    · cases h

theorem gone_top (p q : Pc) (lost : Bool) (hp : p ≠ .gone) (hq : q ≠ .gone) :
    (if lost then p else q) ≠ .gone := by
  cases lost with
  | true => exact hp
  | false => exact hq

theorem pc_ne_gone (resume : Resume) : resume.pc ≠ .gone := by
  cases resume with
  | top => exact Pc.noConfusion
  | payload redeliveryCount rest => exact Pc.noConfusion

/-- **When the engine stops**, on a healthy connection. -/
theorem gone_iff {a : Consumer.Action} (h : Moves c s a s') (ha : fails a = false)
    (hpc : s.pc ≠ .gone) : s'.pc = .gone ↔ stops c s a = true := by
  have hgoes : ∀ {p : Pc}, p ≠ .gone → stops c s a = false → (p = .gone ↔ stops c s a = true) :=
    fun hp hstops => ⟨fun h => absurd h hp, fun h => absurd (hstops.symm.trans h) Bool.false_ne_true⟩
  cases h with
  | arrive | forward | forwardEnd | read | ack | nack | getConnection | dropRequest | dropConsumer
  | tick | clock => exact hgoes hpc rfl
  | top => exact hgoes (gone_top _ _ _ Pc.noConfusion Pc.noConfusion) rfl
  | reconnected => exact hgoes (gone_top _ _ _ Pc.noConfusion Pc.noConfusion) rfl
  | granted | enough | timeout | published | asked => exact hgoes Pc.noConfusion rfl
  | stopped | reported | refused => cases ha
  | next _ hev =>
    rw [gone_handle (handle_cases _ _ _)]
    unfold stops
    rw [hev]
    rfl
  | item hpayload => exact gone_item _ _ hpayload
  | unpublished => exact gone_push _ _
  | acked => exact hgoes (pc_ne_gone _) rfl
  | unparked => exact hgoes (pc_ne_gone _) rfl
  | released => exact hgoes (pc_ne_gone _) rfl

/-- An engine that has stopped neither stops nor answers. -/
theorem gone_stays {a : Consumer.Action} (h : Moves c s a s') (hpc : s.pc = .gone) :
    s'.pc = .gone ∧ stops c s a = false ∧ answers s a = [] := by
  obtain ⟨hpc', hidle⟩ := gone_moves h hpc
  refine ⟨hpc', ?_, ?_⟩
  · unfold stops
    split
    · cases hidle
    · cases hidle
    · cases hidle
    · rfl
  · unfold answers
    split
    · rw [hpc]
      rfl
    · rfl

/-! ## The queue of acks -/

/-- The ack that an action of the application makes. -/
def makes : Consumer.Action → List Ack
  | .ack messageId cumulative => [(messageId, cumulative)]
  | _ => []

theorem acked_moves {a : Consumer.Action} (h : Moves c s a s') : s'.acked = s.acked ++ makes a := by
  cases h with
  | ack => rfl
  | reported | unpublished => exact (local_push _ _ _).acked.trans (List.append_nil _).symm
  | item => exact (local_item _ _ _).acked.trans (List.append_nil _).symm
  | next => exact (handle_keeps (handle_cases _ _ _)).1.trans (List.append_nil _).symm
  | _ => exact (List.append_nil _).symm

theorem sending_of_noAck {p : Pc} (h : ∀ messageId cumulative resume, p ≠ .acking messageId cumulative resume) :
    sending p = [] := by
  cases p with
  | acking messageId cumulative resume => exact absurd rfl (h messageId cumulative resume)
  | _ => rfl

theorem sending_resume (resume : Resume) : sending resume.pc = [] :=
  sending_of_noAck resume.pc_ne_acking

/-- Where the engine goes does not matter, as long as it sends no ack of the application. -/
theorem pending_move (hev : s'.events = s.events) (hreq : s'.requests = s.requests)
    (hpc : sending s.pc = []) (hpc' : sending s'.pc = []) : pending s' = pending s := by
  unfold pending
  rw [hev, hreq, hpc, hpc']

theorem pending_local (h : Local s s') (hpc : sending s.pc = []) : pending s' = pending s :=
  pending_move h.events h.requests hpc (sending_of_noAck h.noAck)

/-- The engine takes an event: an ack among them is being sent from then on. -/
theorem pending_handle {e : Event} (h : Handles c s e s') (hpc : sending s.pc = []) :
    pending s' = (eventAck e).toList ++ pending s := by
  cases e with
  | Message m => exact pending_local (local_handle h) hpc
  | EngineMessage r =>
    cases h with
    | ack =>
      unfold pending
      rw [hpc]
      rfl
    | requestsEnd | nack | settled | ticked | getConnection => exact pending_move rfl rfl hpc rfl

/-- An event at the end of the queue that holds no ack. -/
theorem pending_event {e : Event} (hev : s'.events = s.events ++ [e]) (he : eventAck e = none)
    (hreq : s'.requests = s.requests) (hpc : s'.pc = s.pc) : pending s' = pending s := by
  unfold pending
  rw [hev, hreq, hpc, List.filterMap_append, List.filterMap_cons_none he, List.filterMap_nil,
    List.append_nil]

/-- A request at the end of the other queue that is none. -/
theorem pending_request {r : EngineMessage} (hr : ackOf r = none)
    (hreq : s'.requests = s.requests ++ [r]) (hev : s'.events = s.events) (hpc : s'.pc = s.pc) :
    pending s' = pending s := by
  unfold pending
  rw [hev, hreq, hpc, List.filterMap_append, List.filterMap_cons_none hr, List.filterMap_nil,
    List.append_nil]

/-- The forwarder moves a request from the one to the other. -/
theorem pending_forward {r : EngineMessage} (hreq : s.requests = r :: s'.requests)
    (hev : s'.events = s.events ++ [.EngineMessage (some r)]) (hpc : s'.pc = s.pc) :
    pending s' = pending s := by
  have hr : eventAck (.EngineMessage (some r)) = ackOf r := rfl
  unfold pending
  rw [hev, hreq, hpc, List.filterMap_append]
  cases hack : ackOf r with
  | none =>
    rw [List.filterMap_cons_none (hr.trans hack), List.filterMap_cons_none hack, List.filterMap_nil,
      List.append_nil]
  | some ack =>
    rw [List.filterMap_cons_some (hr.trans hack), List.filterMap_cons_some hack, List.filterMap_nil,
      ← List.append_assoc, List.append_assoc, List.singleton_append]

/-- The engine takes the head of the queue. -/
theorem pending_tail {e : Event} {rest : List Event} (hev : s.events = e :: rest)
    (hpc : sending s.pc = []) :
    pending s = (eventAck e).toList ++ pending { s with events := rest } := by
  unfold pending
  rw [hev, hpc]
  cases he : eventAck e with
  | none =>
    rw [List.filterMap_cons_none he]
    rfl
  | some ack =>
    rw [List.filterMap_cons_some he]
    rfl

/-- **First in, first out.**  What is made goes to the end of the queue, and what is answered comes from
    its head. -/
theorem pending_moves {a : Consumer.Action} (h : Moves c s a s') (ha : fails a = false) :
    pending s ++ makes a = answers s a ++ pending s' := by
  have hkeep : ∀ {s' : Consumer.State}, pending s' = pending s →
      pending s ++ [] = [] ++ pending s' := fun h => (List.append_nil _).trans h.symm
  -- the engine goes on from a point where it sends no ack of the application
  have hmove : ∀ {p : Pc} {s' : Consumer.State}, s.pc = p → sending p = [] →
      s'.events = s.events → s'.requests = s.requests → sending s'.pc = [] →
      pending s ++ [] = [] ++ pending s' :=
    fun hp hpc hev hreq hpc' => hkeep (pending_move hev hreq (hp ▸ hpc) hpc')
  cases h with
  | arrive | forwardEnd => exact hkeep (pending_event rfl rfl rfl rfl)
  | forward hreq => exact hkeep (pending_forward hreq rfl rfl)
  | top hp =>
    refine hmove hp rfl rfl rfl (sending_of_noAck ?_)
    rename_i lost
    cases lost with
    | true | false => exact fun _ _ _ => Pc.noConfusion
  | reconnected hp =>
    refine hmove hp rfl rfl rfl (sending_of_noAck ?_)
    rename_i closed
    cases closed with
    | true | false => exact fun _ _ _ => Pc.noConfusion
  | granted hp | enough hp => exact hmove hp rfl rfl rfl rfl
  | timeout hp => exact hmove hp rfl rfl rfl rfl
  | stopped | reported | refused => cases ha
  | next hp hev =>
    rename_i e rest
    have hpc : sending s.pc = [] := hp ▸ rfl
    refine hkeep ?_
    rw [pending_tail hev hpc]
    exact pending_handle (handle_cases _ _ e) hpc
  | item hp => exact hkeep (pending_local (local_item s _ _) (hp ▸ rfl))
  | published hp => exact hmove hp rfl rfl rfl rfl
  | unpublished hp => exact hkeep (pending_local (local_push s _ _) (hp ▸ rfl))
  | acked hp =>
    rename_i messageId cumulative resume ok
    cases ok with
    | false => cases ha
    | true =>
      show pending s ++ [] = sending s.pc ++ pending _
      unfold pending
      rw [List.append_nil, sending_resume, hp, List.nil_append, List.append_assoc]
  | asked hp =>
    rename_i messageIds ticker ok
    cases ok with
    | false => cases ha
    | true =>
      show pending s ++ [] = sending s.pc ++ pending _
      rw [hp]
      exact hmove hp rfl rfl rfl rfl
  | unparked _ _ _ hp => exact hmove hp rfl rfl rfl (sending_resume _)
  | read => exact hkeep rfl
  | ack hended =>
    rename_i messageId cumulative
    show pending s ++ [(messageId, cumulative)] = pending _
    unfold pending
    rw [List.filterMap_append, ← List.append_assoc]
    rfl
  | nack | getConnection | tick => exact hkeep (pending_request rfl rfl rfl rfl)
  | dropRequest | clock => exact hkeep rfl
  | released _ _ hp => exact hmove hp rfl rfl rfl (sending_resume _)
  | dropConsumer => exact hkeep rfl

/-- What ends the engine comes from the broker, or from the end of the requests. -/
theorem ends_moves {a : Consumer.Action} (h : Moves c s a s') (e : Event) (hmem : e ∈ s'.events)
    (he : e.ends = true) :
    e ∈ s.events ∨ s.dropped = true ∨ ∃ m, a = .arrive (some m) ∧ m.command.reachedEndOfTopic.isSome := by
  cases h with
  | arrive =>
    rename_i m
    rcases List.mem_append.mp hmem with hold | hnew
    · exact Or.inl hold
    · obtain rfl := List.mem_singleton.mp hnew
      cases m with
      | none => cases he
      | some m => exact Or.inr (Or.inr ⟨m, rfl, he⟩)
  | forward hreq =>
    rcases List.mem_append.mp hmem with hold | hnew
    · exact Or.inl hold
    · obtain rfl := List.mem_singleton.mp hnew
      cases he
  | forwardEnd hdropped => exact Or.inr (Or.inl hdropped)
  | next hp hev =>
    rw [events_handle] at hmem
    exact Or.inl (hev ▸ List.mem_cons_of_mem _ hmem)
  | reported | unpublished => exact Or.inl ((local_push _ _ _).events ▸ hmem)
  | item => exact Or.inl ((local_item _ _ _).events ▸ hmem)
  | _ => exact Or.inl hmem

end

/-! ## The invariant -/

/-- What holds on every run. -/
structure Inv (s : State) : Prop where
  /-- while the engine runs, nothing is lost -/
  fifo : s.consumer.pc ≠ .gone → s.consumer.acked = s.answered ++ pending s.consumer
  answered : s.answered.length ≤ s.consumer.acked.length
  endSent : ∀ n, s.endSent = some n → n ≤ s.consumer.acked.length
  gone : s.consumer.pc = .gone → s.consumer.dropped = true ∨ s.endSent.isSome = true
  ends : ∀ e ∈ s.consumer.events, e.ends = true → s.consumer.dropped = true ∨ s.endSent.isSome = true
  closed : s.closed = true → s.consumer.pc = .gone

section

variable {c : Config} {s s' : State}

theorem Inv.init : Inv { consumer := { remainingMessages := c.batchSize } } where
  fifo := fun _ => rfl
  answered := Nat.le_refl _
  endSent := fun _ h => by cases h
  gone := fun h => by cases h
  ends := fun _ h => by cases h
  closed := fun h => absurd h Bool.false_ne_true

theorem cause_of_stops {consumer : Consumer.State} {a : Consumer.Action}
    (h : stops c consumer a = true) :
    (∃ e ∈ consumer.events, e.ends = true) ∨ consumer.dropped = true := by
  unfold stops at h
  split at h
  · obtain ⟨e, hhead, he⟩ := Option.any_eq_true _ _ |>.mp h
    rw [Bool.or_eq_true, Bool.and_eq_true] at he
    rcases he with hends | ⟨hdropped, -⟩
    · exact Or.inl ⟨e, List.mem_of_mem_head? hhead, hends⟩
    · exact Or.inr hdropped
  · split at h
    · simp only [Bool.and_eq_true] at h
      exact Or.inr h.1.1
    · cases h
  · exact Or.inr h
  · cases h

/-- A step of the consumer. -/
theorem Inv.moves {a : Consumer.Action} (h : Inv s) (hm : Moves c s.consumer a s'.consumer)
    (ha : fails a = false) (hanswered : s'.answered = s.answered ++ answers s.consumer a)
    (hendSent : s'.endSent = s.endSent) (hclosed : s'.closed = s.closed)
    (harrive : ∀ m, a = .arrive (some m) → m.command.reachedEndOfTopic.isSome = true →
      s.endSent.isSome = true) : Inv s' := by
  have hacked := acked_moves hm
  have hpending := pending_moves hm ha
  have hle : s.consumer.acked.length ≤ s'.consumer.acked.length := by
    rw [hacked, List.length_append]
    omega
  constructor
  · intro hpc
    have hpc' : s.consumer.pc ≠ .gone := fun h => hpc (gone_stays hm h).1
    rw [hacked, h.fifo hpc', hanswered, List.append_assoc, hpending, List.append_assoc]
  · rw [hanswered]
    by_cases hpc : s.consumer.pc = .gone
    · rw [(gone_stays hm hpc).2.2, List.append_nil]
      exact Nat.le_trans h.answered hle
    · have hlen := congrArg List.length hpending
      have hfifo := congrArg List.length (h.fifo hpc)
      rw [hacked]
      simp only [List.length_append] at hlen hfifo ⊢
      omega
  · intro n hn
    exact Nat.le_trans (h.endSent n (hendSent ▸ hn)) hle
  · intro hpc'
    rw [hendSent]
    by_cases hpc : s.consumer.pc = .gone
    · exact (h.gone hpc).imp (dropped_moves hm) id
    · rcases cause_of_stops ((gone_iff hm ha hpc).mp hpc') with ⟨e, he, hends⟩ | hdropped
      · exact (h.ends e he hends).imp (dropped_moves hm) id
      · exact Or.inl (dropped_moves hm hdropped)
  · intro e he hends
    rw [hendSent]
    rcases ends_moves hm e he hends with hold | hdropped | ⟨m, rfl, hm'⟩
    · exact (h.ends e hold hends).imp (dropped_moves hm) id
    · exact Or.inl (dropped_moves hm hdropped)
    · exact Or.inr (harrive m rfl hm')
  · intro hc
    exact (gone_stays hm (h.closed (hclosed ▸ hc))).1

/-- The end of the topic comes in when it has been sent. -/
theorem sent_of_allows {m : PulsarClient.Message} (h : s.allows (.arrive (some m)) = true)
    (hm : m.command.reachedEndOfTopic.isSome = true) : s.endSent.isSome = true := by
  unfold State.allows at h
  rcases Bool.or_eq_true _ _ |>.mp h with hnone | hsome
  · rw [Option.isNone_iff_eq_none] at hnone
    rw [hnone] at hm
    cases hm
  · exact hsome

/-- The forwarder fails only behind an engine that has ended. -/
theorem Inv.breaks (h : Inv s) (hpc : s.consumer.pc = .gone) (hs : s.breaks = some s') : Inv s' := by
  unfold State.breaks at hs
  split at hs
  · cases hs
  · obtain rfl := Option.some.inj hs
    exact ⟨fun hne => absurd hpc hne, h.answered, h.endSent, h.gone, h.ends, fun _ => hpc⟩

theorem Inv.step {a : Action} (h : Inv s) (hs : (ending c).step s a = some s') : Inv s' := by
  cases a with
  | sendEnd =>
    simp only [ending, State.step, Option.ite_none_right_eq_some, Option.some.injEq] at hs
    obtain ⟨-, rfl⟩ := hs
    refine ⟨h.fifo, h.answered, ?_, fun _ => Or.inr rfl, fun _ _ _ => Or.inr rfl, h.closed⟩
    intro n hn
    obtain rfl := Option.some.inj hn
    exact Nat.le_refl _
  | ack messageId cumulative =>
    simp only [ending, State.step] at hs
    split at hs
    · split at hs
      · obtain rfl := Option.some.inj hs
        exact ⟨h.fifo, h.answered, h.endSent, h.gone, h.ends, h.closed⟩
      · obtain ⟨consumer, hconsumer, rfl⟩ := Option.map_eq_some_iff.mp hs
        exact h.moves (step_moves hconsumer) rfl (List.append_nil _).symm rfl rfl fun _ ha => by cases ha
    · cases hs
  | world a =>
    simp only [ending, State.step] at hs
    split at hs
    · rename_i hok
      split at hs
      · rename_i hbreaks
        exact h.breaks hbreaks.1 hs
      · obtain ⟨consumer, hconsumer, rfl⟩ := Option.map_eq_some_iff.mp hs
        refine h.moves (step_moves hconsumer) hok.1 rfl rfl rfl ?_
        rintro m rfl hm
        exact sent_of_allows hok.2 hm
    · cases hs

end

/-! ## One step -/

section

variable {c : Config} {s s' : State}

/-- An ack of a stopped engine is never answered. -/
theorem unanswered_concat {n : Nat} {ack : Ack} (h : Inv s) (hn : s.endSent = some n)
    (hendSent : s'.endSent = s.endSent) (hacked : s'.consumer.acked = s.consumer.acked ++ [ack])
    (hanswered : s'.answered = s.answered) : s'.unanswered ≠ [] := by
  unfold State.unanswered
  rw [hendSent, hn, hacked, hanswered]
  intro hnil
  have hlen := List.drop_eq_nil_iff.mp hnil
  have := h.endSent n hn
  have := h.answered
  rw [List.length_append, List.length_singleton] at hlen
  omega

/-- When the engine stops, what is queued is left. -/
theorem unanswered_iff_settled (h : Inv s) (hpc : s.consumer.pc ≠ .gone)
    (hendSent : s'.endSent = s.endSent) (hacked : s'.consumer.acked = s.consumer.acked)
    (hanswered : s'.answered = s.answered) : s'.unanswered = [] ↔ s.settled = true := by
  unfold State.unanswered State.settled
  rw [hendSent, hacked, hanswered]
  cases s.endSent with
  | none => exact ⟨fun _ => rfl, fun _ => rfl⟩
  | some n =>
    have hfifo := congrArg List.length (h.fifo hpc)
    rw [List.length_append] at hfifo
    simp only [List.drop_eq_nil_iff, Bool.or_eq_true, decide_eq_true_eq, List.isEmpty_iff_length_eq_zero]
    omega

/-- An ack keeps the promise as long as the engine runs. -/
theorem ack_iff {messageId : MessageIdData} {cumulative : Bool} (h : Inv s) (hp : StrandsNothing s)
    (hs : (ending c).step s (.ack messageId cumulative) = some s') :
    StrandsNothing s' ↔ s.consumer.pc ≠ .gone := by
  simp only [ending, State.step] at hs
  split at hs
  · rename_i halive
    split at hs
    · rename_i hclosed
      obtain rfl := Option.some.inj hs
      constructor
      · rintro ⟨hrefused, -⟩
        exact absurd hrefused (List.append_ne_nil_of_right_ne_nil _ (List.cons_ne_nil _ _))
      · intro hpc
        exact absurd (h.closed hclosed) hpc
    · obtain ⟨consumer, hconsumer, rfl⟩ := Option.map_eq_some_iff.mp hs
      cases step_moves hconsumer with
      | ack =>
        constructor
        · rintro ⟨-, hunanswered⟩ hpc
          obtain ⟨n, hn⟩ := Option.isSome_iff_exists.mp
            ((h.gone hpc).resolve_left (Bool.eq_false_iff.mp halive.1))
          refine absurd (hunanswered hpc) ?_
          exact unanswered_concat h hn rfl rfl rfl
        · intro hpc
          exact ⟨hp.1, fun hgone => absurd hgone hpc⟩
  · cases hs

/-- Another step keeps it, unless the engine stops. -/
theorem moves_iff {a : Consumer.Action} (h : Inv s) (hp : StrandsNothing s)
    (hm : Moves c s.consumer a s'.consumer) (ha : fails a = false) (hmakes : makes a = [])
    (hanswered : s'.answered = s.answered ++ answers s.consumer a) (hendSent : s'.endSent = s.endSent)
    (hrefused : s'.refused = s.refused) :
    StrandsNothing s' ↔ (!stops c s.consumer a || s.settled) = true := by
  have hacked : s'.consumer.acked = s.consumer.acked := by
    rw [acked_moves hm, hmakes, List.append_nil]
  have hrefused' : s'.refused = [] := hrefused.trans hp.1
  by_cases hpc : s.consumer.pc = .gone
  · obtain ⟨-, hstops, hanswers⟩ := gone_stays hm hpc
    have hsame : s'.unanswered = s.unanswered := by
      unfold State.unanswered
      rw [hendSent, hacked, hanswered, hanswers, List.append_nil]
    rw [hstops]
    exact ⟨fun _ => rfl, fun _ => ⟨hrefused', fun _ => hsame.trans (hp.2 hpc)⟩⟩
  · cases hstops : stops c s.consumer a with
    | false =>
      refine ⟨fun _ => rfl, fun _ => ⟨hrefused', fun hgone => ?_⟩⟩
      have := (gone_iff hm ha hpc).mp hgone
      rw [hstops] at this
      cases this
    | true =>
      have hgone := (gone_iff hm ha hpc).mpr hstops
      have hanswers : answers s.consumer a = [] := by
        cases a with
        | sent ok => cases hstops
        | _ => rfl
      rw [hanswers, List.append_nil] at hanswered
      have hiff := unanswered_iff_settled h hpc hendSent hacked hanswered
      exact ⟨fun ⟨_, hunanswered⟩ => hiff.mp (hunanswered hgone),
        fun hsettled => ⟨hrefused', fun _ => hiff.mpr hsettled⟩⟩

/-- **The step lemma**: a step keeps the promise exactly when it meets the condition. -/
theorem strandsNothing_step_iff {a : Action} (h : Inv s) (hp : StrandsNothing s)
    (hs : (ending c).step s a = some s') : StrandsNothing s' ↔ keepsAcks c s a = true := by
  cases a with
  | sendEnd =>
    simp only [ending, State.step, Option.ite_none_right_eq_some, Option.some.injEq] at hs
    obtain ⟨-, rfl⟩ := hs
    refine ⟨fun _ => rfl, fun _ => ⟨hp.1, fun _ => ?_⟩⟩
    exact List.drop_eq_nil_iff.mpr (Nat.le_max_left _ _)
  | ack messageId cumulative =>
    rw [ack_iff h hp hs]
    exact decide_eq_true_iff.symm
  | world a =>
    simp only [ending, State.step] at hs
    split at hs
    · rename_i hok
      split at hs
      · rename_i hbreaks
        obtain ⟨hpc, rfl⟩ := hbreaks
        unfold State.breaks at hs
        split at hs
        · cases hs
        · obtain rfl := Option.some.inj hs
          exact ⟨fun _ => rfl, fun _ => ⟨hp.1, fun _ => hp.2 hpc⟩⟩
      · obtain ⟨consumer, hconsumer, rfl⟩ := Option.map_eq_some_iff.mp hs
        refine moves_iff h hp (step_moves hconsumer) hok.1 ?_ rfl rfl rfl
        cases a with
        | ack messageId cumulative => exact absurd hok.2 Bool.false_ne_true
        | _ => rfl
    · cases hs

end

/-! ## The main result -/

/-- **Headline.**  A run strands no ack exactly when in each of its steps the engine stops only with no
    later ack queued, and the application acks only while the engine runs. -/
theorem strandsNothing_iff (c : Config) (as : List Action) :
    (ending c).Along StrandsNothing { consumer := { remainingMessages := c.batchSize } } as ↔
      (ending c).Guarded (fun s a => keepsAcks c s a = true)
        { consumer := { remainingMessages := c.batchSize } } as := by
  refine Sys.along_iff_guarded (I := Inv) (fun _ _ _ h hs => h.step hs)
    (fun _ _ _ h hp hs => strandsNothing_step_iff h hp hs) as _ Inv.init ⟨rfl, ?_⟩
  intro hpc
  cases hpc

/-- The end of the topic. -/
def reachedEnd : PulsarClient.Message :=
  { command := { reachedEndOfTopic := some { consumerId := 0 } } }

/-- The application reads a message, the engine takes the end of the topic, and the application acks:
    the first ack is accepted and lost, the second is refused. -/
theorem ack_stranded : ∃ s, (ending (plain 1)).Reach s ∧ s.consumer.dropped = false ∧
    s.consumer.acked = [({ ledgerId := 1, entryId := 0 }, false)] ∧ s.answered = [] ∧
    s.refused = [({ ledgerId := 1, entryId := 0 }, false)] ∧ ¬ StrandsNothing s := by
  obtain ⟨s, hs, hp⟩ := Sys.exists_reach_of_exec (S := ending (plain 1))
    (p := fun s => decide (s.consumer.dropped = false ∧
      s.consumer.acked = [({ ledgerId := 1, entryId := 0 }, false)] ∧ s.answered = [] ∧
      s.refused = [({ ledgerId := 1, entryId := 0 }, false)]))
    (s := { consumer := { remainingMessages := 1000 } }) rfl
    [.world (.arrive (some (single 0))), .world (.top false), .world (.flow none), .world .next,
      .world .item, .world .item, .world .read, .sendEnd, .world (.arrive (some reachedEnd)),
      .world (.top false), .world (.flow none), .world .next,
      .ack { ledgerId := 1, entryId := 0 } false, .world .forward,
      .ack { ledgerId := 1, entryId := 0 } false] (by decide +kernel)
  obtain ⟨hdropped, hacked, hanswered, hrefused⟩ := of_decide_eq_true hp
  refine ⟨s, hs, hdropped, hacked, hanswered, hrefused, fun hkept => ?_⟩
  rw [hkept.1] at hrefused
  cases hrefused

end PulsarClient.Consumer.EndOfTopic
