/-
  WHAT A CONSUMER HAS DONE: its runs with a history.

  The state of the consumer forgets the messages that the engine is through with.  A traced consumer
  keeps what came in (`arrived`), what went into the channel of the application (`handed`), and what
  became of the dead letters (`letters`), down to the message that was published.

  1. `traced` — the system, whose steps are those of the consumer.

  2. `flow_step` — the messages that have arrived are done with, in the engine's hands, or queued, IN THIS
     ORDER: a step is done with the first message the engine holds, or with all that is left of the entry.
-/
import PulsarClient.Consumer.DeadLetter
import PulsarClient.Consumer.Delivery

namespace PulsarClient.Consumer

open Runs Proto

/-! ## The history -/

/-- What becomes of a dead letter. -/
inductive LetterEvent where
  /-- `client.send(&dead_letter_topic, message)` -/
  | publish (messageId : MessageIdData) (topic : String) (message : Batching.Message)
  | receipt (messageId : MessageIdData)
  | failed (messageId : MessageIdData)
  /-- the original is acknowledged; does the connection take the ack? -/
  | ack (messageId : MessageIdData) (ok : Bool)
  deriving DecidableEq

structure Traced where
  consumer : State
  /-- the broker's messages, in the order in which they were forwarded -/
  arrived : List Event := []
  /-- what was put into the channel of the application -/
  handed : List MessageIdData := []
  letters : List LetterEvent := []
  deriving DecidableEq

/-- The events that a step brings from the broker. -/
def incoming : Action → List Event
  | .arrive m => [.Message m]
  | _ => []

/-- What a step does for the dead letters. -/
def letterEvents (decode : String → Option Bytes) (c : Config) (s : State) :
    Action → List LetterEvent
  | .item =>
    match s.pc, c.deadLetterPolicy with
    | .payload redeliveryCount ((messageId, payload) :: _), some policy =>
      if isBeforeStartMessage c.topic c.options messageId = false ∧ c.deadLetters redeliveryCount then
        [.publish messageId policy.deadLetterTopic
          (deadLetter decode c.topic messageId payload)]
      else []
    | _, _ => []
  | .published err =>
    match s.pc with
    | .publishing messageId _ _ => [if err.isNone then .receipt messageId else .failed messageId]
    | _ => []
  | .sent ok =>
    match s.pc with
    | .acking messageId _ (.payload _ _) => [.ack messageId ok]
    | _ => []
  | _ => []

def tracedStep (decode : String → Option Bytes) (c : Config) (s : Traced) (a : Action) :
    Option Traced :=
  (step c s.consumer a).map fun consumer =>
    { consumer
      arrived := s.arrived ++ incoming a
      handed := s.handed ++ deliveries c s.consumer a
      letters := s.letters ++ letterEvents decode c s.consumer a }

/-- A consumer with its engine and its history, from the subscription on. -/
def traced (decode : String → Option Bytes) (c : Config) : Sys Traced Action where
  init s := s = { consumer := { remainingMessages := c.batchSize } }
  step := tracedStep decode c

theorem traced_step {decode : String → Option Bytes} {c : Config} {s s' : Traced} {a : Action}
    (hs : (traced decode c).step s a = some s') :
    step c s.consumer a = some s'.consumer ∧ s'.arrived = s.arrived ++ incoming a ∧
      s'.handed = s.handed ++ deliveries c s.consumer a ∧
      s'.letters = s.letters ++ letterEvents decode c s.consumer a := by
  obtain ⟨consumer, hstep, rfl⟩ := Option.map_eq_some_iff.mp hs
  exact ⟨hstep, rfl, rfl, rfl⟩

section

variable {decode : String → Option Bytes} {c : Config} {s : State} {messageId : MessageIdData}
  {redeliveryCount : Option Nat} {rest : List (MessageIdData × Payload)}

theorem letterEvents_published (hpc : s.pc = .publishing messageId redeliveryCount rest) :
    letterEvents decode c s (.published none) = [.receipt messageId] := by
  simp only [letterEvents, hpc]
  rfl

theorem letterEvents_unpublished {err : Error}
    (hpc : s.pc = .publishing messageId redeliveryCount rest) :
    letterEvents decode c s (.published (some err)) = [.failed messageId] := by
  simp only [letterEvents, hpc]
  rfl

theorem letterEvents_sent {cumulative ok : Bool}
    (hpc : s.pc = .acking messageId cumulative (.payload redeliveryCount rest)) :
    letterEvents decode c s (.sent ok) = [.ack messageId ok] := by
  simp only [letterEvents, hpc]

/-- The ack is the application's. -/
theorem letterEvents_sent_top {cumulative ok : Bool} (hpc : s.pc = .acking messageId cumulative .top) :
    letterEvents decode c s (.sent ok) = [] := by
  simp only [letterEvents, hpc]

theorem letterEvents_asked {messageIds : List MessageIdData} {ticker ok : Bool}
    (hpc : s.pc = .redelivering messageIds ticker) : letterEvents decode c s (.sent ok) = [] := by
  simp only [letterEvents, hpc]

end

/-! ## The messages on their way -/

/-- The messages that an event brings, with the redelivery count of their entry. -/
def Event.messages (c : Config) : Event → List (Option Nat × MessageIdData)
  | .Message (some m) =>
    if m.command.reachedEndOfTopic.isSome ∨ m.command.activeConsumerChange.isSome then []
    else (idsOf c m).map fun messageId => (m.command.message.bind (·.redeliveryCount), messageId)
  | _ => []

def Resume.messages : Resume → List (Option Nat × MessageIdData)
  | top => []
  | payload redeliveryCount rest => rest.map fun item => (redeliveryCount, item.1)

/-- The messages that the engine has not looked at. -/
def Pc.messages : Pc → List (Option Nat × MessageIdData)
  | payload redeliveryCount items => items.map fun item => (redeliveryCount, item.1)
  | publishing _ redeliveryCount rest => rest.map fun item => (redeliveryCount, item.1)
  | acking _ _ resume => resume.messages
  | parked _ resume => resume.messages
  | _ => []

/-- What is still to be looked at, in order. -/
def toCome (c : Config) (s : State) : List (Option Nat × MessageIdData) :=
  s.pc.messages ++ s.events.flatMap (Event.messages c)

/-- What a step is done with: the message it looks at, or the rest of the entry. -/
def done (c : Config) (s : State) : Action → List (Option Nat × MessageIdData)
  | .item =>
    match s.pc with
    | .payload redeliveryCount ((messageId, payload) :: rest) =>
      if (s.item c redeliveryCount ((messageId, payload) :: rest)).pc = .gone then
        s.pc.messages
      else [(redeliveryCount, messageId)]
    | _ => []
  | .published (some _) => s.pc.messages
  | _ => []

section

variable {c : Config} {s s' : State} {a : Action}

theorem Resume.messages_pc (resume : Resume) : resume.pc.messages = resume.messages := by
  cases resume with
  | top => rfl
  | payload redeliveryCount rest => rfl

/-- What a push leaves of the entry: the rest, unless the application is gone. -/
theorem messages_push (d : Delivery) (resume : Resume) :
    (s.push c d resume).pc = .gone ∨ (s.push c d resume).pc.messages = resume.messages := by
  rcases pc_push (c := c) s d resume with ⟨-, h⟩ | h | h
  · exact Or.inl h
  · exact Or.inr (congrArg Pc.messages h)
  · exact Or.inr ((congrArg Pc.messages h).trans (Resume.messages_pc resume))

theorem messages_push_top (d : Delivery) : (s.push c d .top).pc.messages = [] := by
  rcases messages_push (c := c) (s := s) d .top with h | h
  · rw [h]
    rfl
  · exact h

/-- An event that the engine takes is in its hands. -/
theorem messages_handle {e : Event} (h : Handles c s e s') : s'.pc.messages = e.messages c := by
  cases h with
  | endOfTopic hend => exact (if_pos (Or.inl hend)).symm
  | change hend hchange => exact (if_pos (Or.inr hchange)).symm
  | entry hend hchange hmessage hpayload hunpack =>
    simp [Pc.messages, Event.messages, hend, hchange, hmessage,
      idsOf_of_unpack hmessage hpayload hunpack]
  | broken hend hchange hmessage hpayload hunpack =>
    rw [messages_push_top]
    simp [Event.messages, idsOf, hend, hchange, hmessage, hpayload, hunpack]
  | empty hend hchange hmessage hpayload =>
    simp [Pc.messages, Event.messages, idsOf, hend, hchange, hmessage, hpayload]
  | closed hend hchange hmessage | ignored hend hchange hmessage =>
    simp [Pc.messages, Event.messages, idsOf, hend, hchange, hmessage]
  | source | requestsEnd | ack | nack | settled | ticked | getConnection => rfl

/-- The loop over the entry goes on behind the first message, or ends. -/
theorem messages_item {redeliveryCount : Option Nat} {items : List (MessageIdData × Payload)}
    (hpc : s.pc = .payload redeliveryCount items) :
    s.pc.messages = done c s .item ++ (s.item c redeliveryCount items).pc.messages := by
  cases items with
  | nil =>
    unfold done
    rw [hpc]
    rfl
  | cons item rest =>
    obtain ⟨messageId, payload⟩ := item
    have hdone : done c s .item =
        if (s.item c redeliveryCount ((messageId, payload) :: rest)).pc = .gone then s.pc.messages
        else [(redeliveryCount, messageId)] := by
      unfold done
      rw [hpc]
    rw [hdone]
    split
    next hgone =>
      rw [hgone]
      exact (List.append_nil _).symm
    next hgone =>
      have hrest : (s.item c redeliveryCount ((messageId, payload) :: rest)).pc.messages =
          rest.map fun item => (redeliveryCount, item.1) := by
        rw [item_cons] at hgone ⊢
        split
        · rfl
        · split
          · rfl
          · rename_i hbefore hdead
            rw [if_neg hbefore, if_neg hdead] at hgone
            exact (messages_push _ _).resolve_left hgone
      rw [hrest, hpc]
      rfl

/-- As long as there is an application, the loop is done with one message at a time. -/
theorem done_cons (hdropped : s.dropped = false) {redeliveryCount : Option Nat}
    {messageId : MessageIdData} {payload : Payload} {rest : List (MessageIdData × Payload)}
    (hpc : s.pc = .payload redeliveryCount ((messageId, payload) :: rest)) :
    done c s .item = [(redeliveryCount, messageId)] := by
  have hgoes : (s.item c redeliveryCount ((messageId, payload) :: rest)).pc ≠ .gone := by
    rw [item_cons]
    split
    · exact Pc.noConfusion
    · split
      · exact Pc.noConfusion
      · rcases pc_push (c := c) s (.Ok messageId payload) (.payload redeliveryCount rest)
          with ⟨hdropped', -⟩ | h | h
        · exact absurd (hdropped.symm.trans hdropped') Bool.false_ne_true
        · rw [h]
          exact Pc.noConfusion
        · rw [h]
          exact Pc.noConfusion
  unfold done
  rw [hpc]
  exact if_neg hgoes

/-- A step that moves the engine outside of an entry, or brings a request. -/
theorem flow_same (hdone : done c s a = []) (hincoming : incoming a = [])
    (hmessages : s'.pc.messages = s.pc.messages)
    (hevents : s'.events = s.events ∨ ∃ r, s'.events = s.events ++ [.EngineMessage r]) :
    toCome c s ++ (incoming a).flatMap (Event.messages c) = done c s a ++ toCome c s' := by
  have hqueue : s'.events.flatMap (Event.messages c) = s.events.flatMap (Event.messages c) := by
    rcases hevents with hevents | ⟨r, hevents⟩
    · rw [hevents]
    · rw [hevents, List.flatMap_append]
      exact List.append_nil _
  unfold toCome
  rw [hdone, hincoming, hmessages, hqueue]
  exact List.append_nil _

/-- **The step lemma.**  What is to come moves up by what the step is done with. -/
theorem flow_step (hs : step c s a = some s') :
    toCome c s ++ (incoming a).flatMap (Event.messages c) = done c s a ++ toCome c s' := by
  have hidle : s.pc.messages = [] → s'.pc.messages = [] → s'.pc.messages = s.pc.messages :=
    fun h h' => h'.trans h.symm
  cases step_moves hs with
  | arrive =>
    unfold toCome incoming
    rw [List.flatMap_append, List.append_assoc]
    rfl
  | forward | forwardEnd => exact flow_same rfl rfl rfl (Or.inr ⟨_, rfl⟩)
  | top hpc =>
    rename_i lost
    refine flow_same rfl rfl (hidle (by rw [hpc]; rfl) ?_) (Or.inl rfl)
    cases lost with
    | true => rfl
    | false => rfl
  | reconnected hpc =>
    rename_i closed
    refine flow_same rfl rfl (hidle (by rw [hpc]; rfl) ?_) (Or.inl rfl)
    cases closed with
    | true => rfl
    | false => rfl
  | stopped hpc => exact flow_same rfl rfl (hidle (by rw [hpc]; rfl) rfl) (Or.inl rfl)
  | reported hpc =>
    exact flow_same rfl rfl (hidle (by rw [hpc]; rfl) (messages_push_top _))
      (Or.inl (local_push s _ _).events)
  | refused hpc hwants hpc' =>
    refine flow_same rfl rfl (hidle (by rw [hpc]; rfl) ?_) (Or.inl rfl)
    rcases hpc' with rfl | rfl
    · rfl
    · rfl
  | granted hpc | enough hpc | timeout hpc =>
    exact flow_same rfl rfl (hidle (by rw [hpc]; rfl) rfl) (Or.inl rfl)
  | next hpc hev =>
    rename_i e rest
    unfold toCome
    rw [messages_handle (handle_cases c _ e), events_handle, hpc, hev, List.flatMap_cons]
    exact List.append_nil _
  | item hpc =>
    unfold toCome
    rw [messages_item (c := c) hpc, (local_item s _ _).events]
    show (_ ++ _ ++ _) ++ [] = _
    rw [List.append_nil, List.append_assoc]
  | published hpc => exact flow_same rfl rfl (by rw [hpc]; rfl) (Or.inl rfl)
  | unpublished hpc =>
    unfold toCome
    rw [messages_push_top, (local_push s _ _).events]
    exact List.append_nil _
  | acked hpc =>
    refine flow_same rfl rfl ?_ (Or.inl rfl)
    rw [hpc]
    exact Resume.messages_pc _
  | asked hpc => exact flow_same rfl rfl (hidle (by rw [hpc]; rfl) rfl) (Or.inl rfl)
  | unparked hwaiting hdropped hmessages hpc | released hwaiting hdropped hpc =>
    refine flow_same rfl rfl ?_ (Or.inl rfl)
    rw [hpc]
    exact Resume.messages_pc _
  | read | ack | nack | getConnection | dropRequest | dropConsumer | tick | clock =>
    exact flow_same rfl rfl rfl (Or.inl rfl)

/-! ## Dead letters in the making -/

variable {messageId : MessageIdData} {redeliveryCount : Option Nat}
  {rest : List (MessageIdData × Payload)} {cumulative : Bool}

theorem push_ne_publishing (d : Delivery) (resume : Resume) :
    (s.push c d resume).pc ≠ .publishing messageId redeliveryCount rest := by
  rcases pc_push (c := c) s d resume with ⟨-, h⟩ | h | h
  · rw [h]
    exact Pc.noConfusion
  · rw [h]
    exact Pc.noConfusion
  · rw [h]
    cases resume with
    | top => exact Pc.noConfusion
    | payload => exact Pc.noConfusion

theorem handle_ne_publishing {e : Event} (h : Handles c s e s') :
    s'.pc ≠ .publishing messageId redeliveryCount rest := by
  cases h with
  | broken => exact push_ne_publishing _ _
  | _ => exact Pc.noConfusion

/-- A dead letter is published from the loop, where the policy says so. -/
theorem publishing_step (hs : step c s a = some s')
    (hpc' : s'.pc = .publishing messageId redeliveryCount rest) :
    s.pc = .publishing messageId redeliveryCount rest ∨
      a = .item ∧ ∃ payload, s.pc = .payload redeliveryCount ((messageId, payload) :: rest) ∧
        isBeforeStartMessage c.topic c.options messageId = false ∧
        c.deadLetters redeliveryCount = true := by
  cases step_moves hs with
  | top hpc =>
    rename_i lost
    cases lost <;> cases hpc'
  | reconnected hpc =>
    rename_i closed
    cases closed <;> cases hpc'
  | refused hpc hwants hpc'' =>
    rcases hpc'' with rfl | rfl <;> cases hpc'
  | reported | unpublished => exact absurd hpc' (push_ne_publishing _ _)
  | next => exact absurd hpc' (handle_ne_publishing (handle_cases c _ _))
  | item hpc =>
    rename_i items
    cases items with
    | nil => cases hpc'
    | cons item items =>
      obtain ⟨id, payload⟩ := item
      rw [item_cons] at hpc'
      split at hpc'
      · cases hpc'
      · split at hpc'
        · rename_i hbefore hdead
          cases hpc'
          exact Or.inr ⟨rfl, payload, hpc, Bool.eq_false_iff.mpr hbefore, hdead⟩
        · exact absurd hpc' (push_ne_publishing _ _)
  | acked hpc =>
    rename_i resume ok
    cases resume <;> cases hpc'
  | unparked hwaiting hdropped hmessages hpc | released hwaiting hdropped hpc =>
    rename_i resume
    cases resume <;> cases hpc'
  | stopped | granted | enough | timeout | published | asked => cases hpc'
  | _ => exact Or.inl hpc'

theorem handle_ne_settling {r : Option EngineMessage} (h : Handles c s (.EngineMessage r) s') :
    s'.pc ≠ .acking messageId cumulative (.payload redeliveryCount rest) := by
  cases h with
  | ack =>
    intro hpc
    cases hpc
  | _ => exact Pc.noConfusion

/-- An original is acknowledged after the receipt. -/
theorem settling_step (hs : step c s a = some s')
    (hpc' : s'.pc = .acking messageId cumulative (.payload redeliveryCount rest)) :
    s.pc = .acking messageId cumulative (.payload redeliveryCount rest) ∨
      a = .published none ∧ s.pc = .publishing messageId redeliveryCount rest := by
  cases step_moves hs with
  | top hpc =>
    rename_i lost
    cases lost <;> cases hpc'
  | reconnected hpc =>
    rename_i closed
    cases closed <;> cases hpc'
  | refused hpc hwants hpc'' =>
    rcases hpc'' with rfl | rfl <;> cases hpc'
  | reported | unpublished => exact absurd hpc' ((local_push _ _ _).noAck _ _ _)
  | next hpc hev =>
    rename_i e events
    cases e with
    | Message m => exact absurd hpc' ((local_handle (handle_cases c _ _)).noAck _ _ _)
    | EngineMessage r => exact absurd hpc' (handle_ne_settling (handle_cases c _ _))
  | item hpc => exact absurd hpc' ((local_item _ _ _).noAck _ _ _)
  | published hpc =>
    cases hpc'
    exact Or.inr ⟨rfl, hpc⟩
  | acked hpc =>
    rename_i resume ok
    cases resume <;> cases hpc'
  | unparked hwaiting hdropped hmessages hpc | released hwaiting hdropped hpc =>
    rename_i resume
    cases resume <;> cases hpc'
  | stopped | granted | enough | timeout | asked => cases hpc'
  | _ => exact Or.inl hpc'

end

end PulsarClient.Consumer
