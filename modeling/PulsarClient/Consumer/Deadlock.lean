/-
  ENGINE AND APPLICATION WAITING FOR EACH OTHER — a full channel, and a request nobody takes.

  The engine is suspended in `tx.send` until the application reads.  The application, while it awaits
  `connection()`, does not read: it waits for the engine to reach its `GetConnection`, which queues
  behind the events that are there already.  Both at once is a deadlock, and nothing prevents it: the
  engine asks the broker for more messages by what it PUSHED, not by what was read.

  1. `mutually_blocked` — two messages, a queue of size one, one request.

  2. The condition (`leavesRoom`) looks ahead: a request is made, and a message is forwarded in front
     of one, only while the channel has room for everything the engine may still push before it
     answers — the rest of the entry it works on, and the entries ahead in the event queue (`load`).

  3. `never_mutually_blocked` — in a run that meets it the two are never blocked on each other.

  4. `leavesRoom_iff` — nothing weaker will do: after a step that does not meet the condition the
     engine, left alone, comes to the deadlock.
-/
import PulsarClient.Consumer.Engine

namespace PulsarClient.Consumer

open Runs Proto

/-- Suspended in `tx.send`. -/
def Pc.isParked : Pc → Bool
  | .parked _ _ => true
  | _ => false

/-- The engine waits for the application to read, the application for the engine to answer. -/
def MutuallyBlocked (s : State) : Prop := s.pc.isParked = true ∧ s.waiting ≠ none

/-! ## What the engine may still push -/

/-- The most items that the rest of an entry can push: each message that is not dropped, or, when they
    are dead-lettered, the error of a failed publish. -/
def Config.entryPushes (c : Config) (redeliveryCount : Option Nat)
    (items : List (MessageIdData × Payload)) : Nat :=
  let live := items.countP fun i => !isBeforeStartMessage c.topic c.options i.1
  if c.deadLetters redeliveryCount then min live 1 else live

def Resume.pushes (c : Config) : Resume → Nat
  | .top => 0
  | .payload redeliveryCount rest => c.entryPushes redeliveryCount rest

def Pc.pushes (c : Config) : Pc → Nat
  | .payload redeliveryCount items => c.entryPushes redeliveryCount items
  | .publishing _ redeliveryCount rest => max 1 (c.entryPushes redeliveryCount rest)
  | .acking _ _ resume => resume.pushes c
  | .parked _ resume => resume.pushes c
  | .reconnecting true => 1
  | _ => 0

/-- … and a broker message. -/
def messagePushes (c : Config) (m : PulsarClient.Message) : Nat :=
  if m.command.reachedEndOfTopic.isSome || m.command.activeConsumerChange.isSome then 0
  else
    match m.command.message, m.payload with
    | some message, some payload =>
      match unpack c.codecs message.messageId payload with
      | .ok items => c.entryPushes message.redeliveryCount items
      | .error _ => 1
    | some _, none => 0
    | none, _ => if m.command.closeConsumer.isSome then 1 else 0

def Event.pushes (c : Config) : Event → Nat
  | .Message (some m) => messagePushes c m
  | _ => 0

/-- The engine stops at this event. -/
def Event.ends : Event → Bool
  | .Message (some m) => m.command.reachedEndOfTopic.isSome
  | .EngineMessage none => true
  | _ => false

/-- What the events ahead of the answer to a request can push. -/
def ahead (c : Config) (request : Nat) : List Event → Nat
  | [] => 0
  | e :: rest =>
    if e = .EngineMessage (some (.GetConnection request)) ∨ e.ends = true then 0
    else e.pushes c + ahead c request rest

/-- What the channel may have to hold before the request is answered. -/
def load (c : Config) (s : State) (request : Nat) (events : List Event) : Nat :=
  s.messages.length + s.pc.pushes c + ahead c request events

/-- The engine gets to the request without filling the channel (or has stopped). -/
def fits (c : Config) (s : State) (request : Nat) (events : List Event) : Bool :=
  decide (s.pc = .gone) ||
    (!s.pc.isParked && decide (load c s request events ≤ c.receiverQueueSize))

/-- A request is made, and a message forwarded while one is outstanding, only if the channel has room
    for all that is ahead of the answer. -/
def leavesRoom (c : Config) (s : State) : Action → Bool
  | .getConnection => fits c s s.nextRequest s.events
  | .arrive m =>
    match s.waiting with
    | some request => fits c s request (s.events ++ [.Message m])
    | none => true
  | _ => true

/-- What holds in every state of a run that leaves room. -/
def Room (c : Config) (s : State) : Prop :=
  ∀ request, s.waiting = some request → fits c s request s.events = true

/-! ## Lemmas about the load -/

section

variable {c : Config} {s s' : State}

theorem fits_iff {request : Nat} {events : List Event} :
    fits c s request events = true ↔ s.pc = .gone ∨
      (s.pc.isParked = false ∧
        s.messages.length + s.pc.pushes c + ahead c request events ≤ c.receiverQueueSize) := by
  simp only [fits, Bool.or_eq_true, Bool.and_eq_true, decide_eq_true_eq, Bool.not_eq_true']
  exact Iff.rfl

@[simp] theorem pushes_resume (resume : Resume) : (resume.pc).pushes c = resume.pushes c := by
  cases resume with
  | top => rfl
  | payload redeliveryCount rest => rfl

@[simp] theorem isParked_resume (resume : Resume) : (resume.pc).isParked = false := by
  cases resume with
  | top => rfl
  | payload redeliveryCount rest => rfl

theorem entryPushes_skip {redeliveryCount : Option Nat} {i : MessageIdData × Payload}
    {rest : List (MessageIdData × Payload)}
    (hi : isBeforeStartMessage c.topic c.options i.1 = true) :
    c.entryPushes redeliveryCount (i :: rest) = c.entryPushes redeliveryCount rest := by
  simp [Config.entryPushes, hi]

theorem entryPushes_deliver {redeliveryCount : Option Nat} {i : MessageIdData × Payload}
    {rest : List (MessageIdData × Payload)}
    (hi : isBeforeStartMessage c.topic c.options i.1 = false)
    (hd : c.deadLetters redeliveryCount = false) :
    c.entryPushes redeliveryCount (i :: rest) = c.entryPushes redeliveryCount rest + 1 := by
  simp [Config.entryPushes, hi, hd]

theorem entryPushes_deadLetter {redeliveryCount : Option Nat} (i : MessageIdData × Payload)
    (rest : List (MessageIdData × Payload))
    (hi : isBeforeStartMessage c.topic c.options i.1 = false)
    (hd : c.deadLetters redeliveryCount = true) :
    c.entryPushes redeliveryCount (i :: rest) = 1 ∧ c.entryPushes redeliveryCount rest ≤ 1 := by
  constructor
  · simp [Config.entryPushes, hi, hd]
  · simp only [Config.entryPushes, hd, if_true]
    exact Nat.min_le_right _ 1

/-- A piece of work that the load counts as `n` pushes, while the application listens: what it pushes
    and what it leaves to push make `n`. -/
structure Uses (c : Config) (s s' : State) (n : Nat) : Prop where
  running : s'.pc ≠ .gone
  spent : s'.messages.length + s'.pc.pushes c = s.messages.length + n
  /-- the engine is suspended for a reason -/
  parked : s'.pc.isParked = true → c.receiverQueueSize < s'.messages.length
  bounded : s.messages.length ≤ c.receiverQueueSize →
    s'.messages.length ≤ c.receiverQueueSize + s'.pc.isParked.toNat

theorem Uses.goto {p : Pc} {n : Nat} (hgone : p ≠ .gone) (hpark : p.isParked = false)
    (hp : p.pushes c = n) : Uses c s { s with pc := p } n where
  running := hgone
  spent := by rw [hp]
  parked h := absurd (hpark.symm.trans h) Bool.false_ne_true
  bounded h := Nat.le_trans h (Nat.le_add_right _ _)

theorem uses_push {d : Delivery} {resume : Resume} (hd : s.dropped = false) :
    Uses c s (s.push c d resume) (1 + resume.pushes c) := by
  unfold State.push
  rw [if_neg (Bool.eq_false_iff.mp hd)]
  by_cases hfull : c.receiverQueueSize < s.messages.length + 1
  · rw [if_pos hfull]
    constructor
    · exact Pc.noConfusion
    · show (s.messages ++ [d]).length + resume.pushes c = _
      rw [List.length_append, List.length_singleton, Nat.add_assoc]
    · intro _
      show _ < (s.messages ++ [d]).length
      rw [List.length_append, List.length_singleton]
      exact hfull
    · intro hlen
      show (s.messages ++ [d]).length ≤ c.receiverQueueSize + 1
      rw [List.length_append, List.length_singleton]
      omega
  · rw [if_neg hfull]
    constructor
    · show resume.pc ≠ .gone
      cases resume with
      | top => exact Pc.noConfusion
      | payload redeliveryCount rest => exact Pc.noConfusion
    · show (s.messages ++ [d]).length + (resume.pc).pushes c = _
      rw [List.length_append, List.length_singleton, pushes_resume, Nat.add_assoc]
    · intro hpark
      exact absurd ((isParked_resume resume).symm.trans hpark) Bool.false_ne_true
    · intro _
      show (s.messages ++ [d]).length ≤ _
      rw [List.length_append, List.length_singleton]
      omega

/-- One round over the entry. -/
theorem uses_item (hd : s.dropped = false) (redeliveryCount : Option Nat)
    (items : List (MessageIdData × Payload)) :
    Uses c s (s.item c redeliveryCount items) (c.entryPushes redeliveryCount items) := by
  cases items with
  | nil =>
    apply Uses.goto Pc.noConfusion rfl
    show 0 = c.entryPushes redeliveryCount []
    simp [Config.entryPushes]
  | cons i rest =>
    obtain ⟨messageId, payload⟩ := i
    rw [item_cons]
    by_cases hi : isBeforeStartMessage c.topic c.options messageId = true
    · rw [if_pos hi, entryPushes_skip hi]
      exact .goto Pc.noConfusion rfl rfl
    · rw [if_neg hi]
      rw [Bool.not_eq_true] at hi
      by_cases hdl : c.deadLetters redeliveryCount = true
      · rw [if_pos hdl]
        obtain ⟨hone, hle⟩ := entryPushes_deadLetter (messageId, payload) rest hi hdl
        rw [hone]
        exact .goto Pc.noConfusion rfl (Nat.max_eq_left hle)
      · rw [if_neg hdl]
        rw [Bool.not_eq_true] at hdl
        rw [entryPushes_deliver hi hdl, Nat.add_comm]
        exact uses_push hd

/-- Taking an event pushes what it was counted for. -/
theorem uses_handle (hd : s.dropped = false) {e : Event} (hend : e.ends = false)
    (h : Handles c s e s') : Uses c s s' (e.pushes c) := by
  have hgo : ∀ {p : Pc} {t : State}, p ≠ .gone → p.isParked = false → p.pushes c = e.pushes c →
      t.messages = s.messages → t.pc = p → Uses c s t (e.pushes c) := by
    rintro p t hgone hpark hp hmessages rfl
    refine ⟨hgone, by rw [hmessages, hp], fun h => ?_, fun h => ?_⟩
    · exact absurd (hpark.symm.trans h) Bool.false_ne_true
    · rw [hmessages]
      exact Nat.le_trans h (Nat.le_add_right _ _)
  cases h with
  | endOfTopic hend' => exact absurd (hend.symm.trans hend') Bool.false_ne_true
  | requestsEnd => exact absurd hend.symm Bool.false_ne_true
  | change hnone hchange =>
    refine hgo Pc.noConfusion rfl ?_ rfl rfl
    simp [Pc.pushes, Event.pushes, messagePushes, hchange]
  | entry hnone hchange hmessage hpayload hunpack =>
    refine hgo Pc.noConfusion rfl ?_ rfl rfl
    simp [Pc.pushes, Event.pushes, messagePushes, hnone, hchange, hmessage, hpayload, hunpack]
  | broken hnone hchange hmessage hpayload hunpack =>
    rename_i m message payload err
    have hpushes : Event.pushes c (.Message (some m)) = 1 := by
      simp [Event.pushes, messagePushes, hnone, hchange, hmessage, hpayload, hunpack]
    rw [hpushes]
    obtain ⟨hrun, hspent, hparked, hbounded⟩ := uses_push (c := c) (s := s.spend m) hd
    exact ⟨hrun, hspent, hparked, hbounded⟩
  | empty hnone hchange hmessage hpayload =>
    refine hgo Pc.noConfusion rfl ?_ rfl rfl
    simp [Pc.pushes, Event.pushes, messagePushes, hnone, hchange, hmessage, hpayload]
  | closed hnone hchange hmessage hclose =>
    refine hgo Pc.noConfusion rfl ?_ rfl rfl
    simp [Pc.pushes, Event.pushes, messagePushes, hnone, hchange, hmessage, hclose]
  | ignored hnone hchange hmessage hclose =>
    refine hgo Pc.noConfusion rfl ?_ rfl rfl
    simp [Pc.pushes, Event.pushes, messagePushes, hnone, hchange, hmessage, hclose]
  | source | ack | nack | settled | ticked | getConnection =>
    exact hgo Pc.noConfusion rfl rfl rfl rfl

/-- The engine stops at the end of the topic, and when nobody can ask any more. -/
theorem gone_of_ends {e : Event} (hend : e.ends = true) (h : Handles c s e s') :
    s'.pc = .gone ∧ s'.messages = s.messages := by
  cases h with
  | endOfTopic | requestsEnd => exact ⟨rfl, rfl⟩
  | change hnone | entry hnone | broken hnone | empty hnone | closed hnone | ignored hnone =>
    rw [Event.ends, hnone] at hend
    cases hend
  | source | ack | nack | settled | ticked | getConnection => cases hend

/-- What the load has counted does not suspend the engine. -/
theorem Uses.fits {n request : Nat} {events : List Event} (h : Uses c s s' n)
    (hle : s.messages.length + n + ahead c request events ≤ c.receiverQueueSize) :
    Consumer.fits c s' request events = true := by
  have hspent := h.spent
  refine fits_iff.mpr (Or.inr ⟨?_, by omega⟩)
  cases hpark : s'.pc.isParked with
  | false => rfl
  | true =>
    have := h.parked hpark
    omega

theorem ahead_cons {e : Event} {request : Nat} {rest : List Event}
    (hne : e ≠ .EngineMessage (some (.GetConnection request))) (hend : e.ends = false) :
    ahead c request (e :: rest) = e.pushes c + ahead c request rest := by
  rw [ahead, if_neg]
  rintro (heq | hend')
  · exact hne heq
  · exact absurd (hend.symm.trans hend') Bool.false_ne_true

/-! ## One step -/

/-- An event may answer the request, and only its own `GetConnection` does. -/
theorem waiting_handle {e : Event} (h : Handles c s e s') :
    s'.events = s.events ∧ s'.dropped = s.dropped ∧
      ∀ request, s'.waiting = some request ↔
        s.waiting = some request ∧ e ≠ .EngineMessage (some (.GetConnection request)) := by
  obtain ⟨-, hdropped, -, hevents⟩ := handle_keeps h
  refine ⟨hevents, hdropped, fun request => ?_⟩
  -- an event that leaves the request alone
  have hkeep : e ≠ .EngineMessage (some (.GetConnection request)) → s'.waiting = s.waiting →
      (s'.waiting = some request ↔
        s.waiting = some request ∧ e ≠ .EngineMessage (some (.GetConnection request))) := by
    intro hne hwaiting
    rw [hwaiting]
    exact ⟨fun hw => ⟨hw, hne⟩, fun hw => hw.1⟩
  cases e with
  | Message m => exact hkeep Event.noConfusion (local_handle h).waiting
  | EngineMessage r =>
    cases h with
    | requestsEnd | ack | nack | settled | ticked => exact hkeep (by simp) rfl
    | @getConnection request' =>
      show (if s.waiting = some request' then none else s.waiting) = some request ↔ _
      split
      · rename_i heq
        refine iff_of_false (Option.some_ne_none request).symm ?_
        rintro ⟨hw, hne⟩
        obtain rfl : request' = request := Option.some.inj (heq.symm.trans hw)
        exact hne rfl
      · rename_i hne
        refine ⟨fun hw => ⟨hw, ?_⟩, fun hw => hw.1⟩
        intro heq
        simp only [Event.EngineMessage.injEq, Option.some.injEq,
          EngineMessage.GetConnection.injEq] at heq
        rw [heq] at hne
        exact hne hw

theorem ahead_forward (r : EngineMessage) (request : Nat) (events : List Event) :
    ahead c request (events ++ [.EngineMessage (some r)]) = ahead c request events := by
  induction events with
  | nil =>
    show (if _ then 0 else 0 + 0) = 0
    split
    · rfl
    · rfl
  | cons e rest ih => rw [List.cons_append, ahead, ahead, ih]

theorem ahead_end (request : Nat) (events : List Event) :
    ahead c request (events ++ [.EngineMessage none]) = ahead c request events := by
  induction events with
  | nil => rfl
  | cons e rest ih => rw [List.cons_append, ahead, ahead, ih]

end

/-- **What a step does** to the channel, to the request and to what the engine may push. -/
inductive ChannelStep (c : Config) (s : State) : Action → State → Prop where
  /-- something else; a request that is forwarded pushes nothing -/
  | still {a s'} (hpc : s'.pc = s.pc) (hm : s'.messages = s.messages) (hw : s'.waiting = s.waiting)
    (hd : s'.dropped = s.dropped)
    (he : ∀ request, ahead c request s'.events = ahead c request s.events) : ChannelStep c s a s'
  /-- the engine goes on, to where it can push no more than before -/
  | moved {a s'} (hgone : s.pc ≠ .gone) (hpark : s.pc.isParked = false)
    (hpark' : s'.pc.isParked = false) (hp : s'.pc.pushes c ≤ s.pc.pushes c)
    (hm : s'.messages = s.messages) (hw : s'.waiting = s.waiting) (hd : s'.dropped = s.dropped)
    (he : s'.events = s.events) : ChannelStep c s a s'
  | pushed {a d resume} (hgone : s.pc ≠ .gone) (hpark : s.pc.isParked = false)
    (hp : resume.pushes c + 1 ≤ s.pc.pushes c) : ChannelStep c s a (s.push c d resume)
  | worked {redeliveryCount items} (hpc : s.pc = .payload redeliveryCount items) :
    ChannelStep c s .item (s.item c redeliveryCount items)
  | took {e rest} (hpc : s.pc = .waiting) (hev : s.events = e :: rest) :
    ChannelStep c s .next ({ s with events := rest }.handle c e)
  | arrived {m} : ChannelStep c s (.arrive m) { s with events := s.events ++ [.Message m] }
  | asked {requests nextRequest} (hw : s.waiting = none) (hd : s.dropped = false) :
    ChannelStep c s .getConnection
      { s with requests, waiting := some s.nextRequest, nextRequest }
  /-- the application reads, and the engine is not suspended any more -/
  | readOne {s'} (hw : s'.waiting = none) (hd : s'.dropped = s.dropped)
    (hm : s'.messages.length + 1 = s.messages.length) (hpark' : s'.pc.isParked = false) :
    ChannelStep c s .read s'
  | droppedRequest : ChannelStep c s .dropRequest { s with waiting := none }
  | droppedConsumer {s'} (hw : s'.waiting = none) (hd : s'.dropped = true) :
    ChannelStep c s .dropConsumer s'

theorem channelStep {c : Config} {s s' : State} {a : Action} (hs : step c s a = some s') :
    ChannelStep c s a s' := by
  -- from a place where the engine runs to one where it cannot push
  have hmove : ∀ {a : Action} {s' : State} {p p' : Pc}, s.pc = p → s'.pc = p' → p ≠ .gone →
      p.isParked = false → p'.isParked = false → p'.pushes c ≤ p.pushes c →
      s'.messages = s.messages → s'.waiting = s.waiting → s'.dropped = s.dropped →
      s'.events = s.events → ChannelStep c s a s' := by
    rintro a s' p p' rfl rfl hgone hpark hpark' hp hm hw hd he
    exact .moved hgone hpark hpark' hp hm hw hd he
  cases step_moves hs with
  | arrive => exact .arrived
  | forward => exact .still rfl rfl rfl rfl fun request => ahead_forward _ request _
  | forwardEnd => exact .still rfl rfl rfl rfl fun request => ahead_end request _
  | top hpc =>
    rename_i lost
    cases lost with
    | true => exact hmove hpc rfl Pc.noConfusion rfl rfl (Nat.zero_le _) rfl rfl rfl rfl
    | false => exact hmove hpc rfl Pc.noConfusion rfl rfl (Nat.zero_le _) rfl rfl rfl rfl
  | reconnected hpc =>
    rename_i closed
    cases closed with
    | true => exact hmove hpc rfl Pc.noConfusion rfl rfl (Nat.zero_le _) rfl rfl rfl rfl
    | false => exact hmove hpc rfl Pc.noConfusion rfl rfl (Nat.zero_le _) rfl rfl rfl rfl
  | stopped hpc => exact hmove hpc rfl Pc.noConfusion rfl rfl (Nat.zero_le _) rfl rfl rfl rfl
  | reported hpc =>
    refine .pushed ?_ ?_ ?_
    · rw [hpc]
      exact Pc.noConfusion
    · rw [hpc]
      rfl
    · rw [hpc]
      exact Nat.le_refl 1
  | granted hpc => exact hmove hpc rfl Pc.noConfusion rfl rfl (Nat.zero_le _) rfl rfl rfl rfl
  | refused hpc hwants hpc' =>
    rcases hpc' with rfl | rfl
    · exact hmove hpc rfl Pc.noConfusion rfl rfl (Nat.zero_le _) rfl rfl rfl rfl
    · exact hmove hpc rfl Pc.noConfusion rfl rfl (Nat.zero_le _) rfl rfl rfl rfl
  | enough hpc => exact hmove hpc rfl Pc.noConfusion rfl rfl (Nat.zero_le _) rfl rfl rfl rfl
  | timeout hpc => exact hmove hpc rfl Pc.noConfusion rfl rfl (Nat.zero_le _) rfl rfl rfl rfl
  | next hpc hev => exact .took hpc hev
  | item hpc => exact .worked hpc
  | published hpc =>
    exact hmove hpc rfl Pc.noConfusion rfl rfl (Nat.le_max_right 1 _) rfl rfl rfl rfl
  | unpublished hpc =>
    refine .pushed ?_ ?_ ?_
    · rw [hpc]
      exact Pc.noConfusion
    · rw [hpc]
      rfl
    · rw [hpc]
      exact Nat.le_max_left 1 _
  | acked hpc =>
    rename_i resume ok
    exact hmove hpc rfl Pc.noConfusion rfl (isParked_resume resume)
      (Nat.le_of_eq (pushes_resume resume)) rfl rfl rfl rfl
  | asked hpc => exact hmove hpc rfl Pc.noConfusion rfl rfl (Nat.zero_le _) rfl rfl rfl rfl
  | unparked hwaiting hdropped hmessages hpc =>
    rename_i resume
    refine .readOne hwaiting rfl ?_ (isParked_resume resume)
    rw [hmessages]
    rfl
  | read hwaiting hdropped hmessages hnot =>
    refine .readOne hwaiting rfl ?_ ?_
    · rw [hmessages]
      rfl
    · show s.pc.isParked = false
      cases hpc : s.pc with
      | parked unacked resume => exact absurd hpc (hnot unacked resume)
      | _ => rfl
  | ack => exact .still rfl rfl rfl rfl fun _ => rfl
  | nack => exact .still rfl rfl rfl rfl fun _ => rfl
  | getConnection hwaiting hdropped => exact .asked hwaiting hdropped
  | dropRequest => exact .droppedRequest
  | released hwaiting => exact .droppedConsumer hwaiting rfl
  | dropConsumer hwaiting => exact .droppedConsumer hwaiting rfl
  | tick => exact .still rfl rfl rfl rfl fun _ => rfl
  | clock => exact .still rfl rfl rfl rfl fun _ => rfl

/-- Who waits for an answer has not dropped the consumer; the channel holds no more than its buffer,
    and one item more while the engine is suspended. -/
structure Sane (c : Config) (s : State) : Prop where
  listening : s.waiting ≠ none → s.dropped = false
  bounded : s.dropped = false →
    s.messages.length ≤ c.receiverQueueSize + s.pc.isParked.toNat

section

variable {c : Config} {s s' : State} {a : Action}

theorem Sane.init : Sane c { remainingMessages := c.batchSize } where
  listening _ := rfl
  bounded _ := Nat.zero_le _

theorem Sane.le (h : Sane c s) (hd : s.dropped = false) (hpark : s.pc.isParked = false) :
    s.messages.length ≤ c.receiverQueueSize := by
  have := h.bounded hd
  rw [hpark] at this
  exact this

/-- The engine works, from a place where it is not suspended. -/
theorem Sane.work {n : Nat} (h : Sane c s) (hpark : s.pc.isParked = false)
    (hw : ∀ request, s'.waiting = some request → s.waiting = some request)
    (hd : s'.dropped = s.dropped) (hu : s.dropped = false → Uses c s s' n) : Sane c s' := by
  constructor
  · intro hwait
    obtain ⟨request, hreq⟩ := Option.ne_none_iff_exists'.mp hwait
    rw [hd]
    apply h.listening
    rw [hw request hreq]
    exact Option.some_ne_none request
  · intro hd'
    rw [hd] at hd'
    exact (hu hd').bounded (h.le hd' hpark)

theorem Sane.step (h : Sane c s) (hs : Consumer.step c s a = some s') : Sane c s' := by
  cases channelStep hs with
  | still hpc hm hw hd _ =>
    constructor
    · rw [hw, hd]
      exact h.listening
    · rw [hd, hm, hpc]
      exact h.bounded
  | moved _ hpark hpark' _ hm hw hd _ =>
    constructor
    · rw [hw, hd]
      exact h.listening
    · rw [hd, hm]
      exact fun hd' => Nat.le_trans (h.le hd' hpark) (Nat.le_add_right _ _)
  | pushed hgone hpark hp =>
    rename_i d resume
    have hlocal := local_push (c := c) s d resume
    exact h.work hpark (fun _ hw => hlocal.waiting ▸ hw) hlocal.dropped fun hd => uses_push hd
  | worked hpc =>
    rename_i redeliveryCount items
    have hlocal := local_item (c := c) s redeliveryCount items
    refine h.work ?_ (fun _ hw => hlocal.waiting ▸ hw) hlocal.dropped fun hd => uses_item hd _ _
    rw [hpc]
    rfl
  | took hpc hev =>
    rename_i e rest
    obtain ⟨-, hd, hwaiting⟩ := waiting_handle (handle_cases c { s with events := rest } e)
    have hpark : s.pc.isParked = false := by
      rw [hpc]
      rfl
    constructor
    · intro hwait
      obtain ⟨request, hreq⟩ := Option.ne_none_iff_exists'.mp hwait
      have hw : s.waiting = some request := ((hwaiting request).mp hreq).1
      rw [hd]
      apply h.listening
      rw [hw]
      exact Option.some_ne_none request
    · intro hd'
      have hdropped : s.dropped = false := hd.symm.trans hd'
      have hle := h.le hdropped hpark
      cases hend : e.ends with
      | true =>
        rw [(gone_of_ends hend (handle_cases _ _ _)).2]
        exact Nat.le_trans hle (Nat.le_add_right _ _)
      | false => exact (uses_handle (s := { s with events := rest }) hdropped hend (handle_cases _ _ _)).bounded hle
  | arrived => exact ⟨h.listening, h.bounded⟩
  | asked _ hd => exact ⟨fun _ => hd, h.bounded⟩
  | readOne hw hd hm hpark' =>
    constructor
    · exact fun hwait => absurd hw hwait
    · intro hd'
      rw [hd] at hd'
      have := h.bounded hd'
      have : s.pc.isParked.toNat ≤ 1 := Bool.toNat_le _
      omega
  | droppedRequest => exact ⟨fun hwait => absurd rfl hwait, h.bounded⟩
  | droppedConsumer hw hd =>
    exact ⟨fun hwait => absurd hw hwait, fun hd' => absurd (hd.symm.trans hd') (by decide)⟩

/-- **The step lemma.** -/
theorem Room.step (hsane : Sane c s) (h : Room c s) (hok : leavesRoom c s a = true)
    (hs : Consumer.step c s a = some s') : Room c s' := by
  intro request hreq
  -- while the application waits, it listens
  have hload : ∀ {p : Pc}, s.pc = p → p ≠ .gone → s.waiting = some request → s.dropped = false ∧
      s.messages.length + p.pushes c + ahead c request s.events ≤ c.receiverQueueSize := by
    rintro p rfl hgone hw
    refine ⟨hsane.listening (hw ▸ Option.some_ne_none request), ?_⟩
    rcases fits_iff.mp (h request hw) with hg | ⟨-, hload⟩
    · exact absurd hg hgone
    · exact hload
  cases channelStep hs with
  | still hpc hm hw _ he =>
    have hfits := h request (hw ▸ hreq)
    rw [fits_iff] at hfits ⊢
    rw [hpc, hm, he]
    exact hfits
  | moved hgone _ hpark' hp hm hw _ he =>
    obtain ⟨-, hle⟩ := hload rfl hgone (hw ▸ hreq)
    refine fits_iff.mpr (Or.inr ⟨hpark', ?_⟩)
    rw [hm, he]
    omega
  | pushed hgone _ hp =>
    rw [(local_push s _ _).waiting] at hreq
    rw [(local_push s _ _).events]
    obtain ⟨hd, hle⟩ := hload rfl hgone hreq
    exact (uses_push hd).fits (by omega)
  | worked hpc =>
    rw [(local_item s _ _).waiting] at hreq
    rw [(local_item s _ _).events]
    obtain ⟨hd, hle⟩ := hload hpc Pc.noConfusion hreq
    exact (uses_item hd _ _).fits hle
  | took hpc hev =>
    rename_i e rest
    obtain ⟨hevents, -, hwait⟩ := waiting_handle (handle_cases c { s with events := rest } e)
    obtain ⟨hw, hne⟩ := (hwait request).mp hreq
    obtain ⟨hd, hle⟩ := hload hpc Pc.noConfusion hw
    rw [hevents]
    cases hend : e.ends with
    | true => exact fits_iff.mpr (Or.inl (gone_of_ends hend (handle_cases _ _ _)).1)
    | false =>
      rw [hev, ahead_cons hne hend] at hle
      have hle' : s.messages.length + 0 + (e.pushes c + ahead c request rest) ≤
        c.receiverQueueSize := hle
      apply (uses_handle (s := { s with events := rest }) hd hend (handle_cases _ _ _)).fits
      show s.messages.length + e.pushes c + ahead c request rest ≤ _
      omega
  | arrived =>
    have hreq' : s.waiting = some request := hreq
    simp only [leavesRoom, hreq'] at hok
    exact hok
  | asked _ _ =>
    obtain rfl : s.nextRequest = request := Option.some.inj hreq
    exact hok
  -- nobody waits afterwards
  | readOne hw => exact absurd (hw.symm.trans hreq) (Option.some_ne_none request).symm
  | droppedRequest => exact absurd hreq (Option.some_ne_none request).symm
  | droppedConsumer hw => exact absurd (hw.symm.trans hreq) (Option.some_ne_none request).symm

theorem inv_of_reachIf (h : (consumer c).ReachIf (fun s a => leavesRoom c s a = true) s) :
    Sane c s ∧ Room c s := by
  refine Sys.ReachIf.inv (fun s => Sane c s ∧ Room c s) ?_ ?_ h
  · rintro s rfl
    refine ⟨.init, fun request hreq => ?_⟩
    exact absurd hreq (Option.some_ne_none request).symm
  · rintro s a s' ⟨hsane, hroom⟩ hok hs
    exact ⟨hsane.step hs, hroom.step hsane hok hs⟩

end

/-! ## The main result -/

/-- **Headline.**  In every run that leaves room — whatever the queue size, the backlog and the
    schedule — the engine is never suspended in `tx.send` while the application awaits
    `connection()`. -/
theorem never_mutually_blocked {c : Config} {s : State}
    (h : (consumer c).ReachIf (fun s a => leavesRoom c s a = true) s) : ¬ MutuallyBlocked s := by
  obtain ⟨-, hroom⟩ := inv_of_reachIf h
  rintro ⟨hpark, hwait⟩
  obtain ⟨request, hreq⟩ := Option.ne_none_iff_exists'.mp hwait
  rcases fits_iff.mp (hroom request hreq) with hgone | ⟨hnot, -⟩
  · rw [hgone] at hpark
    exact absurd hpark Bool.false_ne_true
  · rw [hnot] at hpark
    exact absurd hpark Bool.false_ne_true

/-- A single message of an entry of its own, as the broker delivers it. -/
def single (entryId : Nat) : PulsarClient.Message where
  command := { message := some { consumerId := 0, messageId := { ledgerId := 1, entryId } } }
  payload := some { metadata := {}, data := [1] }

/-- A consumer with the given queue size, for entries that need no decoder. -/
def plain (receiverQueueSize : Nat) : Config where
  options := { receiverQueueSize := some receiverQueueSize }
  codecs := { decodeSingleMessageMetadata := fun _ => none, decompress := fun _ _ b => .ok b }

/-- The application asks for the connection while the engine works on a message; the channel has room
    for it, and the request will be answered. -/
theorem never_mutually_blocked_with_room : ∃ s : State,
    s.waiting = some 0 ∧ s.messages.length = 1 ∧ ¬ MutuallyBlocked s := by
  obtain ⟨s, hs, hp⟩ := Sys.exists_reachIf_of_execIf (S := consumer (plain 1)) (leavesRoom (plain 1))
    (p := fun s => s.waiting == some 0 && s.messages.length == 1)
    (s := { remainingMessages := 1000 }) rfl
    [.arrive (some (single 0)), .top false, .flow none, .next, .getConnection, .item, .item]
    (by decide +kernel)
  simp only [Bool.and_eq_true, beq_iff_eq] at hp
  exact ⟨s, hp.1, hp.2, never_mutually_blocked hs⟩

/-- A queue of size one and two messages: the second push suspends the engine, and then the
    application asks for the connection. -/
theorem mutually_blocked :
    ¬ ∀ (c : Config) (s : State), (consumer c).Reach s → ¬ MutuallyBlocked s := by
  intro hall
  obtain ⟨s, hs, hp⟩ := Sys.exists_reach_of_exec (S := consumer (plain 1))
    (p := fun s => s.pc.isParked && s.waiting == some 0) (s := { remainingMessages := 1000 }) rfl
    [.arrive (some (single 0)), .arrive (some (single 1)), .top false, .flow none, .next, .item,
      .item, .top false, .flow none, .next, .item, .getConnection] (by decide +kernel)
  simp only [Bool.and_eq_true, beq_iff_eq] at hp
  apply hall (plain 1) s hs
  exact ⟨hp.1, by rw [hp.2]; exact Option.some_ne_none 0⟩

/-! ## The condition is needed -/

/-- What the engine does by itself, with the answers it gets. -/
def Action.ofEngine : Action → Bool
  | .top _ | .reconnected _ | .flow _ | .timeout | .next | .item | .published _ | .sent _ => true
  | _ => false

/-- An engine that is gone does nothing, and stays so. -/
theorem gone_moves {c : Config} {s s' : State} {a : Action} (h : Moves c s a s') (hpc : s.pc = .gone) :
    s'.pc = .gone ∧ a.ofEngine = false := by
  have habsurd : ∀ {p : Pc} {q : Prop}, s.pc = p → p ≠ .gone → q :=
    fun hp hne => absurd (hp.symm.trans hpc) hne
  cases h with
  | arrive | forward | forwardEnd | read | ack | nack | getConnection | dropRequest | dropConsumer
  | tick | clock => exact ⟨hpc, rfl⟩
  | top hp | timeout hp => exact habsurd hp Pc.noConfusion
  | reconnected hp | stopped hp | reported hp => exact habsurd hp Pc.noConfusion
  | granted hp | refused hp | enough hp => exact habsurd hp Pc.noConfusion
  | next hp | item hp | published hp | unpublished hp => exact habsurd hp Pc.noConfusion
  | acked hp | asked hp => exact habsurd hp Pc.noConfusion
  | unparked _ _ _ hp => exact habsurd hp Pc.noConfusion
  | released _ _ hp => exact habsurd hp Pc.noConfusion

/-- Somebody waits, and the channel cannot hold what the engine may push before it answers. -/
structure Overloaded (c : Config) (s : State) (request : Nat) : Prop where
  waiting : s.waiting = some request
  noRoom : fits c s request s.events = false

def Resume.effort : Resume → Nat
  | .top => 2
  | .payload _ rest => 3 + 3 * rest.length

/-- How far the engine is from its next event. -/
def Pc.effort : Pc → Nat
  | .flow => 1
  | .top => 2
  | .reconnecting _ => 3
  | .payload _ items => 3 + 3 * items.length
  | .publishing _ _ rest => 5 + 3 * rest.length
  | .acking _ _ resume => resume.effort + 1
  | .redelivering _ _ => 3
  | _ => 0

section

variable {c : Config} {s s' : State} {request : Nat}

theorem effort_resume (resume : Resume) : (resume.pc).effort = resume.effort := by
  cases resume with
  | top => rfl
  | payload redeliveryCount rest => rfl

theorem fits_eq_false_iff {events : List Event} :
    fits c s request events = false ↔ s.pc ≠ .gone ∧ (s.pc.isParked = true ∨
      c.receiverQueueSize < s.messages.length + s.pc.pushes c + ahead c request events) := by
  rw [Bool.eq_false_iff, Ne, fits_iff]
  constructor
  · intro h
    refine ⟨fun hg => h (Or.inl hg), ?_⟩
    by_cases hpark : s.pc.isParked = true
    · exact Or.inl hpark
    · rw [Bool.not_eq_true] at hpark
      refine Or.inr (Nat.lt_of_not_le fun hle => h (Or.inr ⟨hpark, hle⟩))
  · rintro ⟨hrun, hover⟩ (hg | ⟨hpark, hle⟩)
    · exact hrun hg
    · rcases hover with hpark' | hlt
      · exact absurd (hpark.symm.trans hpark') Bool.false_ne_true
      · omega

/-- The engine has less to do: an event less, or less until the next. -/
def Closer (s s' : State) : Prop :=
  s'.events.length < s.events.length ∨ s'.events = s.events ∧ s'.pc.effort < s.pc.effort

/-- The overload stays while the engine does what was counted. -/
theorem Uses.overloaded {n : Nat} {events : List Event} (h : Uses c s s' n)
    (hw : s'.waiting = some request) (he : s'.events = events)
    (hover : c.receiverQueueSize < s.messages.length + n + ahead c request events) :
    Overloaded c s' request := by
  refine ⟨hw, fits_eq_false_iff.mpr ⟨h.running, Or.inr ?_⟩⟩
  have hspent := h.spent
  rw [he]
  omega

theorem effort_push {d : Delivery} {resume : Resume} :
    (s.push c d resume).pc.effort ≤ resume.effort := by
  rcases pc_push (c := c) s d resume with ⟨-, h⟩ | h | h
  · rw [h]
    exact Nat.zero_le _
  · rw [h]
    exact Nat.zero_le _
  · rw [h]
    exact Nat.le_of_eq (effort_resume resume)

theorem effort_item (redeliveryCount : Option Nat) (items : List (MessageIdData × Payload)) :
    (s.item c redeliveryCount items).pc.effort < 3 + 3 * items.length := by
  cases items with
  | nil =>
    show 2 < 3
    omega
  | cons i rest =>
    obtain ⟨messageId, payload⟩ := i
    rw [item_cons, List.length_cons]
    split
    · show 3 + 3 * rest.length < _
      omega
    · split
      · show 5 + 3 * rest.length < _
        omega
      · have hle : (s.push c (.Ok messageId payload) (.payload redeliveryCount rest)).pc.effort ≤
          3 + 3 * rest.length := effort_push
        omega

/-- The engine can always take a step that keeps the overload: it sends what it has to send, and what
    could fail with a push fails. -/
theorem Overloaded.progress (h : Overloaded c s request) (hsane : Sane c s)
    (hpark : s.pc.isParked = false) :
    ∃ a s', a.ofEngine = true ∧ step c s a = some s' ∧ Overloaded c s' request ∧ Closer s s' := by
  have hd : s.dropped = false :=
    hsane.listening (h.waiting ▸ Option.some_ne_none request)
  have hover : ∀ {p : Pc}, s.pc = p → c.receiverQueueSize <
      s.messages.length + p.pushes c + ahead c request s.events := by
    rintro p rfl
    rcases (fits_eq_false_iff.mp h.noRoom).2 with hpark' | hlt
    · exact absurd (hpark.symm.trans hpark') Bool.false_ne_true
    · exact hlt
  -- a step to a place with the same pushes ahead
  have hmove : ∀ {a : Action} {s' : State} {p p' : Pc}, a.ofEngine = true → step c s a = some s' →
      s.pc = p → s'.pc = p' → p' ≠ .gone → p'.pushes c = p.pushes c → p'.effort < p.effort →
      s'.messages = s.messages → s'.waiting = s.waiting → s'.events = s.events →
      ∃ a s', a.ofEngine = true ∧ step c s a = some s' ∧ Overloaded c s' request ∧ Closer s s' := by
    rintro a s' p p' ha hs hp rfl hrun heq heffort hm hw he
    refine ⟨a, s', ha, hs, ⟨hw.trans h.waiting, ?_⟩, Or.inr ⟨he, hp ▸ heffort⟩⟩
    refine fits_eq_false_iff.mpr ⟨hrun, Or.inr ?_⟩
    rw [hm, he, heq]
    exact hover hp
  -- a step that pushes an error
  have hpush : ∀ {a : Action} {d : Delivery} {p : Pc}, a.ofEngine = true →
      step c s a = some (s.push c d .top) → s.pc = p → p.pushes c = 1 → 2 < p.effort →
      ∃ a s', a.ofEngine = true ∧ step c s a = some s' ∧ Overloaded c s' request ∧ Closer s s' := by
    rintro a d p ha hs hp hone heffort
    have hlocal := local_push (c := c) s d .top
    refine ⟨a, _, ha, hs, (uses_push hd).overloaded (hlocal.waiting.trans h.waiting) hlocal.events ?_,
      Or.inr ⟨hlocal.events, ?_⟩⟩
    · have := hover hp
      rw [hone] at this
      exact this
    · rw [hp]
      exact Nat.lt_of_le_of_lt effort_push heffort
  cases hpc : s.pc with
  | gone => exact absurd hpc (fits_eq_false_iff.mp h.noRoom).1
  | parked unacked resume =>
    rw [hpc] at hpark
    exact absurd hpark.symm Bool.false_ne_true
  | top =>
    have hs : step c s (.top false) = some { s with pc := .flow } := by
      simp only [step, if_pos hpc, Bool.false_eq_true, if_false]
    exact hmove rfl hs hpc rfl Pc.noConfusion rfl (show 1 < 2 by omega) rfl rfl rfl
  | flow =>
    by_cases hwants : s.wantsFlow c = true
    · have hs : step c s (.flow none) = some { s with
          sent := s.sent ++ [.flow ((c.batchSize - s.remainingMessages : Int) % 2 ^ 32).toNat]
          remainingMessages := c.batchSize
          pc := .waiting } := by
        simp only [step, if_pos hpc, if_pos hwants]
      exact hmove rfl hs hpc rfl Pc.noConfusion rfl (show 0 < 1 by omega) rfl rfl rfl
    · have hs : step c s (.flow none) = some { s with pc := .waiting } := by
        simp only [step, if_pos hpc, if_neg hwants]
      exact hmove rfl hs hpc rfl Pc.noConfusion rfl (show 0 < 1 by omega) rfl rfl rfl
  | reconnecting closed =>
    cases closed with
    | false =>
      have hs : step c s (.reconnected none) =
          some { s with remainingMessages := c.batchSize, pc := .flow } := by
        simp only [step, hpc, Bool.false_eq_true, if_false]
      exact hmove rfl hs hpc rfl Pc.noConfusion rfl (show 1 < 3 by omega) rfl rfl rfl
    | true =>
      have hs : step c s (.reconnected (some (.Connection .Disconnected))) =
          some (s.push c (.Err (.Connection .Disconnected)) .top) := by
        simp only [step, hpc]
      exact hpush rfl hs hpc rfl (by decide)
  | redelivering messageIds ticker =>
    have hs : step c s (.sent false) = some { s with pc := .top } := by
      simp [step, hpc]
    exact hmove rfl hs hpc rfl Pc.noConfusion rfl (show 2 < 3 by omega) rfl rfl rfl
  | acking messageId cumulative resume =>
    have hs : step c s (.sent false) = some { s with pc := resume.pc } := by
      simp [step, hpc]
    refine hmove rfl hs hpc rfl ?_ (pushes_resume resume) ?_ rfl rfl rfl
    · cases resume with
      | top => exact Pc.noConfusion
      | payload redeliveryCount rest => exact Pc.noConfusion
    · rw [effort_resume]
      exact Nat.lt_succ_self _
  | payload redeliveryCount items =>
    have hs : step c s .item = some (s.item c redeliveryCount items) := by
      simp only [step, hpc]
    have hlocal := local_item (c := c) s redeliveryCount items
    refine ⟨.item, _, rfl, hs, (uses_item hd redeliveryCount items).overloaded
      (hlocal.waiting.trans h.waiting) hlocal.events (hover hpc), Or.inr ⟨hlocal.events, ?_⟩⟩
    rw [hpc]
    exact effort_item redeliveryCount items
  | publishing messageId redeliveryCount rest =>
    by_cases hone : c.entryPushes redeliveryCount rest ≤ 1
    · have hs : step c s (.published (some (.Connection .Disconnected))) =
          some (s.push c (.Err (.Connection .Disconnected)) .top) := by
        simp only [step, hpc]
      refine hpush rfl hs hpc (Nat.max_eq_left hone) ?_
      show 2 < 5 + 3 * rest.length
      omega
    · have hs : step c s (.published none) = some { s with
          deadLettered := s.deadLettered ++ [messageId]
          unackedMessages := s.unackedMessages.filter fun u => u.1 ≠ messageId
          pc := .acking messageId false (.payload redeliveryCount rest) } := by
        simp only [step, hpc]
      refine hmove rfl hs hpc rfl Pc.noConfusion ?_ ?_ rfl rfl rfl
      · exact (Nat.max_eq_right (Nat.le_of_not_le hone)).symm
      · show 3 + 3 * rest.length + 1 < 5 + 3 * rest.length
        omega
  | waiting =>
    have hle := hsane.le hd hpark
    have hlt := hover hpc
    cases hev : s.events with
    | nil =>
      rw [hev] at hlt
      have hlt' : c.receiverQueueSize < s.messages.length := hlt
      omega
    | cons e rest =>
      rw [hev] at hlt
      -- the answer, or the end, has no load in front of it
      by_cases hstop : e = .EngineMessage (some (.GetConnection request)) ∨ e.ends = true
      · rw [ahead, if_pos hstop] at hlt
        have hlt' : c.receiverQueueSize < s.messages.length := hlt
        omega
      · obtain ⟨hne, hend⟩ := not_or.mp hstop
        rw [Bool.not_eq_true] at hend
        rw [ahead_cons hne hend] at hlt
        have hs : step c s .next = some ({ s with events := rest }.handle c e) := by
          simp only [step, hpc, hev]
        obtain ⟨hevents, -, hwait⟩ := waiting_handle (handle_cases c { s with events := rest } e)
        refine ⟨.next, _, rfl, hs, ?_, Or.inl ?_⟩
        · refine (uses_handle (s := { s with events := rest }) hd hend (handle_cases _ _ _)).overloaded
            ((hwait request).mpr ⟨h.waiting, hne⟩) hevents ?_
          have hlt' : c.receiverQueueSize <
            s.messages.length + 0 + (e.pushes c + ahead c request rest) := hlt
          show _ < s.messages.length + e.pushes c + ahead c request rest
          omega
        · rw [hevents, hev]
          exact Nat.lt_succ_self _

/-- **The engine blocks** — by induction on the events it still has to take and, within one, on how
    far it is from the next. -/
theorem blocks_of_overloaded (s : State) (h : Overloaded c s request) (hsane : Sane c s) :
    ∃ as t, as.all Action.ofEngine = true ∧ (consumer c).exec s as = some t ∧ MutuallyBlocked t := by
  by_cases hpark : s.pc.isParked = true
  · refine ⟨[], s, rfl, rfl, hpark, ?_⟩
    rw [h.waiting]
    exact Option.some_ne_none request
  · rw [Bool.not_eq_true] at hpark
    obtain ⟨a, s', ha, hs, h', hcloser⟩ := h.progress hsane hpark
    obtain ⟨as, t, has, ht, hblocked⟩ := blocks_of_overloaded s' h' (hsane.step hs)
    refine ⟨a :: as, t, ?_, ?_, hblocked⟩
    · rw [List.all_cons, ha, has, Bool.true_and]
    · rw [Sys.exec_cons]
      exact Option.bind_eq_some_iff.mpr ⟨s', hs, ht⟩
termination_by (s.events.length, s.pc.effort)
decreasing_by
  rcases hcloser with hlt | ⟨heq, hlt⟩
  · exact Prod.Lex.left _ _ hlt
  · rw [heq]
    exact Prod.Lex.right _ hlt

/-- What the engine does by itself makes no request and forwards nothing. -/
theorem leavesRoom_of_ofEngine {a : Action} (ha : a.ofEngine = true) : leavesRoom c s a = true := by
  cases a with
  | getConnection => exact absurd ha Bool.false_ne_true
  | arrive m => exact absurd ha Bool.false_ne_true
  | _ => rfl

theorem guarded_of_ofEngine (as : List Action) (has : as.all Action.ofEngine = true) :
    ∀ s, (consumer c).Guarded (fun s a => leavesRoom c s a = true) s as := by
  induction as with
  | nil => exact fun s => trivial
  | cons a as ih =>
    intro s s' _
    rw [List.all_cons, Bool.and_eq_true] at has
    exact ⟨leavesRoom_of_ofEngine has.1, ih has.2 s'⟩

/-- A request without room, or a message in front of one. -/
theorem overloaded_of_not_leavesRoom {a : Action} (hok : leavesRoom c s a = false)
    (hs : step c s a = some s') : ∃ request, Overloaded c s' request := by
  cases step_moves hs with
  | getConnection => exact ⟨s.nextRequest, rfl, hok⟩
  | arrive =>
    simp only [leavesRoom] at hok
    split at hok
    · rename_i request hw
      exact ⟨request, hw, hok⟩
    · exact absurd hok.symm Bool.false_ne_true
  | _ => exact absurd hok.symm Bool.false_ne_true

end

/-- **The condition is exact**: a step of a run that has met it so far meets it if and only if the
    engine alone cannot run into the deadlock afterwards. -/
theorem leavesRoom_iff {c : Config} {s s' : State} {a : Action}
    (h : (consumer c).ReachIf (fun s a => leavesRoom c s a = true) s)
    (hs : step c s a = some s') :
    leavesRoom c s a = true ↔ ∀ as t, as.all Action.ofEngine = true →
      (consumer c).exec s' as = some t → ¬ MutuallyBlocked t := by
  obtain ⟨hsane, hroom⟩ := inv_of_reachIf h
  constructor
  · intro hok as t has ht
    apply never_mutually_blocked
    exact Sys.ReachIf.exec as (.step h hok hs) (guarded_of_ofEngine as has s') ht
  · intro hnever
    by_contra hok
    rw [Bool.not_eq_true] at hok
    obtain ⟨request, hover⟩ := overloaded_of_not_leavesRoom hok hs
    obtain ⟨as, t, has, ht, hblocked⟩ := blocks_of_overloaded s' hover (hsane.step hs)
    exact hnever as t has ht hblocked


end PulsarClient.Consumer
