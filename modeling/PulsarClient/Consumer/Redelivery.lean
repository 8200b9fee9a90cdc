/-
  THE REDELIVERY TICK — which messages the engine asks for again.

  The engine remembers when each delivered message is overdue (`unacked_messages`), forgets a message
  whose very id is acknowledged, and asks for what is overdue at every tick.  A cumulative ack covers
  many messages and makes it forget one ("FIXME: this does not handle cumulative acks").

  1. The HISTORY of a run (`tracked`): deliveries with their deadline, acknowledgements by the
     application, and the requests of the tick.

  2. `AsksRightly` — a request is for messages that were delivered, are overdue, and have not been
     acknowledged since.

  3. `TickInv` — what is remembered was delivered, and an ack that covers it since is still queued.

  4. `cumulative_ack_forgotten`, and `asks_rightly` — the condition (`acksOne`): every ack that the
     engine takes covers no remembered message but its own, and none is queued when a request goes out.
-/
import PulsarClient.Consumer.Acks
import PulsarClient.Consumer.Engine
import PulsarClient.Lib.Runs

namespace PulsarClient.Consumer

open Runs Proto

/-! ## The history -/

inductive Happening where
  /-- into the channel of the application, and when it will be overdue -/
  | delivered (messageId : MessageIdData) (deadline : Nat)
  /-- by the application -/
  | acked (messageId : MessageIdData) (cumulative : Bool)
  /-- the request of a tick is sent -/
  | asked (messageIds : List MessageIdData) (now : Nat)
  deriving DecidableEq, Repr

/-- What a step adds to the history. -/
def happened (c : Config) (s : State) : Action → List Happening
  | .item =>
    match s.pc with
    | .payload redeliveryCount ((messageId, _) :: _) =>
      if isBeforeStartMessage c.topic c.options messageId ∨ c.deadLetters redeliveryCount ∨ s.dropped
      then []
      else [.delivered messageId (s.now + c.unackedMessageRedeliveryDelay.getD 0)]
    | _ => []
  | .ack messageId cumulative => [.acked messageId cumulative]
  | .sent true =>
    match s.pc with
    | .redelivering messageIds true => [.asked messageIds s.now]
    | _ => []
  | _ => []

/-- A consumer with the history of its run. -/
structure Tracked where
  consumer : State
  history : List Happening := []

def tracked (c : Config) : Sys Tracked Action where
  init t := t = { consumer := { remainingMessages := c.batchSize } }
  step t a := (step c t.consumer a).map fun s =>
    { consumer := s, history := t.history ++ happened c t.consumer a }

/-- The message that an id stands for. -/
def positionOf (id : MessageIdData) : Position where
  ledgerId := id.ledgerId
  entryId := id.entryId
  index := (indexOf id).getD 0

/-- Delivered, overdue, and since the last delivery neither acknowledged nor covered by a cumulative
    acknowledgement of the same or a later position. -/
def Outstanding (before : List Happening) (now : Nat) (id : MessageIdData) : Prop :=
  ∃ earlier deadline since, before = earlier ++ .delivered id deadline :: since ∧ deadline < now ∧
    (∀ deadline', .delivered id deadline' ∉ since) ∧
    ∀ ack cumulative, .acked ack cumulative ∈ since → asksFor ack cumulative (positionOf id) = false

/-- A request is for outstanding messages. -/
def AsksRightly (before : List Happening) : Happening → Prop
  | .asked messageIds now => ∀ id ∈ messageIds, Outstanding before now id
  | _ => True

/-! ## The condition -/

/-- An ack on its way to the engine. -/
def Queued (s : State) (id : MessageIdData) (cumulative : Bool) : Prop :=
  .Ack id cumulative ∈ s.requests ∨ .EngineMessage (some (.Ack id cumulative)) ∈ s.events

/-- The acks on their way to the engine. -/
def queuedAcks (s : State) : List (MessageIdData × Bool) :=
  (s.requests.filterMap fun r => match r with
    | .Ack id cumulative => some (id, cumulative)
    | _ => none) ++
  s.events.filterMap fun e => match e with
    | .EngineMessage (some (.Ack id cumulative)) => some (id, cumulative)
    | _ => none

/-- An ack that the engine takes covers no remembered message but that with its id; and when the request
    of a tick goes out, no ack that covers one of its messages is queued. -/
def acksOne (s : State) : Action → Bool
  | .next =>
    match s.events with
    | .EngineMessage (some (.Ack id cumulative)) :: _ =>
      s.unackedMessages.all fun u => !asksFor id cumulative (positionOf u.1) || decide (u.1 = id)
    | _ => true
  | .sent true =>
    match s.pc with
    | .redelivering messageIds true =>
      messageIds.all fun id => (queuedAcks s).all fun ack => !asksFor ack.1 ack.2 (positionOf id)
    | _ => true
  | _ => true

theorem mem_queuedAcks {s : State} {id : MessageIdData} {cumulative : Bool} (h : Queued s id cumulative) :
    (id, cumulative) ∈ queuedAcks s := by
  rcases h with h | h
  · exact List.mem_append_left _ (List.mem_filterMap.mpr ⟨_, h, rfl⟩)
  · exact List.mem_append_right _ (List.mem_filterMap.mpr ⟨_, h, rfl⟩)

/-! ## What a step does to the memory -/

/-- Neither in the middle of a delivery nor of a request. -/
def Pc.calm : Pc → Prop
  | parked (some _) _ => False
  | redelivering _ true => False
  | _ => True

/-- A step that delivers nothing, takes no ack, and asks for nothing. -/
structure Calm (s s' : State) : Prop where
  queued : ∀ id cumulative, Queued s id cumulative → Queued s' id cumulative
  now : s.now ≤ s'.now
  memory : s'.pc = s.pc ∧ s'.unackedMessages = s.unackedMessages ∨
    (∀ u resume, s.pc ≠ .parked (some u) resume) ∧ s'.pc.calm ∧
      s'.unackedMessages ⊆ s.unackedMessages

/-- A message is remembered. -/
def State.remember (s : State) (u : MessageIdData × Nat) : List (MessageIdData × Nat) :=
  (s.unackedMessages.filter fun u' => u'.1 ≠ u.1) ++ [u]

/-- What a step does to the memory of the engine. -/
inductive MemoryStep (c : Config) (s : State) : Action → State → Prop where
  | calm {a s'} (h : Calm s s') (ha : happened c s a = []) : MemoryStep c s a s'
  | acked {id cumulative} :
    MemoryStep c s (.ack id cumulative)
      { s with
        requests := s.requests ++ [.Ack id cumulative]
        acked := s.acked ++ [(id, cumulative)] }
  | taken {id cumulative rest} (hpc : s.pc = .waiting)
    (hev : s.events = .EngineMessage (some (.Ack id cumulative)) :: rest) :
    MemoryStep c s .next
      { s with
        events := rest
        unackedMessages := s.unackedMessages.filter fun u => u.1 ≠ id
        pc := .acking id cumulative .top }
  | ticked {ids rest} (hpc : s.pc = .waiting)
    (hev : s.events = .EngineMessage (some .UnackedRedelivery) :: rest)
    (hids : ids = (s.unackedMessages.filter fun u => u.2 < s.now).map Prod.fst) :
    MemoryStep c s .next { s with events := rest, pc := .redelivering ids true }
  | delivered {id payload s'} (hpc : s.pc.calm)
    (hhappened : happened c s .item =
      [.delivered id (s.now + c.unackedMessageRedeliveryDelay.getD 0)])
    (hqueued : ∀ id' cumulative, Queued s id' cumulative → Queued s' id' cumulative)
    (hmemory : (∃ resume, s'.pc = .parked (s.remembered c (.Ok id payload)) resume ∧
        s'.unackedMessages = s.unackedMessages) ∨
      (s'.pc.calm ∧ s'.unackedMessages = match s.remembered c (.Ok id payload) with
        | some u => s.remember u
        | none => s.unackedMessages)) :
    MemoryStep c s .item s'
  | pushed {a u resume s'} (hpc : s.pc = .parked (some u) resume)
    (hqueued : ∀ id cumulative, Queued s id cumulative → Queued s' id cumulative)
    (hpc' : s'.pc = resume.pc) (hmemory : s'.unackedMessages = s.remember u)
    (ha : happened c s a = []) : MemoryStep c s a s'
  | asked {ids} (hpc : s.pc = .redelivering ids true) :
    MemoryStep c s (.sent true)
      { s with
        sent := s.sent ++ [.redeliver ids]
        unackedMessages := s.unackedMessages.filter fun u => u.1 ∉ ids
        pc := .top }

section

variable {c : Config} {s s' : State}

theorem Resume.calm_pc (resume : Resume) : resume.pc.calm := by
  cases resume with
  | top => trivial
  | payload redeliveryCount rest => trivial

theorem Pc.calm.not_parked {pc : Pc} (h : pc.calm) (u : MessageIdData × Nat) (resume : Resume) :
    pc ≠ .parked (some u) resume := by
  rintro rfl
  exact h

/-- The engine moves on, with the memory it had or less. -/
theorem Calm.move (hqueued : ∀ id cumulative, Queued s id cumulative → Queued s' id cumulative)
    (hnow : s'.now = s.now) (hpc : s.pc.calm) (hpc' : s'.pc.calm)
    (hmemory : s'.unackedMessages ⊆ s.unackedMessages) : Calm s s' where
  queued := hqueued
  now := Nat.le_of_eq hnow.symm
  memory := Or.inr ⟨hpc.not_parked, hpc', hmemory⟩

/-- Something else moves, and the engine stays where it is. -/
theorem Calm.stay (hqueued : ∀ id cumulative, Queued s id cumulative → Queued s' id cumulative)
    (hnow : s.now ≤ s'.now) (hpc : s'.pc = s.pc) (hmemory : s'.unackedMessages = s.unackedMessages) :
    Calm s s' where
  queued := hqueued
  now := hnow
  memory := Or.inl ⟨hpc, hmemory⟩

theorem Queued.of_eq (hreq : s'.requests = s.requests) (hev : s'.events = s.events)
    (id : MessageIdData) (cumulative : Bool) (h : Queued s id cumulative) : Queued s' id cumulative := by
  unfold Queued
  rw [hreq, hev]
  exact h

/-- Telling the application of an error leaves the memory alone. -/
theorem memory_push_err (s : State) (e : Error) (resume : Resume) :
    (s.push c (.Err e) resume).now = s.now ∧ (s.push c (.Err e) resume).pc.calm ∧
      (s.push c (.Err e) resume).unackedMessages = s.unackedMessages := by
  unfold State.push
  split
  · exact ⟨rfl, trivial, rfl⟩
  · split
    · exact ⟨rfl, trivial, rfl⟩
    · exact ⟨rfl, resume.calm_pc, rfl⟩

/-- Taking an event leaves the memory alone, except for an ack and for the ticker. -/
theorem memoryStep_next {e : Event} {rest : List Event} (hpc : s.pc = .waiting)
    (hev : s.events = e :: rest) (h : Handles c { s with events := rest } e s') :
    MemoryStep c s .next s' := by
  have hcalm : s.pc.calm := by
    rw [hpc]
    trivial
  -- what is taken is no ack
  have hqueued : (∀ id cumulative, e ≠ .EngineMessage (some (.Ack id cumulative))) →
      ∀ id cumulative, Queued s id cumulative → Queued s' id cumulative := by
    intro hne id cumulative hqueued
    obtain ⟨-, -, hrequests, hevents⟩ := handle_keeps h
    unfold Queued
    rw [hrequests, hevents]
    rcases hqueued with hreq | hmem
    · exact Or.inl hreq
    · rw [hev] at hmem
      rcases List.mem_cons.mp hmem with heq | hrest
      · exact absurd heq.symm (hne id cumulative)
      · exact Or.inr hrest
  have hnoAck : ∀ {m : Option PulsarClient.Message}, e = .Message m →
      ∀ id cumulative, e ≠ .EngineMessage (some (.Ack id cumulative)) := by
    rintro m rfl id cumulative heq
    cases heq
  cases h with
  | ack => exact .taken hpc hev
  | ticked => exact .ticked hpc hev rfl
  | broken =>
    obtain ⟨hnow, hpc', hmemory⟩ := memory_push_err (c := c) _ _ .top
    refine .calm (.move (hqueued (hnoAck rfl)) hnow hcalm hpc' fun u hu => ?_) rfl
    exact Eq.mp (congrArg (fun l => u ∈ l) hmemory) hu
  | source | endOfTopic | change | entry | empty | closed | ignored =>
    exact .calm (.move (hqueued (hnoAck rfl)) rfl hcalm trivial (List.Subset.refl _)) rfl
  | requestsEnd | nack | settled | getConnection =>
    refine .calm (.move (hqueued ?_) rfl hcalm trivial (List.Subset.refl _)) rfl
    intro _ _ heq
    cases heq

theorem unackedMessages_pushed (s : State) (unacked : Option (MessageIdData × Nat))
    (resume : Resume) : (s.pushed unacked resume).unackedMessages = match unacked with
      | some u => s.remember u
      | none => s.unackedMessages := by
  cases unacked <;> rfl

/-- One round of the loop over an entry. -/
theorem memoryStep_item {redeliveryCount : Option Nat} {items : List (MessageIdData × Payload)}
    (hpc : s.pc = .payload redeliveryCount items) :
    MemoryStep c s .item (s.item c redeliveryCount items) := by
  have hcalm : s.pc.calm := by
    rw [hpc]
    trivial
  have hlocal := local_item (c := c) s redeliveryCount items
  have hqueued := Queued.of_eq hlocal.requests hlocal.events
  cases items with
  | nil =>
    refine .calm (.move hqueued rfl hcalm trivial (List.Subset.refl _)) ?_
    unfold happened
    rw [hpc]
  | cons i rest =>
    obtain ⟨id, payload⟩ := i
    rw [item_cons] at hqueued ⊢
    have hnothing : (isBeforeStartMessage c.topic c.options id = true ∨
        c.deadLetters redeliveryCount = true ∨ s.dropped = true) → happened c s .item = [] := by
      intro h
      unfold happened
      rw [hpc]
      exact if_pos h
    split at hqueued <;> rename_i hbefore
    · rw [if_pos hbefore]
      exact .calm (.move hqueued rfl hcalm trivial (List.Subset.refl _)) (hnothing (Or.inl hbefore))
    · rw [if_neg hbefore]
      split at hqueued <;> rename_i hdead
      · rw [if_pos hdead]
        exact .calm (.move hqueued rfl hcalm trivial (List.Subset.refl _))
          (hnothing (Or.inr (Or.inl hdead)))
      · rw [if_neg hdead]
        unfold State.push at hqueued ⊢
        split at hqueued <;> rename_i hdropped
        · rw [if_pos hdropped]
          exact .calm (.move hqueued rfl hcalm trivial (List.Subset.refl _))
            (hnothing (Or.inr (Or.inr hdropped)))
        · rw [if_neg hdropped]
          have hhappened : happened c s .item =
              [.delivered id (s.now + c.unackedMessageRedeliveryDelay.getD 0)] := by
            unfold happened
            rw [hpc]
            exact if_neg fun h => by
              rcases h with h | h | h
              · exact hbefore h
              · exact hdead h
              · exact hdropped h
          split at hqueued <;> rename_i hfull
          · rw [if_pos hfull]
            exact .delivered hcalm hhappened hqueued (Or.inl ⟨_, rfl, rfl⟩)
          · rw [if_neg hfull]
            exact .delivered hcalm hhappened hqueued (Or.inr ⟨trivial, unackedMessages_pushed ..⟩)

/-- A request of the application, or of the ticker, that is no ack. -/
theorem memoryStep_request {a : Action} {r : EngineMessage}
    (hreq : s'.requests = s.requests ++ [r]) (hev : s'.events = s.events) (hnow : s'.now = s.now)
    (hpc : s'.pc = s.pc) (hmemory : s'.unackedMessages = s.unackedMessages)
    (ha : happened c s a = []) : MemoryStep c s a s' := by
  refine .calm (.stay (fun id cumulative h => ?_) (Nat.le_of_eq hnow.symm) hpc hmemory) ha
  unfold Queued
  rw [hreq, hev]
  exact h.imp (List.mem_append_left _) fun h => h

/-- **The step inversion.** -/
theorem memoryStep {a : Action} (hs : step c s a = some s') : MemoryStep c s a s' := by
  have hsame : ∀ {s' : State}, s'.requests = s.requests → s'.events = s.events →
      ∀ id cumulative, Queued s id cumulative → Queued s' id cumulative :=
    fun hreq hev => Queued.of_eq hreq hev
  -- the application is told of an error
  have hpush : ∀ {a : Action} (e : Error), s.pc.calm → happened c s a = [] →
      MemoryStep c s a (s.push c (.Err e) .top) := by
    intro a e hpc ha
    obtain ⟨hnow, hpc', hmemory⟩ := memory_push_err (c := c) s e .top
    have hlocal := local_push (c := c) s (.Err e) .top
    exact .calm (.move (hsame hlocal.requests hlocal.events) hnow hpc hpc'
      (hmemory ▸ List.Subset.refl _)) ha
  cases step_moves hs with
  | arrive =>
    refine .calm (.stay (fun id cumulative h => ?_) (Nat.le_refl _) rfl rfl) rfl
    exact h.imp (fun h => h) (List.mem_append_left _)
  | forward hreq =>
    refine .calm (.stay (fun id cumulative h => ?_) (Nat.le_refl _) rfl rfl) rfl
    rcases h with h | h
    · rw [hreq] at h
      rcases List.mem_cons.mp h with h | h
      · exact Or.inr (List.mem_append_right _ (List.mem_singleton.mpr (h ▸ rfl)))
      · exact Or.inl h
    · exact Or.inr (List.mem_append_left _ h)
  | forwardEnd =>
    refine .calm (.stay (fun id cumulative h => ?_) (Nat.le_refl _) rfl rfl) rfl
    exact h.imp (fun h => h) (List.mem_append_left _)
  | top hpc =>
    rename_i lost
    refine .calm (.move (hsame rfl rfl) rfl (hpc ▸ trivial) ?_ (List.Subset.refl _)) rfl
    cases lost <;> trivial
  | reconnected hpc =>
    rename_i closed
    refine .calm (.move (hsame rfl rfl) rfl (hpc ▸ trivial) ?_ (List.Subset.refl _)) rfl
    cases closed <;> trivial
  | stopped hpc =>
    exact .calm (.move (hsame rfl rfl) rfl (hpc ▸ trivial) trivial (List.Subset.refl _)) rfl
  | reported hpc => exact hpush _ (hpc ▸ trivial) rfl
  | granted hpc =>
    exact .calm (.move (hsame rfl rfl) rfl (hpc ▸ trivial) trivial (List.Subset.refl _)) rfl
  | refused hpc hwants hpc' =>
    refine .calm (.move (hsame rfl rfl) rfl (hpc ▸ trivial) ?_ (List.Subset.refl _)) rfl
    rcases hpc' with rfl | rfl <;> trivial
  | enough hpc =>
    exact .calm (.move (hsame rfl rfl) rfl (hpc ▸ trivial) trivial (List.Subset.refl _)) rfl
  | timeout hpc =>
    exact .calm (.move (hsame rfl rfl) rfl (hpc ▸ trivial) trivial (List.Subset.refl _)) rfl
  | next hpc hev => exact memoryStep_next hpc hev (handle_cases _ _ _)
  | item hpc => exact memoryStep_item hpc
  | published hpc =>
    exact .calm (.move (hsame rfl rfl) rfl (hpc ▸ trivial) trivial
      fun _ hu => (List.mem_filter.mp hu).1) rfl
  | unpublished hpc => exact hpush _ (hpc ▸ trivial) rfl
  | acked hpc =>
    rename_i resume ok
    refine .calm (.move (hsame rfl rfl) rfl (hpc ▸ trivial) resume.calm_pc (List.Subset.refl _)) ?_
    cases ok <;> simp only [happened, hpc]
  | asked hpc =>
    rename_i messageIds ticker ok
    cases ok with
    | true =>
      cases ticker with
      | true => exact .asked hpc
      | false =>
        refine .calm (.move (hsame rfl rfl) rfl (hpc ▸ trivial) trivial (List.Subset.refl _)) ?_
        simp only [happened, hpc]
    | false =>
      cases ticker with
      | true =>
        refine .calm ⟨hsame rfl rfl, Nat.le_refl _, Or.inr ⟨?_, trivial, List.Subset.refl _⟩⟩ rfl
        intro u resume hc
        cases hpc.symm.trans hc
      | false =>
        exact .calm (.move (hsame rfl rfl) rfl (hpc ▸ trivial) trivial (List.Subset.refl _)) rfl
  | unparked hwaiting hdropped hmessages hpc =>
    rename_i unacked resume
    cases unacked with
    | none =>
      exact .calm (.move (hsame rfl rfl) rfl (hpc ▸ trivial) resume.calm_pc (List.Subset.refl _)) rfl
    | some u => exact .pushed hpc (hsame rfl rfl) rfl rfl rfl
  | read => exact .calm (.stay (hsame rfl rfl) (Nat.le_refl _) rfl rfl) rfl
  | ack => exact .acked
  | nack => exact memoryStep_request rfl rfl rfl rfl rfl rfl
  | getConnection => exact memoryStep_request rfl rfl rfl rfl rfl rfl
  | dropRequest => exact .calm (.stay (hsame rfl rfl) (Nat.le_refl _) rfl rfl) rfl
  | released hwaiting hdropped hpc =>
    rename_i unacked resume
    cases unacked with
    | none =>
      exact .calm (.move (hsame rfl rfl) rfl (hpc ▸ trivial) resume.calm_pc (List.Subset.refl _)) rfl
    | some u => exact .pushed hpc (hsame rfl rfl) rfl rfl rfl
  | dropConsumer => exact .calm (.stay (hsame rfl rfl) (Nat.le_refl _) rfl rfl) rfl
  | tick => exact memoryStep_request rfl rfl rfl rfl rfl rfl
  | clock => exact .calm (.stay (hsame rfl rfl) (Nat.le_succ _) rfl rfl) rfl

end

/-! ## The invariant -/

/-- The last delivery of a message set this deadline, and an ack since that covers it is still on its
    way to the engine. -/
def Kept (s : State) (history : List Happening) (u : MessageIdData × Nat) : Prop :=
  ∃ earlier since, history = earlier ++ .delivered u.1 u.2 :: since ∧
    (∀ deadline, .delivered u.1 deadline ∉ since) ∧
    ∀ ack cumulative, .acked ack cumulative ∈ since →
      asksFor ack cumulative (positionOf u.1) = true → Queued s ack cumulative

structure TickInv (t : Tracked) : Prop where
  /-- what is remembered, but for an older delivery of the message that is being delivered -/
  remembered : ∀ u ∈ t.consumer.unackedMessages,
    (∀ v resume, t.consumer.pc = .parked (some v) resume → v.1 ≠ u.1) →
      Kept t.consumer t.history u
  parked : ∀ u resume, t.consumer.pc = .parked (some u) resume → Kept t.consumer t.history u
  asking : ∀ ids, t.consumer.pc = .redelivering ids true → ∀ id ∈ ids,
    ∃ deadline, (id, deadline) ∈ t.consumer.unackedMessages ∧ deadline < t.consumer.now
  asked : Each AsksRightly t.history

section

variable {c : Config} {s s' : State} {history : List Happening}

theorem Kept.mono {u : MessageIdData × Nat}
    (hqueued : ∀ ack cumulative, asksFor ack cumulative (positionOf u.1) = true →
      Queued s ack cumulative → Queued s' ack cumulative)
    (h : Kept s history u) : Kept s' history u := by
  obtain ⟨earlier, since, heq, hlast, hacked⟩ := h
  exact ⟨earlier, since, heq, hlast, fun ack cumulative hmem hasks =>
    hqueued ack cumulative hasks (hacked ack cumulative hmem hasks)⟩

/-- One more happening that is no delivery of the message, and if it is an ack, a queued one. -/
theorem Kept.concat {u : MessageIdData × Nat} {x : Happening}
    (hx : ∀ deadline, x ≠ .delivered u.1 deadline)
    (hack : ∀ ack cumulative, x = .acked ack cumulative → Queued s ack cumulative)
    (h : Kept s history u) : Kept s (history ++ [x]) u := by
  obtain ⟨earlier, since, rfl, hlast, hacked⟩ := h
  refine ⟨earlier, since ++ [x], ?_, fun deadline hmem => ?_, fun ack cumulative hmem hasks => ?_⟩
  · rw [List.append_assoc, List.cons_append]
  · rcases List.mem_append.mp hmem with hmem | hmem
    · exact hlast deadline hmem
    · exact hx deadline (List.mem_singleton.mp hmem).symm
  · rcases List.mem_append.mp hmem with hmem | hmem
    · exact hacked ack cumulative hmem hasks
    · exact hack ack cumulative (List.mem_singleton.mp hmem).symm

theorem kept_delivered (id : MessageIdData) (deadline : Nat) :
    Kept s (history ++ [.delivered id deadline]) (id, deadline) :=
  ⟨history, [], rfl, fun _ h => absurd h List.not_mem_nil, fun _ _ h => absurd h List.not_mem_nil⟩

theorem mem_remember {u u' : MessageIdData × Nat} (h : u ∈ s.remember u') :
    u = u' ∨ u ∈ s.unackedMessages ∧ u.1 ≠ u'.1 := by
  rcases List.mem_append.mp h with h | h
  · obtain ⟨hmem, hne⟩ := List.mem_filter.mp h
    exact Or.inr ⟨hmem, of_decide_eq_true hne⟩
  · exact Or.inl (List.mem_singleton.mp h)

theorem TickInv.init : TickInv { consumer := { remainingMessages := c.batchSize } } where
  remembered := fun _ h => absurd h List.not_mem_nil
  parked := fun _ _ h => by cases h
  asking := fun _ h => by cases h
  asked := each_nil

/-- Nothing is being delivered or asked for: what is remembered is all there is to say. -/
theorem TickInv.of_calm (hcalm : s.pc.calm) (hkept : ∀ u ∈ s.unackedMessages, Kept s history u)
    (hasked : Each AsksRightly history) : TickInv ⟨s, history⟩ := by
  refine ⟨fun u hu _ => hkept u hu, fun u resume hp => ?_, fun ids hp => ?_, hasked⟩
  · exact absurd hp (hcalm.not_parked u resume)
  · have hp' : s.pc = .redelivering ids true := hp
    rw [hp'] at hcalm
    exact hcalm.elim

/-- **The step lemma**: a step that meets the condition keeps the invariant. -/
theorem TickInv.step {delay : Nat} (hdelay : c.unackedMessageRedeliveryDelay = some delay)
    (hinv : TickInv ⟨s, history⟩) {a : Action} (hok : acksOne s a = true)
    (hs : MemoryStep c s a s') : TickInv ⟨s', history ++ happened c s a⟩ := by
  cases hs with
  | calm h ha =>
    rw [ha, List.append_nil]
    have hmono : ∀ u, Kept s history u → Kept s' history u :=
      fun u hu => hu.mono fun ack cumulative _ => h.queued ack cumulative
    rcases h.memory with ⟨hpc, hmemory⟩ | ⟨hpc, hcalm, hmemory⟩
    · refine ⟨fun u hu hne => ?_, fun u resume hp => ?_, fun ids hp id hid => ?_, hinv.asked⟩
      · exact hmono u (hinv.remembered u (hmemory ▸ hu) fun v resume hv => hne v resume (hpc.trans hv))
      · exact hmono u (hinv.parked u resume (hpc.symm.trans hp))
      · obtain ⟨deadline, hmem, hlt⟩ := hinv.asking ids (hpc.symm.trans hp) id hid
        refine ⟨deadline, ?_, Nat.lt_of_lt_of_le hlt h.now⟩
        show _ ∈ s'.unackedMessages
        rw [hmemory]
        exact hmem
    · refine .of_calm hcalm (fun u hu => ?_) hinv.asked
      exact hmono u (hinv.remembered u (hmemory hu) fun v resume hv => absurd hv (hpc v resume))
  | acked =>
    rename_i id cumulative
    have hmono : ∀ u, Kept s history u → Kept { s with
        requests := s.requests ++ [.Ack id cumulative]
        acked := s.acked ++ [(id, cumulative)] } (history ++ [.acked id cumulative]) u := by
      intro u hu
      apply Kept.concat (fun _ => Happening.noConfusion)
      · intro ack cumulative' heq
        obtain ⟨rfl, rfl⟩ := Happening.acked.inj heq
        exact Or.inl (List.mem_append_right _ (List.mem_singleton.mpr rfl))
      · exact hu.mono fun ack cumulative' _ h => h.imp (List.mem_append_left _) fun h => h
    exact ⟨fun u hu hne => hmono u (hinv.remembered u hu hne),
      fun u resume hp => hmono u (hinv.parked u resume hp), hinv.asking,
      each_concat.mpr ⟨hinv.asked, trivial⟩⟩
  | taken hpc hev =>
    rename_i id cumulative rest
    show TickInv ⟨_, history ++ []⟩
    rw [List.append_nil]
    refine .of_calm trivial (fun u hu => ?_) hinv.asked
    obtain ⟨hmem, hne⟩ := List.mem_filter.mp hu
    have hkept := hinv.remembered u hmem fun v resume hv => by cases hpc.symm.trans hv
    refine hkept.mono fun ack cumulative' hasks h => ?_
    rcases h with h | h
    · exact Or.inl h
    · rw [hev] at h
      rcases List.mem_cons.mp h with h | h
      · -- the ack that is taken covers what is remembered only under its own id
        simp only [Event.EngineMessage.injEq, Option.some.injEq, EngineMessage.Ack.injEq] at h
        obtain ⟨rfl, rfl⟩ := h
        have hone : (s.unackedMessages.all fun u =>
            !asksFor ack cumulative' (positionOf u.1) || decide (u.1 = ack)) = true := by
          simp only [acksOne, hev] at hok
          exact hok
        have hu' := List.all_eq_true.mp hone u hmem
        rw [hasks] at hu'
        exact absurd (of_decide_eq_true hu') (of_decide_eq_true hne)
      · exact Or.inr h
  | ticked hpc hev hids =>
    rename_i ids rest
    show TickInv ⟨_, history ++ []⟩
    rw [List.append_nil]
    refine ⟨fun u hu _ => ?_, (fun _ _ hp => by cases hp), fun ids' hp id hid => ?_, hinv.asked⟩
    · have hkept := hinv.remembered u hu fun v resume hv => by cases hpc.symm.trans hv
      refine Kept.mono (fun ack cumulative _ h => ?_) hkept
      rcases h with h | h
      · exact Or.inl h
      · have hmem : Event.EngineMessage (some (.Ack ack cumulative)) ∈ s.events := h
        rw [hev] at hmem
        rcases List.mem_cons.mp hmem with hmem | hmem
        · cases hmem
        · exact Or.inr hmem
    · obtain ⟨rfl, -⟩ := Pc.redelivering.inj hp
      rw [hids] at hid
      obtain ⟨u, hu, rfl⟩ := List.mem_map.mp hid
      obtain ⟨hmem, hlt⟩ := List.mem_filter.mp hu
      exact ⟨u.2, hmem, of_decide_eq_true hlt⟩
  | delivered hpc hhappened hqueued hmemory =>
    rename_i id payload
    have hremembered : s.remembered c (.Ok id payload) = some (id, s.now + delay) := by
      simp only [State.remembered, hdelay, Option.map_some]
    rw [hhappened, hdelay, Option.getD_some]
    rw [hremembered] at hmemory
    have hnew : Kept s' (history ++ [.delivered id (s.now + delay)]) (id, s.now + delay) :=
      kept_delivered id (s.now + delay)
    -- another message is still remembered as it was
    have hold : ∀ u ∈ s.unackedMessages, u.1 ≠ id →
        Kept s' (history ++ [.delivered id (s.now + delay)]) u := by
      intro u hu hne
      have hkept := hinv.remembered u hu fun v resume hv => absurd hv (hpc.not_parked v resume)
      have hmono := hkept.mono fun ack cumulative _ => hqueued ack cumulative
      refine hmono.concat (fun deadline heq => ?_) (fun _ _ => Happening.noConfusion)
      exact hne (Happening.delivered.inj heq).1.symm
    have hasked : Each AsksRightly (history ++ [.delivered id (s.now + delay)]) :=
      each_concat.mpr ⟨hinv.asked, trivial⟩
    rcases hmemory with ⟨resume, hpc', hsame⟩ | ⟨hcalm, hsame⟩
    · refine ⟨fun u hu hne => ?_, fun u resume' hp => ?_, fun ids hp => ?_, hasked⟩
      · have hu' : u ∈ s'.unackedMessages := hu
        rw [hsame] at hu'
        exact hold u hu' (hne (id, s.now + delay) resume hpc').symm
      · have hp' := hpc'.symm.trans hp
        obtain ⟨hsome, -⟩ := Pc.parked.inj hp'
        exact Option.some.inj hsome ▸ hnew
      · cases hpc'.symm.trans hp
    · refine .of_calm hcalm (fun u hu => ?_) hasked
      rw [hsame] at hu
      rcases mem_remember hu with rfl | ⟨hmem, hne⟩
      · exact hnew
      · exact hold u hmem hne
  | pushed hpc hqueued hpc' hmemory ha =>
    rename_i u₀ resume
    rw [ha, List.append_nil]
    have hcalm : s'.pc.calm := hpc' ▸ resume.calm_pc
    have hmono : ∀ u, Kept s history u → Kept s' history u :=
      fun u hu => hu.mono fun ack cumulative _ => hqueued ack cumulative
    refine .of_calm hcalm (fun u hu => ?_) hinv.asked
    rw [hmemory] at hu
    rcases mem_remember hu with rfl | ⟨hmem, hne⟩
    · exact hmono u (hinv.parked u resume hpc)
    · refine hmono u (hinv.remembered u hmem fun v resume' hv => ?_)
      obtain ⟨hsome, -⟩ := Pc.parked.inj (hpc.symm.trans hv)
      exact Option.some.inj hsome ▸ hne.symm
  | asked hpc =>
    rename_i ids
    have hhappened : happened c s (.sent true) = [.asked ids s.now] := by
      simp only [happened, hpc]
    -- no ack that covers what is asked for is still on its way
    have hnone : ∀ id ∈ ids, ∀ ack cumulative, Queued s ack cumulative →
        asksFor ack cumulative (positionOf id) = false := by
      intro id hid ack cumulative hqueued
      simp only [acksOne, hpc] at hok
      have hall := List.all_eq_true.mp (List.all_eq_true.mp hok id hid) _ (mem_queuedAcks hqueued)
      exact Bool.not_eq_true' _ ▸ hall
    have hkept : ∀ u ∈ s.unackedMessages, Kept s history u :=
      fun u hu => hinv.remembered u hu fun v resume hv => by cases hpc.symm.trans hv
    rw [hhappened]
    refine .of_calm trivial (fun u hu => ?_) ?_
    · have hold : Kept s history u := hkept u (List.mem_filter.mp hu).1
      exact hold.concat (fun _ => Happening.noConfusion) (fun _ _ => Happening.noConfusion)
    · refine each_concat.mpr ⟨hinv.asked, fun id hid => ?_⟩
      obtain ⟨deadline, hmem, hlt⟩ := hinv.asking ids hpc id hid
      obtain ⟨earlier, since, heq, hlast, hacked⟩ := hkept _ hmem
      refine ⟨earlier, deadline, since, heq, hlt, hlast, fun ack cumulative hack => ?_⟩
      by_contra hasks
      have hcovers : asksFor ack cumulative (positionOf id) = true := by
        simpa using hasks
      rw [hnone id hid ack cumulative (hacked ack cumulative hack hcovers)] at hcovers
      exact Bool.noConfusion hcovers

end

/-! ## The main result -/

/-- **Headline.**  With a redelivery delay, in every run whose steps all meet the condition, every
    request of the ticker is for messages that were delivered, are overdue, and have not been
    acknowledged since. -/
theorem asks_rightly (c : Config) (delay : Nat) (hdelay : c.unackedMessageRedeliveryDelay = some delay)
    (t : Tracked) (ht : (tracked c).ReachIf (fun t a => acksOne t.consumer a = true) t) :
    Each AsksRightly t.history := by
  have hinv : TickInv t := by
    apply ht.inv TickInv
    · rintro t rfl
      exact TickInv.init
    · rintro ⟨s, history⟩ a t' hinv hok hs
      obtain ⟨s', hs', rfl⟩ := Option.map_eq_some_iff.mp hs
      exact hinv.step hdelay hok (memoryStep hs')
  exact hinv.asked

/-- A consumer that asks again for what is not acknowledged within five ticks of the clock. -/
def impatient : Config where
  unackedMessageRedeliveryDelay := some 5
  codecs :=
    { decodeSingleMessageMetadata := fun _ => none
      decompress := fun _ _ b => .ok b }

/-- An entry that is one message. -/
def oneMessage (entryId : Nat) : PulsarClient.Message where
  command := { message := some { consumerId := 0, messageId := { ledgerId := 1, entryId } } }
  payload := some { metadata := {}, data := [7] }

/-- Two messages are delivered and read. -/
def twoDelivered : List Action :=
  [.arrive (some (oneMessage 0)), .arrive (some (oneMessage 1)), .top false, .flow none, .next, .item, .item,
    .top false, .flow none, .next, .item, .item, .read, .read]

/-- The first of two messages is acknowledged, the second is overdue and asked for. -/
theorem asks_rightly_overdue : ∃ t : Tracked,
    .asked [{ ledgerId := 1, entryId := 1 }] 6 ∈ t.history ∧ Each AsksRightly t.history := by
  obtain ⟨t, ht, hp⟩ := Sys.exists_reachIf_of_execIf (S := tracked impatient)
    (fun t a => acksOne t.consumer a)
    (p := fun t => decide (.asked [{ ledgerId := 1, entryId := 1 }] 6 ∈ t.history))
    (s := { consumer := { remainingMessages := 1000 } }) rfl
    (twoDelivered ++ [.ack { ledgerId := 1, entryId := 0 } false, .forward, .top false, .flow none, .next,
      .sent true, .clock, .clock, .clock, .clock, .clock, .clock, .tick, .forward, .top false, .flow none,
      .next, .sent true]) (by decide +kernel)
  exact ⟨t, of_decide_eq_true hp, asks_rightly impatient 5 rfl t ht⟩

/-- Two messages are acknowledged by one cumulative ack, and the first is asked for again. -/
theorem cumulative_ack_forgotten :
    ¬ ∀ (c : Config) (delay : Nat), c.unackedMessageRedeliveryDelay = some delay → ∀ t : Tracked,
      (tracked c).Reach t → Each AsksRightly t.history := by
  intro hall
  obtain ⟨t, ht, hp⟩ := Sys.exists_reach_of_exec (S := tracked impatient)
    (p := fun t => decide (t.history =
      [.delivered { ledgerId := 1, entryId := 0 } 5, .delivered { ledgerId := 1, entryId := 1 } 5,
        .acked { ledgerId := 1, entryId := 1 } true, .asked [{ ledgerId := 1, entryId := 0 }] 6]))
    (s := { consumer := { remainingMessages := 1000 } }) rfl
    (twoDelivered ++ [.ack { ledgerId := 1, entryId := 1 } true, .forward, .top false, .flow none, .next,
      .sent true, .clock, .clock, .clock, .clock, .clock, .clock, .tick, .forward, .top false, .flow none,
      .next, .sent true]) (by decide +kernel)
  have hasks : Each AsksRightly t.history := hall impatient 5 rfl t ht
  rw [of_decide_eq_true hp] at hasks
  obtain ⟨earlier, deadline, since, heq, -, -, hacked⟩ := hasks
    [.delivered { ledgerId := 1, entryId := 0 } 5, .delivered { ledgerId := 1, entryId := 1 } 5,
      .acked { ledgerId := 1, entryId := 1 } true] _ [] rfl { ledgerId := 1, entryId := 0 }
    (List.mem_singleton.mpr rfl)
  -- the ack comes last, so it is after the delivery, whichever that is
  have hmem : Happening.acked { ledgerId := 1, entryId := 1 } true ∈ since := by
    rcases List.eq_nil_or_concat since with rfl | ⟨since', x, rfl⟩
    · have hlast := congrArg List.getLast? heq
      simp at hlast
    · have hlast := congrArg List.getLast? heq
      simp only [List.concat_eq_append, List.getLast?_append, List.getLast?_cons, List.getLast?_nil,
        Option.getD_none, Option.getD_some, Option.some_or, Option.some.injEq] at hlast
      rw [hlast, List.concat_eq_append]
      exact List.mem_append_right _ (List.mem_singleton.mpr rfl)
  exact Bool.noConfusion (hacked _ _ hmem)

end PulsarClient.Consumer
