/-
  WHAT THE APPLICATION READS — the engine as a pipe, with the messages in it.

  Entries come in at one end (`arrive`), messages are read at the other (`read`).  In between they are in
  the queue of events, in hand, or in the channel of the application: `toRead`.

  1. `moved` — the step lemma: a step loses what `lost` says, at one place, and apart from that what is
     read and what is to be read is what was to be read before, with what has come in behind it.

  2. `reads_sublist` — so in every run what is read is, in order and byte by byte, out of the entries.

  3. `reads_conserved` — a run without loss reads everything; `lost_of_plain` says which runs these are:
     no start id, no dead letters, and a consumer that is not dropped.
-/
import PulsarClient.Consumer.Trace
import PulsarClient.Lib.Pipes

namespace PulsarClient.Consumer

open Runs Proto

/-! ## The pipe -/

/-- The messages of an entry, with what they carry; none if it is no entry, or cannot be unpacked. -/
def itemsOf (codecs : Codecs) (m : PulsarClient.Message) : List (MessageIdData × Payload) :=
  if m.command.reachedEndOfTopic.isSome ∨ m.command.activeConsumerChange.isSome then []
  else
    match m.command.message, m.payload with
    | some message, some payload =>
      match unpack codecs message.messageId payload with
      | .ok items => items
      | .error _ => []
    | _, _ => []

def Event.items (c : Config) : Event → List (MessageIdData × Payload)
  | .Message (some m) => itemsOf c.codecs m
  | _ => []

def Delivery.item? : Delivery → Option (MessageIdData × Payload)
  | .Ok messageId payload => some (messageId, payload)
  | .Err _ => none

def Resume.items : Resume → List (MessageIdData × Payload)
  | top => []
  | payload _ rest => rest

/-- What the engine has in hand. -/
def Pc.items : Pc → List (MessageIdData × Payload)
  | payload _ items => items
  | publishing _ _ rest => rest
  | acking _ _ resume => resume.items
  | parked _ resume => resume.items
  | _ => []

/-- … with what is in the channel before it. -/
def State.inHand (s : State) : List (MessageIdData × Payload) :=
  s.messages.filterMap Delivery.item? ++ s.pc.items

/-- … and what is in the queue behind it. -/
def State.toRead (c : Config) (s : State) : List (MessageIdData × Payload) :=
  s.inHand ++ s.events.flatMap (Event.items c)

/-- What a step hands to the application. -/
def reads (s : State) : Action → List (MessageIdData × Payload)
  | .read => (s.messages.head?.bind Delivery.item?).toList
  | _ => []

/-- What a step brings. -/
def brings (c : Config) : Action → List (MessageIdData × Payload)
  | .arrive m => Event.items c (.Message m)
  | _ => []

/-- What a step loses: what is before the start id, or a dead letter; the rest of an entry whose dead
    letter is not taken; and the rest of an entry when nobody reads any more. -/
def lost (c : Config) (s : State) : Action → List (MessageIdData × Payload)
  | .item =>
    match s.pc with
    | .payload redeliveryCount ((messageId, payload) :: rest) =>
      if isBeforeStartMessage c.topic c.options messageId ∨ c.deadLetters redeliveryCount then
        [(messageId, payload)]
      else if s.dropped then (messageId, payload) :: rest
      else []
    | _ => []
  | .published (some _) => s.pc.items
  | _ => []

section

variable {c : Config} {s s' : State} {a : Action}

@[simp] theorem Resume.items_pc (resume : Resume) : resume.pc.items = resume.items := by
  cases resume <;> rfl

/-! ## One step -/

/-- A push that nobody has given up on. -/
theorem inHand_push (hdropped : s.dropped = false) (d : Delivery) (resume : Resume) :
    (s.push c d resume).inHand =
      s.messages.filterMap Delivery.item? ++ (d.item?.toList ++ resume.items) := by
  have happend : (s.messages ++ [d]).filterMap Delivery.item? =
      s.messages.filterMap Delivery.item? ++ d.item?.toList := by
    rw [List.filterMap_append]
    cases d <;> rfl
  unfold State.push State.inHand
  rw [hdropped, if_neg Bool.false_ne_true]
  split
  · show (s.messages ++ [d]).filterMap Delivery.item? ++ resume.items = _
    rw [happend, List.append_assoc]
  · show (s.messages ++ [d]).filterMap Delivery.item? ++ resume.pc.items = _
    rw [happend, List.append_assoc, Resume.items_pc]

/-- … and one to a consumer that is gone. -/
theorem inHand_push_dropped (hdropped : s.dropped = true) (d : Delivery) (resume : Resume) :
    (s.push c d resume).inHand = s.messages.filterMap Delivery.item? := by
  unfold State.push State.inHand
  rw [if_pos hdropped]
  exact List.append_nil _

/-- An error is no message. -/
theorem inHand_pushErr (e : Error) : (s.push c (.Err e) .top).inHand =
    s.messages.filterMap Delivery.item? := by
  cases hdropped : s.dropped with
  | true => exact inHand_push_dropped hdropped _ _
  | false =>
    rw [inHand_push hdropped]
    exact List.append_nil _

theorem itemsOf_entry {codecs : Codecs} {m : PulsarClient.Message} {message : CommandMessage}
    {payload : Payload} {items : List (MessageIdData × Payload)}
    (hend : m.command.reachedEndOfTopic = none) (hchange : m.command.activeConsumerChange = none)
    (hmessage : m.command.message = some message) (hpayload : m.payload = some payload)
    (hunpack : unpack codecs message.messageId payload = .ok items) : itemsOf codecs m = items := by
  unfold itemsOf
  simp [hend, hchange, hmessage, hpayload, hunpack]

/-- Whatever is no entry that can be unpacked brings nothing. -/
theorem itemsOf_eq_nil {codecs : Codecs} {m : PulsarClient.Message}
    (h : m.command.reachedEndOfTopic.isSome = true ∨ m.command.activeConsumerChange.isSome = true ∨
      ∀ message payload items, m.command.message = some message → m.payload = some payload →
        unpack codecs message.messageId payload ≠ .ok items) : itemsOf codecs m = [] := by
  unfold itemsOf
  split
  · rfl
  · rename_i hneither
    rw [not_or] at hneither
    split
    · rename_i message payload hmessage hpayload
      split
      · rename_i items hunpack
        rcases h with h | h | h
        · exact absurd h hneither.1
        · exact absurd h hneither.2
        · exact absurd hunpack (h message payload items hmessage hpayload)
      · rfl
    · rfl

/-- Taking an event: what it brings is in hand. -/
theorem inHand_handle {e : Event} (hitems : s.pc.items = []) (h : Handles c s e s') :
    s'.inHand = s.inHand ++ e.items c := by
  have hinHand : s.inHand = s.messages.filterMap Delivery.item? := by
    unfold State.inHand
    rw [hitems, List.append_nil]
  rw [hinHand]
  cases h with
  | endOfTopic hend =>
    show _ = _ ++ itemsOf c.codecs _
    rw [itemsOf_eq_nil (Or.inl hend)]
    rfl
  | change hend hchange =>
    show _ = _ ++ itemsOf c.codecs _
    rw [itemsOf_eq_nil (Or.inr (Or.inl hchange))]
    rfl
  | entry hend hchange hmessage hpayload hunpack =>
    show _ = _ ++ itemsOf c.codecs _
    rw [itemsOf_entry hend hchange hmessage hpayload hunpack]
    rfl
  | broken hend hchange hmessage hpayload hunpack =>
    show _ = _ ++ itemsOf c.codecs _
    rw [inHand_pushErr, itemsOf_eq_nil, List.append_nil]
    · rfl
    · refine Or.inr (Or.inr fun message payload items hm hp hok => ?_)
      obtain rfl := Option.some.inj (hmessage.symm.trans hm)
      obtain rfl := Option.some.inj (hpayload.symm.trans hp)
      rw [hunpack] at hok
      cases hok
  | empty hend hchange hmessage hpayload =>
    show _ = _ ++ itemsOf c.codecs _
    rw [itemsOf_eq_nil]
    · rfl
    · refine Or.inr (Or.inr fun message payload items _ hp _ => ?_)
      rw [hpayload] at hp
      cases hp
  | closed hend hchange hmessage hclose =>
    show _ = _ ++ itemsOf c.codecs _
    rw [itemsOf_eq_nil]
    · rfl
    · refine Or.inr (Or.inr fun message payload items hm _ _ => ?_)
      rw [hmessage] at hm
      cases hm
  | ignored hend hchange hmessage hclose =>
    show _ = _ ++ itemsOf c.codecs _
    rw [itemsOf_eq_nil]
    · rfl
    · refine Or.inr (Or.inr fun message payload items hm _ _ => ?_)
      rw [hmessage] at hm
      cases hm
  | _ => rfl

/-- What a step makes of it: `lost` falls out at one place. -/
structure Moved (c : Config) (s : State) (a : Action) (s' : State) : Prop where
  moved : ∃ front rest, s.toRead c ++ brings c a = front ++ (lost c s a ++ rest) ∧
    reads s a ++ s'.toRead c = front ++ rest

/-- A step that loses nothing. -/
theorem Moved.kept (hlost : lost c s a = [])
    (h : reads s a ++ s'.toRead c = s.toRead c ++ brings c a) : Moved c s a s' where
  moved := by
    refine ⟨s.toRead c ++ brings c a, [], ?_, ?_⟩
    · rw [hlost, List.append_nil, List.append_nil]
    · rw [h, List.append_nil]

/-- … and is about nothing but the engine's hand. -/
theorem Moved.same (hlost : lost c s a = []) (hreads : reads s a = []) (hbrings : brings c a = [])
    (hinHand : s'.inHand = s.inHand) (hevents : s'.events.flatMap (Event.items c) =
      s.events.flatMap (Event.items c)) : Moved c s a s' := by
  refine .kept hlost ?_
  unfold State.toRead
  rw [hreads, hbrings, hinHand, hevents, List.nil_append, List.append_nil]

theorem Moved.still (hlost : lost c s a = []) (hreads : reads s a = []) (hbrings : brings c a = [])
    (hmessages : s'.messages = s.messages) (hitems : s'.pc.items = s.pc.items)
    (hevents : s'.events = s.events) : Moved c s a s' := by
  refine .same hlost hreads hbrings ?_ (by rw [hevents])
  unfold State.inHand
  rw [hmessages, hitems]

/-- A read takes the head of the channel. -/
theorem moved_read {d : Delivery} {rest : List Delivery} (hmessages : s.messages = d :: rest)
    (hrest : s'.messages = rest) (hitems : s'.pc.items = s.pc.items) (hevents : s'.events = s.events) :
    Moved c s .read s' := by
  refine .kept rfl ?_
  have hread : reads s .read = d.item?.toList := by
    unfold reads
    rw [hmessages]
    rfl
  have hhead : (d :: rest).filterMap Delivery.item? =
      d.item?.toList ++ rest.filterMap Delivery.item? := by
    cases d <;> rfl
  unfold State.toRead State.inHand
  rw [hread, hrest, hitems, hevents, hmessages, hhead]
  simp only [brings, List.append_nil, List.append_assoc]

/-- The loop over an entry. -/
theorem moved_item {redeliveryCount : Option Nat} {items : List (MessageIdData × Payload)}
    (hpc : s.pc = .payload redeliveryCount items) : Moved c s .item (s.item c redeliveryCount items) := by
  have hinHand : s.inHand = s.messages.filterMap Delivery.item? ++ items := by
    unfold State.inHand
    rw [hpc]
    rfl
  cases items with
  | nil =>
    refine .same ?_ rfl rfl ?_ rfl
    · unfold lost
      rw [hpc]
    · rw [hinHand]
      rfl
  | cons item rest =>
    obtain ⟨messageId, payload⟩ := item
    have hevents : (s.item c redeliveryCount ((messageId, payload) :: rest)).events = s.events :=
      (local_item s _ _).events
    rw [item_cons] at hevents ⊢
    have hlost : lost c s .item =
        if isBeforeStartMessage c.topic c.options messageId ∨ c.deadLetters redeliveryCount then
          [(messageId, payload)]
        else if s.dropped then (messageId, payload) :: rest
        else [] := by
      unfold lost
      rw [hpc]
    have hdrops : ∀ {next : State} {gone : List (MessageIdData × Payload)},
        lost c s .item = gone → next.events = s.events →
        (∃ kept, (messageId, payload) :: rest = gone ++ kept ∧
          next.inHand = s.messages.filterMap Delivery.item? ++ kept) → Moved c s .item next := by
      rintro next gone hgone hsame ⟨kept, hcut, hnext⟩
      refine ⟨s.messages.filterMap Delivery.item?, kept ++ s.events.flatMap (Event.items c), ?_, ?_⟩
      · unfold State.toRead
        rw [hinHand, hcut, hgone]
        show _ ++ [] = _
        simp only [List.append_nil, List.append_assoc]
      · unfold State.toRead
        rw [hnext, hsame]
        simp only [reads, List.nil_append, List.append_assoc]
    by_cases hbefore : isBeforeStartMessage c.topic c.options messageId = true
    · rw [if_pos (Or.inl hbefore)] at hlost
      rw [if_pos hbefore] at hevents ⊢
      exact hdrops hlost hevents ⟨rest, rfl, rfl⟩
    · by_cases hdead : c.deadLetters redeliveryCount = true
      · rw [if_pos (Or.inr hdead)] at hlost
        rw [if_neg hbefore, if_pos hdead] at hevents ⊢
        exact hdrops hlost hevents ⟨rest, rfl, rfl⟩
      · rw [if_neg (not_or.mpr ⟨hbefore, hdead⟩)] at hlost
        rw [if_neg hbefore, if_neg hdead] at hevents ⊢
        cases hdropped : s.dropped with
        | true =>
          rw [hdropped, if_pos rfl] at hlost
          refine hdrops hlost hevents ⟨[], (List.append_nil _).symm, ?_⟩
          rw [inHand_push_dropped hdropped, List.append_nil]
        | false =>
          rw [hdropped, if_neg Bool.false_ne_true] at hlost
          exact hdrops hlost hevents ⟨_, rfl, inHand_push hdropped _ _⟩

/-- **The step lemma.** -/
theorem moved (hs : step c s a = some s') : Moved c s a s' := by
  cases step_moves hs with
  | arrive =>
    refine .kept rfl ?_
    show State.inHand _ ++ List.flatMap _ (s.events ++ [_]) = _
    rw [List.flatMap_append, List.flatMap_singleton, ← List.append_assoc]
    rfl
  | forward =>
    refine .same rfl rfl rfl rfl ?_
    show List.flatMap _ (s.events ++ [_]) = _
    rw [List.flatMap_append, List.flatMap_singleton]
    exact List.append_nil _
  | forwardEnd =>
    refine .same rfl rfl rfl rfl ?_
    show List.flatMap _ (s.events ++ [_]) = _
    rw [List.flatMap_append, List.flatMap_singleton]
    exact List.append_nil _
  | next hpc hev =>
    rename_i e rest
    have hnone : Pc.items s.pc = [] := by rw [hpc]; rfl
    refine .kept rfl ?_
    have hhand := inHand_handle (s := { s with events := rest }) hnone
      (handle_cases c { s with events := rest } e)
    have hevents := (handle_keeps (handle_cases c { s with events := rest } e)).2.2.2
    unfold State.toRead
    rw [hhand, hevents, hev, List.flatMap_cons]
    simp only [reads, brings, List.nil_append, List.append_nil, List.append_assoc]
    rfl
  | item hpc => exact moved_item hpc
  | unpublished hpc =>
    rename_i e
    refine ⟨s.messages.filterMap Delivery.item?, s.events.flatMap (Event.items c), ?_, ?_⟩
    · show s.inHand ++ _ ++ [] = _ ++ (s.pc.items ++ _)
      unfold State.inHand
      simp only [List.append_nil, List.append_assoc]
    · show State.inHand _ ++ _ = _
      rw [inHand_pushErr, (local_push s _ _).events]
  | reported hpc =>
    refine .same rfl rfl rfl ?_ (by rw [(local_push s _ _).events])
    unfold State.inHand
    rw [← State.inHand, inHand_pushErr, hpc]
    exact (List.append_nil _).symm
  | unparked hwaiting hdropped hmessages hpc =>
    exact moved_read hmessages rfl (by rw [hpc]; exact Resume.items_pc _) rfl
  | read hwaiting hdropped hmessages hpc => exact moved_read hmessages rfl rfl rfl
  | top hpc =>
    rename_i lost
    refine .still rfl rfl rfl rfl ?_ rfl
    rw [hpc]
    cases lost <;> rfl
  | reconnected hpc =>
    rename_i closed
    refine .still rfl rfl rfl rfl ?_ rfl
    rw [hpc]
    cases closed <;> rfl
  | refused hpc hwants hpc' =>
    refine .still rfl rfl rfl rfl ?_ rfl
    rcases hpc' with rfl | rfl <;> rw [hpc] <;> rfl
  | acked hpc =>
    exact .still rfl rfl rfl rfl (by rw [hpc]; exact Resume.items_pc _) rfl
  | released hwaiting hdropped hpc =>
    exact .still rfl rfl rfl rfl (by rw [hpc]; exact Resume.items_pc _) rfl
  | published hpc => exact .still rfl rfl rfl rfl (by rw [hpc]; rfl) rfl
  | stopped hpc | granted hpc | enough hpc | timeout hpc | asked hpc =>
    exact .still rfl rfl rfl rfl (by rw [hpc]; rfl) rfl
  | _ => exact .still rfl rfl rfl rfl rfl rfl

/-! ## A run -/

/-- **Nothing is invented, changed or reordered**: what is read is out of what was to be read and what
    has come in. -/
theorem reads_sublist {as : List Action} (h : (consumer c).exec s as = some s') :
    ((consumer c).outputs reads s as ++ s'.toRead c).Sublist
      (s.toRead c ++ (consumer c).outputs (fun _ a => brings c a) s as) := by
  refine Sys.conserved_sublist (fun s a s' hs => ?_) h
  obtain ⟨front, rest, hbefore, hafter⟩ := (moved hs).moved
  rw [hbefore, hafter]
  exact (List.sublist_append_right _ _).append_left front

/-- A consumer that is handed everything: no start id, and no dead letters. -/
structure Config.Plain (c : Config) : Prop where
  start : c.options.startMessageId = none
  policy : c.deadLetterPolicy = none

theorem Config.Plain.before (h : c.Plain) (messageId : MessageIdData) :
    isBeforeStartMessage c.topic c.options messageId = false := by
  unfold isBeforeStartMessage
  rw [h.start]
  exact ite_self _

theorem Config.Plain.deadLetters (h : c.Plain) (redeliveryCount : Option Nat) :
    c.deadLetters redeliveryCount = false := by
  unfold Config.deadLetters
  rw [h.policy]
  cases redeliveryCount <;> rfl

/-- The consumer is there, and no dead letter is on its way. -/
structure Takes (s : State) : Prop where
  dropped : s.dropped = false
  publishing : ∀ messageId redeliveryCount rest, s.pc ≠ .publishing messageId redeliveryCount rest

/-- **Nothing is lost** then. -/
theorem lost_of_plain (hc : c.Plain) (h : Takes s) (hs : step c s a = some s') :
    lost c s a = [] := by
  cases step_moves hs with
  | item hpc =>
    unfold lost
    rw [hpc]
    simp only
    split
    · rw [hc.before, hc.deadLetters, h.dropped]
      rfl
    · rfl
  | unpublished hpc => exact absurd hpc (h.publishing _ _ _)
  | _ => rfl

theorem Takes.step (hc : c.Plain) (h : Takes s) (ha : a ≠ .dropConsumer)
    (hs : step c s a = some s') : Takes s' where
  dropped := by
    have hdropped := h.dropped
    cases step_moves hs with
    | reported | unpublished => exact (local_push _ _ _).dropped.trans hdropped
    | item => exact (local_item _ _ _).dropped.trans hdropped
    | next => exact (handle_keeps (handle_cases _ _ _)).2.1.trans hdropped
    | released | dropConsumer => exact absurd rfl ha
    | _ => exact hdropped
  publishing := by
    intro messageId redeliveryCount rest hpc'
    rcases publishing_step hs hpc' with hpc | ⟨-, -, -, -, hdead⟩
    · exact h.publishing messageId redeliveryCount rest hpc
    · rw [hc.deadLetters] at hdead
      cases hdead

/-- **A plain consumer reads everything**, in order: what has come in is what has been read, and what is
    to be read. -/
theorem reads_conserved (hc : c.Plain) {as : List Action} (h : Takes s)
    (hdrop : .dropConsumer ∉ as) (hexec : (consumer c).exec s as = some s') :
    (consumer c).outputs reads s as ++ s'.toRead c =
      s.toRead c ++ (consumer c).outputs (fun _ a => brings c a) s as := by
  have hok : ∀ a ∈ as, a ≠ .dropConsumer := by
    rintro a ha rfl
    exact hdrop ha
  refine Sys.conserved h hok (fun s a s' h ha hs => h.step hc ha hs) (fun s a s' h _ hs => ?_) hexec
  obtain ⟨front, rest, hbefore, hafter⟩ := (moved hs).moved
  rw [lost_of_plain hc h hs, List.nil_append] at hbefore
  rw [hbefore, hafter]

end

end PulsarClient.Consumer
