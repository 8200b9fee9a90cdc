/-
  FROM THE QUEUE TO THE APPLICATION — the messages of the entries that the engine takes are handed out
  in order, each at most once.

  What the engine has taken and not handed out is in its program counter (`Pc.held`).  A step hands out
  the first message it holds, keeps the rest or drops some of it, and what it holds anew it took from the
  queue (`held_step`); the queue loses what the engine takes, and nothing else (`queued_step`).
-/
import PulsarClient.Consumer.SessionInvariant

namespace PulsarClient.Consumer

open Runs Proto

/-! ## The ids of an entry -/

/-- The messages of an entry, as `process_payload` numbers them; none if it cannot be unpacked. -/
def idsOf (c : Config) (m : PulsarClient.Message) : List MessageIdData :=
  match m.command.message, m.payload with
  | some message, some payload =>
    match unpack c.codecs message.messageId payload with
    | .ok items => items.map Prod.fst
    | .error _ => []
  | _, _ => []

theorem idsOf_of_unpack {c : Config} {m : PulsarClient.Message} {message : CommandMessage}
    {payload : Payload} {items : List (MessageIdData × Payload)} (hmessage : m.command.message = some message)
    (hpayload : m.payload = some payload)
    (hunpack : unpack c.codecs message.messageId payload = .ok items) :
    idsOf c m = items.map Prod.fst := by
  unfold idsOf
  rw [hmessage, hpayload]
  show (match unpack c.codecs message.messageId payload with
    | .ok items => items.map Prod.fst
    | .error _ => []) = _
  rw [hunpack]

namespace BatchedMessageIterator

theorem next_spec {it it' : BatchedMessageIterator} {item : MessageIdData × Payload}
    (h : it.next = some (item, it')) :
    item.1 = it.idAt it.currentIndex ∧ it'.currentIndex = it.currentIndex + 1 ∧
      ∀ k, it'.idAt k = it.idAt k := by
  unfold next at h
  split at h
  · exact absurd h (Option.some_ne_none _).symm
  · split at h
    · exact absurd h (Option.some_ne_none _).symm
    · simp only [Option.some.injEq, Prod.mk.injEq] at h
      obtain ⟨rfl, rfl⟩ := h
      exact ⟨rfl, rfl, fun k => rfl⟩

theorem idAt_injective (it : BatchedMessageIterator) {j k : Nat} (h : it.idAt j = it.idAt k) :
    j = k := by
  have hindex := congrArg MessageIdData.batchIndex h
  have hcast : (j : Int) = k := Option.some.inj hindex
  omega

/-- The ids of a batch: one for every index from the current one on, and none twice. -/
theorem ids_collectUpTo (n : Nat) (it : BatchedMessageIterator) :
    (∀ id ∈ (collectUpTo n it).map Prod.fst, ∃ k, it.currentIndex ≤ k ∧ id = it.idAt k) ∧
      ((collectUpTo n it).map Prod.fst).Nodup := by
  induction n generalizing it with
  | zero => exact ⟨fun _ h => absurd h List.not_mem_nil, List.nodup_nil⟩
  | succ n ih =>
    unfold collectUpTo
    split
    · exact ⟨fun _ h => absurd h List.not_mem_nil, List.nodup_nil⟩
    · rename_i item it' hnext
      obtain ⟨hitem, hindex, hid⟩ := next_spec hnext
      obtain ⟨hlater, hnodup⟩ := ih it'
      rw [List.map_cons]
      constructor
      · intro id hmem
        rcases List.mem_cons.mp hmem with rfl | hmem
        · exact ⟨it.currentIndex, Nat.le_refl _, hitem⟩
        · obtain ⟨k, hk, rfl⟩ := hlater id hmem
          exact ⟨k, by omega, hid k⟩
      · refine List.nodup_cons.mpr ⟨fun hmem => ?_, hnodup⟩
        obtain ⟨k, hk, heq⟩ := hlater _ hmem
        rw [hitem, hid] at heq
        have hsame := it.idAt_injective heq
        omega

end BatchedMessageIterator

/-- An entry that is unpacked is a batch, or one message. -/
theorem unpack_cases {codecs : Codecs} {messageId : MessageIdData} {payload : Payload}
    {items : List (MessageIdData × Payload)} (h : unpack codecs messageId payload = .ok items) :
    (∃ it : BatchedMessageIterator, it.messageId = messageId ∧ items = it.collect) ∨
      ∃ payload', items = [(messageId, payload')] := by
  unfold unpack at h
  cases hchunked : rejectChunkedMessage payload.metadata with
  | error e =>
    rw [hchunked] at h
    cases h
  | ok _ =>
    rw [hchunked] at h
    cases hcompression : compressionOf payload.metadata with
    | error e =>
      rw [hcompression] at h
      cases h
    | ok compression =>
      rw [hcompression] at h
      cases hdecompressed : decompressed codecs payload compression with
      | error e =>
        simp only [bind, Except.bind, hdecompressed] at h
        cases h
      | ok payload' =>
        simp only [bind, Except.bind, hdecompressed] at h
        split at h
        · split at h
          · rename_i it hit
            obtain rfl := Except.ok.inj h
            simp only [BatchedMessageIterator.new] at hit
            split at hit
            · obtain rfl := Except.ok.inj hit
              exact Or.inl ⟨_, rfl, rfl⟩
            · cases hit
          · cases h
        · obtain rfl := Except.ok.inj h
          exact Or.inr ⟨payload', rfl⟩

/-- The ids of an entry are distinct, and they are ids of that entry. -/
theorem ids_unpack {codecs : Codecs} {messageId : MessageIdData} {payload : Payload}
    {items : List (MessageIdData × Payload)} (h : unpack codecs messageId payload = .ok items) :
    (items.map Prod.fst).Nodup ∧ ∀ id ∈ items.map Prod.fst,
      id.ledgerId = messageId.ledgerId ∧ id.entryId = messageId.entryId := by
  rcases unpack_cases h with ⟨it, rfl, rfl⟩ | ⟨payload', rfl⟩
  · obtain ⟨hids, hnodup⟩ := it.ids_collectUpTo it.messages.length
    refine ⟨hnodup, fun id hmem => ?_⟩
    obtain ⟨k, -, rfl⟩ := hids id hmem
    exact ⟨rfl, rfl⟩
  · refine ⟨List.nodup_cons.mpr ⟨List.not_mem_nil, List.nodup_nil⟩, fun id hmem => ?_⟩
    obtain rfl := List.mem_singleton.mp hmem
    exact ⟨rfl, rfl⟩

/-- A message of a batch has its own index. -/
theorem batchIndex_unpack {codecs : Codecs} {messageId : MessageIdData} {payload : Payload}
    {items : List (MessageIdData × Payload)} (h : unpack codecs messageId payload = .ok items)
    {id : MessageIdData} (hid : id ∈ items.map Prod.fst) :
    (∃ k : Nat, id.batchIndex = some (k : Int)) ∨ id = messageId := by
  rcases unpack_cases h with ⟨it, -, rfl⟩ | ⟨payload', rfl⟩
  · obtain ⟨k, -, rfl⟩ := (it.ids_collectUpTo it.messages.length).1 id hid
    exact Or.inl ⟨k, rfl⟩
  · exact Or.inr (List.mem_singleton.mp hid)

theorem nodup_idsOf (c : Config) (m : PulsarClient.Message) : (idsOf c m).Nodup := by
  unfold idsOf
  split
  · split
    · exact (ids_unpack ‹_›).1
    · exact List.nodup_nil
  · exact List.nodup_nil

theorem entry_of_mem_idsOf {c : Config} {m : PulsarClient.Message} {id : MessageIdData}
    (h : id ∈ idsOf c m) : ∃ message, m.command.message = some message ∧
      id.ledgerId = message.messageId.ledgerId ∧ id.entryId = message.messageId.entryId := by
  unfold idsOf at h
  split at h
  · rename_i message payload hmessage hpayload
    split at h
    · exact ⟨message, hmessage, (ids_unpack ‹_›).2 id h⟩
    · exact absurd h List.not_mem_nil
  · exact absurd h List.not_mem_nil

/-! ## What the engine holds -/

def Resume.held : Resume → List MessageIdData
  | top => []
  | payload _ rest => rest.map Prod.fst

/-- The messages that were taken and not handed out. -/
def Pc.held : Pc → List MessageIdData
  | payload _ items => items.map Prod.fst
  | publishing _ _ rest => rest.map Prod.fst
  | acking _ _ resume => resume.held
  | parked _ resume => resume.held
  | _ => []

/-- The entry that an event brings. -/
def Event.entry : Event → List PulsarClient.Message
  | Message (some m) => if m.command.message.isSome then [m] else []
  | _ => []

/-- The entries in the queue. -/
def State.queued (s : State) : List PulsarClient.Message := s.events.flatMap Event.entry

/-- What a step puts into the channel of the application. -/
def deliveries (c : Config) (s : State) : Action → List MessageIdData
  | .item =>
    match s.pc with
    | .payload redeliveryCount ((messageId, _) :: _) =>
      if isBeforeStartMessage c.topic c.options messageId ∨ c.deadLetters redeliveryCount ∨ s.dropped
      then []
      else [messageId]
    | _ => []
  | _ => []

/-- The entry that a step takes from the queue. -/
def entriesTaken (s : State) : Action → List PulsarClient.Message
  | .next =>
    match s.events with
    | e :: _ => e.entry
    | [] => []
  | _ => []

/-- The entry that a step adds to the queue. -/
def entriesForwarded : Action → List PulsarClient.Message
  | .arrive m => Event.entry (.Message m)
  | _ => []

section

variable {c : Config} {s s' : State} {a : Action}

@[simp] theorem Resume.held_pc (resume : Resume) : resume.pc.held = resume.held := by
  cases resume with
  | top => rfl
  | payload redeliveryCount rest => rfl

theorem held_push (s : State) (d : Delivery) (resume : Resume) :
    (s.push c d resume).pc.held.Sublist resume.held := by
  rcases pc_push (c := c) s d resume with ⟨-, h⟩ | h | h
  · rw [h]
    exact List.nil_sublist _
  · rw [h]
    exact List.Sublist.refl _
  · rw [h, Resume.held_pc]

/-- What the loop puts into the channel of the message that it looks at. -/
theorem deliveries_cons {redeliveryCount : Option Nat} {id : MessageIdData} {payload : Payload}
    {rest : List (MessageIdData × Payload)} (hpc : s.pc = .payload redeliveryCount ((id, payload) :: rest)) :
    deliveries c s .item =
      if isBeforeStartMessage c.topic c.options id ∨ c.deadLetters redeliveryCount ∨ s.dropped then []
      else [id] := by
  unfold deliveries
  rw [hpc]

/-- One round of the loop over an entry. -/
theorem held_item {redeliveryCount : Option Nat} {items : List (MessageIdData × Payload)}
    (hpc : s.pc = .payload redeliveryCount items) :
    (deliveries c s .item ++ (s.item c redeliveryCount items).pc.held).Sublist
      (items.map Prod.fst) := by
  cases items with
  | nil =>
    unfold deliveries
    rw [hpc]
    exact List.Sublist.refl _
  | cons i rest =>
    obtain ⟨id, payload⟩ := i
    have hrest : (rest.map Prod.fst).Sublist (((id, payload) :: rest).map Prod.fst) :=
      List.sublist_cons_self _ _
    rw [deliveries_cons hpc, item_cons]
    by_cases hbefore : isBeforeStartMessage c.topic c.options id = true
    · rw [if_pos (Or.inl hbefore), if_pos hbefore]
      exact hrest
    · rw [if_neg hbefore]
      by_cases hdead : c.deadLetters redeliveryCount = true
      · rw [if_pos (Or.inr (Or.inl hdead)), if_pos hdead]
        exact hrest
      · rw [if_neg hdead]
        have hpush := held_push (c := c) s (.Ok id payload) (.payload redeliveryCount rest)
        by_cases hdropped : s.dropped = true
        · rw [if_pos (Or.inr (Or.inr hdropped))]
          exact hpush.trans hrest
        · have hnone : ¬ (isBeforeStartMessage c.topic c.options id = true ∨
              c.deadLetters redeliveryCount = true ∨ s.dropped = true) := by
            rintro (h | h | h)
            · exact hbefore h
            · exact hdead h
            · exact hdropped h
          rw [if_neg hnone]
          exact hpush.cons_cons id

/-- What the engine holds after it took an event is the entry of that event. -/
theorem held_handle {e : Event} (h : Handles c s e s') :
    s'.pc.held.Sublist (e.entry.flatMap (idsOf c)) := by
  cases h with
  | entry hend hchange hmessage hpayload hunpack =>
    rename_i m message payload items
    have hentry : Event.entry (.Message (some m)) = [m] :=
      if_pos (Option.isSome_iff_exists.mpr ⟨message, hmessage⟩)
    rw [hentry, List.flatMap_singleton, idsOf_of_unpack hmessage hpayload hunpack]
    exact List.Sublist.refl _
  | broken => exact (held_push _ _ _).trans (List.nil_sublist _)
  | _ => exact List.nil_sublist _

/-- The other steps hand nothing out, and take nothing. -/
theorem held_other (hitem : a ≠ .item) (hnext : a ≠ .next) (hs : step c s a = some s') :
    s'.pc.held.Sublist s.pc.held := by
  -- the engine goes on with what it had in hand
  have hresume : ∀ {p : Pc} (resume : Resume), s.pc = p → p.held = resume.held →
      resume.pc.held.Sublist s.pc.held := by
    intro p resume hpc hheld
    have heq : resume.pc.held = s.pc.held := by rw [hpc, hheld, Resume.held_pc]
    exact heq ▸ List.Sublist.refl _
  cases step_moves hs with
  | item => exact absurd rfl hitem
  | next => exact absurd rfl hnext
  | top hpc =>
    rename_i lost
    cases lost with
    | true => exact List.nil_sublist _
    | false => exact List.nil_sublist _
  | reconnected hpc =>
    rename_i closed
    cases closed with
    | true => exact List.nil_sublist _
    | false => exact List.nil_sublist _
  | stopped => exact List.nil_sublist _
  | reported => exact (held_push s _ .top).trans (List.nil_sublist _)
  | granted => exact List.nil_sublist _
  | refused hpc hwants hpc' =>
    rcases hpc' with rfl | rfl
    · exact List.nil_sublist _
    · exact List.nil_sublist _
  | enough => exact List.nil_sublist _
  | timeout => exact List.nil_sublist _
  | published hpc =>
    rw [hpc]
    exact List.Sublist.refl _
  | unpublished => exact (held_push s _ .top).trans (List.nil_sublist _)
  | acked hpc => exact hresume _ hpc rfl
  | asked => exact List.nil_sublist _
  | unparked hwaiting hdropped hmessages hpc => exact hresume _ hpc rfl
  | released hwaiting hdropped hpc => exact hresume _ hpc rfl
  | _ => exact List.Sublist.refl _

theorem deliveries_other (hitem : a ≠ .item) : deliveries c s a = [] := by
  cases a with
  | item => exact absurd rfl hitem
  | _ => rfl

theorem entriesTaken_other (hnext : a ≠ .next) : entriesTaken s a = [] := by
  cases a with
  | next => exact absurd rfl hnext
  | _ => rfl

/-- **What is handed out was held, and what is held was taken**, in order. -/
theorem held_step (hs : step c s a = some s') :
    (deliveries c s a ++ s'.pc.held).Sublist
      (s.pc.held ++ (entriesTaken s a).flatMap (idsOf c)) := by
  by_cases hitem : a = .item
  · subst hitem
    cases step_moves hs with
    | item hpc =>
      rename_i redeliveryCount items
      have hheld : s.pc.held = items.map Prod.fst := by
        rw [hpc]
        rfl
      rw [entriesTaken_other Action.noConfusion, List.flatMap_nil, List.append_nil, hheld]
      exact held_item hpc
  · rw [deliveries_other hitem, List.nil_append]
    by_cases hnext : a = .next
    · subst hnext
      obtain ⟨e, rest, hpc, hev, rfl⟩ := next_step hs
      have htaken : entriesTaken s .next = e.entry := by
        unfold entriesTaken
        rw [hev]
      rw [htaken, hpc]
      exact held_handle (handle_cases c { s with events := rest } e)
    · rw [entriesTaken_other hnext, List.flatMap_nil, List.append_nil]
      exact held_other hitem hnext hs

/-- A step of which the forwarders know nothing, and that leaves the entries in the queue alone. -/
theorem queued_of_events (hnext : a ≠ .next) (hforwarded : entriesForwarded a = [])
    (hev : s'.events = s.events ∨ ∃ r, s'.events = s.events ++ [.EngineMessage r]) :
    entriesTaken s a ++ s'.queued = s.queued ++ entriesForwarded a := by
  have hqueued : s'.queued = s.queued := by
    unfold State.queued
    rcases hev with hev | ⟨r, hev⟩
    · rw [hev]
    · rw [hev, List.flatMap_append]
      exact List.append_nil _
  rw [entriesTaken_other hnext, hforwarded, hqueued, List.append_nil, List.nil_append]

/-- **The queue loses what the engine takes**, and gains what the forwarders bring. -/
theorem queued_step (hs : step c s a = some s') :
    entriesTaken s a ++ s'.queued = s.queued ++ entriesForwarded a := by
  cases step_moves hs with
  | arrive =>
    show _ ++ State.queued _ = _
    unfold State.queued
    rw [List.flatMap_append, List.flatMap_singleton]
    rfl
  | next hpc hev =>
    unfold entriesTaken entriesForwarded State.queued
    rw [events_handle, hev, List.flatMap_cons, List.append_nil]
  | forward => exact queued_of_events Action.noConfusion rfl (Or.inr ⟨_, rfl⟩)
  | forwardEnd => exact queued_of_events Action.noConfusion rfl (Or.inr ⟨_, rfl⟩)
  | reported => exact queued_of_events Action.noConfusion rfl (Or.inl (local_push s _ _).events)
  | item => exact queued_of_events Action.noConfusion rfl (Or.inl (local_item s _ _).events)
  | unpublished => exact queued_of_events Action.noConfusion rfl (Or.inl (local_push s _ _).events)
  | _ => exact queued_of_events Action.noConfusion rfl (Or.inl rfl)

end

end PulsarClient.Consumer
