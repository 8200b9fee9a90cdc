/-
  THE START FILTER — what a consumer with a `start_message_id` is handed.

  The broker resumes FROM the entry of the start id.  The engine drops what the id names, and what comes
  before it in a batch; everything behind it is handed on, unless it is for the dead letters.

  1. `Before`, `SamePlace` — the order of positions; an id without a batch index is its whole entry.

  2. `handed_eq` — along every run the application is handed what the filter lets through, in order: the
     step lemma is `flow_step`, and the filter commutes with it.

  3. `passes_iff_selected` — on the entries that the broker sends, the filter is the order.

  4. `start_suffix` — the two together.
-/
import PulsarClient.Consumer.Acks
import PulsarClient.Consumer.Position
import PulsarClient.Consumer.Trace

namespace PulsarClient.Consumer.Suffix

open Runs Proto Seek Position

/-! ## The order of positions -/

/-- Ledger, entry and batch index, in this order. -/
def Before (a b : MessageIdData) : Prop :=
  position a < position b ∨
    position a = position b ∧ ∃ i ∈ a.batchIndex, ∃ j ∈ b.batchIndex, i < j

/-- The same position, or the one names the whole entry of the other. -/
def SamePlace (a b : MessageIdData) : Prop :=
  position a = position b ∧ ∀ i ∈ a.batchIndex, ∀ j ∈ b.batchIndex, i = j

/-- Behind the start id, or at it if it is inclusive. -/
def Selected (options : ConsumerOptions) (start messageId : MessageIdData) : Prop :=
  Before start messageId ∨ options.startMessageIdInclusive = true ∧ SamePlace start messageId

instance (a b : MessageIdData) : Decidable (Before a b) := inferInstanceAs (Decidable (_ ∨ _))

instance (a b : MessageIdData) : Decidable (SamePlace a b) := inferInstanceAs (Decidable (_ ∧ _))

instance (options : ConsumerOptions) (start messageId : MessageIdData) :
    Decidable (Selected options start messageId) := inferInstanceAs (Decidable (_ ∨ _))

/-! ## What the broker sends -/

/-- The id of the entry that an event brings. -/
def entryId (e : Event) : List MessageIdData :=
  e.entry.filterMap fun m => m.command.message.map (·.messageId)

/-- Entries of a topic in order, from the entry of the start id onwards. -/
structure FromStart (start : MessageIdData) (arrived : List Event) : Prop where
  inTopic : ∀ messageId ∈ arrived.flatMap entryId, InTopic messageId
  onwards : ∀ messageId ∈ arrived.flatMap entryId, position start ≤ position messageId
  ascending : (arrived.flatMap entryId).Pairwise fun a b => position a < position b

/-- The messages that have arrived, less those of the entries that are for the dead letters. -/
def forApplication (c : Config) (arrived : List Event) : List MessageIdData :=
  ((arrived.flatMap (Event.messages c)).filter fun m => !c.deadLetters m.1).map Prod.snd

/-! ## The filter along a run -/

/-- The messages among these that the application is to be handed. -/
def wanted (c : Config) (messages : List (Option Nat × MessageIdData)) : List MessageIdData :=
  ((messages.filter fun m => !c.deadLetters m.1).map Prod.snd).filter fun messageId =>
    !isBeforeStartMessage c.topic c.options messageId

theorem wanted_append (c : Config) (front rest : List (Option Nat × MessageIdData)) :
    wanted c (front ++ rest) = wanted c front ++ wanted c rest := by
  unfold wanted
  rw [List.filter_append, List.map_append, List.filter_append]

theorem wanted_dead {c : Config} {redeliveryCount : Option Nat} (h : c.deadLetters redeliveryCount = true)
    (items : List (MessageIdData × Payload)) :
    wanted c (items.map fun item => (redeliveryCount, item.1)) = [] := by
  unfold wanted
  have hnone : (items.map fun item => (redeliveryCount, item.1)).filter
      (fun m => !c.deadLetters m.1) = [] := by
    apply List.filter_eq_nil_iff.mpr
    intro m hm
    obtain ⟨item, -, rfl⟩ := List.mem_map.mp hm
    simp [h]
  rw [hnone]
  rfl

/-- A dead letter is being published only where the policy says so. -/
def Publishes (c : Config) (s : Consumer.State) : Prop :=
  ∀ messageId redeliveryCount rest, s.pc = .publishing messageId redeliveryCount rest →
    c.deadLetters redeliveryCount = true

section

variable {decode : String → Option Bytes} {c : Config} {s s' : Consumer.State} {a : Action}

theorem Publishes.step (h : Publishes c s) (hs : step c s a = some s') : Publishes c s' := by
  intro messageId redeliveryCount rest hpc'
  rcases publishing_step hs hpc' with hpc | ⟨-, -, -, -, hdead⟩
  · exact h messageId redeliveryCount rest hpc
  · exact hdead

/-- A message that the loop looks at is handed on exactly if it is wanted. -/
theorem deliveries_item (hdropped : s.dropped = false) {redeliveryCount : Option Nat}
    {items : List (MessageIdData × Payload)} (hpc : s.pc = .payload redeliveryCount items) :
    deliveries c s .item = wanted c (done c s .item) := by
  cases items with
  | nil =>
    unfold deliveries done
    rw [hpc]
    rfl
  | cons item rest =>
    obtain ⟨messageId, payload⟩ := item
    rw [done_cons hdropped hpc, deliveries_cons hpc, hdropped]
    unfold wanted
    cases hbefore : isBeforeStartMessage c.topic c.options messageId with
    | true => cases hdead : c.deadLetters redeliveryCount <;> simp [hbefore, hdead]
    | false => cases hdead : c.deadLetters redeliveryCount <;> simp [hbefore, hdead]

/-- **What a step hands on** is what is wanted of the messages that it is done with. -/
theorem deliveries_eq (hpublishes : Publishes c s) (hdropped : s.dropped = false)
    (hs : step c s a = some s') : deliveries c s a = wanted c (done c s a) := by
  cases step_moves hs with
  | item hpc => exact deliveries_item hdropped hpc
  | unpublished hpc =>
    have hdead := hpublishes _ _ _ hpc
    show [] = wanted c s.pc.messages
    rw [hpc]
    exact (wanted_dead hdead _).symm
  | _ => rfl

theorem deliveries_dropped (hdropped : s.dropped = true) : deliveries c s a = [] := by
  cases a with
  | item =>
    simp only [deliveries]
    split
    · exact if_pos (Or.inr (Or.inr hdropped))
    · rfl
  | _ => rfl

end

/-- What is known of a run. -/
structure Inv (c : Config) (s : Traced) : Prop where
  publishes : Publishes c s.consumer
  handed_prefix : s.handed <+: wanted c (s.arrived.flatMap (Event.messages c))
  /-- as long as there is an application to hand messages to -/
  handed_eq : s.consumer.dropped = false →
    wanted c (s.arrived.flatMap (Event.messages c)) = s.handed ++ wanted c (toCome c s.consumer)

section

variable {decode : String → Option Bytes} {c : Config} {s s' : Traced} {a : Action}

theorem Inv.init : Inv c { consumer := { remainingMessages := c.batchSize } } where
  publishes _ _ _ h := by cases h
  handed_prefix := List.nil_prefix
  handed_eq _ := rfl

theorem Inv.step (h : Inv c s) (hs : (traced decode c).step s a = some s') : Inv c s' := by
  obtain ⟨hstep, harrived, hhanded, -⟩ := traced_step hs
  have hall : wanted c (s'.arrived.flatMap (Event.messages c)) =
      wanted c (s.arrived.flatMap (Event.messages c)) ++
        wanted c ((incoming a).flatMap (Event.messages c)) := by
    rw [harrived, List.flatMap_append, wanted_append]
  cases hdropped : s.consumer.dropped with
  | true =>
    have hdropped' : s'.consumer.dropped = true := dropped_moves (step_moves hstep) hdropped
    refine ⟨h.publishes.step hstep, ?_, fun hnot => ?_⟩
    · rw [hhanded, deliveries_dropped hdropped, List.append_nil, hall]
      exact h.handed_prefix.trans (List.prefix_append _ _)
    · rw [hdropped'] at hnot
      cases hnot
  | false =>
    -- the filter commutes with the flow
    have heq : wanted c (s'.arrived.flatMap (Event.messages c)) =
        s'.handed ++ wanted c (toCome c s'.consumer) := by
      calc wanted c (s'.arrived.flatMap (Event.messages c))
          = s.handed ++ (wanted c (toCome c s.consumer) ++
              wanted c ((incoming a).flatMap (Event.messages c))) := by
            rw [hall, h.handed_eq hdropped, List.append_assoc]
        _ = s.handed ++ wanted c (done c s.consumer a ++ toCome c s'.consumer) := by
            rw [← wanted_append, flow_step hstep]
        _ = s'.handed ++ wanted c (toCome c s'.consumer) := by
            rw [wanted_append, hhanded, deliveries_eq h.publishes hdropped hstep, List.append_assoc]
    refine ⟨h.publishes.step hstep, ?_, fun _ => heq⟩
    rw [heq]
    exact List.prefix_append _ _

theorem inv_of_reach (h : (traced decode c).Reach s) : Inv c s := by
  refine Sys.ReachIf.inv (Inv c) ?_ ?_ h
  · rintro s rfl
    exact Inv.init
  · intro s a s' h _ hs
    exact h.step hs

end

/-! ## The filter is the order -/

section

variable {c : Config} {start messageId : MessageIdData}

/-- **The filter**, on a message of an entry that the broker sends. -/
theorem passes_iff_selected (hpersistent : isPersistentTopic c.topic = true)
    (hstart : c.options.startMessageId = some start) (hfits : Position.Fits start) (htopic : InTopic messageId)
    (honwards : position start ≤ position messageId) :
    isBeforeStartMessage c.topic c.options messageId = false ↔
      Selected c.options start messageId := by
  have hentry := position_eq_iff hfits (fits_of_inTopic htopic)
  rw [← Bool.not_eq_true, isBeforeStartMessage_iff]
  rcases lt_or_eq_of_le honwards with hlt | heq
  · refine ⟨fun _ => Or.inl (Or.inl hlt), fun _ => ?_⟩
    rintro ⟨-, start', hstart', hledger, hentry', -⟩
    obtain rfl := Option.some.inj (hstart.symm.trans hstart')
    have hsame : Seek.entry start = Seek.entry messageId := by
      unfold Seek.entry
      rw [hledger, hentry']
    exact absurd (hentry.mpr hsame) (ne_of_lt hlt)
  · have hsame := hentry.mp heq
    have hledger : messageId.ledgerId = start.ledgerId :=
      (congrArg (fun p => (ofLex p).1) hsame).symm
    have hentry' : messageId.entryId = start.entryId := (congrArg (fun p => (ofLex p).2) hsame).symm
    unfold Selected Before SamePlace
    simp only [hpersistent, hstart, Option.some.injEq, exists_eq_left', hledger, hentry', true_and,
      heq, lt_irrefl, false_or]
    cases c.options.startMessageIdInclusive with
    | true =>
      cases start.batchIndex <;> cases messageId.batchIndex <;> simp
      omega
    | false => cases start.batchIndex <;> cases messageId.batchIndex <;> simp

end

/-! ## The order of arrival -/

section

variable {c : Config}

theorem ids_ascending (n : Nat) (it : BatchedMessageIterator) :
    ((it.collectUpTo n).map Prod.fst).Pairwise Before := by
  induction n generalizing it with
  | zero => exact List.Pairwise.nil
  | succ n ih =>
    unfold BatchedMessageIterator.collectUpTo
    split
    · exact List.Pairwise.nil
    · rename_i item it' hnext
      obtain ⟨hitem, hindex, hid⟩ := BatchedMessageIterator.next_spec hnext
      rw [List.map_cons]
      refine List.pairwise_cons.mpr ⟨fun id hmem => ?_, ih it'⟩
      obtain ⟨k, hk, rfl⟩ := (it'.ids_collectUpTo n).1 id hmem
      rw [hitem, hid]
      refine Or.inr ⟨rfl, it.currentIndex, rfl, k, rfl, ?_⟩
      omega

theorem idsOf_ascending (c : Config) (m : PulsarClient.Message) : (idsOf c m).Pairwise Before := by
  unfold idsOf
  split
  · split
    · rename_i items hunpack
      rcases unpack_cases hunpack with ⟨it, -, rfl⟩ | ⟨payload', rfl⟩
      · exact ids_ascending _ it
      · exact List.pairwise_singleton _ _
    · exact List.Pairwise.nil
  · exact List.Pairwise.nil

/-- The messages of an event are those of the entry that it brings. -/
theorem messages_entry {e : Event} {m : Option Nat × MessageIdData} (hm : m ∈ e.messages c) :
    ∃ id ∈ entryId e, m.2.ledgerId = id.ledgerId ∧ m.2.entryId = id.entryId := by
  cases e with
  | EngineMessage r => exact absurd hm List.not_mem_nil
  | Message msg =>
    cases msg with
    | none => exact absurd hm List.not_mem_nil
    | some msg =>
      simp only [Event.messages] at hm
      split at hm
      · exact absurd hm List.not_mem_nil
      · obtain ⟨id, hid, rfl⟩ := List.mem_map.mp hm
        obtain ⟨message, hmessage, hledger, hentry⟩ := entry_of_mem_idsOf hid
        refine ⟨message.messageId, ?_, hledger, hentry⟩
        have hsome : msg.command.message.isSome = true := by
          rw [hmessage]
          rfl
        refine List.mem_filterMap.mpr ⟨msg, ?_, ?_⟩
        · show msg ∈ (if msg.command.message.isSome then [msg] else [])
          rw [if_pos hsome]
          exact List.mem_singleton_self msg
        · rw [hmessage]
          rfl

theorem position_of_entry {a b : MessageIdData} (hledger : a.ledgerId = b.ledgerId)
    (hentry : a.entryId = b.entryId) : position a = position b := by
  unfold position
  rw [hledger, hentry]

/-- **In order, and none twice.** -/
theorem arrived_ascending {start : MessageIdData} {arrived : List Event} (h : FromStart start arrived) :
    ((arrived.flatMap (Event.messages c)).map Prod.snd).Pairwise Before := by
  have hascending := (List.pairwise_flatMap.mp h.ascending).2
  rw [List.map_flatMap]
  refine List.pairwise_flatMap.mpr ⟨fun e _ => ?_, hascending.imp fun {e e'} hlt => ?_⟩
  · cases e with
    | EngineMessage r => exact List.Pairwise.nil
    | Message msg =>
      cases msg with
      | none => exact List.Pairwise.nil
      | some msg =>
        simp only [Event.messages]
        split
        · exact List.Pairwise.nil
        · rw [List.map_map]
          show ((idsOf c msg).map id).Pairwise Before
          rw [List.map_id]
          exact idsOf_ascending c msg
  · intro a ha b hb
    obtain ⟨m, hm, rfl⟩ := List.mem_map.mp ha
    obtain ⟨m', hm', rfl⟩ := List.mem_map.mp hb
    obtain ⟨id, hid, hledger, hentry⟩ := messages_entry hm
    obtain ⟨id', hid', hledger', hentry'⟩ := messages_entry hm'
    refine Or.inl ?_
    rw [position_of_entry hledger hentry, position_of_entry hledger' hentry']
    exact hlt id hid id' hid'

/-- On what the broker sends, what is wanted is what is selected. -/
theorem wanted_eq_selected {start : MessageIdData} {arrived : List Event}
    (hpersistent : isPersistentTopic c.topic = true) (hstart : c.options.startMessageId = some start)
    (hfits : Position.Fits start) (h : FromStart start arrived) :
    wanted c (arrived.flatMap (Event.messages c)) =
      (forApplication c arrived).filter fun messageId => decide (Selected c.options start messageId) := by
  refine List.filter_congr fun messageId hmem => ?_
  obtain ⟨m, hm, rfl⟩ := List.mem_map.mp hmem
  obtain ⟨e, he, hm⟩ := List.mem_flatMap.mp (List.mem_filter.mp hm).1
  obtain ⟨id, hid, hledger, hentry⟩ := messages_entry hm
  have hidmem : id ∈ arrived.flatMap entryId := List.mem_flatMap.mpr ⟨e, he, hid⟩
  have htopic : InTopic m.2 := by
    unfold InTopic
    rw [hledger, hentry]
    exact h.inTopic id hidmem
  have honwards : position start ≤ position m.2 := by
    rw [position_of_entry hledger hentry]
    exact h.onwards id hidmem
  have hiff := passes_iff_selected hpersistent hstart hfits htopic honwards
  cases hbefore : isBeforeStartMessage c.topic c.options m.2 with
  | false => exact (decide_eq_true (hiff.mp hbefore)).symm
  | true =>
    refine (decide_eq_false fun hselected => ?_).symm
    exact Bool.false_ne_true ((hiff.mpr hselected).symm.trans hbefore)

/-- A topic that is not persistent is not filtered. -/
theorem wanted_of_nonPersistent (hpersistent : isPersistentTopic c.topic = false)
    (arrived : List Event) :
    wanted c (arrived.flatMap (Event.messages c)) = forApplication c arrived := by
  refine List.filter_eq_self.mpr fun messageId _ => ?_
  unfold isBeforeStartMessage
  rw [hpersistent]
  rfl

end

/-- **The start filter hands on the suffix.**  Of the entries that the broker sends from the start id's
onwards the application is handed the messages behind it, in order and none twice: at any time a
first part of them, and all when the engine has gone through what has arrived. -/
theorem start_suffix (decode : String → Option Bytes) (c : Config) {s : Traced}
    (hreach : (traced decode c).Reach s) :
    (isPersistentTopic c.topic = true → ∀ start, c.options.startMessageId = some start →
      Position.Fits start → FromStart start s.arrived →
        s.handed.Pairwise Before ∧
        s.handed <+: (forApplication c s.arrived).filter (fun messageId =>
          decide (Selected c.options start messageId)) ∧
        (s.consumer.dropped = false → toCome c s.consumer = [] →
          s.handed = (forApplication c s.arrived).filter fun messageId =>
            decide (Selected c.options start messageId))) ∧
    (isPersistentTopic c.topic = false →
      s.handed <+: forApplication c s.arrived ∧
      (s.consumer.dropped = false → toCome c s.consumer = [] →
        s.handed = forApplication c s.arrived)) := by
  have hinv := inv_of_reach hreach
  have hall : s.consumer.dropped = false → toCome c s.consumer = [] →
      s.handed = wanted c (s.arrived.flatMap (Event.messages c)) := by
    intro hdropped hnone
    rw [hinv.handed_eq hdropped, hnone]
    exact (List.append_nil _).symm
  constructor
  · intro hpersistent start hstart hfits hfrom
    rw [← wanted_eq_selected hpersistent hstart hfits hfrom]
    refine ⟨?_, hinv.handed_prefix, hall⟩
    have hsub : (wanted c (s.arrived.flatMap (Event.messages c))).Sublist
        ((s.arrived.flatMap (Event.messages c)).map Prod.snd) :=
      List.filter_sublist.trans (List.filter_sublist.map Prod.snd)
    exact (arrived_ascending hfrom).sublist (hinv.handed_prefix.sublist.trans hsub)
  · intro hpersistent
    rw [← wanted_of_nonPersistent hpersistent]
    exact ⟨hinv.handed_prefix, hall⟩

/-- A consumer of pairs that starts after the first message of the first pair. -/
def fromFirst (deadLetterPolicy : Option DeadLetterPolicy) : Config :=
  { bytewise with
    deadLetterPolicy
    options := { startMessageId := some { ledgerId := 1, entryId := 0, batchIndex := some 0 } } }

/-- The pair, delivered for the second time. -/
def pairAgain : PulsarClient.Message :=
  { pair with
    command :=
      { message := some
          { consumerId := 0, messageId := { ledgerId := 1, entryId := 0 }, redeliveryCount := some 1 } } }

/-- One entry, which is the start id's or a later one. -/
theorem fromStart_single {start id : MessageIdData} {m : PulsarClient.Message}
    (hentry : entryId (.Message (some m)) = [id]) (htopic : InTopic id)
    (honwards : position start ≤ position id) : FromStart start [.Message (some m)] := by
  have hids : [Event.Message (some m)].flatMap entryId = [id] := by
    rw [List.flatMap_singleton, hentry]
  refine ⟨?_, ?_, ?_⟩
  · rw [hids]
    exact fun _ h => List.mem_singleton.mp h ▸ htopic
  · rw [hids]
    exact fun _ h => List.mem_singleton.mp h ▸ honwards
  · rw [hids]
    exact List.pairwise_singleton _ _

/-- The second message of a pair is handed on. -/
theorem start_suffix_second : ∃ s, (traced Base64.decode (fromFirst none)).Reach s ∧
    s.handed = [{ ledgerId := 1, entryId := 0, batchIndex := some 1, batchSize := some 2 }] ∧
    s.handed = (forApplication (fromFirst none) s.arrived).filter fun messageId =>
      decide (Selected (fromFirst none).options { ledgerId := 1, entryId := 0, batchIndex := some 0 }
        messageId) := by
  obtain ⟨s, hreach, h⟩ := Sys.exists_reach_of_exec (S := traced Base64.decode (fromFirst none))
    (p := fun s => decide (s.arrived = [.Message (some pair)] ∧ s.consumer.dropped = false ∧
      toCome (fromFirst none) s.consumer = [] ∧
      s.handed = [{ ledgerId := 1, entryId := 0, batchIndex := some 1, batchSize := some 2 }]))
    (s := { consumer := { remainingMessages := 1000 } }) rfl
    [.arrive (some pair), .top false, .flow none, .next, .item, .item, .item]
    (by decide +kernel)
  obtain ⟨harrived, hdropped, hnone, hhanded⟩ := of_decide_eq_true h
  have hfrom : FromStart { ledgerId := 1, entryId := 0, batchIndex := some 0 } s.arrived := by
    rw [harrived]
    exact fromStart_single (rfl : entryId _ = [{ ledgerId := 1, entryId := 0 }]) (by decide) (le_refl _)
  have hsuffix := (start_suffix Base64.decode (fromFirst none) hreach).1 (by decide +kernel) _ rfl
    (by decide) hfrom
  exact ⟨s, hreach, hhanded, hsuffix.2.2 hdropped hnone⟩

/-- … unless it is for the dead letters. -/
theorem suffix_diverted : ∃ c : Config, ∃ s, (traced Base64.decode c).Reach s ∧
    isPersistentTopic c.topic = true ∧
    c.options.startMessageId = some { ledgerId := 1, entryId := 0, batchIndex := some 0 } ∧
    FromStart { ledgerId := 1, entryId := 0, batchIndex := some 0 } s.arrived ∧
    s.consumer.dropped = false ∧ toCome c s.consumer = [] ∧ s.handed = [] ∧
    ((s.arrived.flatMap (Event.messages c)).map Prod.snd).filter (fun messageId =>
      decide (Selected c.options { ledgerId := 1, entryId := 0, batchIndex := some 0 } messageId)) =
        [{ ledgerId := 1, entryId := 0, batchIndex := some 1, batchSize := some 2 }] := by
  let c := fromFirst (some { maxRedeliverCount := 1, deadLetterTopic := "dlq" })
  obtain ⟨s, hreach, h⟩ := Sys.exists_reach_of_exec (S := traced Base64.decode c)
    (p := fun s => decide (s.arrived = [.Message (some pairAgain)] ∧ s.consumer.dropped = false ∧
      toCome c s.consumer = [] ∧ s.handed = []))
    (s := { consumer := { remainingMessages := 1000 } }) rfl
    [.arrive (some pairAgain), .top false, .flow none, .next, .item, .item, .published none,
      .sent true, .item]
    (by decide +kernel)
  obtain ⟨harrived, hdropped, hnone, hhanded⟩ := of_decide_eq_true h
  refine ⟨c, s, hreach, by decide +kernel, rfl, ?_, hdropped, hnone, hhanded, ?_⟩
  · rw [harrived]
    exact fromStart_single (rfl : entryId _ = [{ ledgerId := 1, entryId := 0 }]) (by decide) (le_refl _)
  · rw [harrived]
    decide +kernel

end PulsarClient.Consumer.Suffix
