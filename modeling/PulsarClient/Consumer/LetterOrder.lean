/-
  THE ORDER OF THE DEAD LETTERS: publish, receipt, ack.

  Whatever a publish comes to, and wherever the engine is interrupted, the original is acknowledged
  behind its receipt only.  What is published says what the consumed message said, and where it comes
  from.

  1. `Arrived` — the entry that the engine works on is one that has arrived.

  2. `Follows` — what may stand behind what in the history of the dead letters; `Lettered`, what a step
     adds to it; and `InOrder.step`.

  3. `letters_follow` — along every run, and no ack on the wire but those that the application asked for
     or that follow a receipt.

  4. `flag_dropped` — a key whose flag contradicts its text keeps the text only.
-/
import PulsarClient.Consumer.Letters

namespace PulsarClient.Consumer.Letters

open Runs Proto Batching Partitions
open Suffix (pairAgain)

/-! ## Where the messages come from -/

/-- The entry is unpacked to these messages. -/
def EntryOf (c : Config) (m : PulsarClient.Message) (redeliveryCount : Option Nat)
    (items : List (MessageIdData × Payload)) : Prop :=
  ∃ message payload, m.command.message = some message ∧ m.payload = some payload ∧
    unpack c.codecs message.messageId payload = .ok items ∧
    redeliveryCount = message.redeliveryCount

/-- What is left of the entry that the engine works on. -/
def restOf : Pc → Option (Option Nat × List (MessageIdData × Payload))
  | .payload redeliveryCount items => some (redeliveryCount, items)
  | .publishing _ redeliveryCount rest => some (redeliveryCount, rest)
  | .acking _ _ (.payload redeliveryCount rest) => some (redeliveryCount, rest)
  | .parked _ (.payload redeliveryCount rest) => some (redeliveryCount, rest)
  | _ => none

section

variable {decode : String → Option Bytes} {c : Config} {s s' : State} {a : Action}
  {redeliveryCount : Option Nat} {items : List (MessageIdData × Payload)}

/-- A send that was suspended goes on with the same entry. -/
theorem restOf_pc (unacked : Option (MessageIdData × Nat)) (resume : Resume) :
    restOf resume.pc = restOf (.parked unacked resume) := by
  cases resume with
  | top => rfl
  | payload => rfl

theorem restOf_push {d : Delivery} {resume : Resume}
    (h : restOf (s.push c d resume).pc = some (redeliveryCount, items)) :
    restOf resume.pc = some (redeliveryCount, items) := by
  rcases pc_push (c := c) s d resume with ⟨-, hpc⟩ | hpc | hpc
  · rw [hpc] at h
    cases h
  · rw [hpc] at h
    exact (restOf_pc _ resume).trans h
  · rw [hpc] at h
    exact h

theorem restOf_handle {e : Event} (h : Handles c s e s')
    (hrest : restOf s'.pc = some (redeliveryCount, items)) :
    ∃ m, e = .Message (some m) ∧ EntryOf c m redeliveryCount items := by
  cases h with
  | entry hend hchange hmessage hpayload hunpack =>
    cases hrest
    exact ⟨_, rfl, _, _, hmessage, hpayload, hunpack, rfl⟩
  | broken => cases restOf_push hrest
  | _ => cases hrest

/-- One round of the loop: the messages behind the first. -/
theorem restOf_item {redeliveryCount' : Option Nat} {items' : List (MessageIdData × Payload)}
    (h : restOf (s.item c redeliveryCount items).pc = some (redeliveryCount', items')) :
    redeliveryCount' = redeliveryCount ∧ items' <:+ items := by
  cases items with
  | nil => cases h
  | cons item rest =>
    have hrest : some (redeliveryCount, rest) = some (redeliveryCount', items') := by
      rw [item_cons] at h
      split at h
      · exact h
      · split at h
        · exact h
        · exact restOf_push h
    obtain ⟨rfl, rfl⟩ := Prod.mk.inj (Option.some.inj hrest)
    exact ⟨rfl, List.suffix_cons item rest⟩

/-- The engine works its way through an entry, or takes the next one from the queue. -/
theorem restOf_step (hs : step c s a = some s')
    (hrest : restOf s'.pc = some (redeliveryCount, items)) :
    (∃ before, restOf s.pc = some (redeliveryCount, before) ∧ items <:+ before) ∨
      ∃ m, .Message (some m) ∈ s.events ∧ EntryOf c m redeliveryCount items := by
  -- the engine goes on with the same messages
  have hsame : restOf s.pc = some (redeliveryCount, items) →
      (∃ before, restOf s.pc = some (redeliveryCount, before) ∧ items <:+ before) ∨
        ∃ m, .Message (some m) ∈ s.events ∧ EntryOf c m redeliveryCount items :=
    fun h => Or.inl ⟨items, h, List.suffix_refl items⟩
  cases step_moves hs with
  | top hpc =>
    rename_i lost
    cases lost <;> cases hrest
  | reconnected hpc =>
    rename_i closed
    cases closed <;> cases hrest
  | refused hpc hwants hpc' =>
    rcases hpc' with rfl | rfl <;> cases hrest
  | reported | unpublished => cases restOf_push hrest
  | next hpc hev =>
    obtain ⟨m, rfl, hentry⟩ := restOf_handle (handle_cases c _ _) hrest
    refine Or.inr ⟨m, ?_, hentry⟩
    rw [hev]
    exact List.mem_cons_self
  | item hpc =>
    obtain ⟨rfl, hsuffix⟩ := restOf_item hrest
    refine Or.inl ⟨_, ?_, hsuffix⟩
    rw [hpc]
    rfl
  | published hpc =>
    refine hsame ?_
    rw [hpc]
    exact hrest
  | acked hpc =>
    rename_i resume ok
    refine hsame ?_
    rw [hpc]
    cases resume with
    | top => cases hrest
    | payload => exact hrest
  | unparked hwaiting hdropped hmessages hpc | released hwaiting hdropped hpc =>
    rename_i unacked resume
    refine hsame ?_
    rw [hpc, ← restOf_pc]
    exact hrest
  | stopped | granted | enough | timeout | asked => cases hrest
  | _ => exact hsame hrest

/-- The broker's messages in the queue have arrived. -/
theorem events_step {m : Option PulsarClient.Message} (hs : step c s a = some s')
    (hmem : .Message m ∈ s'.events) : .Message m ∈ s.events ∨ .Message m ∈ incoming a := by
  cases step_moves hs with
  | arrive => exact List.mem_append.mp hmem
  | forward | forwardEnd =>
    rcases List.mem_append.mp hmem with hmem | hmem
    · exact Or.inl hmem
    · exact absurd (List.mem_singleton.mp hmem) Event.noConfusion
  | next hpc hev =>
    rw [events_handle] at hmem
    rw [hev]
    exact Or.inl (List.mem_cons_of_mem _ hmem)
  | reported | unpublished =>
    rw [(local_push _ _ _).events] at hmem
    exact Or.inl hmem
  | item =>
    rw [(local_item _ _ _).events] at hmem
    exact Or.inl hmem
  | _ => exact Or.inl hmem

/-- The entry that the engine works on, and those in the queue, have arrived. -/
structure Arrived (c : Config) (t : Traced) : Prop where
  queued : ∀ m, .Message m ∈ t.consumer.events → .Message m ∈ t.arrived
  opened : ∀ redeliveryCount items, restOf t.consumer.pc = some (redeliveryCount, items) →
    ∃ m all, .Message (some m) ∈ t.arrived ∧ EntryOf c m redeliveryCount all ∧ items <:+ all

theorem Arrived.step {t t' : Traced} (h : Arrived c t) (hs : (traced decode c).step t a = some t') :
    Arrived c t' := by
  obtain ⟨hstep, harrived, -, -⟩ := traced_step hs
  have hgrows : t.arrived ⊆ t'.arrived := by
    rw [harrived]
    exact List.subset_append_left _ _
  constructor
  · intro m hmem
    rcases events_step hstep hmem with hmem | hmem
    · exact hgrows (h.queued m hmem)
    · rw [harrived]
      exact List.mem_append_right _ hmem
  · intro redeliveryCount items hrest
    rcases restOf_step hstep hrest with ⟨before, hbefore, hsuffix⟩ | ⟨m, hmem, hentry⟩
    · obtain ⟨m, all, hmem, hentry, hall⟩ := h.opened redeliveryCount before hbefore
      exact ⟨m, all, hgrows hmem, hentry, hsuffix.trans hall⟩
    · exact ⟨m, items, hgrows (h.queued _ hmem), hentry, List.suffix_refl items⟩

end

/-! ## The order of the dead letters -/

/-- What stands in the history of the dead letters, behind what stands there already.  A message of an
    entry that was delivered too often is published as the policy says; its receipt, or the failure,
    comes next; and the ack of the original next to its receipt. -/
def Follows (lib : Libraries) (decode : String → Option Bytes) (c : Config) (arrived : List Event)
    (prior : List LetterEvent) : LetterEvent → Prop
  | .publish messageId topic message =>
    ∃ policy m redeliveryCount items payload, c.deadLetterPolicy = some policy ∧
      topic = policy.deadLetterTopic ∧ .Message (some m) ∈ arrived ∧
      EntryOf c m (some redeliveryCount) items ∧ policy.maxRedeliverCount ≤ redeliveryCount ∧
      (messageId, payload) ∈ items ∧ Republished lib decode c.topic messageId payload message
  | .receipt messageId | .failed messageId =>
    ∃ front topic message, prior = front ++ [.publish messageId topic message]
  | .ack messageId _ =>
    ∃ front topic message, prior = front ++ [.publish messageId topic message, .receipt messageId]

/-- What a step does for the dead letters. -/
inductive Lettered (decode : String → Option Bytes) (c : Config) (s s' : State) :
    List LetterEvent → Prop where
  /-- nothing: no dead letter gets further -/
  | nothing
    (hpublishing : ∀ messageId redeliveryCount rest,
      s'.pc = .publishing messageId redeliveryCount rest →
        s.pc = .publishing messageId redeliveryCount rest)
    (hsettling : ∀ messageId cumulative redeliveryCount rest,
      s'.pc = .acking messageId cumulative (.payload redeliveryCount rest) →
        s.pc = .acking messageId cumulative (.payload redeliveryCount rest))
    (hreceipts : s'.deadLettered = s.deadLettered) : Lettered decode c s s' []
  | publish {messageId payload redeliveryCount rest policy}
    (hpc : s.pc = .payload (some redeliveryCount) ((messageId, payload) :: rest))
    (hpc' : s'.pc = .publishing messageId (some redeliveryCount) rest)
    (hpolicy : c.deadLetterPolicy = some policy) (hcount : policy.maxRedeliverCount ≤ redeliveryCount)
    (hreceipts : s'.deadLettered = s.deadLettered) :
    Lettered decode c s s'
      [.publish messageId policy.deadLetterTopic (deadLetter decode c.topic messageId payload)]
  | receipt {messageId redeliveryCount rest}
    (hpc : s.pc = .publishing messageId redeliveryCount rest)
    (hpc' : s'.pc = .acking messageId false (.payload redeliveryCount rest))
    (hreceipts : s'.deadLettered = s.deadLettered ++ [messageId]) :
    Lettered decode c s s' [.receipt messageId]
  | failed {messageId redeliveryCount rest}
    (hpc : s.pc = .publishing messageId redeliveryCount rest) (hrest : restOf s'.pc = none)
    (hreceipts : s'.deadLettered = s.deadLettered) : Lettered decode c s s' [.failed messageId]
  | ack {messageId cumulative redeliveryCount rest ok}
    (hpc : s.pc = .acking messageId cumulative (.payload redeliveryCount rest))
    (hpc' : s'.pc = .payload redeliveryCount rest)
    (hreceipts : s'.deadLettered = s.deadLettered) : Lettered decode c s s' [.ack messageId ok]

section

variable {lib : Libraries} {decode : String → Option Bytes} {c : Config} {s s' : State} {a : Action}

theorem deadLetters_eq_true {redeliveryCount : Option Nat} (h : c.deadLetters redeliveryCount = true) :
    ∃ count policy, redeliveryCount = some count ∧ c.deadLetterPolicy = some policy ∧
      policy.maxRedeliverCount ≤ count := by
  unfold Config.deadLetters at h
  split at h
  · rename_i count policy hpolicy
    exact ⟨count, policy, rfl, hpolicy, of_decide_eq_true h⟩
  · exact absurd h Bool.false_ne_true

theorem restOf_push_top (d : Delivery) : restOf (s.push c d .top).pc = none := by
  rcases pc_push (c := c) s d .top with ⟨-, h⟩ | h | h
  · rw [h]
    rfl
  · rw [h]
    rfl
  · rw [h]
    rfl

/-- An event brings no receipt, and sends nothing yet. -/
theorem log_handle {e : Event} (h : Handles c s e s') :
    s'.deadLettered = s.deadLettered ∧ s'.sent = s.sent := by
  cases e with
  | Message m => exact ⟨(local_handle h).deadLettered, (local_handle h).sent⟩
  | EngineMessage r => cases h <;> exact ⟨rfl, rfl⟩

/-- The loop publishes a message, or does nothing for the dead letters. -/
theorem lettered_item {redeliveryCount : Option Nat} {items : List (MessageIdData × Payload)}
    (hs : step c s .item = some s') (hpc : s.pc = .payload redeliveryCount items)
    (hs' : s' = s.item c redeliveryCount items) :
    Lettered decode c s s' (letterEvents decode c s .item) := by
  have hreceipts : s'.deadLettered = s.deadLettered := by
    rw [hs']
    exact (local_item s redeliveryCount items).deadLettered
  have hsettling : ∀ messageId cumulative redeliveryCount rest,
      s'.pc = .acking messageId cumulative (.payload redeliveryCount rest) →
        s.pc = .acking messageId cumulative (.payload redeliveryCount rest) := by
    intro messageId cumulative redeliveryCount rest hpc'
    exact (settling_step hs hpc').resolve_right fun h => Action.noConfusion h.1
  cases items with
  | nil =>
    have hnone : letterEvents decode c s .item = [] := by
      simp only [letterEvents, hpc]
    rw [hnone]
    refine .nothing ?_ hsettling hreceipts
    intro messageId redeliveryCount rest hpc'
    rw [hs'] at hpc'
    cases hpc'
  | cons item rest =>
    obtain ⟨messageId, payload⟩ := item
    by_cases hletter : isBeforeStartMessage c.topic c.options messageId = false ∧
        c.deadLetters redeliveryCount = true
    · -- the policy applies
      obtain ⟨count, policy, rfl, hpolicy, hcount⟩ := deadLetters_eq_true hletter.2
      have hpublish : letterEvents decode c s .item =
          [.publish messageId policy.deadLetterTopic (deadLetter decode c.topic messageId payload)] := by
        simp only [letterEvents, hpc, hpolicy]
        exact if_pos hletter
      rw [hpublish]
      refine .publish hpc ?_ hpolicy hcount hreceipts
      rw [hs', item_cons, if_neg (Bool.eq_false_iff.mp hletter.1), if_pos hletter.2]
    · -- filtered, or handed to the application
      have hnone : letterEvents decode c s .item = [] := by
        simp only [letterEvents, hpc]
        cases c.deadLetterPolicy with
        | none => rfl
        | some policy => exact if_neg hletter
      rw [hnone]
      refine .nothing ?_ hsettling hreceipts
      intro id redeliveryCount' rest' hpc'
      refine (publishing_step hs hpc').resolve_right ?_
      rintro ⟨-, payload', hpc'', hpasses, hdead⟩
      rw [hpc] at hpc''
      cases hpc''
      exact hletter ⟨hpasses, hdead⟩

theorem lettered_step (decode : String → Option Bytes) (hs : step c s a = some s') :
    Lettered decode c s s' (letterEvents decode c s a) := by
  -- only the loop publishes, and only a receipt leads to an ack of the engine's own
  have hnothing : letterEvents decode c s a = [] → a ≠ .item → a ≠ .published none →
      s'.deadLettered = s.deadLettered → Lettered decode c s s' (letterEvents decode c s a) := by
    intro hnone hitem hpublished hreceipts
    rw [hnone]
    refine .nothing ?_ ?_ hreceipts
    · intro messageId redeliveryCount rest hpc'
      exact (publishing_step hs hpc').resolve_right fun h => hitem h.1
    · intro messageId cumulative redeliveryCount rest hpc'
      exact (settling_step hs hpc').resolve_right fun h => hpublished h.1
  cases step_moves hs with
  | item hpc => exact lettered_item hs hpc rfl
  | published hpc =>
    rename_i messageId redeliveryCount rest
    rw [letterEvents_published hpc]
    exact .receipt hpc rfl rfl
  | unpublished hpc =>
    rename_i messageId redeliveryCount rest err
    rw [letterEvents_unpublished hpc]
    exact .failed hpc (restOf_push_top _) (local_push s _ _).deadLettered
  | acked hpc =>
    rename_i messageId cumulative resume ok
    cases resume with
    | top =>
      exact hnothing (letterEvents_sent_top hpc) Action.noConfusion Action.noConfusion rfl
    | payload redeliveryCount rest =>
      rw [letterEvents_sent hpc]
      exact .ack hpc rfl rfl
  | asked hpc =>
    exact hnothing (letterEvents_asked hpc) Action.noConfusion Action.noConfusion rfl
  | reported =>
    exact hnothing rfl Action.noConfusion Action.noConfusion (local_push s _ _).deadLettered
  | next hpc hev =>
    rename_i e events
    have hlog := log_handle (handle_cases c { s with events } e)
    exact hnothing rfl Action.noConfusion Action.noConfusion hlog.1
  | _ => exact hnothing rfl Action.noConfusion Action.noConfusion rfl

/-- What is known of the dead letters, whatever has happened. -/
structure InOrder (lib : Libraries) (decode : String → Option Bytes) (c : Config)
    (t : Traced) : Prop where
  follows : Each (Follows lib decode c t.arrived) t.letters
  publishing : ∀ messageId redeliveryCount rest,
    t.consumer.pc = .publishing messageId redeliveryCount rest →
      ∃ front topic message, t.letters = front ++ [.publish messageId topic message]
  settling : ∀ messageId cumulative redeliveryCount rest,
    t.consumer.pc = .acking messageId cumulative (.payload redeliveryCount rest) →
      ∃ front topic message,
        t.letters = front ++ [.publish messageId topic message, .receipt messageId]
  receipts : ∀ messageId ∈ t.consumer.deadLettered, .receipt messageId ∈ t.letters

/-- More messages may have arrived. -/
theorem follows_mono {arrived arrived' : List Event} (hgrows : arrived ⊆ arrived')
    {letters : List LetterEvent} (h : Each (Follows lib decode c arrived) letters) :
    Each (Follows lib decode c arrived') letters := by
  intro before entry after heq
  have hfollows := h before entry after heq
  cases entry with
  | publish messageId topic message =>
    obtain ⟨policy, m, redeliveryCount, items, payload, hpolicy, htopic, hmem, hrest⟩ := hfollows
    exact ⟨policy, m, redeliveryCount, items, payload, hpolicy, htopic, hgrows hmem, hrest⟩
  | receipt => exact hfollows
  | failed => exact hfollows
  | ack => exact hfollows

section

variable {t t' : Traced} {events : List LetterEvent}

/-- What a step adds to the history of the dead letters is in order. -/
theorem InOrder.follows_step (hengine : Base64Engine lib.base64 decode) (h : InOrder lib decode c t)
    (harrived : Arrived c t) (hgrows : t.arrived ⊆ t'.arrived)
    (hletters : t'.letters = t.letters ++ events)
    (hevents : Lettered decode c t.consumer t'.consumer events) :
    Each (Follows lib decode c t'.arrived) t'.letters := by
  have hold : Each (Follows lib decode c t'.arrived) t.letters := follows_mono hgrows h.follows
  rw [hletters]
  cases hevents with
  | nothing =>
    rw [List.append_nil]
    exact hold
  | publish hpc hpc' hpolicy hcount hreceipts =>
    rename_i messageId payload redeliveryCount rest policy
    -- the message is one of the entry that the engine has opened
    obtain ⟨m, all, hmem, hentry, hall⟩ := harrived.opened (some redeliveryCount)
      ((messageId, payload) :: rest) (by rw [hpc]; rfl)
    have hitem : (messageId, payload) ∈ all := hall.subset List.mem_cons_self
    have hsays := republished_deadLetter hengine c.topic messageId payload
    exact each_concat.mpr ⟨hold, policy, m, redeliveryCount, all, payload, hpolicy, rfl, hgrows hmem,
      hentry, hcount, hitem, hsays⟩
  | receipt hpc => exact each_concat.mpr ⟨hold, h.publishing _ _ _ hpc⟩
  | failed hpc => exact each_concat.mpr ⟨hold, h.publishing _ _ _ hpc⟩
  | ack hpc => exact each_concat.mpr ⟨hold, h.settling _ _ _ _ hpc⟩

theorem InOrder.publishing_step (h : InOrder lib decode c t)
    (hletters : t'.letters = t.letters ++ events)
    (hevents : Lettered decode c t.consumer t'.consumer events) {messageId : MessageIdData}
    {redeliveryCount : Option Nat} {rest : List (MessageIdData × Payload)}
    (hpc : t'.consumer.pc = .publishing messageId redeliveryCount rest) :
    ∃ front topic message, t'.letters = front ++ [.publish messageId topic message] := by
  cases hevents with
  | nothing hpublishing =>
    rw [hletters, List.append_nil]
    exact h.publishing messageId redeliveryCount rest (hpublishing _ _ _ hpc)
  | publish hpc₀ hpc' =>
    cases hpc'.symm.trans hpc
    exact ⟨t.letters, _, _, hletters⟩
  | receipt hpc₀ hpc' => cases hpc'.symm.trans hpc
  | failed hpc₀ hrest =>
    rw [hpc] at hrest
    cases hrest
  | ack hpc₀ hpc' => cases hpc'.symm.trans hpc

theorem InOrder.settling_step (h : InOrder lib decode c t)
    (hletters : t'.letters = t.letters ++ events)
    (hevents : Lettered decode c t.consumer t'.consumer events) {messageId : MessageIdData}
    {cumulative : Bool} {redeliveryCount : Option Nat} {rest : List (MessageIdData × Payload)}
    (hpc : t'.consumer.pc = .acking messageId cumulative (.payload redeliveryCount rest)) :
    ∃ front topic message,
      t'.letters = front ++ [.publish messageId topic message, .receipt messageId] := by
  cases hevents with
  | nothing _ hsettling =>
    rw [hletters, List.append_nil]
    exact h.settling messageId cumulative redeliveryCount rest (hsettling _ _ _ _ hpc)
  | publish hpc₀ hpc' => cases hpc'.symm.trans hpc
  | receipt hpc₀ hpc' =>
    cases hpc'.symm.trans hpc
    obtain ⟨front, topic, message, hlast⟩ := h.publishing _ _ _ hpc₀
    refine ⟨front, topic, message, ?_⟩
    rw [hletters, hlast, List.append_assoc]
    rfl
  | failed hpc₀ hrest =>
    rw [hpc] at hrest
    cases hrest
  | ack hpc₀ hpc' => cases hpc'.symm.trans hpc

theorem InOrder.receipts_step (h : InOrder lib decode c t)
    (hletters : t'.letters = t.letters ++ events)
    (hevents : Lettered decode c t.consumer t'.consumer events) :
    ∀ messageId ∈ t'.consumer.deadLettered, .receipt messageId ∈ t'.letters := by
  intro messageId hmem
  have hold : messageId ∈ t.consumer.deadLettered → .receipt messageId ∈ t.letters ++ events :=
    fun hmem => List.mem_append_left _ (h.receipts messageId hmem)
  rw [hletters]
  cases hevents with
  | nothing _ _ hreceipts | publish _ _ _ _ hreceipts | failed _ _ hreceipts | ack _ _ hreceipts =>
    rw [hreceipts] at hmem
    exact hold hmem
  | receipt _ _ hreceipts =>
    rw [hreceipts] at hmem
    rcases List.mem_append.mp hmem with hmem | hmem
    · exact hold hmem
    · obtain rfl := List.mem_singleton.mp hmem
      exact List.mem_append_right _ (List.mem_singleton_self _)

/-- **The step lemma.** -/
theorem InOrder.step (hengine : Base64Engine lib.base64 decode) (h : InOrder lib decode c t)
    (harrived : Arrived c t) (hs : (traced decode c).step t a = some t') : InOrder lib decode c t' := by
  obtain ⟨hstep, harr, -, hletters⟩ := traced_step hs
  have hevents := lettered_step decode hstep
  have hgrows : t.arrived ⊆ t'.arrived := by
    rw [harr]
    exact List.subset_append_left _ _
  constructor
  case follows => exact h.follows_step hengine harrived hgrows hletters hevents
  case publishing => exact fun _ _ _ hpc => h.publishing_step hletters hevents hpc
  case settling => exact fun _ _ _ _ hpc => h.settling_step hletters hevents hpc
  case receipts => exact h.receipts_step hletters hevents

end

/-- Every ack that was sent was asked for, or follows the receipt of a dead letter. -/
def AcksFollow (s : State) : Prop :=
  ∀ messageId cumulative, .ack messageId cumulative ∈ s.sent →
    (messageId, cumulative) ∈ s.acked ∨ cumulative = false ∧ messageId ∈ s.deadLettered

theorem sent_step {messageId : MessageIdData} {cumulative : Bool} (hs : step c s a = some s')
    (hmem : .ack messageId cumulative ∈ s'.sent) :
    .ack messageId cumulative ∈ s.sent ∨ ∃ resume, s.pc = .acking messageId cumulative resume := by
  cases step_moves hs with
  | granted =>
    rcases List.mem_append.mp hmem with hmem | hmem
    · exact Or.inl hmem
    · exact absurd (List.mem_singleton.mp hmem) Command.noConfusion
  | acked hpc =>
    rename_i resume ok
    cases ok with
    | false => exact Or.inl hmem
    | true =>
      rcases List.mem_append.mp hmem with hmem | hmem
      · exact Or.inl hmem
      · cases List.mem_singleton.mp hmem
        exact Or.inr ⟨resume, hpc⟩
  | asked hpc =>
    rename_i ok
    cases ok with
    | false => exact Or.inl hmem
    | true =>
      rcases List.mem_append.mp hmem with hmem | hmem
      · exact Or.inl hmem
      · exact absurd (List.mem_singleton.mp hmem) Command.noConfusion
  | reported | unpublished =>
    rw [(local_push _ _ _).sent] at hmem
    exact Or.inl hmem
  | item =>
    rw [(local_item _ _ _).sent] at hmem
    exact Or.inl hmem
  | next hpc hev =>
    rename_i e events
    rw [(log_handle (handle_cases c { s with events } e)).2] at hmem
    exact Or.inl hmem
  | _ => exact Or.inl hmem

/-- Reasons do not go away. -/
theorem reasons_step (hs : step c s a = some s') :
    s.acked ⊆ s'.acked ∧ s.deadLettered ⊆ s'.deadLettered := by
  cases ackStep hs with
  | quiet h =>
    rw [h.acked, h.deadLettered]
    exact ⟨List.Subset.refl _, List.Subset.refl _⟩
  | asked => exact ⟨List.subset_append_left _ _, List.Subset.refl _⟩
  | published => exact ⟨List.Subset.refl _, List.subset_append_left _ _⟩
  | taken | sent => exact ⟨List.Subset.refl _, List.Subset.refl _⟩

theorem AcksFollow.step (h : AcksFollow s) (hpending : Pending s) (hs : step c s a = some s') :
    AcksFollow s' := by
  obtain ⟨hacked, hdead⟩ := reasons_step hs
  intro messageId cumulative hmem
  have hreason : (messageId, cumulative) ∈ s.acked ∨
      cumulative = false ∧ messageId ∈ s.deadLettered := by
    rcases sent_step hs hmem with hmem | ⟨resume, hpc⟩
    · exact h messageId cumulative hmem
    · exact hpending.sending messageId cumulative resume hpc
  rcases hreason with hasked | ⟨hsingle, hletter⟩
  · exact Or.inl (hacked hasked)
  · exact Or.inr ⟨hsingle, hdead hletter⟩

end

/-! ## Along every run -/

/-- What is known of a run. -/
structure Known (lib : Libraries) (decode : String → Option Bytes) (c : Config) (t : Traced) : Prop where
  arrived : Arrived c t
  inOrder : InOrder lib decode c t
  pending : Pending t.consumer
  acksFollow : AcksFollow t.consumer

theorem known_init (lib : Libraries) (decode : String → Option Bytes) (c : Config) (n : Int) :
    Known lib decode c { consumer := { remainingMessages := n } } where
  arrived := by
    refine ⟨fun m hmem => absurd hmem List.not_mem_nil, ?_⟩
    intro redeliveryCount items hrest
    cases hrest
  inOrder := by
    refine ⟨each_nil, ?_, ?_, fun m hmem => absurd hmem List.not_mem_nil⟩
    · intro messageId redeliveryCount rest hpc
      cases hpc
    · intro messageId cumulative redeliveryCount rest hpc
      cases hpc
  pending := pending_init n
  acksFollow := fun messageId cumulative hmem => absurd hmem List.not_mem_nil

/-- **Dead letters keep their order**: a message of an entry that was delivered too often is published,
and says what it said; the engine acknowledges the original behind the receipt, and sends no other ack
but those that the application asked for. -/
theorem letters_follow (lib : Libraries) (decode : String → Option Bytes) (c : Config)
    (hengine : Base64Engine lib.base64 decode) {t : Traced} (hreach : (traced decode c).Reach t) :
    Each (Follows lib decode c t.arrived) t.letters ∧
      ∀ messageId cumulative, Command.ack messageId cumulative ∈ t.consumer.sent →
        (messageId, cumulative) ∈ t.consumer.acked ∨
          cumulative = false ∧ LetterEvent.receipt messageId ∈ t.letters := by
  have hknown : Known lib decode c t := by
    refine hreach.inv (Known lib decode c) ?_ ?_
    · rintro _ rfl
      exact known_init lib decode c _
    · intro t a t' h _ hs
      exact ⟨h.arrived.step hs, h.inOrder.step hengine h.arrived hs, h.pending.step (traced_step hs).1,
        h.acksFollow.step h.pending (traced_step hs).1⟩
  refine ⟨hknown.inOrder.follows, fun messageId cumulative hmem => ?_⟩
  rcases hknown.acksFollow messageId cumulative hmem with hasked | ⟨hsingle, hletter⟩
  · exact Or.inl hasked
  · exact Or.inr ⟨hsingle, hknown.inOrder.receipts messageId hletter⟩

/-- The first message of a pair is published, and acknowledged behind its receipt. -/
theorem letters_follow_pair : ∃ t, (traced Base64.decode onceMore).Reach t ∧
    t.letters = [.publish (ofPair 0) "dlq"
      (deadLetter Base64.decode "t" (ofPair 0)
        { metadata := { numMessagesInBatch := some 2 }, data := [7] }),
      .receipt (ofPair 0), .ack (ofPair 0) true] ∧
    t.consumer.sent = [.ack (ofPair 0) false] ∧ t.consumer.acked = [] ∧
    Each (Follows { threeLibraries with base64 := Base64.encode } Base64.decode onceMore t.arrived)
      t.letters := by
  obtain ⟨t, hreach, h⟩ := Sys.exists_reach_of_exec (S := traced Base64.decode onceMore)
    (p := fun t => decide (
      t.letters = [.publish (ofPair 0) "dlq"
        (deadLetter Base64.decode "t" (ofPair 0)
          { metadata := { numMessagesInBatch := some 2 }, data := [7] }),
        .receipt (ofPair 0), .ack (ofPair 0) true] ∧
      t.consumer.sent = [.ack (ofPair 0) false] ∧ t.consumer.acked = []))
    (s := { consumer := { remainingMessages := 1000 } }) rfl
    [.arrive (some pairAgain), .top false, .flow none, .next, .item, .published none, .sent true]
    (by decide +kernel)
  obtain ⟨hletters, hsent, hacked⟩ := of_decide_eq_true h
  have hfollow := letters_follow { threeLibraries with base64 := Base64.encode } Base64.decode onceMore
    base64Engine hreach
  exact ⟨t, hreach, hletters, hsent, hacked, hfollow.1⟩

/-- A message whose key is flagged as base64, and is not. -/
def misflagged : PulsarClient.Message :=
  { pairAgain with
    payload := some
      { metadata := { partitionKey := some "%", partitionKeyB64Encoded := some true }, data := [7] } }

/-- The dead letter of such a message keeps the text of the key, and not the flag. -/
theorem flag_dropped : ∃ t m, (traced Base64.decode onceMore).Reach t ∧
    t.arrived = [.Message (some misflagged)] ∧
    t.letters = [.publish { ledgerId := 1, entryId := 0 } "dlq" m] ∧
    ¬ (wireKey { threeLibraries with base64 := Base64.encode } m).Equivalent
      { partitionKey := some "%", partitionKeyB64Encoded := some true, nullPartitionKey := none } := by
  let m := deadLetter Base64.decode "t" { ledgerId := 1, entryId := 0 }
    { metadata := { partitionKey := some "%", partitionKeyB64Encoded := some true }, data := [7] }
  obtain ⟨t, hreach, h⟩ := Sys.exists_reach_of_exec (S := traced Base64.decode onceMore)
    (p := fun t => decide (t.arrived = [.Message (some misflagged)] ∧
      t.letters = [.publish { ledgerId := 1, entryId := 0 } "dlq" m]))
    (s := { consumer := { remainingMessages := 1000 } }) rfl
    [.arrive (some misflagged), .top false, .flow none, .next, .item] (by decide +kernel)
  obtain ⟨harrived, hletters⟩ := of_decide_eq_true h
  refine ⟨t, m, hreach, harrived, hletters, fun hequivalent => ?_⟩
  exact absurd hequivalent.partitionKeyB64Encoded (by decide +kernel)

end PulsarClient.Consumer.Letters
