/-
  WHAT BECOMES OF THE MESSAGES OF AN ENTRY that was delivered too often.

  The loop of `process_payload` publishes them one by one to the dead-letter topic, and acknowledges each
  original after its receipt.  A publish that fails leaves the loop through `?`: the error is told to the
  application, and the messages behind the one that failed are dropped with the entry.

  1. `Accounted` — every message that the start filter lets through is handed to the application,
     dead-lettered and acknowledged, told as an error, or still to come.

  2. `letter_step` — the balance of one step, with what it loses; and `accounted_iff`, the exact
     condition: a publish that fails is the last one of its entry, and the connection takes the acks.
-/
import PulsarClient.Consumer.Suffix

namespace PulsarClient.Consumer.Letters

open Runs Proto
open Suffix (pairAgain)

/-! ## Accounts -/

/-- Dead-lettered and acknowledged. -/
def settled (letters : List LetterEvent) : List MessageIdData :=
  letters.filterMap fun
    | .ack messageId true => some messageId
    | _ => none

/-- Failed, which the application is told. -/
def reported (letters : List LetterEvent) : List MessageIdData :=
  letters.filterMap fun
    | .failed messageId => some messageId
    | _ => none

/-- The dead letter that the engine is working on. -/
def inHand : Pc → List MessageIdData
  | .publishing messageId _ _ => [messageId]
  | .acking messageId _ (.payload _ _) => [messageId]
  | _ => []

/-- No message of an entry is skipped, but for those that the start position filters: as many as have
    arrived have been handed to the application, dead-lettered and acknowledged, or reported, or are
    still to come. -/
def Accounted (c : Config) (s : Traced) : Prop :=
  s.consumer.dropped = false →
    ∀ messageId, isBeforeStartMessage c.topic c.options messageId = false →
      ((s.arrived.flatMap (Event.messages c)).map Prod.snd).count messageId =
        s.handed.count messageId + (settled s.letters).count messageId +
          (reported s.letters).count messageId + (inHand s.consumer.pc).count messageId +
          ((toCome c s.consumer).map Prod.snd).count messageId

/-- A publish fails only where nothing is left of the entry but what the start position filters, and the
    ack of a dead letter is taken. -/
def Spares (c : Config) (s : Traced) (a : Action) : Prop :=
  s.consumer.dropped = true ∨
    match a, s.consumer.pc with
    | .published (some _), .publishing _ _ rest =>
      ∀ item ∈ rest, isBeforeStartMessage c.topic c.options item.1 = true
    | .sent false, .acking _ _ (.payload _ _) => False
    | _, _ => True

/-! ## The balance of a step -/

/-- What a step loses sight of. -/
def lost (s : State) : Action → List MessageIdData
  | .published (some _) =>
    match s.pc with
    | .publishing _ _ rest => rest.map Prod.fst
    | _ => []
  | .sent false =>
    match s.pc with
    | .acking messageId _ (.payload _ _) => [messageId]
    | _ => []
  | _ => []

/-- What a step is done with, and what was in hand, is handed on, settled, reported, in hand, or lost. -/
def Balances (decode : String → Option Bytes) (c : Config) (s s' : State) (a : Action)
    (messageId : MessageIdData) : Prop :=
  (inHand s.pc).count messageId + ((done c s a).map Prod.snd).count messageId =
    (deliveries c s a).count messageId +
      (settled (letterEvents decode c s a)).count messageId +
      (reported (letterEvents decode c s a)).count messageId +
      (inHand s'.pc).count messageId + (lost s a).count messageId

section

variable {decode : String → Option Bytes} {c : Config} {s s' : State} {a : Action}
  {messageId id : MessageIdData} {redeliveryCount : Option Nat}
  {items rest : List (MessageIdData × Payload)}

theorem lost_unpublished {err : Error} (hpc : s.pc = .publishing id redeliveryCount rest) :
    lost s (.published (some err)) = rest.map Prod.fst := by
  simp only [lost, hpc]

theorem lost_sent {cumulative : Bool}
    (hpc : s.pc = .acking id cumulative (.payload redeliveryCount rest)) :
    lost s (.sent false) = [id] := by
  simp only [lost, hpc]

theorem lost_sent_top {cumulative ok : Bool} (hpc : s.pc = .acking id cumulative .top) :
    lost s (.sent ok) = [] := by
  cases ok with
  | true => rfl
  | false => simp only [lost, hpc]

theorem lost_asked {messageIds : List MessageIdData} {ticker ok : Bool}
    (hpc : s.pc = .redelivering messageIds ticker) : lost s (.sent ok) = [] := by
  cases ok with
  | true => rfl
  | false => simp only [lost, hpc]

theorem inHand_push (d : Delivery) (resume : Resume) : inHand (s.push c d resume).pc = [] := by
  rcases pc_push (c := c) s d resume with ⟨-, h⟩ | h | h
  · rw [h]
    rfl
  · rw [h]
    rfl
  · rw [h]
    cases resume with
    | top => rfl
    | payload => rfl

theorem inHand_handle {e : Event} (h : Handles c s e s') : inHand s'.pc = [] := by
  cases h with
  | broken => exact inHand_push _ _
  | _ => rfl

/-- One round of the loop: a message that the filter lets through is handed on, or is a dead letter. -/
theorem letter_item (hdropped : s.dropped = false)
    (hpasses : isBeforeStartMessage c.topic c.options messageId = false)
    (hpc : s.pc = .payload redeliveryCount items) :
    ((done c s .item).map Prod.snd).count messageId =
      (deliveries c s .item).count messageId +
        (inHand (s.item c redeliveryCount items).pc).count messageId := by
  cases items with
  | nil =>
    unfold done deliveries
    rw [hpc]
    rfl
  | cons item rest =>
    obtain ⟨id, payload⟩ := item
    rw [done_cons hdropped hpc, deliveries_cons hpc, hdropped, item_cons]
    cases hbefore : isBeforeStartMessage c.topic c.options id with
    | true =>
      have hne : id ≠ messageId := by
        rintro rfl
        exact Bool.false_ne_true (hpasses.symm.trans hbefore)
      rw [if_pos (Or.inl rfl), if_pos rfl]
      exact List.count_eq_zero_of_not_mem fun hmem => hne (List.mem_singleton.mp hmem).symm
    | false =>
      rw [if_neg Bool.false_ne_true]
      cases hdead : c.deadLetters redeliveryCount with
      | true =>
        rw [if_pos (Or.inr (Or.inl rfl)), if_pos rfl, List.count_nil, Nat.zero_add]
        rfl
      | false =>
        rw [if_neg (by simp), if_neg Bool.false_ne_true, inHand_push, List.count_nil, Nat.add_zero]
        rfl

/-- The loop itself settles nothing. -/
theorem letterEvents_item : settled (letterEvents decode c s .item) = [] ∧
    reported (letterEvents decode c s .item) = [] := by
  simp only [letterEvents]
  split
  · split
    · exact ⟨rfl, rfl⟩
    · exact ⟨rfl, rfl⟩
  · exact ⟨rfl, rfl⟩

theorem balances_item (hdropped : s.dropped = false)
    (hpasses : isBeforeStartMessage c.topic c.options messageId = false)
    (hpc : s.pc = .payload redeliveryCount items) :
    Balances decode c s (s.item c redeliveryCount items) .item messageId := by
  have hnone : inHand s.pc = [] := by
    rw [hpc]
    rfl
  unfold Balances
  rw [hnone, letterEvents_item.1, letterEvents_item.2, letter_item hdropped hpasses hpc]
  show 0 + _ = _ + 0 + 0 + _ + 0
  omega

/-- The receipt: the message stays in hand, for its ack. -/
theorem balances_published (hpc : s.pc = .publishing id redeliveryCount rest)
    (hpc' : s'.pc = .acking id false (.payload redeliveryCount rest)) :
    Balances decode c s s' (.published none) messageId := by
  unfold Balances
  rw [letterEvents_published hpc, hpc, hpc']
  show [id].count messageId + 0 = 0 + 0 + 0 + [id].count messageId + 0
  omega

/-- The failure: the message is reported, the rest of the entry is lost. -/
theorem balances_unpublished {err : Error} (hpc : s.pc = .publishing id redeliveryCount rest)
    (hin : inHand s'.pc = []) : Balances decode c s s' (.published (some err)) messageId := by
  have hdone : (done c s (.published (some err))).map Prod.snd = rest.map Prod.fst := by
    simp only [done, hpc, Pc.messages, List.map_map]
    rfl
  unfold Balances
  rw [letterEvents_unpublished hpc, hdone, lost_unpublished hpc, hpc, hin]
  show [id].count messageId + _ = 0 + 0 + [id].count messageId + 0 + _
  omega

/-- The ack: the message is settled, if the connection takes it. -/
theorem balances_sent {cumulative ok : Bool}
    (hpc : s.pc = .acking id cumulative (.payload redeliveryCount rest))
    (hpc' : s'.pc = .payload redeliveryCount rest) :
    Balances decode c s s' (.sent ok) messageId := by
  unfold Balances
  rw [letterEvents_sent hpc, hpc, hpc']
  cases ok with
  | true =>
    show [id].count messageId + 0 = 0 + [id].count messageId + 0 + 0 + 0
    omega
  | false =>
    rw [lost_sent hpc]
    show [id].count messageId + 0 = 0 + 0 + 0 + 0 + [id].count messageId
    omega

/-- A step that has nothing to do with the messages of an entry. -/
theorem balances_same (hin : inHand s'.pc = inHand s.pc) (hdone : done c s a = [])
    (hdeliveries : deliveries c s a = []) (hletters : letterEvents decode c s a = [])
    (hlost : lost s a = []) : Balances decode c s s' a messageId := by
  unfold Balances
  rw [hin, hdone, hdeliveries, hletters, hlost]
  show (inHand s.pc).count messageId + 0 = 0 + 0 + 0 + (inHand s.pc).count messageId + 0
  omega

/-- **The balance of a step.** -/
theorem letter_step (decode : String → Option Bytes) (hdropped : s.dropped = false)
    (hpasses : isBeforeStartMessage c.topic c.options messageId = false)
    (hs : step c s a = some s') : Balances decode c s s' a messageId := by
  -- the engine is not at a message, and does not get to one
  have hidle : inHand s.pc = [] → inHand s'.pc = [] → inHand s'.pc = inHand s.pc :=
    fun h h' => h'.trans h.symm
  cases step_moves hs with
  | top hpc =>
    rename_i lost
    refine balances_same (hidle (by rw [hpc]; rfl) ?_) rfl rfl rfl rfl
    cases lost with
    | true => rfl
    | false => rfl
  | reconnected hpc =>
    rename_i closed
    refine balances_same (hidle (by rw [hpc]; rfl) ?_) rfl rfl rfl rfl
    cases closed with
    | true => rfl
    | false => rfl
  | reported hpc =>
    exact balances_same (hidle (by rw [hpc]; rfl) (inHand_push _ _)) rfl rfl rfl rfl
  | refused hpc hwants hpc' =>
    refine balances_same (hidle (by rw [hpc]; rfl) ?_) rfl rfl rfl rfl
    rcases hpc' with rfl | rfl
    · rfl
    · rfl
  | stopped hpc | granted hpc | enough hpc | timeout hpc =>
    exact balances_same (hidle (by rw [hpc]; rfl) rfl) rfl rfl rfl rfl
  | next hpc =>
    refine balances_same (hidle (by rw [hpc]; rfl) ?_) rfl rfl rfl rfl
    exact inHand_handle (handle_cases c _ _)
  | item hpc => exact balances_item hdropped hpasses hpc
  | published hpc => exact balances_published hpc rfl
  | unpublished hpc => exact balances_unpublished hpc (inHand_push _ _)
  | acked hpc =>
    rename_i id cumulative resume ok
    cases resume with
    | top =>
      exact balances_same (hidle (by rw [hpc]; rfl) rfl) rfl rfl (letterEvents_sent_top hpc)
        (lost_sent_top hpc)
    | payload redeliveryCount rest => exact balances_sent hpc rfl
  | asked hpc =>
    exact balances_same (hidle (by rw [hpc]; rfl) rfl) rfl rfl (letterEvents_asked hpc) (lost_asked hpc)
  | unparked hwaiting hdropped hmessages hpc | released hwaiting hdropped hpc =>
    rename_i resume
    refine balances_same (hidle (by rw [hpc]; rfl) ?_) rfl rfl rfl rfl
    cases resume with
    | top => rfl
    | payload => rfl
  | arrive | forward | forwardEnd | read | ack | nack | getConnection | dropRequest | dropConsumer
  | tick | clock =>
    exact balances_same rfl rfl rfl rfl rfl

/-- A dead letter in the making is one that the start filter lets through. -/
def InHandPasses (c : Config) (s : State) : Prop :=
  ∀ messageId ∈ inHand s.pc, isBeforeStartMessage c.topic c.options messageId = false

theorem InHandPasses.step (h : InHandPasses c s) (hs : step c s a = some s') : InHandPasses c s' := by
  intro messageId hmem
  cases hpc' : s'.pc with
  | publishing id redeliveryCount rest =>
    rw [hpc'] at hmem
    obtain rfl := List.mem_singleton.mp hmem
    rcases publishing_step hs hpc' with hpc | ⟨-, -, -, hpasses, -⟩
    · exact h messageId (by rw [hpc]; exact hmem)
    · exact hpasses
  | acking id cumulative resume =>
    rw [hpc'] at hmem
    cases resume with
    | top => exact absurd hmem List.not_mem_nil
    | payload redeliveryCount rest =>
      obtain rfl := List.mem_singleton.mp hmem
      rcases settling_step hs hpc' with hpc | ⟨-, hpc⟩
      · exact h messageId (by rw [hpc]; exact hmem)
      · exact h messageId (by rw [hpc]; exact hmem)
  | _ =>
    rw [hpc'] at hmem
    exact absurd hmem List.not_mem_nil

/-- Nothing that matters is lost, exactly if the step meets the condition. -/
theorem spares_iff {t : Traced} (h : InHandPasses c t.consumer) (hdropped : t.consumer.dropped = false)
    (hs : step c t.consumer a = some s') :
    Spares c t a ↔ ∀ messageId ∈ lost t.consumer a,
      isBeforeStartMessage c.topic c.options messageId = true := by
  have hnothing : lost t.consumer a = [] → ∀ messageId ∈ lost t.consumer a,
      isBeforeStartMessage c.topic c.options messageId = true := by
    intro hnone messageId hmem
    rw [hnone] at hmem
    exact absurd hmem List.not_mem_nil
  cases a with
  | published err =>
    cases err with
    | none => exact ⟨fun _ => hnothing rfl, fun _ => Or.inr trivial⟩
    | some err =>
      cases step_moves hs with
      | unpublished hpc =>
        simp only [Spares, hdropped, hpc, lost_unpublished hpc, Bool.false_eq_true, false_or, List.mem_map]
        constructor
        · rintro hrest messageId ⟨item, hitem, rfl⟩
          exact hrest item hitem
        · exact fun hrest item hitem => hrest item.1 ⟨item, hitem, rfl⟩
  | sent ok =>
    cases ok with
    | true => exact ⟨fun _ => hnothing rfl, fun _ => Or.inr trivial⟩
    | false =>
      cases step_moves hs with
      | acked hpc =>
        rename_i id cumulative resume
        cases resume with
        | top =>
          refine ⟨fun _ => hnothing (lost_sent_top hpc), fun _ => Or.inr ?_⟩
          simp only [hpc]
        | payload redeliveryCount rest =>
          have hpasses : isBeforeStartMessage c.topic c.options id = false := by
            refine h id ?_
            rw [hpc]
            exact List.mem_singleton_self id
          simp only [Spares, hdropped, hpc, lost_sent hpc, Bool.false_eq_true, false_or, List.mem_singleton,
            forall_eq, hpasses]
      | asked hpc =>
        refine ⟨fun _ => hnothing (lost_asked hpc), fun _ => Or.inr ?_⟩
        simp only [hpc]
  | _ => exact ⟨fun _ => hnothing rfl, fun _ => Or.inr trivial⟩

/-- What is lost is not lost by dropping the consumer. -/
theorem dropped_of_lost (hlost : lost s a ≠ []) (hs : step c s a = some s') :
    s'.dropped = s.dropped := by
  cases step_moves hs with
  | unpublished => exact (local_push s _ _).dropped
  | acked | asked => rfl
  | _ => exact absurd rfl hlost

/-- What has been accounted for after a step, but for what it loses. -/
theorem balance {t t' : Traced} (hdropped : t.consumer.dropped = false) (hP : Accounted c t)
    (hs : (traced decode c).step t a = some t')
    (hpasses : isBeforeStartMessage c.topic c.options messageId = false) :
    ((t'.arrived.flatMap (Event.messages c)).map Prod.snd).count messageId =
      t'.handed.count messageId + (settled t'.letters).count messageId +
        (reported t'.letters).count messageId + (inHand t'.consumer.pc).count messageId +
        ((toCome c t'.consumer).map Prod.snd).count messageId +
        (lost t.consumer a).count messageId := by
  obtain ⟨hstep, harrived, hhanded, hletters⟩ := traced_step hs
  have hbefore := hP hdropped messageId hpasses
  have hflow := congrArg (fun l => (l.map Prod.snd).count messageId) (flow_step (c := c) hstep)
  have hletter := letter_step decode hdropped hpasses hstep
  have hsettled : settled t'.letters =
      settled t.letters ++ settled (letterEvents decode c t.consumer a) := by
    rw [hletters]
    exact List.filterMap_append
  have hreported : reported t'.letters =
      reported t.letters ++ reported (letterEvents decode c t.consumer a) := by
    rw [hletters]
    exact List.filterMap_append
  unfold Balances at hletter
  rw [harrived, hhanded, hsettled, hreported]
  simp only [List.flatMap_append, List.map_append, List.count_append] at hflow ⊢
  omega

/-- **The step lemma.**  A step leaves every message accounted for, exactly if it meets the condition. -/
theorem accounted_step {t t' : Traced} (h : InHandPasses c t.consumer) (hP : Accounted c t)
    (hs : (traced decode c).step t a = some t') : Accounted c t' ↔ Spares c t a := by
  obtain ⟨hstep, harrived, hhanded, hletters⟩ := traced_step hs
  cases hdropped : t.consumer.dropped with
  | true =>
    have hdropped' := dropped_moves (step_moves hstep) hdropped
    refine ⟨fun _ => Or.inl hdropped, fun _ hnot => ?_⟩
    rw [hdropped'] at hnot
    cases hnot
  | false =>
    rw [spares_iff h hdropped hstep]
    constructor
    · intro hP' messageId hmem
      -- a message that passes and is lost is missing from the account
      by_contra hpasses
      have hpasses := Bool.not_eq_true _ ▸ hpasses
      have hdropped' := dropped_of_lost (List.ne_nil_of_mem hmem) hstep
      have hafter := hP' (hdropped'.trans hdropped) messageId hpasses
      have hbalance := balance hdropped hP hs hpasses
      have hcount : 0 < (lost t.consumer a).count messageId := List.count_pos_iff.mpr hmem
      omega
    · intro hlost _ messageId hpasses
      have hbalance := balance hdropped hP hs hpasses
      have hnone : (lost t.consumer a).count messageId = 0 := by
        refine List.count_eq_zero_of_not_mem fun hmem => ?_
        exact Bool.false_ne_true (hpasses.symm.trans (hlost messageId hmem))
      omega

end

/-- **Which runs account for every message of an entry**: those that meet the condition at every step. -/
theorem accounted_iff (decode : String → Option Bytes) (c : Config) (as : List Action) :
    (traced decode c).Along (Accounted c) { consumer := { remainingMessages := c.batchSize } } as ↔
      (traced decode c).Guarded (Spares c) { consumer := { remainingMessages := c.batchSize } } as := by
  apply Sys.along_iff_guarded (I := fun t => InHandPasses c t.consumer)
  · intro t a t' h hs
    exact h.step (traced_step hs).1
  · intro t a t' h hP hs
    exact accounted_step h hP hs
  · intro messageId hmem
    exact absurd hmem List.not_mem_nil
  · intro _ messageId _
    rfl

/-- A consumer of pairs that gives an entry one redelivery. -/
def onceMore : Config :=
  { bytewise with deadLetterPolicy := some { maxRedeliverCount := 1, deadLetterTopic := "dlq" } }

/-- The message of a pair. -/
def ofPair (index : Int) : MessageIdData :=
  { ledgerId := 1, entryId := 0, batchIndex := some index, batchSize := some 2 }

/-- Publishing the first message of a pair fails.  The second is not handed to the application, not
dead-lettered and not reported; and nothing is to come. -/
theorem second_swallowed : ∃ s, (traced Base64.decode onceMore).Reach s ∧
    (s.arrived.flatMap (Event.messages onceMore)).map Prod.snd = [ofPair 0, ofPair 1] ∧
    s.handed = [] ∧ settled s.letters = [] ∧ reported s.letters = [ofPair 0] ∧
    toCome onceMore s.consumer = [] ∧ ¬ Accounted onceMore s := by
  obtain ⟨s, hreach, h⟩ := Sys.exists_reach_of_exec (S := traced Base64.decode onceMore)
    (p := fun s => decide (
      (s.arrived.flatMap (Event.messages onceMore)).map Prod.snd = [ofPair 0, ofPair 1] ∧
      s.handed = [] ∧ settled s.letters = [] ∧ reported s.letters = [ofPair 0] ∧
      toCome onceMore s.consumer = [] ∧ s.consumer.dropped = false ∧ s.consumer.pc = .top))
    (s := { consumer := { remainingMessages := 1000 } }) rfl
    [.arrive (some pairAgain), .top false, .flow none, .next, .item,
      .published (some (.Custom "DLQ send error"))]
    (by decide +kernel)
  obtain ⟨harrived, hhanded, hsettled, hreported, hnone, hdropped, hpc⟩ := of_decide_eq_true h
  refine ⟨s, hreach, harrived, hhanded, hsettled, hreported, hnone, fun haccounted => ?_⟩
  have hcount := haccounted hdropped (ofPair 1) (by decide +kernel)
  rw [harrived, hhanded, hsettled, hreported, hnone, hpc] at hcount
  exact absurd hcount (by decide)

end PulsarClient.Consumer.Letters
