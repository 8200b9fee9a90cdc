/-
  FLOW CONTROL — does `remaining_messages` count what the broker may still send?

  The broker sends a consumer as many messages as it has PERMITS.  The first `batch_size` of them are
  granted in `retry_subscribe_consumer`, the others by the engine when `remaining_messages` is low; it
  takes `num_messages_in_batch`, or one, off for every broker message in its queue.

  1. `ledger` — from the log: the permits granted on the current subscription, and the messages
     received on it.

  2. `Conserved` — at the top of the loop, `remaining_messages` is the difference.

  3. `countsRight` — when the counter keeps in step: what is taken is a message of the current
     subscription (or ends the topic, or the subscription), and a reconnect for a `CloseConsumer`
     succeeds.  An `ActiveConsumerChange` breaks it (`change_is_counted`).

  4. `permits_conserved` — then the difference is kept, and no `Flow` is cut by the cast to `u32`.
-/
import PulsarClient.Consumer.SessionInvariant

namespace PulsarClient.Consumer

open Runs Proto

/-! ## The ledger -/

/-- The account of the current subscription. -/
structure Ledger where
  source : Nat
  granted : Int
  received : Int
  deriving DecidableEq, Repr

/-- The messages that a broker message carries: `num_messages_in_batch`, or one; none for a command of
    another kind. -/
def messagesIn (m : PulsarClient.Message) : Int :=
  if m.command.message.isSome then (m.payload.bind fun p => p.metadata.numMessagesInBatch).getD 1
  else 0

def Ledger.enter (l : Ledger) : Note → Ledger
  | .subscribed source _ => { source, granted := 0, received := 0 }
  | .granted messagePermits => { l with granted := l.granted + messagePermits }
  | .received source m =>
    if source = l.source then { l with received := l.received + messagesIn m } else l

def ledger (log : List Note) : Ledger :=
  log.foldl Ledger.enter { source := 0, granted := 0, received := 0 }

/-- The permits that are left. -/
def Ledger.balance (l : Ledger) : Int := l.granted - l.received

/-- At the top of the loop, the counter is the balance. -/
def Conserved (s : Session) : Prop :=
  s.consumer.pc = .top → (ledger s.log).balance = s.consumer.remainingMessages

/-! ## The condition -/

/-- The broker message that is taken ends the topic or the subscription, or it is a message of the
    current subscription, or takes nothing off; and a reconnect for a `CloseConsumer` does not fail. -/
def countsRight (c : Settings) (s : Session) : SessionAction → Bool
  | .next =>
    match s.consumer.events, s.origins with
    | .Message (some m) :: _, some source :: _ =>
      Event.reachesEnd (.Message (some m)) || Event.closes (.Message (some m)) ||
        (m.command.message.isSome && source == (ledger s.log).source) ||
        decide (Event.permits (.Message (some m)) = 0)
    | _, _ => true
  | a => !(decide (s.consumer.pc = .reconnecting true) && s.abandons c a)

section

variable {c : Settings} {s s' : Session} {log : List Note}

@[simp] theorem ledger_concat (n : Note) : ledger (log ++ [n]) = (ledger log).enter n := by
  unfold ledger
  rw [List.foldl_append]
  rfl

/-- What is right to take off is what is taken off. -/
theorem balance_received {m : PulsarClient.Message} {source : Nat}
    (hok : (m.command.message.isSome && source == (ledger log).source) = true ∨
      Event.permits (.Message (some m)) = 0) :
    (ledger (log ++ [.received source m])).balance =
      (ledger log).balance - Event.permits (.Message (some m)) := by
  have henter : (ledger log).enter (.received source m) =
      if source = (ledger log).source then
        { ledger log with received := (ledger log).received + messagesIn m }
      else ledger log := rfl
  rw [ledger_concat, henter]
  rcases hok with hok | hok
  · obtain ⟨hmessage, hsource⟩ := Bool.and_eq_true_iff.mp hok
    have hmessages : messagesIn m = Event.permits (.Message (some m)) := if_pos hmessage
    rw [if_pos (beq_iff_eq.mp hsource), hmessages]
    show (ledger log).granted - ((ledger log).received + _) =
      (ledger log).granted - (ledger log).received - _
    omega
  · have hmessages : messagesIn m = 0 := by
      unfold messagesIn
      split
      · exact hok
      · rfl
    rw [hok, hmessages, Int.add_zero, Int.sub_zero]
    split
    · rfl
    · rfl

theorem countsRight_next {m : PulsarClient.Message} {source : Nat} {rest : List Event}
    {origins : List (Option Nat)} (hev : s.consumer.events = .Message (some m) :: rest)
    (ho : s.origins = some source :: origins) (hok : countsRight c s .next = true) :
    Event.reachesEnd (.Message (some m)) = true ∨ Event.closes (.Message (some m)) = true ∨
      (m.command.message.isSome && source == (ledger s.log).source) = true ∨
      Event.permits (.Message (some m)) = 0 := by
  simp only [countsRight, hev, ho, Bool.or_eq_true, decide_eq_true_eq] at hok
  rcases hok with ((h | h) | h) | h
  · exact Or.inl h
  · exact Or.inr (Or.inl h)
  · exact Or.inr (Or.inr (Or.inl h))
  · exact Or.inr (Or.inr (Or.inr h))

/-! ## The invariant -/

structure PermitsInv (c : Settings) (s : Session) : Prop where
  /-- the engine is in its loop -/
  balance : s.consumer.pc.live → (ledger s.log).balance = s.consumer.remainingMessages
  /-- the subscription is new, and no permit has been granted -/
  granting : s.phase = some .granting → (ledger s.log).granted = 0 ∧ (ledger s.log).received = 0
  /-- one broker message takes less than `2 ^ 31` off -/
  low : ((c.consumer.batchSize + 1) / 2 : Nat) - 2 ^ 31 < s.consumer.remainingMessages
  waiting : s.consumer.pc = .waiting →
    ((c.consumer.batchSize + 1) / 2 : Nat) ≤ s.consumer.remainingMessages

/-- A broker message that fits its types takes less than `2 ^ 31` off. -/
theorem permits_lt {e : Event} {origin : Option Nat} (h : Fits e origin) : e.permits < 2 ^ 31 := by
  cases e with
  | EngineMessage r =>
    show (0 : Int) < 2 ^ 31
    omega
  | Message m =>
    cases m with
    | none =>
      show (0 : Int) < 2 ^ 31
      omega
    | some m =>
      cases origin with
      | none => exact h.elim
      | some source =>
        have hm : wellTyped m = true := h
        unfold wellTyped at hm
        show (m.payload.bind fun p => p.metadata.numMessagesInBatch).getD 1 < 2 ^ 31
        split at hm
        · rename_i n hn
          rw [hn]
          exact of_decide_eq_true (Bool.and_eq_true_iff.mp hm).2
        · rename_i hn
          rw [hn]
          show (1 : Int) < 2 ^ 31
          omega

/-- **No `Flow` is cut**: what is granted is what is missing. -/
theorem permits_exact (h : PermitsInv c s) (hwants : s.consumer.wantsFlow c.consumer = true) :
    (s.permits c : Int) = c.consumer.batchSize - s.consumer.remainingMessages := by
  have hlow := h.low
  have hbatch := c.batchSize_lt
  have hlt : s.consumer.remainingMessages < ((c.consumer.batchSize + 1) / 2 : Nat) :=
    of_decide_eq_true hwants
  unfold Session.permits
  omega

/-- The permits. -/
theorem PermitsInv.flow {err : Option ConnectionError} {consumer : State} (h : PermitsInv c s)
    (hphase : s.phase ≠ none → ¬ s.consumer.pc.live)
    (hs : step c.consumer s.consumer (.flow err) = some consumer) :
    PermitsInv c { s with consumer, log := s.log ++ s.grant c err } := by
  have hlive : s.consumer.pc = .flow → s.consumer.pc.live := by
    intro hpc
    rw [hpc]
    trivial
  unfold Session.grant
  cases step_moves hs with
  | granted hpc hwants =>
    have hbalance := h.balance (hlive hpc)
    rw [if_pos ⟨hwants, rfl⟩]
    constructor
    · intro _
      rw [ledger_concat]
      show (ledger s.log).granted + (s.permits c : Int) - (ledger s.log).received =
        (c.consumer.batchSize : Int)
      rw [permits_exact h hwants]
      unfold Ledger.balance at hbalance
      omega
    · intro hgranting
      have hphase' : s.phase = some .granting := hgranting
      refine absurd (hlive hpc) (hphase ?_)
      rw [hphase']
      exact Option.some_ne_none _
    · show _ < (c.consumer.batchSize : Int)
      omega
    · intro _
      show _ ≤ (c.consumer.batchSize : Int)
      omega
  | refused hpc hwants hpc' =>
    -- nothing is sent, and the engine does not wait
    rw [if_neg (fun hn => Option.some_ne_none _ hn.2), List.append_nil]
    refine ⟨fun _ => h.balance (hlive hpc), h.granting, h.low, ?_⟩
    rintro (rfl : _ = Pc.waiting)
    rcases hpc' with hpc' | hpc' <;> cases hpc'
  | enough hpc hwants =>
    have hnot : ¬ (s.consumer.wantsFlow c.consumer = true ∧ err = none) := by
      rw [hwants]
      exact fun hn => Bool.false_ne_true hn.1
    rw [if_neg hnot, List.append_nil]
    refine ⟨fun _ => h.balance (hlive hpc), h.granting, h.low, fun _ => ?_⟩
    exact Int.not_lt.mp (of_decide_eq_false hwants)

/-- Taking an event. -/
theorem PermitsInv.next {consumer : State} (h : PermitsInv c s) (hsound : Sound s)
    (hok : countsRight c s .next = true) (hs : step c.consumer s.consumer .next = some consumer)
    (hpc : consumer.pc ≠ .reconnecting true) :
    PermitsInv c
      { s with
        consumer
        origins := s.origins.tail
        log := s.log ++ s.receipt } := by
  obtain ⟨-, hphase⟩ := hsound.next hs
  obtain ⟨e, rest, hwaiting, hev, rfl⟩ := next_step hs
  obtain ⟨origin, horigins, hfits, -⟩ := hsound.origin hev
  obtain ⟨hremaining, hleads, hend⟩ := handle_spec (handle_cases c.consumer { s.consumer with events := rest } e)
  have hbalance := h.balance (by rw [hwaiting]; trivial)
  have hhigh := h.waiting hwaiting
  have hlt := permits_lt hfits
  have hcloses : e.closes = false := by
    by_contra hcloses
    rw [Bool.not_eq_false] at hcloses
    rw [if_pos hcloses] at hleads
    exact hpc hleads
  rw [if_neg (Bool.eq_false_iff.mp hcloses)] at hleads
  have hremaining' : ({ s.consumer with events := rest }.handle c.consumer e).remainingMessages =
      s.consumer.remainingMessages - e.permits := hremaining
  constructor
  · intro hlive
    show (ledger (s.log ++ s.receipt)).balance = _
    rw [hremaining', ← hbalance]
    unfold Session.receipt
    rw [hev, horigins]
    cases e with
    | EngineMessage r =>
      cases origin with
      | none =>
        rw [List.append_nil]
        exact (Int.sub_zero _).symm
      | some source => exact hfits.elim
    | Message m =>
      cases origin with
      | none => exact hfits.elim
      | some source =>
        cases m with
        | none =>
          rw [List.append_nil]
          exact (Int.sub_zero _).symm
        | some m =>
          apply balance_received
          rcases countsRight_next hev horigins hok with hends | hcloses' | hcounts | hzero
          · -- the engine is gone
            have hlive' : ({ s.consumer with events := rest }.handle c.consumer
              (.Message (some m))).pc.live := hlive
            rw [hend hends] at hlive'
            exact hlive'.elim
          · rw [hcloses] at hcloses'
            exact absurd hcloses' Bool.false_ne_true
          · exact Or.inl hcounts
          · exact Or.inr hzero
  · intro hgranting
    exact absurd (hphase.symm.trans hgranting) (Option.some_ne_none _).symm
  · show _ < ({ s.consumer with events := rest }.handle c.consumer e).remainingMessages
    rw [hremaining']
    omega
  · intro hw
    have hw' : ({ s.consumer with events := rest }.handle c.consumer e).pc = .waiting := hw
    rw [hw'] at hleads
    exact hleads.elim

/-- Nothing moves that the permits depend on. -/
theorem PermitsInv.of_eq (h : PermitsInv c s) (hc : s'.consumer = s.consumer) (hlog : s'.log = s.log)
    (hphase : s'.phase = some .granting → s.phase = some .granting) : PermitsInv c s' := by
  constructor
  · rw [hc, hlog]
    exact h.balance
  · intro hgranting
    rw [hlog]
    exact h.granting (hphase hgranting)
  · rw [hc]
    exact h.low
  · rw [hc]
    exact h.waiting

/-- `reconnect` is under way: the balance does not matter until it is over. -/
theorem PermitsInv.begin (hpc : ¬ s.consumer.pc.live)
    (hlow : ((c.consumer.batchSize + 1) / 2 : Nat) - 2 ^ 31 < s.consumer.remainingMessages) :
    PermitsInv c s.reconnect := by
  have hframe := s.frame_reconnect
  constructor
  · rw [hframe.consumer]
    exact fun hlive => absurd hlive hpc
  · intro hgranting
    cases hgranting
  · rw [hframe.consumer]
    exact hlow
  · rw [hframe.consumer]
    intro hwaiting
    rw [hwaiting] at hpc
    exact absurd trivial hpc

/-- A new subscription has the permits of its first `Flow`. -/
theorem PermitsInv.anew {consumer : State} (h : PermitsInv c s) (hphase : s.phase = some .granting)
    (hconsumer : consumer.remainingMessages = c.consumer.batchSize) (hpc : consumer.pc ≠ .waiting) :
    PermitsInv c
      { s with
        consumer
        phase := none
        messagesRx := some s.resolver
        log := s.log ++ [.granted c.consumer.batchSize] } := by
  obtain ⟨hgranted, hreceived⟩ := h.granting hphase
  constructor
  · intro _
    rw [ledger_concat]
    show (ledger s.log).granted + (c.consumer.batchSize : Int) - (ledger s.log).received =
      consumer.remainingMessages
    omega
  · intro hgranting
    cases hgranting
  · show _ < consumer.remainingMessages
    omega
  · exact fun hwaiting => absurd hwaiting hpc

theorem not_live_of_reconnected {e : Error} {consumer : State}
    (hs : step c.consumer s.consumer (.reconnected (some e)) = some consumer)
    (hpc : s.consumer.pc ≠ .reconnecting true) :
    consumer.pc = .gone ∧ consumer.remainingMessages = s.consumer.remainingMessages := by
  cases step_moves hs with
  | stopped => exact ⟨rfl, rfl⟩
  | reported hclosed => exact absurd hclosed hpc

/-- **The step lemma**: a step that meets the condition keeps the invariant. -/
theorem PermitsInv.step {a : SessionAction} (h : PermitsInv c s) (hsound : Sound s)
    (hok : countsRight c s a = true) (hs : Turn c s a s') : PermitsInv c s' := by
  cases hs with
  | inner ha hs =>
    have hinner := inner_step ha hs
    constructor
    · intro hlive
      rw [hinner.remainingMessages]
      exact h.balance (hinner.live hlive)
    · exact h.granting
    · rw [hinner.remainingMessages]
      exact h.low
    · intro hwaiting
      rw [hinner.remainingMessages]
      exact h.waiting (hinner.waiting hwaiting)
  | arrive hsource hm => exact ⟨h.balance, h.granting, h.low, h.waiting⟩
  | lost hpc hset => exact .begin (fun hlive => hlive) h.low
  | cleared hpc hset hremoved =>
    have hlive : s.consumer.pc.live := by
      rw [hpc]
      trivial
    exact ⟨fun _ => h.balance hlive, h.granting, h.low, fun hwaiting => by cases hwaiting⟩
  | valid hpc hset =>
    have hlive : s.consumer.pc.live := by
      rw [hpc]
      trivial
    exact ⟨fun _ => h.balance hlive, h.granting, h.low, fun hwaiting => by cases hwaiting⟩
  | flow hs => exact h.flow hsound.phase hs
  | next hs hpc => exact h.next hsound hok hs hpc
  | closed hs hpc =>
    rename_i consumer
    have hlow : ((c.consumer.batchSize + 1) / 2 : Nat) - 2 ^ 31 < consumer.remainingMessages := by
      obtain ⟨e, rest, hwaiting, hev, rfl⟩ := next_step hs
      obtain ⟨origin, -, hfits, -⟩ := hsound.origin hev
      have hremaining := (handle_spec (handle_cases c.consumer { s.consumer with events := rest } e)).1
      have hremaining' : ({ s.consumer with events := rest }.handle c.consumer e).remainingMessages =
          s.consumer.remainingMessages - e.permits := hremaining
      have hhigh := h.waiting hwaiting
      have hlt := permits_lt hfits
      rw [hremaining']
      omega
    refine .begin ?_ hlow
    show ¬ consumer.pc.live
    rw [hpc]
    exact fun hlive => hlive
  | awaits ha hphase hearly =>
    refine h.of_eq rfl rfl fun hgranting => ?_
    obtain rfl := Option.some.inj hgranting
    exact absurd hearly Bool.false_ne_true
  | connected hphase =>
    rename_i connection
    have hframe := Session.frame_subscribe { s with connection, resolver := s.resolver + 1 } 0
    obtain ⟨registered, hsub⟩ :=
      Session.phase_subscribe { s with connection, resolver := s.resolver + 1 } 0
    exact h.of_eq hframe.consumer hframe.log fun hg => by cases hsub.symm.trans hg
  | retried hphase =>
    rename_i connection n
    have hframe := Session.frame_subscribe { s with connection } (n + 1)
    obtain ⟨registered, hsub⟩ := Session.phase_subscribe { s with connection } (n + 1)
    exact h.of_eq hframe.consumer hframe.log fun hg => by cases hsub.symm.trans hg
  | subscribed hphase =>
    have hlive : ¬ s.consumer.pc.live := hsound.phase (by rw [hphase]; exact Option.some_ne_none _)
    refine ⟨fun hl => absurd hl hlive, fun _ => ?_, h.low, h.waiting⟩
    rw [ledger_concat]
    exact ⟨rfl, rfl⟩
  | granted hphase hpc =>
    have hconsumer : ({ s.consumer with
        remainingMessages := c.consumer.batchSize
        pc := .flow } : State).remainingMessages = c.consumer.batchSize := rfl
    obtain ⟨hbalance, hgranting, hlow, hwaiting⟩ := h.anew hphase hconsumer Pc.noConfusion
    exact ⟨hbalance, hgranting, hlow, hwaiting⟩
  | regranted hphase hpc => exact h.anew hphase rfl Pc.noConfusion
  | abandoned ha hphase hs =>
    have hpc : s.consumer.pc ≠ .reconnecting true := by
      intro hpc
      have hfalse : countsRight c s a = false := by
        cases a with
        | next => exact absurd ha Bool.false_ne_true
        | _ => simp only [countsRight, hpc, ha, decide_true, Bool.and_self, Bool.not_true]
      rw [hfalse] at hok
      exact absurd hok Bool.false_ne_true
    obtain ⟨hgone, hremaining⟩ := not_live_of_reconnected hs hpc
    constructor
    · intro hlive
      rw [hgone] at hlive
      exact hlive.elim
    · intro hgranting
      cases hgranting
    · rw [hremaining]
      exact h.low
    · intro hwaiting
      cases hgone.symm.trans hwaiting
  | fails => exact h.of_eq rfl rfl id
  | taken => exact h.of_eq rfl rfl id
  | close =>
    have hframe := s.frame_closeConsumer ‹Nat›
    refine h.of_eq hframe.consumer hframe.log ?_
    unfold Session.closeConsumer
    split
    · exact id
    · exact id

theorem PermitsInv.init (hs : (session c).init s) : PermitsInv c s := by
  obtain rfl := hs
  constructor
  · intro _
    show (0 + (c.consumer.batchSize : Int)) - 0 = c.consumer.batchSize
    omega
  · intro hgranting
    cases hgranting
  · show _ < (c.consumer.batchSize : Int)
    omega
  · intro hwaiting
    cases hwaiting

end

/-! ## The main result -/

/-- **Headline.**  In every run whose steps all meet the condition — over any number of subscriptions,
    batches and reconnects — `remaining_messages` is, at the top of the loop, what the broker may still
    send on the current subscription. -/
theorem permits_conserved (c : Settings) (t : Session)
    (ht : (session c).ReachIf (fun s a => countsRight c s a = true) t) : Conserved t := by
  have hinv : Sound t ∧ PermitsInv c t := by
    apply ht.inv fun t => Sound t ∧ PermitsInv c t
    · exact fun s hs => ⟨sound_of_init hs, .init hs⟩
    · intro s a s' h hok hs
      exact ⟨h.1.step (turn hs), h.2.step h.1 hok (turn hs)⟩
  intro hpc
  apply hinv.2.balance
  rw [hpc]
  trivial

/-- An entry of three messages, which this consumer cannot decode. -/
def threeMessages : PulsarClient.Message where
  command := { message := some { consumerId := 0, messageId := { ledgerId := 1, entryId := 0 } } }
  payload := some { metadata := { numMessagesInBatch := some 3 }, data := [] }

/-- `ActiveConsumerChange` -/
def activeConsumerChange : PulsarClient.Message where
  command := { activeConsumerChange := some { consumerId := 0, isActive := some true } }
  payload := none

/-- An entry is taken, then the broker closes the consumer, and the engine subscribes again. -/
theorem permits_conserved_closed : ∃ t : Session, (ledger t.log).source = 1 ∧ t.consumer.pc = .top ∧
    Conserved t := by
  obtain ⟨t, ht, hp⟩ := Sys.exists_reachIf_of_execIf (S := session defaults) (countsRight defaults)
    (p := fun t => decide ((ledger t.log).source = 1) && decide (t.consumer.pc = .top))
    (s := defaults.start) rfl
    [.top, .arrive 0 (some threeMessages), .arrive 0 (some closedByBroker), .flow none, .next, .top,
      .flow none, .next, .closed, .lookedUp none, .connected (.ok 1), .subscribed none,
      .granted none] (by decide +kernel)
  obtain ⟨hsource, hpc⟩ := Bool.and_eq_true_iff.mp hp
  exact ⟨t, of_decide_eq_true hsource, of_decide_eq_true hpc, permits_conserved defaults t ht⟩

/-- An `ActiveConsumerChange` is counted as a message. -/
theorem change_is_counted :
    ¬ ∀ (c : Settings) (t : Session), (session c).Reach t → Conserved t := by
  intro hall
  obtain ⟨t, ht, hp⟩ := Sys.exists_reach_of_exec (S := session defaults)
    (p := fun t => decide (t.consumer.pc = .top) &&
      decide ((ledger t.log).balance ≠ t.consumer.remainingMessages)) (s := defaults.start) rfl
    [.top, .arrive 0 (some activeConsumerChange), .flow none, .next] (by decide +kernel)
  obtain ⟨hpc, hne⟩ := Bool.and_eq_true_iff.mp hp
  exact of_decide_eq_true hne (hall defaults t ht (of_decide_eq_true hpc))

end PulsarClient.Consumer
