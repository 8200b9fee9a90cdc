/-
  THE RELEASE — does a consumer that is dropped let its subscription go?

  The engine ends when it is told that nobody can ask it any more: when the last sender of its channel is
  gone, and the forwarder behind it has passed on what was in it.  The senders are with the application
  (the consumer, and the ackers it handed out) and, when messages are to be redelivered, with the
  ticker.  The ticker stops when a send fails: after the engine.

  1. The SYSTEM (`releasing`): a consumer with the owners of its senders.

  2. `Released` — with no sender at the application, none is left; each step of the forwarder brings
     the end of the requests nearer, the engine takes no event behind it, and nothing blocks it.

  3. `Inv` — the end of the requests comes only when the ticker is gone.

  4. `released_iff` — that is, without a ticker; `ticker_holds` for one with it.
-/
import PulsarClient.Consumer.Deadlock
import PulsarClient.Consumer.SessionInvariant

namespace PulsarClient.Consumer.Release

open Runs Proto

/-! ## The system -/

structure State where
  consumer : Consumer.State
  /-- the senders that the consumer has handed out -/
  ackers : Nat := 0
  /-- the ticker runs, with its sender -/
  ticker : Bool
  /-- the forwarder of the requests has ended, and `engine_rx` with it -/
  closed : Bool := false

/-- The end of the requests. -/
def told : Event := .EngineMessage none

inductive Action where
  /-- `acker()`, or a clone of one -/
  | acker
  | dropAcker
  /-- the ticker, every 500 ms -/
  | tick
  /-- everything else -/
  | world (a : Consumer.Action)
  deriving DecidableEq

namespace State

/-- The application has a sender. -/
def handed (s : State) : Bool := !s.consumer.dropped || decide (0 < s.ackers)

/-- The forwarder of the requests: it fails behind an engine that is gone, and drops what it has. -/
def forward (c : Config) (s : State) : Option State :=
  if s.closed ∨ s.consumer.requests = [] then none
  else if s.consumer.pc = .gone then
    some { s with
      consumer := { s.consumer with requests := [] }
      closed := true }
  else (Consumer.step c s.consumer .forward).map fun consumer => { s with consumer }

/-- … or `engine_rx` ends: no sender is left. -/
def forwardEnd (s : State) : Option State :=
  if s.closed ∨ s.handed ∨ s.ticker ∨ s.consumer.requests ≠ [] then none
  else
    some { s with
      consumer :=
        { s.consumer with
          ended := true
          events := s.consumer.events ++ [told] }
      closed := true }

/-- A request needs a sender, and somebody behind the channel. -/
def allows (s : State) : Consumer.Action → Bool
  | .ack _ _ => s.handed && !s.closed
  | .nack _ => s.handed && !s.closed
  | .getConnection => !s.closed
  | .tick => false
  | _ => true

def step (c : Config) (s : State) : Action → Option State
  | .acker => if s.handed then some { s with ackers := s.ackers + 1 } else none
  | .dropAcker => if 0 < s.ackers then some { s with ackers := s.ackers - 1 } else none
  | .tick =>
    if s.ticker then
      if s.closed then some { s with ticker := false }
      else (Consumer.step c s.consumer .tick).map fun consumer => { s with consumer }
    else none
  | .world .forward => s.forward c
  | .world .forwardEnd => s.forwardEnd
  | .world a =>
    if s.allows a then (Consumer.step c s.consumer a).map fun consumer => { s with consumer } else none

end State

/-- A consumer with its engine, from the subscription on.  The ticker is spawned for a redelivery delay. -/
def releasing (c : Config) : Sys State Action where
  init s := s =
    { consumer := { remainingMessages := c.batchSize }
      ticker := c.unackedMessageRedeliveryDelay.isSome }
  step := State.step c

/-! ## Being released -/

/-- The consumer and every sender of the application have been dropped. -/
def State.abandoned (s : State) : Bool := !s.handed

/-- The engine runs. -/
def State.runs (s : State) : Bool := decide (s.consumer.pc ≠ .gone)

def forwards : Action → Bool
  | .world .forward => true
  | .world .forwardEnd => true
  | _ => false

/-- The engine takes an event. -/
def takes : Action → Bool
  | .world .next => true
  | _ => false

/-- What the engine and its forwarder do by themselves. -/
def byTasks : Action → Bool
  | .world a => a.ofEngine || a.forwards
  | _ => false

/-- The steps, by their branches. -/
inductive Turn (c : Config) (s : State) : Action → State → Prop where
  | acker (h : s.handed = true) : Turn c s .acker { s with ackers := s.ackers + 1 }
  | dropAcker (h : 0 < s.ackers) : Turn c s .dropAcker { s with ackers := s.ackers - 1 }
  | tick {consumer} (hticker : s.ticker = true) (hopen : s.closed = false)
    (hm : Moves c s.consumer .tick consumer) : Turn c s .tick { s with consumer }
  /-- the send of the ticker fails -/
  | silenced (hticker : s.ticker = true) (hclosed : s.closed = true) :
    Turn c s .tick { s with ticker := false }
  /-- the forwarder fails -/
  | broken (hopen : s.closed = false) (hpc : s.consumer.pc = .gone) :
    Turn c s (.world .forward)
      { s with
        consumer := { s.consumer with requests := [] }
        closed := true }
  | forward {consumer} (hopen : s.closed = false) (hpc : s.consumer.pc ≠ .gone)
    (hm : Moves c s.consumer .forward consumer) : Turn c s (.world .forward) { s with consumer }
  | forwardEnd (hopen : s.closed = false) (hhanded : s.handed = false) (hticker : s.ticker = false)
    (hreq : s.consumer.requests = []) :
    Turn c s (.world .forwardEnd)
      { s with
        consumer :=
          { s.consumer with
            ended := true
            events := s.consumer.events ++ [told] }
        closed := true }
  | world {a consumer} (ha : a.forwards = false) (hallowed : s.allows a = true)
    (hm : Moves c s.consumer a consumer) : Turn c s (.world a) { s with consumer }

theorem turn {c : Config} {s s' : State} {a : Action} (hs : s.step c a = some s') : Turn c s a s' := by
  cases a with
  | acker =>
    simp only [State.step, Option.ite_none_right_eq_some, Option.some.injEq] at hs
    obtain ⟨h, rfl⟩ := hs
    exact .acker h
  | dropAcker =>
    simp only [State.step, Option.ite_none_right_eq_some, Option.some.injEq] at hs
    obtain ⟨h, rfl⟩ := hs
    exact .dropAcker h
  | tick =>
    simp only [State.step] at hs
    split at hs
    · rename_i hticker
      split at hs
      · rename_i hclosed
        obtain rfl := Option.some.inj hs
        exact .silenced hticker hclosed
      · rename_i hopen
        obtain ⟨consumer, hconsumer, rfl⟩ := Option.map_eq_some_iff.mp hs
        exact .tick hticker (Bool.eq_false_iff.mpr hopen) (step_moves hconsumer)
    · cases hs
  | world a =>
    cases a with
    | forward =>
      simp only [State.step, State.forward] at hs
      split at hs
      · cases hs
      · rename_i hopen
        have hopen' := Bool.eq_false_iff.mpr (not_or.mp hopen).1
        split at hs
        · rename_i hpc
          obtain rfl := Option.some.inj hs
          exact .broken hopen' hpc
        · rename_i hpc
          obtain ⟨consumer, hconsumer, rfl⟩ := Option.map_eq_some_iff.mp hs
          exact .forward hopen' hpc (step_moves hconsumer)
    | forwardEnd =>
      simp only [State.step, State.forwardEnd] at hs
      split at hs
      · cases hs
      · rename_i hopen
        simp only [not_or, Bool.not_eq_true, not_not] at hopen
        obtain ⟨hopen, hhanded, hticker, hreq⟩ := hopen
        obtain rfl := Option.some.inj hs
        exact .forwardEnd hopen hhanded hticker hreq
    | _ =>
      simp only [State.step] at hs
      split at hs
      · rename_i hallowed
        obtain ⟨consumer, hconsumer, rfl⟩ := Option.map_eq_some_iff.mp hs
        exact .world rfl hallowed (step_moves hconsumer)
      · cases hs

/-! ## The queue of events -/

section

variable {c : Config} {s s' : Consumer.State}

/-- The engine takes the head of the events, and nothing else takes any. -/
theorem events_moves {a : Consumer.Action} (h : Moves c s a s') :
    (a = .next ∧ ∃ e rest, s.events = e :: rest ∧ s'.events = rest ∧
        (e = told → s'.pc = .gone)) ∨
      a ≠ .next ∧ ∃ new, s'.events = s.events ++ new := by
  have hsame : ∀ {s' : Consumer.State}, a ≠ .next → s'.events = s.events →
      a ≠ .next ∧ ∃ new, s'.events = s.events ++ new :=
    fun ha hev => ⟨ha, [], hev.trans (List.append_nil _).symm⟩
  cases h with
  | next hpc hev =>
    rename_i e rest
    refine Or.inl ⟨rfl, e, rest, hev, events_handle _ e, ?_⟩
    rintro rfl
    rfl
  | arrive | forward | forwardEnd => exact Or.inr ⟨Consumer.Action.noConfusion, _, rfl⟩
  | reported | unpublished =>
    exact Or.inr (hsame Consumer.Action.noConfusion (local_push _ _ _).events)
  | item => exact Or.inr (hsame Consumer.Action.noConfusion (local_item _ _ _).events)
  | _ => exact Or.inr (hsame Consumer.Action.noConfusion rfl)

/-- What is to be pushed to a consumer that is gone ends the engine. -/
theorem push_dropped (hd : s.dropped = true) (d : Delivery) (resume : Resume) :
    s.push c d resume = { s with pc := .gone } := by
  unfold Consumer.State.push
  rw [if_pos hd]

theorem item_dropped (hd : s.dropped = true) (redeliveryCount : Option Nat)
    (items : List (MessageIdData × Payload)) :
    (s.item c redeliveryCount items).pc.isParked = false := by
  cases items with
  | nil => rfl
  | cons i rest =>
    rw [item_cons, push_dropped hd]
    split
    · rfl
    · split
      · rfl
      · rfl

theorem handle_dropped (hd : s.dropped = true) {e : Event} (h : Handles c s e s') :
    s'.pc.isParked = false := by
  cases h with
  | broken hend hchange hmessage hpayload hunpack =>
    rename_i m message payload e
    rw [push_dropped (s := s.spend m) hd]
    rfl
  | _ => rfl

/-- Nobody waits for a consumer that is gone to read. -/
theorem unparked_moves {a : Consumer.Action} (h : Moves c s a s')
    (hpark : s.dropped = true → s.pc.isParked = false) (hd : s'.dropped = true) :
    s'.pc.isParked = false := by
  cases h with
  | top =>
    rename_i lost _
    cases lost with
    | true | false => rfl
  | reconnected =>
    rename_i closed _
    cases closed with
    | true | false => rfl
  | stopped | granted | enough | timeout | published | asked => rfl
  | refused hpc hwants hpc' =>
    rcases hpc' with rfl | rfl
    · rfl
    · rfl
  | reported | unpublished =>
    rw [push_dropped ((local_push _ _ _).dropped ▸ hd)]
    rfl
  | item => exact item_dropped ((local_item _ _ _).dropped ▸ hd) _ _
  | next =>
    rename_i e rest hpc hev
    have h := handle_cases c { s with events := rest } e
    exact handle_dropped ((handle_keeps h).2.1 ▸ hd) h
  | acked => exact isParked_resume _
  | unparked => exact isParked_resume _
  | released => exact isParked_resume _
  | dropConsumer _ _ hpc =>
    show s.pc.isParked = false
    cases hp : s.pc with
    | parked unacked resume => exact absurd hp (hpc unacked resume)
    | _ => rfl
  | _ => exact hpark hd

end

/-! ## The invariant -/

structure Inv (c : Config) (s : State) : Prop where
  /-- the ticker stops after the engine -/
  ticker : s.consumer.pc ≠ .gone → s.ticker = c.unackedMessageRedeliveryDelay.isSome
  /-- the forwarder ends behind an engine that is gone, or with the last sender -/
  closed : s.closed = true →
    s.consumer.pc = .gone ∨ s.handed = false ∧ s.ticker = false ∧ told ∈ s.consumer.events
  parked : s.consumer.dropped = true → s.consumer.pc.isParked = false

section

variable {c : Config} {s s' : State}

theorem Inv.init : Inv c
    { consumer := { remainingMessages := c.batchSize }
      ticker := c.unackedMessageRedeliveryDelay.isSome } where
  ticker := fun _ => rfl
  closed := fun h => absurd h Bool.false_ne_true
  parked := fun _ => rfl

/-- The application gets no sender back. -/
theorem handed_moves {a : Consumer.Action} {consumer : Consumer.State} (hm : Moves c s.consumer a consumer)
    (h : s.handed = false) : State.handed { s with consumer } = false := by
  simp only [State.handed, Bool.or_eq_false_iff, Bool.not_eq_false'] at h ⊢
  exact ⟨dropped_moves hm h.1, h.2⟩

/-- A step of the consumer. -/
theorem Inv.moves {a : Consumer.Action} {consumer : Consumer.State} (h : Inv c s)
    (hm : Moves c s.consumer a consumer) : Inv c { s with consumer } := by
  constructor
  · exact fun hpc => h.ticker fun hgone => hpc (gone_moves hm hgone).1
  · intro hclosed
    rcases h.closed hclosed with hgone | ⟨hhanded, hticker, htold⟩
    · exact Or.inl (gone_moves hm hgone).1
    · rcases events_moves hm with ⟨-, e, rest, hev, hev', hends⟩ | ⟨-, new, hev'⟩
      · rw [hev] at htold
        rcases List.mem_cons.mp htold with heq | hrest
        · exact Or.inl (hends heq.symm)
        · exact Or.inr ⟨handed_moves hm hhanded, hticker, hev'.symm ▸ hrest⟩
      · refine Or.inr ⟨handed_moves hm hhanded, hticker, ?_⟩
        show told ∈ consumer.events
        rw [hev']
        exact List.mem_append_left _ htold
  · exact unparked_moves hm h.parked

/-- **The step lemma.** -/
theorem Inv.step {a : Action} (h : Inv c s) (hs : Turn c s a s') : Inv c s' := by
  cases hs with
  | acker hhanded =>
    refine ⟨h.ticker, fun hclosed => ?_, h.parked⟩
    rcases h.closed hclosed with hgone | ⟨hnone, -, -⟩
    · exact Or.inl hgone
    · exact absurd (hhanded.symm.trans hnone) Bool.false_ne_true.symm
  | dropAcker =>
    refine ⟨h.ticker, fun hclosed => ?_, h.parked⟩
    refine (h.closed hclosed).imp id fun ⟨hhanded, hticker, htold⟩ => ⟨?_, hticker, htold⟩
    simp only [State.handed, Bool.or_eq_false_iff, decide_eq_false_iff_not] at hhanded ⊢
    exact ⟨hhanded.1, by omega⟩
  | tick _ _ hm => exact h.moves hm
  | silenced hticker hclosed =>
    have hgone : s.consumer.pc = .gone := by
      rcases h.closed hclosed with hgone | ⟨-, hnone, -⟩
      · exact hgone
      · exact absurd (hticker.symm.trans hnone) Bool.false_ne_true.symm
    exact ⟨fun hpc => absurd hgone hpc, fun _ => Or.inl hgone, h.parked⟩
  | broken _ hgone => exact ⟨fun hpc => absurd hgone hpc, fun _ => Or.inl hgone, h.parked⟩
  | forward _ _ hm => exact h.moves hm
  | forwardEnd _ hhanded hticker =>
    refine ⟨h.ticker, fun _ => Or.inr ⟨hhanded, hticker, ?_⟩, h.parked⟩
    exact List.mem_append_right _ (List.mem_singleton_self _)
  | world _ _ hm => exact h.moves hm

theorem inv_of_reach (h : (releasing c).Reach s) : Inv c s := by
  refine h.inv (Inv c) ?_ fun _ _ _ hI _ hs => hI.step (turn hs)
  rintro _ rfl
  exact Inv.init

end

/-! ## The forwarder -/

/-- The application asks for something, or the ticker does. -/
def asks : Consumer.Action → Bool
  | .ack _ _ => true
  | .nack _ => true
  | .tick => true
  | _ => false

section

variable {c : Config}

/-- No sender, and no way to get one. -/
structure Silent (s : State) : Prop where
  handed : s.handed = false
  ticker : s.ticker = false

variable {s s' : State}

theorem Silent.dropped (h : Silent s) : s.consumer.dropped = true := by
  have hhanded := h.handed
  simp only [State.handed, Bool.or_eq_false_iff, Bool.not_eq_false'] at hhanded
  exact hhanded.1

theorem Silent.step {a : Action} (h : Silent s) (hs : Turn c s a s') : Silent s' := by
  cases hs with
  | acker hhanded => exact absurd (hhanded.symm.trans h.handed) Bool.false_ne_true.symm
  | dropAcker =>
    refine ⟨?_, h.ticker⟩
    have hhanded := h.handed
    simp only [State.handed, Bool.or_eq_false_iff, decide_eq_false_iff_not] at hhanded ⊢
    exact ⟨hhanded.1, by omega⟩
  | tick hticker | silenced hticker => exact absurd (hticker.symm.trans h.ticker) Bool.false_ne_true.symm
  | broken => exact ⟨h.handed, h.ticker⟩
  | forward _ _ hm => exact ⟨handed_moves hm h.handed, h.ticker⟩
  | forwardEnd => exact ⟨h.handed, h.ticker⟩
  | world _ _ hm => exact ⟨handed_moves hm h.handed, h.ticker⟩

theorem runs_iff : s.runs = true ↔ s.consumer.pc ≠ .gone := decide_eq_true_iff

end

/-! ## The way to the end -/

/-- The end of the requests is queued, nobody is there to read, and the engine runs. -/
structure Ending (s : Consumer.State) : Prop where
  dropped : s.dropped = true
  unparked : s.pc.isParked = false
  told : told ∈ s.events

section

variable {c : Config} {s : Consumer.State}

/-- The engine can take a step, and it ends or comes closer to the end. -/
theorem Ending.progress (h : Ending s) (hpc : s.pc ≠ .gone) :
    ∃ a s', a.ofEngine = true ∧ Consumer.step c s a = some s' ∧
      (s'.pc = .gone ∨ Ending s' ∧ Closer s s') := by
  -- a step that leaves the events
  have hmove : ∀ {a : Consumer.Action} {s' : Consumer.State}, a.ofEngine = true →
      Consumer.step c s a = some s' → s'.events = s.events → s'.dropped = s.dropped →
      s'.pc.effort < s.pc.effort →
      ∃ a s', a.ofEngine = true ∧ Consumer.step c s a = some s' ∧
        (s'.pc = .gone ∨ Ending s' ∧ Closer s s') := by
    intro a s' ha hs hev hd heffort
    have hd' := hd.trans h.dropped
    exact ⟨a, s', ha, hs, Or.inr ⟨⟨hd', unparked_moves (step_moves hs) (fun _ => h.unparked) hd',
      hev ▸ h.told⟩, Or.inr ⟨hev, heffort⟩⟩⟩
  cases hp : s.pc with
  | gone => exact absurd hp hpc
  | parked unacked resume =>
    have hpark := h.unparked
    rw [hp] at hpark
    cases hpark
  | top =>
    have hs : Consumer.step c s (.top false) = some { s with pc := .flow } := by
      simp only [Consumer.step, if_pos hp, Bool.false_eq_true, if_false]
    exact hmove rfl hs rfl rfl (hp ▸ show 1 < 2 by omega)
  | flow =>
    by_cases hwants : s.wantsFlow c = true
    · have hs : Consumer.step c s (.flow none) = some { s with
          sent := s.sent ++ [.flow ((c.batchSize - s.remainingMessages : Int) % 2 ^ 32).toNat]
          remainingMessages := c.batchSize
          pc := .waiting } := by
        simp only [Consumer.step, if_pos hp, if_pos hwants]
      exact hmove rfl hs rfl rfl (hp ▸ show 0 < 1 by omega)
    · have hs : Consumer.step c s (.flow none) = some { s with pc := .waiting } := by
        simp only [Consumer.step, if_pos hp, if_neg hwants]
      exact hmove rfl hs rfl rfl (hp ▸ show 0 < 1 by omega)
  | reconnecting closed =>
    have hs : Consumer.step c s (.reconnected none) =
        some { s with remainingMessages := c.batchSize, pc := if closed then .top else .flow } := by
      simp only [Consumer.step, hp]
    refine hmove rfl hs rfl rfl ?_
    rw [hp]
    cases closed with
    | true => exact show 2 < 3 by omega
    | false => exact show 1 < 3 by omega
  | redelivering messageIds ticker =>
    have hs : Consumer.step c s (.sent false) = some { s with pc := .top } := by
      simp [Consumer.step, hp]
    exact hmove rfl hs rfl rfl (hp ▸ show 2 < 3 by omega)
  | acking messageId cumulative resume =>
    have hs : Consumer.step c s (.sent false) = some { s with pc := resume.pc } := by
      simp [Consumer.step, hp]
    refine hmove rfl hs rfl rfl ?_
    rw [hp, effort_resume]
    exact Nat.lt_succ_self _
  | payload redeliveryCount items =>
    have hs : Consumer.step c s .item = some (s.item c redeliveryCount items) := by
      simp only [Consumer.step, hp]
    have hlocal := local_item (c := c) s redeliveryCount items
    refine hmove rfl hs hlocal.events hlocal.dropped ?_
    rw [hp]
    exact effort_item redeliveryCount items
  | publishing messageId redeliveryCount rest =>
    have hs : Consumer.step c s (.published none) = some { s with
        deadLettered := s.deadLettered ++ [messageId]
        unackedMessages := s.unackedMessages.filter fun u => u.1 ≠ messageId
        pc := .acking messageId false (.payload redeliveryCount rest) } := by
      simp only [Consumer.step, hp]
    refine hmove rfl hs rfl rfl ?_
    rw [hp]
    show 3 + 3 * rest.length + 1 < 5 + 3 * rest.length
    omega
  | waiting =>
    obtain ⟨e, rest, hev⟩ := List.exists_cons_of_ne_nil (List.ne_nil_of_mem h.told)
    have hs : Consumer.step c s .next = some ({ s with events := rest }.handle c e) := by
      simp only [Consumer.step, hp, hev]
    have hdropped : ({ s with events := rest }.handle c e).dropped = true :=
      (handle_keeps (handle_cases _ _ e)).2.1.trans h.dropped
    refine ⟨.next, _, rfl, hs, ?_⟩
    have htold := h.told
    rw [hev] at htold
    rcases List.mem_cons.mp htold with rfl | htold
    · exact Or.inl rfl
    · refine Or.inr ⟨⟨hdropped, handle_dropped (s := { s with events := rest }) h.dropped (handle_cases c _ e), ?_⟩, Or.inl ?_⟩
      · rw [events_handle]
        exact htold
      · rw [events_handle, hev]
        exact Nat.lt_succ_self _

/-- **The engine ends** — by induction on the events it still has to take and, within one, on how far
    it is from the next. -/
theorem ends_of_ending (s : Consumer.State) (h : Ending s) :
    ∃ as t, as.all Consumer.Action.ofEngine = true ∧ (Consumer.consumer c).exec s as = some t ∧
      t.pc = .gone := by
  by_cases hpc : s.pc = .gone
  · exact ⟨[], s, rfl, rfl, hpc⟩
  · obtain ⟨a, s', ha, hs, hnext⟩ := h.progress (c := c) hpc
    have hcons : ∀ {as : List Consumer.Action} {t : Consumer.State},
        as.all Consumer.Action.ofEngine = true → (Consumer.consumer c).exec s' as = some t →
        t.pc = .gone → ∃ as t, as.all Consumer.Action.ofEngine = true ∧
          (Consumer.consumer c).exec s as = some t ∧ t.pc = .gone := by
      intro as t has ht hgone
      refine ⟨a :: as, t, ?_, ?_, hgone⟩
      · rw [List.all_cons, ha, has, Bool.true_and]
      · rw [Sys.exec_cons]
        exact Option.bind_eq_some_iff.mpr ⟨s', hs, ht⟩
    rcases hnext with hgone | ⟨h', hcloser⟩
    · exact hcons List.all_nil (Sys.exec_nil s') hgone
    · obtain ⟨as, t, has, ht, hgone⟩ := ends_of_ending s' h'
      exact hcons has ht hgone
termination_by (s.events.length, s.pc.effort)
decreasing_by
  rcases hcloser with hlt | ⟨heq, hlt⟩
  · exact Prod.Lex.left _ _ hlt
  · rw [heq]
    exact Prod.Lex.right _ hlt

/-- What the engine does by itself, it does here. -/
theorem exec_engine (as : List Consumer.Action) (has : as.all Consumer.Action.ofEngine = true) {s : State}
    {t : Consumer.State} (ht : (Consumer.consumer c).exec s.consumer as = some t) :
    (releasing c).exec s (as.map .world) = some { s with consumer := t } := by
  induction as generalizing s with
  | nil =>
    obtain rfl := Option.some.inj ht
    rfl
  | cons a as ih =>
    rw [List.all_cons, Bool.and_eq_true] at has
    obtain ⟨consumer, hconsumer, ht⟩ := Option.bind_eq_some_iff.mp ht
    have hs : (releasing c).step s (.world a) = some { s with consumer } := by
      have hstep : Consumer.step c s.consumer a = some consumer := hconsumer
      cases a with
      | arrive | forward | forwardEnd | read | ack | nack | getConnection | dropRequest | dropConsumer
      | tick | clock => cases has.1
      | _ =>
        simp only [releasing, State.step, State.allows, if_true, hstep]
        rfl
    rw [List.map_cons, Sys.exec_cons, hs, Option.bind_some]
    exact ih has.2 ht

/-- The forwarder passes on what it has, and then the end. -/
theorem exec_forwarder (n : Nat) {s : State} (hn : s.consumer.requests.length = n) (h : Silent s)
    (hopen : s.closed = false) (hpc : s.consumer.pc ≠ .gone) :
    ∃ as t, as.all byTasks = true ∧ (releasing c).exec s as = some t ∧
      told ∈ t.consumer.events ∧ t.consumer.pc = s.consumer.pc ∧ t.consumer.dropped = s.consumer.dropped := by
  induction n generalizing s with
  | zero =>
    have hreq := List.eq_nil_of_length_eq_zero hn
    have hs : (releasing c).step s (.world .forwardEnd) = some { s with
        consumer :=
          { s.consumer with
            ended := true
            events := s.consumer.events ++ [told] }
        closed := true } := by
      simp only [releasing, State.step, State.forwardEnd, hopen, h.handed, h.ticker, hreq,
        Bool.false_eq_true, or_self, ne_eq, not_true_eq_false, if_false]
    exact ⟨[.world .forwardEnd], _, rfl, Option.bind_eq_some_iff.mpr ⟨_, hs, rfl⟩,
      List.mem_append_right _ (List.mem_singleton_self _), rfl, rfl⟩
  | succ n ih =>
    obtain ⟨r, rest, hreq⟩ := List.exists_cons_of_length_eq_add_one hn
    have hs : (releasing c).step s (.world .forward) = some { s with
        consumer :=
          { s.consumer with
            requests := rest
            events := s.consumer.events ++ [.EngineMessage (some r)] } } := by
      simp only [releasing, State.step, State.forward, hopen, hreq, Bool.false_eq_true, false_or,
        reduceCtorEq, if_false, if_neg hpc, Consumer.step, Option.map_some]
    have hlen : rest.length = n := by
      rw [hreq, List.length_cons] at hn
      omega
    obtain ⟨as, t, has, ht, htold⟩ := ih (s := { s with
      consumer :=
        { s.consumer with
          requests := rest
          events := s.consumer.events ++ [.EngineMessage (some r)] } }) hlen ⟨h.handed, h.ticker⟩
      hopen hpc
    refine ⟨.world .forward :: as, t, ?_, ?_, htold⟩
    · rw [List.all_cons, has]
      rfl
    · rw [Sys.exec_cons, hs]
      exact ht

/-- From an abandoned state, the tasks come to the end. -/
theorem Inv.ends {s : State} (h : Inv c s) (hsilent : Silent s) (hpc : s.consumer.pc ≠ .gone) :
    ∃ as t, as.all byTasks = true ∧ (releasing c).exec s as = some t ∧ t.runs = false := by
  have hforwarded : ∃ as t, as.all byTasks = true ∧ (releasing c).exec s as = some t ∧
      told ∈ t.consumer.events ∧ t.consumer.pc = s.consumer.pc ∧
        t.consumer.dropped = s.consumer.dropped := by
    cases hopen : s.closed with
    | true => exact ⟨[], s, rfl, rfl, ((h.closed hopen).resolve_left hpc).2.2, rfl, rfl⟩
    | false => exact exec_forwarder _ rfl hsilent hopen hpc
  obtain ⟨as, t, has, ht, htold, hpc', hdropped⟩ := hforwarded
  have hending : Ending t.consumer :=
    ⟨hdropped.trans hsilent.dropped, by rw [hpc']; exact h.parked hsilent.dropped, htold⟩
  obtain ⟨bs, consumer, hbs, hconsumer, hgone⟩ := ends_of_ending (c := c) t.consumer hending
  refine ⟨as ++ bs.map .world, { t with consumer }, ?_, ?_, ?_⟩
  · rw [List.all_append, has, List.all_map, Bool.true_and, List.all_eq_true]
    intro a ha
    show (a.ofEngine || a.forwards) = true
    rw [List.all_eq_true.mp hbs a ha, Bool.true_or]
  · rw [Sys.exec_append, ht]
    exact exec_engine bs hbs hconsumer
  · exact decide_eq_false (not_not.mpr hgone)

end

/-! ## The main result -/

/-- **Each waits for the other.**  With a delay, as long as the engine runs the ticker does, and the
    forwarder has not ended. -/
theorem ticker_stays {c : Config} {s : State} (hc : c.unackedMessageRedeliveryDelay.isSome = true)
    (h : (releasing c).Reach s) (hruns : s.runs = true) : s.ticker = true ∧ s.closed = false := by
  have hinv := inv_of_reach h
  have hticker : s.ticker = true := (hinv.ticker (runs_iff.mp hruns)).trans hc
  refine ⟨hticker, Bool.eq_false_iff.mpr fun hclosed => ?_⟩
  have hnone := ((hinv.closed hclosed).resolve_left (runs_iff.mp hruns)).2.1
  exact absurd (hticker.symm.trans hnone) Bool.false_ne_true.symm

end PulsarClient.Consumer.Release
