/-
  CLOSED — does a consumer that was closed stay closed?

  `TopicConsumer::close` and `unsubscribe` ask the engine for its connection and send one command on
  it.  The engine is not told: its loop goes on, and with it the automatic reconnect.

  1. The SYSTEM (`closing`): a session, the call that the application is in, and the log of the calls
     that returned and of the `Subscribe` commands of the engine.

  2. `leftAlone` — the condition: when the call returns, the engine is not in `reconnect`; afterwards it
     neither finds an error in its connection nor takes a `CloseConsumer`.

  3. `stays_closed` — in every run whose steps all meet it, no `Subscribe` follows.

  4. `reconnect_subscribes`, `closed_subscribes` — any reconnect sends one.
-/
import PulsarClient.Consumer.SessionInvariant

namespace PulsarClient.Consumer.Closed

open Runs

/-! ## The system -/

inductive Call where
  | close
  | unsubscribe
  deriving DecidableEq, Repr

/-- The await that a call is at. -/
inductive Stage where
  /-- `self.connection()` -/
  | asking
  /-- … returns the connection of the engine -/
  | given (connection : Nat)
  /-- the command is sent -/
  | sent
  deriving DecidableEq, Repr

inductive Entry where
  /-- the engine sends a `Subscribe` -/
  | subscribe (connection : Nat)
  /-- a call of the application returns `Ok` -/
  | returned (call : Call)
  deriving DecidableEq, Repr

structure State where
  session : Session
  call : Option (Call × Stage) := none
  log : List Entry := []

inductive Action where
  | call (call : Call)
  /-- the command of the call, on the connection it was given -/
  | send
  | returns (ok : Bool)
  /-- the future of the call is dropped, or the engine is gone -/
  | drop
  /-- the engine, its connections, the broker, and the rest of the application -/
  | world (a : SessionAction)

/-- What takes the consumer itself, so not while a call borrows it. -/
def borrows : SessionAction → Bool
  | .inner .read => true
  | .inner .getConnection => true
  | .inner .dropRequest => true
  | .inner .dropConsumer => true
  | _ => false

/-- `close` is a call. -/
def isClose : SessionAction → Bool
  | .close _ => true
  | _ => false

/-- The connection that a step sends a `Subscribe` on. -/
def subscribes (s : Session) : SessionAction → Option Nat
  | .connected (.ok connection) => if s.running connection then some connection else none
  | _ => none

/-- The engine has answered with its connection. -/
def answer (s s' : Session) : Option (Call × Stage) → Option (Call × Stage)
  | some (call, .asking) =>
    if s'.consumer.waiting = none then some (call, .given s.connection) else some (call, .asking)
  | call => call

namespace State

/-- `unsubscribe` on the connection sender: it does not unregister the consumer. -/
def unsubscribe (s : Session) (connection : Nat) : Session :=
  if s.running connection then s else s.setError connection .Disconnected

def step (c : Settings) (s : State) : Action → Option State
  | .call call =>
    if s.call = none then
      (Session.step c s.session (.inner .getConnection)).map fun session =>
        { s with
          session
          call := some (call, .asking) }
    else none
  | .send =>
    match s.call with
    | some (call, .given connection) =>
      let session :=
        match call with
        | .close => s.session.closeConsumer connection
        | .unsubscribe => unsubscribe s.session connection
      -- without a receiver, it returns an error at once
      let stage := if s.session.running connection then some (call, .sent) else none
      some { s with
        session
        call := stage }
    | _ => none
  | .returns ok =>
    match s.call with
    | some (call, .sent) =>
      some { s with
        call := none
        log := if ok then s.log ++ [.returned call] else s.log }
    | _ => none
  | .drop =>
    (Session.step c s.session (.inner .dropRequest)).map fun session =>
      { s with
        session
        call := none }
  | .world a =>
    if isClose a ∨ (s.call.isSome ∧ borrows a) then none
    else
      (Session.step c s.session a).map fun session =>
        { session
          call := answer s.session session s.call
          log := s.log ++ (subscribes s.session a).toList.map .subscribe }

end State

/-- A consumer from the subscription on, with the application that closes it. -/
def closing (c : Settings) : Sys State Action where
  init s := s = { session := c.start }
  step := State.step c

/-- A `close` or `unsubscribe` has returned `Ok`. -/
def isReturned : Entry → Bool
  | .returned _ => true
  | .subscribe _ => false

def State.closed (s : State) : Bool := s.log.any isReturned

/-- No `Subscribe` after a `close` or `unsubscribe`. -/
def StaysClosed (s : State) : Prop :=
  Each (fun before entry => ∀ connection, entry = .subscribe connection →
    ∀ call, .returned call ∉ before) s.log

/-! ## The condition -/

/-- The engine goes into `reconnect` with this step: its connection is flagged with an error, or the
    broker has closed the consumer. -/
def reconnects (s : Session) : SessionAction → Bool
  | .top => (s.errors s.connection).isSet
  | .next => s.consumer.events.head?.any Event.closes
  | _ => false

def leftAlone (s : State) : Action → Bool
  | .returns true => s.session.phase.isNone
  | .world a => !(s.closed && reconnects s.session a)
  | _ => true

/-! ## The invariant -/

/-- The engine is not in `reconnect` once a call has returned. -/
structure Inv (s : State) : Prop where
  sound : Sound s.session
  phase : s.closed = true → s.session.phase = none
  closed : StaysClosed s

section

variable {c : Settings} {s s' : Session}

theorem phase_closeConsumer (s : Session) (connection : Nat) :
    (s.closeConsumer connection).phase = s.phase := by
  unfold Session.closeConsumer
  split
  · rfl
  · rfl

theorem phase_unsubscribe (s : Session) (connection : Nat) :
    (State.unsubscribe s connection).phase = s.phase := by
  unfold State.unsubscribe
  split
  · rfl
  · rfl

theorem sound_unsubscribe (h : Sound s) (connection : Nat) :
    Sound (State.unsubscribe s connection) := by
  unfold State.unsubscribe
  split
  · exact h
  · exact h.of_eq rfl rfl id

theorem phase_inner {a : Consumer.Action} (h : Session.step c s (.inner a) = some s') :
    s'.phase = s.phase := by
  simp only [Session.step] at h
  split at h
  · obtain ⟨consumer, -, rfl⟩ := Option.map_eq_some_iff.mp h
    rfl
  · cases h

/-- A `Subscribe` is sent from inside of `reconnect`. -/
theorem phase_of_subscribes {a : SessionAction} {connection : Nat} (h : Turn c s a s')
    (ha : subscribes s a = some connection) : s.phase ≠ none := by
  cases a with
  | connected result =>
    intro hphase
    cases h with
    | awaits _ hphase' _ | connected hphase' | retried hphase' | abandoned _ hphase' _ =>
      exact absurd (hphase.symm.trans hphase') (Option.some_ne_none _).symm
  | _ => cases ha

/-- `reconnect` begins with a lost connection or with a `CloseConsumer`. -/
theorem phase_turn {a : SessionAction} (h : Turn c s a s') (hphase : s.phase = none)
    (ha : reconnects s a = false) : s'.phase = none := by
  cases h with
  | inner | arrive | flow | next | fails | taken => exact hphase
  | lost hpc hset => exact absurd (hset.symm.trans ha) Bool.false_ne_true.symm
  | cleared | valid => exact hphase
  | closed hs hpc =>
    obtain ⟨e, rest, -, hev, rfl⟩ := next_step hs
    have hno : e.closes = false := by
      unfold reconnects at ha
      rw [hev] at ha
      exact ha
    have hturning := (handle_spec (handle_cases c.consumer { s.consumer with events := rest } e)).2.1
    rw [if_neg (by rw [hno]; exact Bool.false_ne_true), hpc] at hturning
    exact hturning.elim
  | awaits _ hphase' | subscribed hphase' | connected hphase' | retried hphase' =>
    exact absurd (hphase.symm.trans hphase') (Option.some_ne_none _).symm
  | granted hphase' | regranted hphase' =>
    exact absurd (hphase.symm.trans hphase') (Option.some_ne_none _).symm
  | abandoned => rfl
  | close => exact (phase_closeConsumer s _).trans hphase

end

section

variable {c : Settings} {s s' : State}

theorem Inv.init : Inv { session := c.start } where
  sound := sound_of_init rfl
  phase := fun h => absurd h Bool.false_ne_true
  closed := each_nil

/-- A step that writes nothing into the log. -/
theorem Inv.same (h : Inv s) (hsound : Sound s'.session) (hphase : s'.session.phase = s.session.phase)
    (hlog : s'.log = s.log) : Inv s' := by
  refine ⟨hsound, ?_, ?_⟩
  · unfold State.closed
    rw [hlog, hphase]
    exact h.phase
  · unfold StaysClosed
    rw [hlog]
    exact h.closed

theorem Inv.returns (h : Inv s) (call : Call) (hphase : s.session.phase = none) :
    Inv { s with call := none, log := s.log ++ [.returned call] } where
  sound := h.sound
  phase := fun _ => hphase
  closed := each_concat.mpr ⟨h.closed, fun _ heq => by cases heq⟩

/-- The world goes on. -/
theorem Inv.world {a : SessionAction} {session : Session} (h : Inv s)
    (hok : leftAlone s (.world a) = true) (ht : Turn c s.session a session) :
    Inv { session
          call := answer s.session session s.call
          log := s.log ++ (subscribes s.session a).toList.map .subscribe } := by
  refine ⟨h.sound.step ht, ?_, ?_⟩
  · intro hclosed
    have hbefore : s.closed = true := by
      obtain ⟨entry, hmem, hentry⟩ := List.any_eq_true.mp hclosed
      rcases List.mem_append.mp hmem with hold | hnew
      · exact List.any_eq_true.mpr ⟨entry, hold, hentry⟩
      · obtain ⟨connection, -, rfl⟩ := List.mem_map.mp hnew
        cases hentry
    refine phase_turn ht (h.phase hbefore) ?_
    simp only [leftAlone, hbefore, Bool.true_and, Bool.not_eq_true'] at hok
    exact hok
  · unfold StaysClosed
    cases hsub : subscribes s.session a with
    | none =>
      rw [Option.toList_none, List.map_nil, List.append_nil]
      exact h.closed
    | some connection =>
      refine each_concat.mpr ⟨h.closed, fun _ _ call hcall => ?_⟩
      refine phase_of_subscribes ht hsub (h.phase ?_)
      exact List.any_eq_true.mpr ⟨_, hcall, rfl⟩

/-- **The step lemma**: a step that meets the condition keeps the consumer closed. -/
theorem Inv.step {a : Action} (h : Inv s) (hok : leftAlone s a = true)
    (hs : (closing c).step s a = some s') : Inv s' := by
  cases a with
  | call call =>
    simp only [closing, State.step] at hs
    split at hs
    · obtain ⟨session, hsession, rfl⟩ := Option.map_eq_some_iff.mp hs
      exact h.same (h.sound.step (turn hsession)) (phase_inner hsession) rfl
    · cases hs
  | send =>
    simp only [closing, State.step] at hs
    split at hs
    · rename_i call connection _
      obtain rfl := Option.some.inj hs
      cases call with
      | close =>
        exact h.same (h.sound.step (Turn.close (c := c))) (phase_closeConsumer _ _) rfl
      | unsubscribe =>
        exact h.same (sound_unsubscribe h.sound connection) (phase_unsubscribe _ _) rfl
    · cases hs
  | returns ok =>
    simp only [closing, State.step] at hs
    split at hs
    · rename_i call _
      obtain rfl := Option.some.inj hs
      cases ok with
      | false => exact h.same h.sound rfl rfl
      | true => exact h.returns call (Option.isNone_iff_eq_none.mp hok)
    · cases hs
  | drop =>
    simp only [closing, State.step] at hs
    obtain ⟨session, hsession, rfl⟩ := Option.map_eq_some_iff.mp hs
    exact h.same (h.sound.step (turn hsession)) (phase_inner hsession) rfl
  | world a =>
    simp only [closing, State.step] at hs
    split at hs
    · cases hs
    · obtain ⟨session, hsession, rfl⟩ := Option.map_eq_some_iff.mp hs
      exact h.world hok (turn hsession)

end

/-! ## The main result -/

/-- **Headline.**  In every run in which a reconnect neither is under way when `close` or `unsubscribe`
    returns `Ok` nor begins afterwards, the engine sends no `Subscribe` after it. -/
theorem stays_closed (c : Settings) (s : State)
    (h : (closing c).ReachIf (fun s a => leftAlone s a = true) s) : StaysClosed s := by
  have hinv : Inv s := by
    refine h.inv Inv ?_ fun _ _ _ hI hok hs => hI.step hok hs
    rintro _ rfl
    exact Inv.init
  exact hinv.closed

/-- A `close` that is not disturbed: afterwards the channel of the consumer ends, and the engine waits. -/
theorem stays_closed_quiet : ∃ s, s.log = [.returned .close] ∧ s.session.consumer.pc = .waiting ∧
    StaysClosed s := by
  obtain ⟨s, hs, hp⟩ := Sys.exists_reachIf_of_execIf (S := closing defaults) leftAlone
    (p := fun s => decide (s.log = [.returned .close] ∧ s.session.consumer.pc = .waiting))
    (s := { session := defaults.start }) rfl
    [.world .top, .world (.flow none), .call .close, .world (.inner .forward), .world .next, .send,
      .returns true, .world .top, .world (.flow none), .world (.arrive 0 none), .world .next,
      .world .top, .world (.flow none)] (by decide +kernel)
  obtain ⟨hlog, hpc⟩ := of_decide_eq_true hp
  exact ⟨s, hlog, hpc, stays_closed defaults s hs⟩

/-! ## What the reconnect does -/

/-- While the application is in no call, the world goes on as in a session. -/
theorem step_world {c : Settings} (session : Session) (log : List Entry) (a : SessionAction)
    {session' : Session} (ha : isClose a = false) (hs : Session.step c session a = some session') :
    (closing c).step { session, log } (.world a) =
      some { session := session', log := log ++ (subscribes session a).toList.map .subscribe } := by
  have hfree : ¬ (isClose a = true ∨ (none : Option (Call × Stage)).isSome = true ∧ borrows a = true) := by
    rw [ha]
    rintro (h | ⟨h, -⟩)
    · cases h
    · cases h
  simp only [closing, State.step]
  rw [if_neg hfree, hs]
  rfl

/-- **Every reconnect subscribes**, when the lookup finds a broker that can be reached: the engine does
    not know that the consumer is closed. -/
theorem reconnect_subscribes (c : Settings) (s : State) (connection : Nat) (hcall : s.call = none)
    (hphase : s.session.phase = some .closing) (hrunning : s.session.running connection = true) :
    ∃ t, (closing c).exec s
        [.world .closed, .world (.lookedUp none), .world (.connected (.ok connection))] = some t ∧
      t.log = s.log ++ [.subscribe connection] := by
  obtain ⟨session, call, log⟩ := s
  obtain rfl : call = none := hcall
  have hclosed : Session.step c session .closed = some { session with phase := some .lookup } := by
    simp only [Session.step, show session.phase = _ from hphase]
  have hsubscribes : subscribes { session with phase := some .connecting }
      (.connected (.ok connection)) = some connection := if_pos hrunning
  have h1 := step_world session log .closed rfl hclosed
  have h2 := step_world (c := c) { session with phase := some .lookup } log (.lookedUp none) rfl rfl
  have h3 := step_world (c := c) { session with phase := some .connecting } log
    (.connected (.ok connection)) rfl rfl
  rw [hsubscribes] at h3
  simp only [subscribes, Option.toList_none, List.map_nil, List.append_nil] at h1 h2
  rw [Sys.exec_cons, h1, Option.bind_some, Sys.exec_cons, h2, Option.bind_some, Sys.exec_cons, h3]
  exact ⟨_, rfl, rfl⟩

/-- The consumer is closed, its connection fails, and the engine subscribes again on another one. -/
theorem closed_subscribes : ∃ s, (closing defaults).Reach s ∧
    s.log = [.returned .close, .subscribe 1] ∧ s.session.consumer.dropped = false ∧ ¬ StaysClosed s := by
  obtain ⟨s, hs, hp⟩ := Sys.exists_reach_of_exec (S := closing defaults)
    (p := fun s => decide (s.log = [.returned .close, .subscribe 1] ∧ s.session.consumer.dropped = false))
    (s := { session := defaults.start }) rfl
    [.world .top, .world (.flow none), .call .close, .world (.inner .forward), .world .next, .send,
      .returns true, .world (.fails 0 .Disconnected true), .world .top, .world .closed,
      .world (.lookedUp none), .world (.connected (.ok 1))] (by decide +kernel)
  obtain ⟨hlog, hdropped⟩ := of_decide_eq_true hp
  refine ⟨s, hs, hlog, hdropped, fun hcloses => ?_⟩
  exact hcloses [.returned .close] (.subscribe 1) [] hlog 1 rfl .close List.mem_cons_self

end PulsarClient.Consumer.Closed
