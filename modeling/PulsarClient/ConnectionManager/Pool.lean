/-
  `ConnectionManager`: one connection per broker, shared by everyone — the POOL.

  The pool is a map from broker address to either a connection or the list of the callers that wait for
  one.  Every caller of `get_connection` runs the same code, but in pieces: each access to the map is a
  lock section of its own, and between two of them, and while a connection is being established,
  anything may happen.  So a call is a program counter (`Pc`), and a step of the system is one piece
  of one call:

  1. `look`     — the lock section of `get_connection`: hand out, park in the waiter list, or go on;
  2. `enter`    — the lock section of `connect_inner`: start establishing, or park (again);
  3. `attempt`  — one `Connection::new`: a connection, a retry after a back-off, or an error;
  4. `keepAlive`— right after success: spawn the keep-alive task, or give up with `Shutdown`;
  5. `install`  — the lock section at the end of `connect`: the map now holds the connection, and the
                  waiters get it;
  6. `fail`     — the lock section of `connect`'s error path: the entry is REMOVED, whatever it is, and
                  if it was a waiter list the waiters are told `Canceled`.

  A caller may drop its call at any await point (`drop`).  Connections are numbers; what the pool knows
  of one is the error cell it shares with the engines and producers that use it.  The engines are here
  as far as they touch that cell: at the top of their loop they look at it, and take the error out.

  Logs are kept that the code does not have: which call last took the lead for an address (`flight`),
  which call led when a caller parked (`leader`), who took the lead although the pool had a valid
  connection (`leads`), and who resolved whom (`resolutions`).
-/
import Mathlib.Logic.Function.Basic
import PulsarClient.Error
import PulsarClient.Lib.Runs

namespace PulsarClient.ConnectionManager

open Runs

structure BrokerAddress where
  url : String
  brokerUrl : String
  proxy : Bool
  deriving DecidableEq, Repr

/-- `ConnectionStatus`.  A waiter's `oneshot::Sender` is named by the number of its call. -/
inductive ConnectionStatus where
  | Connected (conn lastUsed : Nat)
  | Connecting (waiters : List Nat)
  deriving DecidableEq, Repr

/-- `ConnectionRetryOptions`, of which the pool reads the retry budget and the idle limit. -/
structure ConnectionRetryOptions where
  maxRetries : Nat
  connectionMaxIdle : Nat
  deriving DecidableEq, Repr

/-- `Result<Arc<Connection>, ConnectionError>` -/
inductive Outcome where
  | Ok (conn : Nat)
  | Err (e : ConnectionError)
  deriving DecidableEq, Repr

/-- Where a call of `get_connection` or `connect` is. -/
inductive Pc where
  /-- in `get_connection`, before its lock section -/
  | looking
  /-- in `connect`, before the lock section of `connect_inner` -/
  | entering
  /-- `rx.await` in `get_connection` -/
  | parked
  /-- `rx.await` in `connect_inner` -/
  | parkedInner
  /-- `Connection::new(..).await` -/
  | establishing (retries : Nat)
  /-- `delay(current_backoff).await` -/
  | backoff (retries : Nat)
  /-- `connect`, before the lock section that installs the connection -/
  | installing (conn : Nat)
  /-- `connect`, before the lock section of the error path -/
  | failing (e : ConnectionError)
  | returned (res : Outcome)
  /-- no such call, or its future is dropped -/
  | dropped
  deriving DecidableEq, Repr

/-- Where a `ConsumerEngine` is, as far as it touches its connection's error cell. -/
inductive EnginePc where
  | absent
  /-- at the top of its loop -/
  | top
  /-- has found its connection invalid, is about to call `error()` -/
  | sawInvalid
  /-- past the check, waiting for events -/
  | running
  | reconnecting
  deriving DecidableEq, Repr

structure State where
  connections : BrokerAddress → Option ConnectionStatus := fun _ => none
  /-- the calls: how many, for which address, and where they are -/
  calls : Nat := 0
  broker : Nat → BrokerAddress := fun _ => ⟨"", "", false⟩
  pc : Nat → Pc := fun _ => .dropped
  /-- what was sent on a waiter's oneshot -/
  inbox : Nat → Option Outcome := fun _ => none
  /-- the connections: how many, and their error cells -/
  conns : Nat := 0
  errors : Nat → SharedError := fun _ => SharedError.new
  /-- the connection's `Receiver` has terminated -/
  terminated : Nat → Bool := fun _ => false
  engineConn : Nat → Nat := fun _ => 0
  enginePc : Nat → EnginePc := fun _ => .absent
  now : Nat := 0
  /-- the call that last took the lead for an address -/
  flight : BrokerAddress → Option Nat := fun _ => none
  /-- for a call that parked, the lead at that moment -/
  leader : Nat → Option Nat := fun _ => none
  /-- who took the lead, and whether the pool had a valid connection for it then -/
  leads : List (Nat × Bool) := []
  /-- who was resolved, by whom, with what -/
  resolutions : List (Nat × Nat × Outcome) := []

namespace State

/-- `Connection::is_valid` -/
def valid (s : State) (conn : Nat) : Bool := !(s.errors conn).isSet

def goto (s : State) (t : Nat) (pc : Pc) : State := { s with pc := Function.update s.pc t pc }

def setEntry (s : State) (b : BrokerAddress) (e : Option ConnectionStatus) : State :=
  { s with connections := Function.update s.connections b e }

/-- Park in the waiter list of the entry, behind `ws`. -/
def park (s : State) (t : Nat) (ws : List Nat) (pc : Pc) : State :=
  { (s.setEntry (s.broker t) (some (.Connecting (ws ++ [t])))).goto t pc with
    leader := Function.update s.leader t (s.flight (s.broker t)) }

/-- The pool has a valid connection for the address. -/
def serves (s : State) (b : BrokerAddress) : Bool :=
  match s.connections b with
  | some (.Connected conn _) => s.valid conn
  | _ => false

/-- Take the lead for the call's address. -/
def lead (s : State) (t : Nat) : State :=
  { s.goto t (.establishing 0) with
    flight := Function.update s.flight (s.broker t) (some t)
    leads := s.leads ++ [(t, s.serves (s.broker t))] }

/-- The lock section of `get_connection`. -/
def look (s : State) (t : Nat) : State :=
  match s.connections (s.broker t) with
  | none => s.goto t .entering
  | some (.Connected conn _) =>
    if s.valid conn then
      (s.setEntry (s.broker t) (some (.Connected conn s.now))).goto t (.returned (.Ok conn))
    else s.goto t .entering
  | some (.Connecting ws) => s.park t ws .parked

/-- The lock section of `connect_inner`: "first" is whoever finds no waiter. -/
def enter (s : State) (t : Nat) : State :=
  match s.connections (s.broker t) with
  | none => (s.setEntry (s.broker t) (some (.Connecting []))).lead t
  | some (.Connecting ws) => if ws.isEmpty then s.lead t else s.park t ws .parkedInner
  | some (.Connected _ _) => s.lead t

/-- `connect` after `connect_inner` returned `Ok(conn)`: spawn the keep-alive task. -/
def keepAlive (s : State) (t conn : Nat) (spawned : Bool) : State :=
  if spawned then s.goto t (.installing conn) else s.goto t (.returned (.Err .Shutdown))

/-- `Connection::new` returned `Ok`: a new connection, with a new error cell. -/
def connected (s : State) (t : Nat) (spawned : Bool) : State :=
  { s with
    conns := s.conns + 1
    errors := Function.update s.errors s.conns SharedError.new
    terminated := Function.update s.terminated s.conns false }.keepAlive t s.conns spawned

/-- `Connection::new` returned an error, after `retries` retries. -/
def refused (o : ConnectionRetryOptions) (s : State) (t retries : Nat) (e : ConnectionError) :
    State :=
  if e.establishRetryable then
    if o.maxRetries ≤ retries then s.goto t (.failing e) else s.goto t (.backoff (retries + 1))
  else s.goto t (.failing e)

/-- The waiters of an entry. -/
def waiters : Option ConnectionStatus → List Nat
  | some (.Connecting ws) => ws
  | _ => []

/-- Send an outcome to every waiter of the entry. -/
def resolve (s : State) (t : Nat) (ws : List Nat) (res : Outcome) : State :=
  { s with
    inbox := fun w => if w ∈ ws then some res else s.inbox w
    resolutions := s.resolutions ++ ws.map fun w => (w, t, res) }

/-- The lock section at the end of `connect`. -/
def install (s : State) (t conn : Nat) : State :=
  ((s.resolve t (waiters (s.connections (s.broker t))) (.Ok conn)).setEntry (s.broker t)
    (some (.Connected conn s.now))).goto t (.returned (.Ok conn))

/-- The lock section of the error path of `connect`. -/
def fail (s : State) (t : Nat) (e : ConnectionError) : State :=
  ((s.resolve t (waiters (s.connections (s.broker t))) (.Err .Canceled)).setEntry (s.broker t)
    none).goto t (.returned (.Err e))

/-- `check_connections`, with the connections someone else holds an `Arc` of. -/
def checkConnections (o : ConnectionRetryOptions) (s : State) (held : List Nat) : State :=
  { s with connections := fun b =>
      match s.connections b with
      | some (.Connected conn lastUsed) =>
        if s.valid conn ∧ (conn ∈ held ∨ s.now - lastUsed < o.connectionMaxIdle) then
          some (.Connected conn lastUsed)
        else none
      | entry => entry }

end State

inductive EngineAction where
  /-- the engine starts on a connection -/
  | start (conn : Nat)
  /-- the top of the loop: `is_valid()` -/
  | check
  /-- … and then `error()`, which takes the error out -/
  | error
  /-- an event is handled, the loop starts over -/
  | next
  /-- `reconnect` is done -/
  | reconnected (conn : Nat)
  deriving DecidableEq, Repr

inductive Action where
  /-- someone calls `get_connection` -/
  | getConnection (b : BrokerAddress)
  /-- someone calls `connect` -/
  | connect (b : BrokerAddress)
  | look (t : Nat)
  | enter (t : Nat)
  /-- `Connection::new` succeeds; does the executor take the keep-alive task? -/
  | connected (t : Nat) (spawned : Bool)
  /-- `Connection::new` fails -/
  | refused (t : Nat) (e : ConnectionError)
  /-- the back-off is over -/
  | wake (t : Nat)
  /-- a parked call reads its oneshot -/
  | receive (t : Nat) (spawned : Bool)
  | install (t : Nat)
  | fail (t : Nat)
  | drop (t : Nat)
  | checkConnections (held : List Nat)
  /-- time passes -/
  | tick
  /-- `SharedError::set` by anyone -/
  | setError (conn : Nat) (e : ConnectionError)
  /-- the connection's `Receiver` terminates -/
  | terminate (conn : Nat) (e : ConnectionError)
  /-- a `ConsumerEngine` takes a step -/
  | engine (i : Nat) (a : EngineAction)
  deriving DecidableEq, Repr

/-- A new call. -/
def State.newCall (s : State) (b : BrokerAddress) (pc : Pc) : State :=
  { s.goto s.calls pc with calls := s.calls + 1, broker := Function.update s.broker s.calls b }

/-- The part of `ConsumerEngine::engine` that touches the error cell. -/
def engineStep (s : State) (i : Nat) : EngineAction → Option State
  | .start conn =>
    if s.enginePc i = .absent ∧ conn < s.conns then
      some { s with
        engineConn := Function.update s.engineConn i conn
        enginePc := Function.update s.enginePc i .top }
    else none
  | .check =>
    if s.enginePc i = .top then
      let next : EnginePc := if s.valid (s.engineConn i) then .running else .sawInvalid
      some { s with enginePc := Function.update s.enginePc i next }
    else none
  | .error =>
    if s.enginePc i = .sawInvalid then
      let cell := s.errors (s.engineConn i)
      let next : EnginePc := if cell.removed.isSome then .reconnecting else .running
      some { s with
        errors := Function.update s.errors (s.engineConn i) cell.remove
        enginePc := Function.update s.enginePc i next }
    else none
  | .next =>
    if s.enginePc i = .running then
      some { s with enginePc := Function.update s.enginePc i .top }
    else none
  | .reconnected conn =>
    if s.enginePc i = .reconnecting ∧ conn < s.conns then
      some { s with
        engineConn := Function.update s.engineConn i conn
        enginePc := Function.update s.enginePc i .top }
    else none

def step (o : ConnectionRetryOptions) (s : State) : Action → Option State
  | .getConnection b => some (s.newCall b .looking)
  | .connect b => some (s.newCall b .entering)
  | .look t => if s.pc t = .looking then some (s.look t) else none
  | .enter t => if s.pc t = .entering then some (s.enter t) else none
  | .connected t spawned =>
    match s.pc t with
    | .establishing _ => some (s.connected t spawned)
    | _ => none
  | .refused t e =>
    match s.pc t with
    | .establishing retries => some (s.refused o t retries e)
    | _ => none
  | .wake t =>
    match s.pc t with
    | .backoff retries => some (s.goto t (.establishing retries))
    | _ => none
  | .receive t spawned =>
    match s.pc t, s.inbox t with
    | .parked, some res => some (s.goto t (.returned res))
    | .parkedInner, some (.Ok conn) => some (s.keepAlive t conn spawned)
    | .parkedInner, some (.Err e) => some (s.goto t (.failing e))
    | _, _ => none
  | .install t =>
    match s.pc t with
    | .installing conn => some (s.install t conn)
    | _ => none
  | .fail t =>
    match s.pc t with
    | .failing e => some (s.fail t e)
    | _ => none
  | .drop t =>
    match s.pc t with
    | .returned _ => none
    | .dropped => none
    | _ => some (s.goto t .dropped)
  | .checkConnections held => some (s.checkConnections o held)
  | .tick => some { s with now := s.now + 1 }
  | .setError conn e =>
    if conn < s.conns then
      some { s with errors := Function.update s.errors conn ((s.errors conn).set e) }
    else none
  | .terminate conn e =>
    if conn < s.conns then
      some { s with
        errors := Function.update s.errors conn ((s.errors conn).set e)
        terminated := Function.update s.terminated conn true }
    else none
  | .engine i a => engineStep s i a

/-- The pool of a client, from its creation. -/
def pool (o : ConnectionRetryOptions) : Sys State Action where
  init s := s = {}
  step := step o

/-! ## Frames of the lock sections -/

@[simp] theorem goto_connections (s : State) (t : Nat) (p : Pc) :
    (s.goto t p).connections = s.connections := rfl

@[simp] theorem goto_broker (s : State) (t : Nat) (p : Pc) : (s.goto t p).broker = s.broker := rfl

@[simp] theorem goto_calls (s : State) (t : Nat) (p : Pc) : (s.goto t p).calls = s.calls := rfl

@[simp] theorem goto_inbox (s : State) (t : Nat) (p : Pc) : (s.goto t p).inbox = s.inbox := rfl

@[simp] theorem goto_pc_self (s : State) (t : Nat) (p : Pc) : (s.goto t p).pc t = p :=
  Function.update_self ..

theorem goto_pc_of_ne (s : State) {t u : Nat} (p : Pc) (h : u ≠ t) : (s.goto t p).pc u = s.pc u :=
  Function.update_of_ne h ..

@[simp] theorem setEntry_self (s : State) (b : BrokerAddress) (e : Option ConnectionStatus) :
    (s.setEntry b e).connections b = e :=
  Function.update_self ..

theorem setEntry_of_ne (s : State) {b b' : BrokerAddress} (e : Option ConnectionStatus)
    (h : b' ≠ b) : (s.setEntry b e).connections b' = s.connections b' :=
  Function.update_of_ne h ..

/-! ## The calls -/

/-- The steps of the pool, one by one: what each needs and what it leaves. -/
inductive StepCases (o : ConnectionRetryOptions) (s : State) : Action → State → Prop where
  | getConnection {b} : StepCases o s (.getConnection b) (s.newCall b .looking)
  | connect {b} : StepCases o s (.connect b) (s.newCall b .entering)
  | look {t} (hpc : s.pc t = .looking) : StepCases o s (.look t) (s.look t)
  | enter {t} (hpc : s.pc t = .entering) : StepCases o s (.enter t) (s.enter t)
  | connected {t retries spawned} (hpc : s.pc t = .establishing retries) :
    StepCases o s (.connected t spawned) (s.connected t spawned)
  | refused {t retries e} (hpc : s.pc t = .establishing retries) :
    StepCases o s (.refused t e) (s.refused o t retries e)
  | wake {t retries} (hpc : s.pc t = .backoff retries) :
    StepCases o s (.wake t) (s.goto t (.establishing retries))
  | receive {t res spawned} (hpc : s.pc t = .parked) (hin : s.inbox t = some res) :
    StepCases o s (.receive t spawned) (s.goto t (.returned res))
  /-- parked in `connect_inner`: `connect` goes on -/
  | receiveInner {t conn spawned} (hpc : s.pc t = .parkedInner)
    (hin : s.inbox t = some (.Ok conn)) :
    StepCases o s (.receive t spawned) (s.keepAlive t conn spawned)
  | receiveError {t e spawned} (hpc : s.pc t = .parkedInner) (hin : s.inbox t = some (.Err e)) :
    StepCases o s (.receive t spawned) (s.goto t (.failing e))
  | install {t conn} (hpc : s.pc t = .installing conn) :
    StepCases o s (.install t) (s.install t conn)
  | fail {t e} (hpc : s.pc t = .failing e) : StepCases o s (.fail t) (s.fail t e)
  | drop {t} (hlive : ∀ res, s.pc t ≠ .returned res) (hne : s.pc t ≠ .dropped) :
    StepCases o s (.drop t) (s.goto t .dropped)
  | checkConnections {held} : StepCases o s (.checkConnections held) (s.checkConnections o held)
  | tick : StepCases o s .tick { s with now := s.now + 1 }
  | setError {conn e} (hconn : conn < s.conns) :
    StepCases o s (.setError conn e)
      { s with errors := Function.update s.errors conn ((s.errors conn).set e) }
  | terminate {conn e} (hconn : conn < s.conns) :
    StepCases o s (.terminate conn e)
      { s with
        errors := Function.update s.errors conn ((s.errors conn).set e)
        terminated := Function.update s.terminated conn true }
  | engine {i a s'} (hs : engineStep s i a = some s') : StepCases o s (.engine i a) s'

/-- **The inversion lemma** for the step of the pool. -/
theorem step_cases {o : ConnectionRetryOptions} {s s' : State} {a : Action}
    (hs : step o s a = some s') : StepCases o s a s' := by
  cases a with
  | getConnection b =>
    obtain rfl := Option.some.inj hs
    exact .getConnection
  | connect b =>
    obtain rfl := Option.some.inj hs
    exact .connect
  | look t =>
    simp only [step, Option.ite_none_right_eq_some, Option.some.injEq] at hs
    obtain ⟨hpc, rfl⟩ := hs
    exact .look hpc
  | enter t =>
    simp only [step, Option.ite_none_right_eq_some, Option.some.injEq] at hs
    obtain ⟨hpc, rfl⟩ := hs
    exact .enter hpc
  | connected t spawned =>
    simp only [step] at hs
    split at hs
    · rename_i retries hpc
      obtain rfl := Option.some.inj hs
      exact .connected hpc
    · exact absurd hs (Option.some_ne_none s').symm
  | refused t e =>
    simp only [step] at hs
    split at hs
    · rename_i retries hpc
      obtain rfl := Option.some.inj hs
      exact .refused hpc
    · exact absurd hs (Option.some_ne_none s').symm
  | wake t =>
    simp only [step] at hs
    split at hs
    · rename_i retries hpc
      obtain rfl := Option.some.inj hs
      exact .wake hpc
    · exact absurd hs (Option.some_ne_none s').symm
  | receive t spawned =>
    simp only [step] at hs
    split at hs
    · rename_i res hpc hin
      obtain rfl := Option.some.inj hs
      exact .receive hpc hin
    · rename_i conn hpc hin
      obtain rfl := Option.some.inj hs
      exact .receiveInner hpc hin
    · rename_i e hpc hin
      obtain rfl := Option.some.inj hs
      exact .receiveError hpc hin
    · exact absurd hs (Option.some_ne_none s').symm
  | install t =>
    simp only [step] at hs
    split at hs
    · rename_i conn hpc
      obtain rfl := Option.some.inj hs
      exact .install hpc
    · exact absurd hs (Option.some_ne_none s').symm
  | fail t =>
    simp only [step] at hs
    split at hs
    · rename_i e hpc
      obtain rfl := Option.some.inj hs
      exact .fail hpc
    · exact absurd hs (Option.some_ne_none s').symm
  | drop t =>
    simp only [step] at hs
    split at hs
    · exact absurd hs (Option.some_ne_none s').symm
    · exact absurd hs (Option.some_ne_none s').symm
    · rename_i hlive hne
      obtain rfl := Option.some.inj hs
      exact .drop hlive hne
  | checkConnections held =>
    obtain rfl := Option.some.inj hs
    exact .checkConnections
  | tick =>
    obtain rfl := Option.some.inj hs
    exact .tick
  | setError conn e =>
    simp only [step, Option.ite_none_right_eq_some, Option.some.injEq] at hs
    obtain ⟨hconn, rfl⟩ := hs
    exact .setError hconn
  | terminate conn e =>
    simp only [step, Option.ite_none_right_eq_some, Option.some.injEq] at hs
    obtain ⟨hconn, rfl⟩ := hs
    exact .terminate hconn
  | engine i a => exact .engine hs

/-- An engine moves itself and one error cell, the latter only to take its error. -/
theorem engineStep_frame {s s' : State} {i : Nat} {a : EngineAction}
    (hs : engineStep s i a = some s') :
    ∃ engineConn enginePc errors, s' = { s with engineConn, enginePc, errors } ∧
      errors = if a = .error then
        Function.update s.errors (s.engineConn i) (s.errors (s.engineConn i)).remove
      else s.errors := by
  cases a with
  | start conn =>
    simp only [engineStep, Option.ite_none_right_eq_some, Option.some.injEq] at hs
    exact ⟨_, _, _, hs.2.symm, (if_neg EngineAction.noConfusion).symm⟩
  | check =>
    simp only [engineStep, Option.ite_none_right_eq_some, Option.some.injEq] at hs
    exact ⟨_, _, _, hs.2.symm, (if_neg EngineAction.noConfusion).symm⟩
  | error =>
    simp only [engineStep, Option.ite_none_right_eq_some, Option.some.injEq] at hs
    exact ⟨_, _, _, hs.2.symm, (if_pos rfl).symm⟩
  | next =>
    simp only [engineStep, Option.ite_none_right_eq_some, Option.some.injEq] at hs
    exact ⟨_, _, _, hs.2.symm, (if_neg EngineAction.noConfusion).symm⟩
  | reconnected conn =>
    simp only [engineStep, Option.ite_none_right_eq_some, Option.some.injEq] at hs
    exact ⟨_, _, _, hs.2.symm, (if_neg EngineAction.noConfusion).symm⟩

/-- The step moves the call `t` and no other. -/
def Moves (t : Nat) (s s' : State) : Prop :=
  ∃ p, s'.pc = Function.update s.pc t p ∧ s'.broker = s.broker ∧ s'.calls = s.calls

theorem moves_goto (s : State) (t : Nat) (p : Pc) : Moves t s (s.goto t p) := ⟨p, rfl, rfl, rfl⟩

theorem moves_look (s : State) (t : Nat) : Moves t s (s.look t) := by
  unfold State.look
  split
  · exact moves_goto s t .entering
  · split
    · exact ⟨_, rfl, rfl, rfl⟩
    · exact moves_goto s t .entering
  · exact ⟨_, rfl, rfl, rfl⟩

theorem moves_enter (s : State) (t : Nat) : Moves t s (s.enter t) := by
  unfold State.enter
  split
  · exact ⟨_, rfl, rfl, rfl⟩
  · split
    · exact ⟨_, rfl, rfl, rfl⟩
    · exact ⟨_, rfl, rfl, rfl⟩
  · exact ⟨_, rfl, rfl, rfl⟩

theorem moves_keepAlive (s : State) (t conn : Nat) (spawned : Bool) :
    Moves t s (s.keepAlive t conn spawned) := by
  unfold State.keepAlive
  split
  · exact moves_goto s t _
  · exact moves_goto s t _

theorem moves_refused (o : ConnectionRetryOptions) (s : State) (t retries : Nat)
    (e : ConnectionError) : Moves t s (s.refused o t retries e) := by
  unfold State.refused
  split
  · split
    · exact moves_goto s t _
    · exact moves_goto s t _
  · exact moves_goto s t _

/-- What a step does to the calls: nothing, move one that is there, or add one. -/
theorem calls_of_step {o : ConnectionRetryOptions} {s s' : State} {a : Action} (hs : step o s a = some s') :
    (s'.pc = s.pc ∧ s'.broker = s.broker ∧ s'.calls = s.calls) ∨
    (∃ t, s.pc t ≠ .dropped ∧ Moves t s s') ∨
    ∃ b p, s' = s.newCall b p := by
  cases step_cases hs with
  | getConnection => exact Or.inr (Or.inr ⟨_, .looking, rfl⟩)
  | connect => exact Or.inr (Or.inr ⟨_, .entering, rfl⟩)
  | @look t hpc => exact Or.inr (Or.inl ⟨t, by rw [hpc]; exact Pc.noConfusion, moves_look s t⟩)
  | @enter t hpc => exact Or.inr (Or.inl ⟨t, by rw [hpc]; exact Pc.noConfusion, moves_enter s t⟩)
  | @connected t _ spawned hpc =>
    exact Or.inr (Or.inl ⟨t, by rw [hpc]; exact Pc.noConfusion,
      moves_keepAlive _ t s.conns spawned⟩)
  | @refused t _ e hpc =>
    exact Or.inr (Or.inl ⟨t, by rw [hpc]; exact Pc.noConfusion, moves_refused o s t _ e⟩)
  | @wake t _ hpc =>
    exact Or.inr (Or.inl ⟨t, by rw [hpc]; exact Pc.noConfusion, moves_goto s t _⟩)
  | @receive t _ _ hpc _ =>
    exact Or.inr (Or.inl ⟨t, by rw [hpc]; exact Pc.noConfusion, moves_goto s t _⟩)
  | @receiveInner t _ spawned hpc _ =>
    exact Or.inr (Or.inl ⟨t, by rw [hpc]; exact Pc.noConfusion, moves_keepAlive s t _ spawned⟩)
  | @receiveError t _ _ hpc _ =>
    exact Or.inr (Or.inl ⟨t, by rw [hpc]; exact Pc.noConfusion, moves_goto s t _⟩)
  | @install t _ hpc =>
    exact Or.inr (Or.inl ⟨t, by rw [hpc]; exact Pc.noConfusion, _, rfl, rfl, rfl⟩)
  | @fail t _ hpc =>
    exact Or.inr (Or.inl ⟨t, by rw [hpc]; exact Pc.noConfusion, _, rfl, rfl, rfl⟩)
  | @drop t _ hne => exact Or.inr (Or.inl ⟨t, hne, moves_goto s t _⟩)
  | engine hs =>
    obtain ⟨_, _, _, rfl, -⟩ := engineStep_frame hs
    exact Or.inl ⟨rfl, rfl, rfl⟩
  | _ => exact Or.inl ⟨rfl, rfl, rfl⟩

/-- Calls are numbered in the order they are made. -/
def Numbered (s : State) : Prop := ∀ t, s.calls ≤ t → s.pc t = .dropped

theorem Numbered.lt {s : State} {t : Nat} (h : Numbered s) (ht : s.pc t ≠ .dropped) :
    t < s.calls := by
  by_contra hge
  exact ht (h t (Nat.le_of_not_lt hge))

theorem Numbered.step {o : ConnectionRetryOptions} {s s' : State} {a : Action} (h : Numbered s)
    (hs : ConnectionManager.step o s a = some s') : Numbered s' := by
  rcases calls_of_step hs with ⟨hpc, -, hcalls⟩ | ⟨t, hne, p, hpc, -, hcalls⟩ | ⟨b, p, rfl⟩
  · intro t ht
    rw [hpc]
    exact h t (hcalls ▸ ht)
  · intro u hu
    rw [hcalls] at hu
    have hut : u ≠ t := by
      rintro rfl
      exact hne (h u hu)
    rw [hpc, Function.update_of_ne hut]
    exact h u hu
  · intro t ht
    have hlt : s.calls + 1 ≤ t := ht
    have hne : t ≠ s.calls := by omega
    show Function.update s.pc s.calls p t = .dropped
    rw [Function.update_of_ne hne]
    exact h t (by omega)

end PulsarClient.ConnectionManager
