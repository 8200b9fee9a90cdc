/-
  WORKING CONNECTIONS AND FAILED ONES — what the pool does to a connection that works, and what it
  knows of one that does not.

  1. A failed attempt and a WORKING connection.  The error path of `connect` removes the entry of the
     address before it looks at what it removed.  So when two attempts for an address overlap and the
     one that succeeds is installed first, the failure of the other evicts it
     (`failed_attempt_evicts`); the only failing attempt that does not is one whose keep-alive task is
     refused, which never comes to the error path (`failed_attempt_keeps_connected_iff`).  So a run
     spares every working connection exactly if its error paths find none (`working_kept_iff`).

  2. A FAILED connection.  Its failure is a flag in a cell that everyone shares, and
     `Connection::error` — which every engine calls when it finds its connection invalid — clears the
     flag.  The first engine to notice makes the connection look healthy again, to the pool and to
     every other engine (`first_engine_hides_the_failure`).  The failure is visible in a run exactly
     as long as no engine takes it (`failure_sticks_iff`).
-/
import PulsarClient.ConnectionManager.Pool

namespace PulsarClient.ConnectionManager

open Runs

/-! ## A failed attempt -/

/-- In this step the attempt of the call `t` fails: in the error path of `connect`, or because its
    keep-alive task is refused. -/
def attemptFails (s : State) (t : Nat) : Action → Bool
  | .fail u => u = t
  | .connected u false => u = t
  | .receive u false =>
    u = t && s.pc u = .parkedInner && (s.inbox u).any fun
      | .Ok _ => true
      | .Err _ => false
  | _ => false

/-- A failure that is not that of the error path leaves the pool alone. -/
theorem connections_of_attemptFails {o : ConnectionRetryOptions} {s s' : State} {a : Action} {t : Nat}
    (hfail : attemptFails s t a = true) (hne : a ≠ .fail t) (hs : step o s a = some s') :
    s'.connections = s.connections := by
  cases step_cases hs with
  | @fail u e _ =>
    obtain rfl : u = t := of_decide_eq_true hfail
    exact absurd rfl hne
  | @connected u _ spawned _ =>
    cases spawned with
    | true => exact absurd hfail Bool.false_ne_true
    | false => rfl
  | receive _ _ => rfl
  | @receiveInner u _ spawned _ _ =>
    cases spawned with
    | true => exact absurd hfail Bool.false_ne_true
    | false => rfl
  | receiveError _ _ => rfl
  | _ => exact absurd hfail Bool.false_ne_true

/-- The error path takes the entry away. -/
theorem connections_of_fail {o : ConnectionRetryOptions} {s s' : State} {t : Nat}
    (hs : step o s (.fail t) = some s') : s'.connections (s.broker t) = none := by
  cases step_cases hs with
  | @fail _ e _ => exact setEntry_self _ (s.broker t) none

/-- **Exactness.**  When an attempt fails while the pool holds a connection for its address, the pool
    still holds it afterwards exactly if the failure is not that of the error path. -/
theorem failed_attempt_keeps_connected_iff {o : ConnectionRetryOptions} {s s' : State} {a : Action}
    {t conn lastUsed : Nat} (hfail : attemptFails s t a = true)
    (hconn : s.connections (s.broker t) = some (.Connected conn lastUsed))
    (hs : step o s a = some s') :
    s'.connections (s.broker t) = some (.Connected conn lastUsed) ↔ a ≠ .fail t := by
  constructor
  · rintro hkept rfl
    exact Option.some_ne_none _ (hkept.symm.trans (connections_of_fail hs))
  · intro hne
    rw [connections_of_attemptFails hfail hne hs]
    exact hconn

/-- Two attempts overlap, the first is installed, the second is refused its keep-alive task. -/
theorem failed_attempt_keeps_connected_overlap : ∃ s s' : State,
    s.connections ⟨"pulsar://b", "b:6650", false⟩ = some (.Connected 0 0) ∧
      step ⟨0, 10⟩ s (.connected 1 false) = some s' ∧
      s'.connections ⟨"pulsar://b", "b:6650", false⟩ = some (.Connected 0 0) := by
  obtain ⟨s, -, hp⟩ := Sys.exists_reach_of_exec (S := pool ⟨0, 10⟩)
    (p := fun s => s.connections ⟨"pulsar://b", "b:6650", false⟩ == some (.Connected 0 0) &&
      (s.broker 1 == ⟨"pulsar://b", "b:6650", false⟩ && s.pc 1 == .establishing 0)) (s := {}) rfl
    [.getConnection ⟨"pulsar://b", "b:6650", false⟩, .getConnection ⟨"pulsar://b", "b:6650", false⟩,
      .look 0, .look 1, .enter 0, .enter 1, .connected 0 true, .install 0] (by decide)
  simp only [Bool.and_eq_true, beq_iff_eq] at hp
  obtain ⟨hconn, hbr, hpc⟩ := hp
  have hs : step ⟨0, 10⟩ s (.connected 1 false) = some (s.connected 1 false) := by
    simp only [step, hpc]
  refine ⟨s, s.connected 1 false, hconn, hs, ?_⟩
  have hkeep := (failed_attempt_keeps_connected_iff (t := 1) rfl (hbr ▸ hconn) hs).mpr
    Action.noConfusion
  rw [hbr] at hkeep
  exact hkeep

/-- Two attempts overlap, the first is installed, the second fails: the working connection is gone. -/
theorem failed_attempt_evicts :
    ¬ ∀ (o : ConnectionRetryOptions) (s s' : State) (a : Action) (t conn lastUsed : Nat),
      (pool o).Reach s → attemptFails s t a = true →
      s.connections (s.broker t) = some (.Connected conn lastUsed) → s.valid conn = true →
      step o s a = some s' →
      s'.connections (s.broker t) = some (.Connected conn lastUsed) := by
  intro hall
  obtain ⟨s, hreach, hp⟩ := Sys.exists_reach_of_exec (S := pool ⟨0, 10⟩)
    (p := fun s => s.connections ⟨"pulsar://b", "b:6650", false⟩ == some (.Connected 0 0) &&
      (s.broker 1 == ⟨"pulsar://b", "b:6650", false⟩ &&
        (s.pc 1 == .failing (.Io .other) && s.valid 0))) (s := {}) rfl
    [.getConnection ⟨"pulsar://b", "b:6650", false⟩, .getConnection ⟨"pulsar://b", "b:6650", false⟩,
      .look 0, .look 1, .enter 0, .enter 1, .connected 0 true, .install 0, .refused 1 (.Io .other)]
    (by decide)
  simp only [Bool.and_eq_true, beq_iff_eq] at hp
  obtain ⟨hconn, hbr, hpc, hvalid⟩ := hp
  have hs : step ⟨0, 10⟩ s (.fail 1) = some (s.fail 1 (.Io .other)) := by
    simp only [step, hpc]
  have hkept := hall ⟨0, 10⟩ s _ (.fail 1) 1 0 0 hreach rfl (hbr ▸ hconn) hvalid hs
  have hnone : (s.fail 1 (.Io .other)).connections (s.broker 1) = none :=
    setEntry_self _ (s.broker 1) none
  rw [hnone] at hkept
  exact absurd hkept.symm (Option.some_ne_none _)

/-- If an attempt fails in this step, a working connection that the pool holds for its address stays. -/
def SparesWorking (o : ConnectionRetryOptions) (s : State) (a : Action) : Prop :=
  ∀ t conn lastUsed s', attemptFails s t a = true →
    s.connections (s.broker t) = some (.Connected conn lastUsed) → s.valid conn = true →
    step o s a = some s' → s'.connections (s.broker t) = some (.Connected conn lastUsed)

/-- The step is not the error path of a call whose address the pool has a working connection for. -/
def failsUnserved (s : State) : Action → Bool
  | .fail t => !s.serves (s.broker t)
  | _ => true

theorem serves_eq_true_iff {s : State} {b : BrokerAddress} : s.serves b = true ↔
    ∃ conn lastUsed, s.connections b = some (.Connected conn lastUsed) ∧ s.valid conn = true := by
  unfold State.serves
  split
  · rename_i conn lastUsed hb
    constructor
    · exact fun hvalid => ⟨conn, lastUsed, hb, hvalid⟩
    · rintro ⟨conn', lastUsed', hb', hvalid⟩
      obtain ⟨rfl, -⟩ := ConnectionStatus.Connected.inj (Option.some.inj (hb.symm.trans hb'))
      exact hvalid
  · rename_i hnone
    exact iff_of_false Bool.false_ne_true fun ⟨conn, lastUsed, hb, _⟩ => hnone conn lastUsed hb

/-- **The step lemma.** -/
theorem sparesWorking_iff {o : ConnectionRetryOptions} {s s' : State} {a : Action}
    (hs : step o s a = some s') : SparesWorking o s a ↔ failsUnserved s a = true := by
  by_cases herror : ∃ t, a = .fail t
  · obtain ⟨t, rfl⟩ := herror
    show _ ↔ (!s.serves (s.broker t)) = true
    rw [Bool.not_eq_true', ← Bool.not_eq_true, serves_eq_true_iff]
    constructor
    · rintro hspares ⟨conn, lastUsed, hconn, hvalid⟩
      have hkept := hspares t conn lastUsed s' (decide_eq_true rfl) hconn hvalid hs
      exact Option.some_ne_none _ (hkept.symm.trans (connections_of_fail hs))
    · intro hunserved u conn lastUsed _ hfail hconn hvalid _
      obtain rfl : t = u := of_decide_eq_true hfail
      exact absurd ⟨conn, lastUsed, hconn, hvalid⟩ hunserved
  · have hunserved : failsUnserved s a = true := by
      unfold failsUnserved
      split
      · exact absurd ⟨_, rfl⟩ herror
      · rfl
    refine iff_of_true (fun t conn lastUsed s'' hfail hconn _ hs'' => ?_) hunserved
    rw [connections_of_attemptFails hfail (fun ha => herror ⟨t, ha⟩) hs'']
    exact hconn

/-- **The run lemma.**  A run spares the working connections, whatever attempts fail in it, exactly if no
    call comes to the error path of `connect` while the pool serves its address. -/
theorem working_kept_iff (o : ConnectionRetryOptions) (s : State) (as : List Action) :
    (pool o).Guarded (SparesWorking o) s as ↔
      (pool o).Guarded (fun s a => failsUnserved s a = true) s as :=
  Sys.guarded_iff_guarded (I := fun _ => True) (fun _ _ _ _ _ _ => trivial)
    (fun _ _ _ _ hs => sparesWorking_iff hs) as s trivial

/-! ## A failed connection -/

/-- Whoever looks at the connection sees that it has failed: `is_valid`, the pool, and every engine
    that uses it. -/
structure SeenFailed (conn : Nat) (s : State) : Prop where
  invalid : s.valid conn = false
  notHandedOut : ∀ t, s.pc t = .looking → (s.look t).pc t ≠ .returned (.Ok conn)
  seenByEngines : ∀ i s', s.engineConn i = conn → engineStep s i .check = some s' →
    s'.enginePc i = .sawInvalid

/-- `is_valid` decides what the pool and the engines see. -/
theorem seenFailed_iff {conn : Nat} {s : State} : SeenFailed conn s ↔ s.valid conn = false := by
  refine ⟨SeenFailed.invalid, fun hinv => ⟨hinv, ?_, ?_⟩⟩
  · intro t hpc hret
    unfold State.look at hret
    split at hret
    · rw [goto_pc_self] at hret
      exact Pc.noConfusion hret
    · split at hret
      · rename_i hvalid
        rw [goto_pc_self, Pc.returned.injEq, Outcome.Ok.injEq] at hret
        subst hret
        rw [hinv] at hvalid
        exact absurd hvalid Bool.false_ne_true
      · rw [goto_pc_self] at hret
        exact Pc.noConfusion hret
    · rename_i ws _
      have hpark : (s.park t ws .parked).pc t = .parked :=
        goto_pc_self (s.setEntry (s.broker t) _) t .parked
      rw [hpark] at hret
      exact Pc.noConfusion hret
  · intro i s' hconn hs
    simp only [engineStep, hconn, hinv] at hs
    split at hs
    · obtain rfl := Option.some.inj hs
      exact Function.update_self ..
    · exact absurd hs (Option.some_ne_none s').symm

/-- Every connection whose `Receiver` has terminated is seen as failed. -/
def FailuresSeen (s : State) : Prop := ∀ conn, s.terminated conn = true → SeenFailed conn s

/-- The step is not an engine's `error()` on a connection whose `Receiver` has terminated. -/
def leavesError (s : State) : Action → Bool
  | .engine i .error => !s.terminated (s.engineConn i)
  | _ => true

/-- The call steps of the pool leave the error cells alone. -/
def SameHealth (s s' : State) : Prop :=
  s'.errors = s.errors ∧ s'.terminated = s.terminated

theorem sameHealth_look (s : State) (t : Nat) : SameHealth s (s.look t) := by
  unfold State.look
  split
  · exact ⟨rfl, rfl⟩
  · split
    · exact ⟨rfl, rfl⟩
    · exact ⟨rfl, rfl⟩
  · exact ⟨rfl, rfl⟩

theorem sameHealth_enter (s : State) (t : Nat) : SameHealth s (s.enter t) := by
  unfold State.enter
  split
  · exact ⟨rfl, rfl⟩
  · split
    · exact ⟨rfl, rfl⟩
    · exact ⟨rfl, rfl⟩
  · exact ⟨rfl, rfl⟩

theorem sameHealth_keepAlive (s : State) (t conn : Nat) (spawned : Bool) :
    SameHealth s (s.keepAlive t conn spawned) := by
  unfold State.keepAlive
  split
  · exact ⟨rfl, rfl⟩
  · exact ⟨rfl, rfl⟩

theorem sameHealth_refused (o : ConnectionRetryOptions) (s : State) (t retries : Nat)
    (e : ConnectionError) : SameHealth s (s.refused o t retries e) := by
  unfold State.refused
  split
  · split
    · exact ⟨rfl, rfl⟩
    · exact ⟨rfl, rfl⟩
  · exact ⟨rfl, rfl⟩

/-- What a step does to the error cells. -/
inductive HealthStep (s s' : State) (a : Action) : Prop where
  | same (h : SameHealth s s') (hok : leavesError s a = true)
  /-- a new connection, with a new cell -/
  | new (herr : s'.errors = Function.update s.errors s.conns SharedError.new)
      (hterm : s'.terminated = Function.update s.terminated s.conns false)
      (hok : leavesError s a = true)
  /-- an error is set, perhaps because the receiver terminates -/
  | set (conn : Nat) (e : ConnectionError)
      (herr : s'.errors = Function.update s.errors conn ((s.errors conn).set e))
      (hterm : ∀ c, s'.terminated c = true → s.terminated c = true ∨ c = conn)
      (hok : leavesError s a = true)
  /-- an engine takes the error -/
  | take (conn : Nat) (herr : s'.errors = Function.update s.errors conn (s.errors conn).remove)
      (hterm : s'.terminated = s.terminated) (hok : leavesError s a = !s.terminated conn)

theorem healthStep {o : ConnectionRetryOptions} {s s' : State} {a : Action}
    (hs : step o s a = some s') : HealthStep s s' a := by
  cases step_cases hs with
  | look _ => exact .same (sameHealth_look s _) rfl
  | enter _ => exact .same (sameHealth_enter s _) rfl
  | @connected t _ spawned _ =>
    obtain ⟨herr, hterm⟩ := sameHealth_keepAlive
      { s with
        conns := s.conns + 1
        errors := Function.update s.errors s.conns SharedError.new
        terminated := Function.update s.terminated s.conns false } t s.conns spawned
    exact .new herr hterm rfl
  | refused _ => exact .same (sameHealth_refused o s _ _ _) rfl
  | receiveInner _ _ => exact .same (sameHealth_keepAlive s _ _ _) rfl
  | setError _ => exact .set _ _ rfl (fun c hc => Or.inl hc) rfl
  | @terminate conn e _ =>
    refine .set conn e rfl (fun c hc => ?_) rfl
    by_cases hcc : c = conn
    · exact Or.inr hcc
    · exact Or.inl ((Function.update_of_ne hcc true s.terminated) ▸ hc)
  | @engine i a _ hs =>
    obtain ⟨_, _, _, rfl, herr⟩ := engineStep_frame hs
    cases a with
    | error => exact .take (s.engineConn i) herr rfl rfl
    | _ => exact .same ⟨herr, rfl⟩ rfl
  | _ => exact .same ⟨rfl, rfl⟩ rfl

/-- A step keeps every failure visible exactly when it takes none. -/
theorem failuresSeen_step_iff {o : ConnectionRetryOptions} {s s' : State} {a : Action}
    (h : FailuresSeen s) (hs : step o s a = some s') :
    FailuresSeen s' ↔ leavesError s a = true := by
  have hinv : ∀ c, s.terminated c = true → s.valid c = false := fun c hc => (h c hc).invalid
  cases healthStep hs with
  | same hsame hok =>
    refine ⟨fun _ => hok, fun _ c hc => seenFailed_iff.mpr ?_⟩
    unfold State.valid
    rw [hsame.1]
    exact hinv c (hsame.2 ▸ hc)
  | new herr hterm hok =>
    refine ⟨fun _ => hok, fun _ c hc => seenFailed_iff.mpr ?_⟩
    have hcc : c ≠ s.conns := by
      rintro rfl
      rw [hterm, Function.update_self] at hc
      exact absurd hc Bool.false_ne_true
    rw [hterm, Function.update_of_ne hcc] at hc
    unfold State.valid
    rw [herr, Function.update_of_ne hcc]
    exact hinv c hc
  | set conn e herr hterm hok =>
    refine ⟨fun _ => hok, fun _ c hc => seenFailed_iff.mpr ?_⟩
    unfold State.valid
    rw [herr]
    by_cases hcc : c = conn
    · subst hcc
      rw [Function.update_self]
      rfl
    · rw [Function.update_of_ne hcc]
      rcases hterm c hc with hc | hc
      · exact hinv c hc
      · exact absurd hc hcc
  | take conn herr hterm hok =>
    rw [hok, Bool.not_eq_true']
    constructor
    · intro hseen
      rw [← Bool.not_eq_true]
      intro hc
      have hvalid := (hseen conn (hterm ▸ hc)).invalid
      unfold State.valid at hvalid
      rw [herr, Function.update_self] at hvalid
      exact absurd hvalid.symm Bool.false_ne_true
    · intro hnot c hc
      rw [hterm] at hc
      have hcc : c ≠ conn := by
        rintro rfl
        rw [hnot] at hc
        exact absurd hc Bool.false_ne_true
      refine seenFailed_iff.mpr ?_
      unfold State.valid
      rw [herr, Function.update_of_ne hcc]
      exact hinv c hc

/-- **Exactness.**  In a run the failure of every terminated connection stays visible to all exactly
    when no engine takes it with `Connection::error`. -/
theorem failure_sticks_iff (o : ConnectionRetryOptions) (as : List Action) :
    (pool o).Along FailuresSeen {} as ↔
      (pool o).Guarded (fun s a => leavesError s a = true) {} as := by
  refine Sys.along_iff_guarded (S := pool o) (I := fun _ => True) (fun _ _ _ _ _ => trivial)
    (fun _ _ _ _ h hs => failuresSeen_step_iff h hs) as {} trivial ?_
  exact fun c hc => absurd hc Bool.false_ne_true

/-- Two engines share a connection whose receiver has terminated.  The first takes the error; then the
    pool hands the connection out and the second engine goes on as if nothing had happened. -/
theorem first_engine_hides_the_failure :
    ¬ ∀ (o : ConnectionRetryOptions) (s : State), (pool o).Reach s →
      ∀ conn, s.terminated conn = true → SeenFailed conn s := by
  intro hall
  obtain ⟨s, hs, hp⟩ := Sys.exists_reach_of_exec (S := pool ⟨0, 10⟩)
    (p := fun s => s.terminated 0 && (s.valid 0 && (s.pc 1 == .returned (.Ok 0) &&
      (s.engineConn 1 == 0 && s.enginePc 1 == .running)))) (s := {}) rfl
    [.getConnection ⟨"pulsar://b", "b:6650", false⟩, .look 0, .enter 0, .connected 0 true, .install 0,
      .engine 0 (.start 0), .engine 1 (.start 0), .terminate 0 .Disconnected,
      .engine 0 .check, .engine 0 .error,
      .getConnection ⟨"pulsar://b", "b:6650", false⟩, .look 1, .engine 1 .check] (by decide)
  simp only [Bool.and_eq_true] at hp
  have hinv := (hall ⟨0, 10⟩ s hs 0 hp.1).invalid
  rw [hp.2.1] at hinv
  exact absurd hinv.symm Bool.false_ne_true

end PulsarClient.ConnectionManager
