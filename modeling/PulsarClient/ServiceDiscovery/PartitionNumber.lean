/-
  `lookup_partitioned_topic_number_with_options` — does it give up?

  The loop of `lookup_topic`, less the redirects, and less the deadline: `operation_timeout` bounds the
  retries there ("Topic lookup now gives up"), and is not looked at here.

  1. THE PROGRAM — one turn of the loop on what it meets, and the loop on an endless supply of these.
     The retries are logged: when each was decided on, and when it asked.

  2. `lookupNumber_of_retried` — after `k` answers "not ready" there have been `k` retries, at the times
     of the closed form `elapsedAt`.

  3. `gives_up_iff` — the retries are over before `operation_timeout` exactly when the answers "not
     ready" are: nothing but the broker ends them, unless `max_retries` is set.
-/
import PulsarClient.ServiceDiscovery
import PulsarClient.ServiceDiscovery.Names

namespace PulsarClient.ServiceDiscovery.PartitionNumber

open ConnectionManager

/-! ## The program -/

/-- `CommandPartitionedTopicMetadataResponse` -/
structure MetadataResponse where
  partitions : Option UInt32
  response : Option Int
  error : Option Int
  message : Option String
  deriving DecidableEq

/-- `LookupType::Failed as i32` -/
def failedType : Int := 1

namespace MetadataResponse

variable (r : MetadataResponse)

def Failed : Prop := r.response = none ∨ r.response = some failedType

/-- `response.error.and_then(server_error)` -/
def serverError : Option ServerError := r.error.bind PulsarClient.serverError

instance : Decidable r.Failed := inferInstanceAs (Decidable (_ ∨ _))

end MetadataResponse

inductive Outcome where
  | Ok (partitions : UInt32)
  | Err (e : ServiceDiscoveryError)
  deriving DecidableEq

/-- What one turn of the loop meets. -/
structure Turn where
  reply : Timed (Except ConnectionError MetadataResponse)
  /-- `get_base_connection`, if the connection was closed -/
  reconnected : Timed (Except ConnectionError Unit)
  /-- to the request made then -/
  secondReply : Timed (Except ConnectionError MetadataResponse)
  /-- by how much a `delay` is late -/
  overslept : Nat

/-- `Err(ConnectionError::Disconnected)` -/
def Turn.closed (t : Turn) : Bool :=
  match t.reply.value with
  | .error .Disconnected => true
  | _ => false

/-- What one lookup meets. -/
structure Environment where
  /-- `get_base_connection` -/
  base : Except ConnectionError Unit
  turns : Nat → Turn

/-- A retry: when it was decided on, and when it asked. -/
structure Retry where
  decided : Nat
  asked : Nat
  deriving DecidableEq, Repr

structure Lookup where
  /-- a `u32`: with a limit, which is one too, it does not pass it, and without one it is only logged -/
  currentRetries : Nat
  elapsed : Nat
  /-- not in the source -/
  retries : List Retry
  returned : Option Outcome
  deriving DecidableEq

namespace Lookup

def spend (s : Lookup) (took : Nat) : Lookup := { s with elapsed := s.elapsed + took }

def finish (s : Lookup) (outcome : Outcome) : Lookup := { s with returned := some outcome }

/-- A request, and one more on a new connection when the connection was closed. -/
def ask (s : Lookup) (t : Turn) : Lookup × Except ConnectionError MetadataResponse :=
  let s := s.spend t.reply.took
  if t.closed then
    let s := s.spend t.reconnected.took
    match t.reconnected.value with
    | .error e => (s, .error e)
    | .ok () => (s.spend t.secondReply.took, t.secondReply.value)
  else (s, t.reply.value)

/-- `executor.delay(retry_delay)`, and round again. -/
def retry (o : RetryOptions) (s : Lookup) (t : Turn) : Lookup :=
  { s with
    currentRetries := s.currentRetries + 1
    elapsed := s.elapsed + (o.retryDelay + t.overslept)
    retries := s.retries ++
      [{ decided := s.elapsed, asked := s.elapsed + (o.retryDelay + t.overslept) }] }

/-- The broker has failed the lookup.  The second condition is `allow_retry`, written out. -/
def failed (o : RetryOptions) (s : Lookup) (t : Turn) (r : MetadataResponse) : Lookup :=
  if r.serverError = some .ServiceNotReady ∧ o.allowRetry s.currentRetries then s.retry o t
  else s.finish (.Err (.Query r.serverError r.message))

/-- The broker has answered. -/
def answered (s : Lookup) (r : MetadataResponse) : Lookup :=
  match r.partitions with
  | some partitions => s.finish (.Ok partitions)
  | none => s.finish (.Err (.Query r.serverError r.message))

/-- One turn of the loop. -/
def turn (o : RetryOptions) (s : Lookup) (t : Turn) : Lookup :=
  match s.returned with
  | some _ => s
  | none =>
    match s.ask t with
    | (s, .error e) => s.finish (.Err (.Connection e))
    | (s, .ok r) => if r.Failed then s.failed o t r else s.answered r

/-- Before the loop: a name of a partition is answered by itself. -/
def start (topic : String) (metadataAutoCreationEnabled : Bool) (base : Except ConnectionError Unit) :
    Lookup :=
  { currentRetries := 0
    elapsed := 0
    retries := []
    returned :=
      if metadataAutoCreationEnabled && isTopicPartitionName topic then some (.Ok 0)
      else
        match base with
        | .error e => some (.Err (.Connection e))
        | .ok () => none }

end Lookup

/-- `lookup_partitioned_topic_number_with_options`, after `n` turns. -/
def lookupNumber (o : RetryOptions) (topic : String) (metadataAutoCreationEnabled : Bool)
    (env : Environment) : Nat → Lookup
  | 0 => .start topic metadataAutoCreationEnabled env.base
  | n + 1 => (lookupNumber o topic metadataAutoCreationEnabled env n).turn o (env.turns n)

/-! ## What the broker answers, and when -/

namespace Turn

/-- When the answer is there. -/
def took (t : Turn) : Nat :=
  if t.closed then
    match t.reconnected.value with
    | .error _ => t.reply.took + t.reconnected.took
    | .ok () => t.reply.took + t.reconnected.took + t.secondReply.took
  else t.reply.took

/-- The answer. -/
def answer (t : Turn) : Except ConnectionError MetadataResponse :=
  if t.closed then
    match t.reconnected.value with
    | .error e => .error e
    | .ok () => t.secondReply.value
  else t.reply.value

/-- "Not ready". -/
def NotReady (t : Turn) : Prop :=
  ∃ r, t.answer = .ok r ∧ r.Failed ∧ r.serverError = some .ServiceNotReady

end Turn

/-- The time that has passed when the request of turn `k` is made, all before it being retried. -/
def elapsedAt (o : RetryOptions) (env : Environment) : Nat → Nat
  | 0 => 0
  | k + 1 => elapsedAt o env k + (env.turns k).took + (o.retryDelay + (env.turns k).overslept)

/-- … and when its answer is there. -/
def answeredAt (o : RetryOptions) (env : Environment) (k : Nat) : Nat :=
  elapsedAt o env k + (env.turns k).took

/-- The broker is asked, answers "not ready" so far, and `max_retries` allows one more retry. -/
structure Retried (o : RetryOptions) (topic : String) (metadataAutoCreationEnabled : Bool)
    (env : Environment) (k : Nat) : Prop where
  asks : (metadataAutoCreationEnabled && isTopicPartitionName topic) = false
  base : env.base = .ok ()
  notReady : ∀ j ≤ k, (env.turns j).NotReady
  allowed : o.allowRetry k = true

/-- It returns, and all that it retries is in time. -/
def GivesUp (o : RetryOptions) (topic : String) (metadataAutoCreationEnabled : Bool)
    (env : Environment) (time : Retry → Nat) : Prop :=
  (∃ n, (lookupNumber o topic metadataAutoCreationEnabled env n).returned.isSome = true) ∧
    ∀ n, ∀ retry ∈ (lookupNumber o topic metadataAutoCreationEnabled env n).retries,
      time retry < o.operationTimeout

/-! ## One turn -/

section

variable {o : RetryOptions} {topic : String} {auto : Bool} {env : Environment} {s : Lookup} {t : Turn}

theorem allowRetry_of_le {o : OperationRetryOptions} {j k : Nat} (hjk : j ≤ k)
    (h : o.allowRetry k = true) : o.allowRetry j = true := by
  unfold OperationRetryOptions.allowRetry at h ⊢
  split
  · rfl
  · rename_i m hm
    rw [hm] at h
    have hlt : k < m := of_decide_eq_true h
    exact decide_eq_true (by omega)

/-- Asking takes its time. -/
theorem ask_eq (s : Lookup) (t : Turn) : s.ask t = (s.spend t.took, t.answer) := by
  unfold Lookup.ask Turn.took Turn.answer
  cases t.closed with
  | false => rfl
  | true =>
    cases t.reconnected.value with
    | error e =>
      simp only [if_true, Lookup.spend, Nat.add_assoc]
    | ok v =>
      simp only [if_true, Lookup.spend, Nat.add_assoc]

theorem turn_of_returned (h : s.returned.isSome = true) (t : Turn) : s.turn o t = s := by
  obtain ⟨outcome, houtcome⟩ := Option.isSome_iff_exists.mp h
  unfold Lookup.turn
  rw [houtcome]

theorem turn_of_running (h : s.returned = none) (t : Turn) :
    s.turn o t =
      match t.answer with
      | .error e => (s.spend t.took).finish (.Err (.Connection e))
      | .ok r =>
        if r.Failed then (s.spend t.took).failed o t r else (s.spend t.took).answered r := by
  unfold Lookup.turn
  rw [h, ask_eq]
  cases t.answer with
  | error e => rfl
  | ok r => rfl

/-- **A turn** retries, or returns. -/
theorem turn_cases (h : s.returned = none) (o : RetryOptions) (t : Turn) :
    (t.NotReady ∧ o.allowRetry s.currentRetries = true ∧
        s.turn o t = (s.spend t.took).retry o t) ∨
      ¬ (t.NotReady ∧ o.allowRetry s.currentRetries = true) ∧
        (s.turn o t).returned.isSome = true ∧ (s.turn o t).retries = s.retries := by
  rw [turn_of_running h]
  cases hanswer : t.answer with
  | error e =>
    refine Or.inr ⟨?_, rfl, rfl⟩
    rintro ⟨⟨r, hr, -⟩, -⟩
    cases hanswer.symm.trans hr
  | ok r =>
    have hready : t.NotReady ↔ r.Failed ∧ r.serverError = some .ServiceNotReady := by
      constructor
      · rintro ⟨r', hr', h⟩
        obtain rfl := Except.ok.inj (hanswer.symm.trans hr')
        exact h
      · exact fun h => ⟨r, hanswer, h⟩
    rw [hready]
    by_cases hfailed : r.Failed
    · simp only [if_pos hfailed]
      unfold Lookup.failed
      by_cases hretry : r.serverError = some .ServiceNotReady ∧ o.allowRetry s.currentRetries = true
      · exact Or.inl ⟨⟨hfailed, hretry.1⟩, hretry.2, if_pos hretry⟩
      · have hends : (if r.serverError = some .ServiceNotReady ∧
            o.allowRetry (s.spend t.took).currentRetries = true then (s.spend t.took).retry o t
            else (s.spend t.took).finish (.Err (.Query r.serverError r.message))) =
              (s.spend t.took).finish (.Err (.Query r.serverError r.message)) := if_neg hretry
        rw [hends]
        exact Or.inr ⟨fun hboth => hretry ⟨hboth.1.2, hboth.2⟩, rfl, rfl⟩
    · simp only [if_neg hfailed]
      refine Or.inr ⟨fun hboth => hfailed hboth.1.1, ?_⟩
      unfold Lookup.answered
      cases r.partitions with
      | none => exact ⟨rfl, rfl⟩
      | some partitions => exact ⟨rfl, rfl⟩

/-! ## Whole lookups -/

/-- The retry after turn `k`. -/
def retryAt (o : RetryOptions) (env : Environment) (k : Nat) : Retry :=
  { decided := answeredAt o env k, asked := elapsedAt o env (k + 1) }

theorem start_running (hasks : (auto && isTopicPartitionName topic) = false)
    (hbase : env.base = .ok ()) :
    lookupNumber o topic auto env 0 =
      { currentRetries := 0, elapsed := 0, retries := [], returned := none } := by
  show Lookup.start topic auto env.base = _
  unfold Lookup.start
  rw [hasks, hbase]
  rfl

/-- The lookup that has made `k` retries. -/
def retrying (o : RetryOptions) (env : Environment) (k : Nat) : Lookup :=
  { currentRetries := k
    elapsed := elapsedAt o env k
    retries := (List.range k).map (retryAt o env)
    returned := none }

/-- **The run lemma**: when every answer was "not ready", there was a retry for each. -/
theorem lookupNumber_of_retried (hasks : (auto && isTopicPartitionName topic) = false)
    (hbase : env.base = .ok ()) (k : Nat)
    (hall : ∀ j < k, (env.turns j).NotReady ∧ o.allowRetry j = true) :
    lookupNumber o topic auto env k = retrying o env k := by
  induction k with
  | zero => exact start_running hasks hbase
  | succ k ih =>
    have hbefore := ih fun j hj => hall j (Nat.lt_succ_of_lt hj)
    show (lookupNumber o topic auto env k).turn o (env.turns k) = _
    rw [hbefore]
    rcases turn_cases (s := retrying o env k) rfl o (env.turns k) with ⟨-, -, hretry⟩ | ⟨hnot, -⟩
    · rw [hretry]
      unfold retrying
      rw [List.range_succ, List.map_append]
      rfl
    · exact absurd (hall k (Nat.lt_succ_self k)) hnot

/-- The first answer that is not retried ends it. -/
theorem returned_of_not_retried (hasks : (auto && isTopicPartitionName topic) = false)
    (hbase : env.base = .ok ()) (k : Nat)
    (hall : ∀ j < k, (env.turns j).NotReady ∧ o.allowRetry j = true)
    (hnot : ¬ ((env.turns k).NotReady ∧ o.allowRetry k = true)) :
    (lookupNumber o topic auto env (k + 1)).returned.isSome = true ∧
      (lookupNumber o topic auto env (k + 1)).retries = (List.range k).map (retryAt o env) := by
  show ((lookupNumber o topic auto env k).turn o (env.turns k)).returned.isSome = true ∧
    ((lookupNumber o topic auto env k).turn o (env.turns k)).retries = _
  rw [lookupNumber_of_retried hasks hbase k hall]
  rcases turn_cases (s := retrying o env k) rfl o (env.turns k) with ⟨hready, hallowed, -⟩ | ⟨-, hends⟩
  · exact absurd ⟨hready, hallowed⟩ hnot
  · exact hends

theorem lookupNumber_of_le {n n' : Nat} (hle : n ≤ n')
    (h : (lookupNumber o topic auto env n).returned.isSome = true) :
    lookupNumber o topic auto env n' = lookupNumber o topic auto env n := by
  apply Runs.eq_of_le_of_stopped hle (fun s : Lookup => s.returned.isSome = true) ?_ h
  intro k hreturned
  exact turn_of_returned hreturned (env.turns k)

theorem retried_of_all (hasks : (auto && isTopicPartitionName topic) = false)
    (hbase : env.base = .ok ()) {k : Nat}
    (hall : ∀ j < k + 1, (env.turns j).NotReady ∧ o.allowRetry j = true) :
    Retried o topic auto env k :=
  ⟨hasks, hbase, fun j hj => (hall j (Nat.lt_succ_of_le hj)).1, (hall k (Nat.lt_succ_self k)).2⟩

/-- Without asking, or without a connection, it has returned at once. -/
theorem retries_of_not_asking
    (h : ¬ ((auto && isTopicPartitionName topic) = false ∧ env.base = .ok ())) (n : Nat) :
    (lookupNumber o topic auto env n).returned.isSome = true ∧
      (lookupNumber o topic auto env n).retries = [] := by
  have hstart : (lookupNumber o topic auto env 0).returned.isSome = true := by
    show (Lookup.start topic auto env.base).returned.isSome = true
    unfold Lookup.start
    cases hasks : auto && isTopicPartitionName topic with
    | true => rfl
    | false =>
      cases hbase : env.base with
      | error e => rfl
      | ok v => exact absurd ⟨hasks, hbase⟩ h
  rw [lookupNumber_of_le (Nat.zero_le n) hstart]
  exact ⟨hstart, rfl⟩

theorem exists_first {P : Nat → Prop} {n : Nat} (h : ¬ P n) : ∃ N, N ≤ n ∧ ¬ P N ∧ ∀ j < N, P j := by
  classical
  have hexists : ∃ n, ¬ P n := ⟨n, h⟩
  refine ⟨Nat.find hexists, Nat.find_min' hexists h, Nat.find_spec hexists, fun j hj => ?_⟩
  exact not_not.mp (Nat.find_min hexists hj)

/-- **Every retry** in the log is that after an answer "not ready", … -/
theorem retry_of_mem {n : Nat} {retry : Retry}
    (h : retry ∈ (lookupNumber o topic auto env n).retries) :
    ∃ k, Retried o topic auto env k ∧ retry = retryAt o env k := by
  by_cases hask : (auto && isTopicPartitionName topic) = false ∧ env.base = .ok ()
  · obtain ⟨hasks, hbase⟩ := hask
    by_cases hall : ∀ j < n, (env.turns j).NotReady ∧ o.allowRetry j = true
    · rw [lookupNumber_of_retried hasks hbase n hall] at h
      obtain ⟨k, hk, rfl⟩ := List.mem_map.mp h
      refine ⟨k, retried_of_all hasks hbase fun j hj => hall j ?_, rfl⟩
      exact Nat.lt_of_lt_of_le hj (List.mem_range.mp hk)
    · -- it ended with the first answer that was not retried
      obtain ⟨i, hi⟩ := not_forall.mp hall
      obtain ⟨hlt, hfirst⟩ := Classical.not_imp.mp hi
      obtain ⟨N, hle, hnot, hleast⟩ := exists_first
        (P := fun j => (env.turns j).NotReady ∧ o.allowRetry j = true) hfirst
      have hN : N + 1 ≤ n := by omega
      obtain ⟨hreturned, hretries⟩ := returned_of_not_retried hasks hbase N hleast hnot
      rw [lookupNumber_of_le hN hreturned, hretries] at h
      obtain ⟨k, hk, rfl⟩ := List.mem_map.mp h
      refine ⟨k, retried_of_all hasks hbase fun j hj => hleast j ?_, rfl⟩
      exact Nat.lt_of_lt_of_le hj (List.mem_range.mp hk)
  · rw [(retries_of_not_asking hask n).2] at h
    cases h

/-- … and every such answer has its retry. -/
theorem retryAt_mem {k : Nat} (h : Retried o topic auto env k) :
    retryAt o env k ∈ (lookupNumber o topic auto env (k + 1)).retries := by
  have hall : ∀ j < k + 1, (env.turns j).NotReady ∧ o.allowRetry j = true := fun j hj =>
    ⟨h.notReady j (Nat.le_of_lt_succ hj), allowRetry_of_le (Nat.le_of_lt_succ hj) h.allowed⟩
  rw [lookupNumber_of_retried h.asks h.base _ hall]
  exact List.mem_map.mpr ⟨k, List.mem_range.mpr (Nat.lt_succ_self k), rfl⟩

/-- Each retry takes its delay. -/
theorem le_elapsedAt (hdelay : 0 < o.retryDelay) (k : Nat) : k ≤ elapsedAt o env k := by
  induction k with
  | zero => exact Nat.le_refl 0
  | succ k ih =>
    show k + 1 ≤ elapsedAt o env k + (env.turns k).took + (o.retryDelay + (env.turns k).overslept)
    omega

/-- It is not retried for ever if retries are in time. -/
theorem returns_of_bound (hdelay : 0 < o.retryDelay)
    (hbound : ∀ k, Retried o topic auto env k → answeredAt o env k < o.operationTimeout) :
    ∃ n, (lookupNumber o topic auto env n).returned.isSome = true := by
  by_cases hask : (auto && isTopicPartitionName topic) = false ∧ env.base = .ok ()
  · obtain ⟨hasks, hbase⟩ := hask
    by_cases hall : ∀ j, (env.turns j).NotReady ∧ o.allowRetry j = true
    · have hlt := hbound o.operationTimeout (retried_of_all hasks hbase fun j _ => hall j)
      have hle : o.operationTimeout ≤ elapsedAt o env o.operationTimeout := le_elapsedAt hdelay _
      unfold answeredAt at hlt
      omega
    · obtain ⟨i, hi⟩ := not_forall.mp hall
      obtain ⟨N, -, hnot, hleast⟩ := exists_first
        (P := fun j => (env.turns j).NotReady ∧ o.allowRetry j = true) hi
      exact ⟨N + 1, (returned_of_not_retried hasks hbase N hleast hnot).1⟩
  · exact ⟨0, (retries_of_not_asking hask 0).1⟩

/-- What is retried is in time, by any clock of a retry that runs with the answers. -/
theorem gives_up_of_time {time : Retry → Nat} (hdelay : 0 < o.retryDelay)
    (htime : ∀ k, answeredAt o env k ≤ time (retryAt o env k)) :
    GivesUp o topic auto env time ↔
      ∀ k, Retried o topic auto env k → time (retryAt o env k) < o.operationTimeout := by
  constructor
  · rintro ⟨-, hin⟩ k hk
    exact hin (k + 1) _ (retryAt_mem hk)
  · intro h
    refine ⟨returns_of_bound hdelay fun k hk => Nat.lt_of_le_of_lt (htime k) (h k hk), ?_⟩
    intro n retry hmem
    obtain ⟨k, hk, rfl⟩ := retry_of_mem hmem
    exact h k hk

end

/-! ## The main result -/

/-- **Headline.**  The lookup returns, and decides on no retry once the time is up, exactly when each
    answer "not ready" that it retries is there before; and it returns, and asks no more once the time is
    up, exactly when there is also time for the delay. -/
theorem gives_up_iff (o : RetryOptions) (hdelay : 0 < o.retryDelay) (topic : String) (auto : Bool)
    (env : Environment) :
    (GivesUp o topic auto env Retry.decided ↔
      ∀ k, Retried o topic auto env k → answeredAt o env k < o.operationTimeout) ∧
    (GivesUp o topic auto env Retry.asked ↔
      ∀ k, Retried o topic auto env k →
        answeredAt o env k + (o.retryDelay + (env.turns k).overslept) < o.operationTimeout) := by
  constructor
  · exact gives_up_of_time hdelay fun k => Nat.le_refl _
  · exact gives_up_of_time hdelay fun k => Nat.le_add_right _ _

/-- The default options. -/
def defaults : RetryOptions :=
  { operationTimeout := 30 * 1000, retryDelay := 5 * 1000, maxRetries := none }

/-- "Not ready", at once. -/
def notReady : Turn where
  reply :=
    { took := 0
      value := .ok
        { partitions := none, response := some failedType, error := some 6, message := none } }
  reconnected := { took := 0, value := .ok () }
  secondReply := { took := 0, value := .error .Disconnected }
  overslept := 0

theorem notReady_notReady : notReady.NotReady :=
  ⟨{ partitions := none, response := some failedType, error := some 6, message := none }, rfl,
    Or.inr rfl, rfl⟩

/-- With two retries, it gives up after ten seconds. -/
theorem gives_up_iff_limited :
    GivesUp { defaults with maxRetries := some 2 } "orders" true
      { base := .ok (), turns := fun _ => notReady } Retry.asked := by
  refine (gives_up_iff { defaults with maxRetries := some 2 } (by decide) "orders" true
    { base := .ok (), turns := fun _ => notReady }).2.mpr ?_
  intro k hk
  have hlt : k < 2 := of_decide_eq_true hk.allowed
  match k, hlt with
  | 0, _ => decide
  | 1, _ => decide

/-- A broker that is never ready is asked for ever. -/
theorem asked_for_ever :
    ¬ ∀ (o : RetryOptions), 0 < o.retryDelay → ∀ topic auto env,
      GivesUp o topic auto env Retry.decided := by
  intro hall
  obtain ⟨⟨n, hreturned⟩, -⟩ :=
    hall defaults (by decide) "orders" true { base := .ok (), turns := fun _ => notReady }
  rw [lookupNumber_of_retried (by decide +kernel) rfl n fun _ _ => ⟨notReady_notReady, rfl⟩]
    at hreturned
  cases hreturned

end PulsarClient.ServiceDiscovery.PartitionNumber
