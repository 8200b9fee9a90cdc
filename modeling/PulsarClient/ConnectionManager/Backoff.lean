/-
  THE BACK-OFF of `connect_inner` — the arithmetic between two attempts.

  A connection that cannot be made is tried again after `min_backoff * 2^k`, at most `max_backoff`, and a
  jitter.  All of it is machine arithmetic: `Duration`s panic when they overflow, `saturating_pow` does
  not overflow, and the `pow` in the `trace!` after it does.

  1. THE PROGRAM — one attempt (`Connecting.step`), and `connectInner` on an endless supply of outcomes.
     The delays are logged.

  2. `Fits` — the arithmetic of retry `k` does not overflow.  `fits_of_lt`: the first 32 always fit, for
     every `min_backoff` that can be scaled by `2^32`.

  3. `backoff_safe_iff` — a run is safe exactly when all its retries fit: from the 33rd on, the value that
     is logged does not (`pow_overflows`).
-/
import PulsarClient.ConnectionManager.Pool
import Mathlib.Algebra.Group.Nat.Defs

namespace PulsarClient.ConnectionManager.Backoff

/-! ## Machine arithmetic -/

/-- The nanoseconds beyond `Duration::MAX`. -/
def durationLimit : Nat := 2 ^ 64 * 10 ^ 9

/-- `Duration * u32`: "overflow when multiplying duration by scalar" -/
def durationMul (d n : Nat) : Option Nat := if d * n < durationLimit then some (d * n) else none

/-- `Duration + Duration`: "overflow when adding durations" -/
def durationAdd (d e : Nat) : Option Nat := if d + e < durationLimit then some (d + e) else none

/-- `2u32.saturating_pow(n)` -/
def saturatingPow (n : Nat) : Nat := min (2 ^ n) (2 ^ 32 - 1)

/-- `2u32.pow(n)`, with overflow checks. -/
def pow (n : Nat) : Option Nat := if 2 ^ n < 2 ^ 32 then some (2 ^ n) else none

/-! ## The program -/

/-- `ConnectionRetryOptions`, of which the loop reads these; durations in nanoseconds. -/
structure Options extends ConnectionRetryOptions where
  minBackoff : Nat
  maxBackoff : Nat
  maxRetries_lt : maxRetries < 2 ^ 32

inductive Outcome where
  | Ok
  | Err (e : ConnectionError)
  /-- a panic, or a value that is not the one meant -/
  | Overflow
  deriving DecidableEq

/-- What one attempt meets. -/
structure Attempt where
  /-- `Connection::new` -/
  result : Except ConnectionError Unit
  /-- `gen_range(0..10)` -/
  jitter : Fin 10

/-- The locals of the loop. -/
structure Connecting where
  currentRetries : Nat := 0
  /-- not in the source -/
  attempts : Nat := 0
  /-- not in the source: the delays -/
  delays : List Nat := []
  returned : Option Outcome := none
  deriving DecidableEq

variable (o : Options) (traces : Bool) (world : Nat → Attempt)

/-- `current_backoff` -/
def currentBackoff (currentRetries jitter : Nat) : Option Nat :=
  match durationMul o.minBackoff (saturatingPow currentRetries), durationMul o.minBackoff jitter with
  | some scaled, some spread => durationAdd (min scaled o.maxBackoff) spread
  | _, _ => none

/-- The arguments of the `trace!`, which are evaluated if traces are logged. -/
def logged (currentRetries : Nat) : Option Unit :=
  if traces then (pow (currentRetries - 1)).map fun _ => () else some ()

namespace Connecting

def finish (s : Connecting) (outcome : Outcome) : Connecting := { s with returned := some outcome }

/-- `current_retries += 1`, what is logged, and the delay. -/
def retry (s : Connecting) (jitter : Nat) : Connecting :=
  match currentBackoff o s.currentRetries jitter with
  | none => s.finish .Overflow
  | some delay =>
    if s.currentRetries + 1 < 2 ^ 32 then
      match logged traces (s.currentRetries + 1) with
      | none => s.finish .Overflow
      | some () =>
        { s with currentRetries := s.currentRetries + 1, delays := s.delays ++ [delay] }
    else s.finish .Overflow

/-- One attempt. -/
def step (s : Connecting) (a : Attempt) : Connecting :=
  match s.returned with
  | some _ => s
  | none =>
    match a.result with
    | .ok () => { s with attempts := s.attempts + 1 }.finish .Ok
    | .error e =>
      if e.establishRetryable then
        if o.maxRetries ≤ s.currentRetries then { s with attempts := s.attempts + 1 }.finish (.Err e)
        else { s with attempts := s.attempts + 1 }.retry o traces a.jitter
      else { s with attempts := s.attempts + 1 }.finish (.Err e)

end Connecting

/-- `connect_inner`, after `n` attempts if it makes them. -/
def connectInner : Nat → Connecting
  | 0 => {}
  | n + 1 => (connectInner n).step o traces (world n)

/-! ## Statement -/

/-- `min(min_backoff * 2^k, max_backoff)` and the jitter. -/
def delayAt (k : Nat) : Nat :=
  min (o.minBackoff * saturatingPow k) o.maxBackoff + o.minBackoff * (world k).jitter

/-- What `connect_inner` should have done so far. -/
structure Safe (s : Connecting) : Prop where
  attempts : s.attempts ≤ o.maxRetries + 1
  noOverflow : s.returned ≠ some .Overflow
  delays : ∀ k delay, s.delays[k]? = some delay → delay = delayAt o world k

/-- The attempt fails, and such a failure is retried. -/
def Attempt.Fails (a : Attempt) : Prop := ∃ e, a.result = .error e ∧ e.establishRetryable = true

/-- All attempts so far have failed, and `max_retries` allows one more. -/
structure Retried (k : Nat) : Prop where
  fails : ∀ j ≤ k, (world j).Fails
  allowed : k < o.maxRetries

/-- Neither the delay of retry `k` overflows nor what is logged of it. -/
structure Fits (k : Nat) : Prop where
  delay : delayAt o world k < durationLimit
  trace : traces = true → k < 32

/-! ## The powers -/

section

variable {o : Options} {traces : Bool} {world : Nat → Attempt} {s : Connecting} {k : Nat}

theorem two_pow_lt_iff (k : Nat) : 2 ^ k < 2 ^ 32 ↔ k < 32 :=
  Nat.pow_lt_pow_iff_right (by decide)

theorem saturatingPow_le (k : Nat) : saturatingPow k ≤ 2 ^ 32 - 1 := Nat.min_le_right _ _

/-- Half of the range is left for the jitter. -/
theorem saturatingPow_of_lt (hk : k < 32) : saturatingPow k ≤ 2 ^ 31 := by
  have hle : 2 ^ k ≤ 2 ^ 31 := Nat.pow_le_pow_right (by decide) (by omega)
  exact Nat.le_trans (Nat.min_le_left _ _) hle

theorem pow_eq_none_iff : pow k = none ↔ 32 ≤ k := by
  unfold pow
  rw [ite_eq_right_iff, two_pow_lt_iff]
  constructor
  · intro h
    apply Nat.le_of_not_lt
    intro hlt
    cases h hlt
  · intro hle hlt
    omega

theorem logged_eq_none_iff : logged traces (k + 1) = none ↔ traces = true ∧ 32 ≤ k := by
  unfold logged
  cases traces with
  | true =>
    rw [if_pos rfl, Option.map_eq_none_iff, Nat.add_sub_cancel, pow_eq_none_iff]
    exact ⟨fun h => ⟨rfl, h⟩, fun h => h.2⟩
  | false => exact iff_of_false (Option.some_ne_none ()) fun h => Bool.false_ne_true h.1

/-! ## One retry -/

/-- **The room**: scaling `min_backoff` never overflows, … -/
theorem durationMul_eq (hbackoff : o.minBackoff * 2 ^ 32 < durationLimit) {n : Nat}
    (hn : n ≤ 2 ^ 32) : durationMul o.minBackoff n = some (o.minBackoff * n) :=
  if_pos (Nat.lt_of_le_of_lt (Nat.mul_le_mul_left _ hn) hbackoff)

theorem currentBackoff_eq (hbackoff : o.minBackoff * 2 ^ 32 < durationLimit) (k : Nat)
    (jitter : Fin 10) : currentBackoff o k jitter =
      durationAdd (min (o.minBackoff * saturatingPow k) o.maxBackoff) (o.minBackoff * jitter) := by
  have hpow := saturatingPow_le k
  have hjitter := jitter.isLt
  unfold currentBackoff
  rw [durationMul_eq hbackoff (by omega), durationMul_eq hbackoff (by omega)]

/-- … and with the jitter the first 32 delays do not either. -/
theorem fits_of_lt (hbackoff : o.minBackoff * 2 ^ 32 < durationLimit) (hk : k < 32) :
    Fits o traces world k := by
  refine ⟨?_, fun _ => hk⟩
  have hjitter := (world k).jitter.isLt
  have hpow := saturatingPow_of_lt hk
  have hsum : saturatingPow k + (world k).jitter ≤ 2 ^ 32 := by omega
  calc delayAt o world k
      ≤ o.minBackoff * saturatingPow k + o.minBackoff * (world k).jitter :=
        Nat.add_le_add_right (Nat.min_le_left _ _) _
    _ = o.minBackoff * (saturatingPow k + (world k).jitter) := (Nat.mul_add _ _ _).symm
    _ ≤ o.minBackoff * 2 ^ 32 := Nat.mul_le_mul_left _ hsum
    _ < durationLimit := hbackoff

/-- **A retry** that fits is made, … -/
theorem retry_of_fits (hbackoff : o.minBackoff * 2 ^ 32 < durationLimit)
    (hk : s.currentRetries = k) (hallowed : k < o.maxRetries) (hfits : Fits o traces world k) :
    s.retry o traces (world k).jitter =
      { s with currentRetries := k + 1, delays := s.delays ++ [delayAt o world k] } := by
  have hlt := o.maxRetries_lt
  have hdelay : currentBackoff o k (world k).jitter = some (delayAt o world k) := by
    rw [currentBackoff_eq hbackoff]
    exact if_pos hfits.delay
  unfold Connecting.retry
  rw [hk, hdelay]
  simp only [if_pos (show k + 1 < 2 ^ 32 by omega)]
  cases hlogged : logged traces (k + 1) with
  | none =>
    obtain ⟨htraces, hle⟩ := logged_eq_none_iff.mp hlogged
    have hlt := hfits.trace htraces
    omega
  | some _ => rfl

/-- … and one that does not is where it overflows. -/
theorem retry_of_not_fits (hbackoff : o.minBackoff * 2 ^ 32 < durationLimit)
    (hk : s.currentRetries = k) (hfits : ¬ Fits o traces world k) :
    (s.retry o traces (world k).jitter).returned = some .Overflow := by
  unfold Connecting.retry
  rw [hk, currentBackoff_eq hbackoff]
  by_cases hdelay : delayAt o world k < durationLimit
  · have hadd : durationAdd (min (o.minBackoff * saturatingPow k) o.maxBackoff)
        (o.minBackoff * (world k).jitter) = some (delayAt o world k) := if_pos hdelay
    have hlogged : logged traces (k + 1) = none := by
      rw [logged_eq_none_iff]
      by_contra hnot
      refine hfits ⟨hdelay, fun htraces => Nat.lt_of_not_le fun hle => hnot ⟨htraces, hle⟩⟩
    rw [hadd, hlogged]
    simp only
    split
    · rfl
    · rfl
  · have hadd : durationAdd (min (o.minBackoff * saturatingPow k) o.maxBackoff)
        (o.minBackoff * (world k).jitter) = none := if_neg hdelay
    rw [hadd]
    rfl

/-! ## A run -/

/-- After `n` attempts that failed, and as many retries. -/
structure Running (o : Options) (world : Nat → Attempt) (n : Nat) (s : Connecting) : Prop where
  currentRetries : s.currentRetries = n
  attempts : s.attempts = n
  delays : s.delays = (List.range n).map (delayAt o world)
  returned : s.returned = none
  allowed : n ≤ o.maxRetries
  fails : ∀ j < n, (world j).Fails

variable {n : Nat}

theorem Running.retried (h : Running o world n s) (hfails : (world n).Fails)
    (hallowed : n < o.maxRetries) : Retried o world n := by
  refine ⟨fun j hj => ?_, hallowed⟩
  rcases Nat.lt_or_eq_of_le hj with hlt | rfl
  · exact h.fails j hlt
  · exact hfails

/-- The delays of a run are those of its retries. -/
theorem Running.delays_get (h : Running o world n s) (k delay : Nat) (hk : s.delays[k]? = some delay) :
    delay = delayAt o world k := by
  rw [h.delays, List.getElem?_map, Option.map_eq_some_iff] at hk
  obtain ⟨j, hj, rfl⟩ := hk
  obtain ⟨hlt, rfl⟩ := List.getElem?_eq_some_iff.mp hj
  rw [List.getElem_range]

theorem Running.safe (h : Running o world n s) : Safe o world s := by
  have hallowed := h.allowed
  refine ⟨?_, ?_, h.delays_get⟩
  · rw [h.attempts]
    omega
  · rw [h.returned]
    exact fun hnone => by cases hnone

theorem step_of_running (h : s.returned = none) (a : Attempt) :
    s.step o traces a =
      match a.result with
      | .ok () => { s with attempts := s.attempts + 1 }.finish .Ok
      | .error e =>
        if e.establishRetryable then
          if o.maxRetries ≤ s.currentRetries then
            { s with attempts := s.attempts + 1 }.finish (.Err e)
          else { s with attempts := s.attempts + 1 }.retry o traces a.jitter
        else { s with attempts := s.attempts + 1 }.finish (.Err e) := by
  unfold Connecting.step
  rw [h]

/-- **One attempt**: it fits and is followed by the next one, it does not and overflows, or it was the
    last one. -/
theorem step_cases (hbackoff : o.minBackoff * 2 ^ 32 < durationLimit) (traces : Bool)
    (h : Running o world n s) :
    (Retried o world n ∧ Fits o traces world n ∧
        Running o world (n + 1) (s.step o traces (world n))) ∨
      (Retried o world n ∧ ¬ Fits o traces world n ∧
        (s.step o traces (world n)).returned = some .Overflow) ∨
      ¬ Retried o world n ∧ Safe o world (s.step o traces (world n)) ∧
        (s.step o traces (world n)).returned.isSome = true := by
  have hallowed := h.allowed
  have hlast : ∀ {outcome : Outcome}, outcome ≠ .Overflow →
      Safe o world ({ s with attempts := s.attempts + 1 }.finish outcome) := by
    intro outcome hoverflow
    refine ⟨?_, fun heq => hoverflow (Option.some.inj heq), h.delays_get⟩
    show s.attempts + 1 ≤ o.maxRetries + 1
    rw [h.attempts]
    omega
  rw [step_of_running h.returned]
  cases hresult : (world n).result with
  | ok v =>
    refine Or.inr (Or.inr ⟨fun hretried => ?_, hlast (fun heq => by cases heq), rfl⟩)
    obtain ⟨e, he, -⟩ := hretried.fails n (Nat.le_refl n)
    cases hresult.symm.trans he
  | error e =>
    by_cases hretryable : e.establishRetryable = true
    · have hfails : (world n).Fails := ⟨e, hresult, hretryable⟩
      simp only [if_pos hretryable]
      by_cases hmax : o.maxRetries ≤ s.currentRetries
      · rw [if_pos hmax]
        rw [h.currentRetries] at hmax
        refine Or.inr (Or.inr ⟨fun hretried => ?_, hlast (fun heq => by cases heq), rfl⟩)
        have hlt := hretried.allowed
        omega
      · rw [if_neg hmax]
        rw [h.currentRetries] at hmax
        have hretried := h.retried hfails (Nat.lt_of_not_le hmax)
        by_cases hfits : Fits o traces world n
        · left
          rw [retry_of_fits (s := { s with attempts := s.attempts + 1 }) hbackoff h.currentRetries
            hretried.allowed hfits]
          refine ⟨hretried, hfits, ⟨rfl, ?_, ?_, h.returned, hretried.allowed, fun j hj => ?_⟩⟩
          · show s.attempts + 1 = n + 1
            rw [h.attempts]
          · show s.delays ++ [delayAt o world n] = _
            rw [h.delays, List.range_succ, List.map_append]
            rfl
          · exact hretried.fails j (Nat.le_of_lt_succ hj)
        · right
          left
          exact ⟨hretried, hfits, retry_of_not_fits hbackoff h.currentRetries hfits⟩
    · simp only [if_neg hretryable]
      refine Or.inr (Or.inr ⟨fun hretried => ?_, hlast (fun heq => by cases heq), rfl⟩)
      obtain ⟨e', he', hretryable'⟩ := hretried.fails n (Nat.le_refl n)
      obtain rfl := Except.error.inj (hresult.symm.trans he')
      exact hretryable hretryable'

theorem step_of_returned (h : s.returned.isSome = true) (a : Attempt) : s.step o traces a = s := by
  obtain ⟨outcome, houtcome⟩ := Option.isSome_iff_exists.mp h
  unfold Connecting.step
  rw [houtcome]

/-- **The run lemma**, of retries that fit. -/
theorem connectInner_of_fits (hbackoff : o.minBackoff * 2 ^ 32 < durationLimit)
    (hfits : ∀ k, Retried o world k → Fits o traces world k) (n : Nat) :
    Running o world n (connectInner o traces world n) ∨
      Safe o world (connectInner o traces world n) ∧
        (connectInner o traces world n).returned.isSome = true := by
  induction n with
  | zero =>
    exact Or.inl ⟨rfl, rfl, rfl, rfl, Nat.zero_le _, fun j hj => absurd hj (Nat.not_lt_zero j)⟩
  | succ n ih =>
    show Running o world (n + 1) ((connectInner o traces world n).step o traces (world n)) ∨ _
    rcases ih with hrunning | ⟨hsafe, hreturned⟩
    · rcases step_cases hbackoff traces hrunning with ⟨-, -, hnext⟩ | ⟨hretried, hnot, -⟩ |
        ⟨-, hsafe, hends⟩
      · exact Or.inl hnext
      · exact absurd (hfits n hretried) hnot
      · exact Or.inr ⟨hsafe, hends⟩
    · right
      show Safe o world ((connectInner o traces world n).step o traces (world n)) ∧
        ((connectInner o traces world n).step o traces (world n)).returned.isSome = true
      rw [step_of_returned hreturned]
      exact ⟨hsafe, hreturned⟩

/-- It ends: there are `max_retries + 1` attempts at most. -/
theorem connectInner_returns (hbackoff : o.minBackoff * 2 ^ 32 < durationLimit)
    (hfits : ∀ k, Retried o world k → Fits o traces world k) :
    (connectInner o traces world (o.maxRetries + 1)).returned.isSome = true := by
  rcases connectInner_of_fits hbackoff hfits (o.maxRetries + 1) with hrunning | ⟨-, hreturned⟩
  · have hallowed := hrunning.allowed
    omega
  · exact hreturned

/-- The first retry that does not fit is where it overflows. -/
theorem overflows_of_not_fits (hbackoff : o.minBackoff * 2 ^ 32 < durationLimit)
    (hretried : Retried o world k) (hnot : ¬ Fits o traces world k) :
    ∃ n, (connectInner o traces world n).returned = some .Overflow := by
  by_contra hnever
  -- then every retry up to `k` was made
  have hrunning : ∀ n ≤ k, Running o world n (connectInner o traces world n) := by
    intro n hn
    induction n with
    | zero => exact ⟨rfl, rfl, rfl, rfl, Nat.zero_le _, fun j hj => absurd hj (Nat.not_lt_zero j)⟩
    | succ n ih =>
      have hbefore : Retried o world n :=
        ⟨fun j hj => hretried.fails j (by omega), Nat.lt_trans hn hretried.allowed⟩
      rcases step_cases hbackoff traces (ih (by omega)) with ⟨-, -, hnext⟩ | ⟨-, -, hoverflow⟩ |
        ⟨hends, -⟩
      · exact hnext
      · exact absurd ⟨n + 1, hoverflow⟩ hnever
      · exact absurd hbefore hends
  rcases step_cases hbackoff traces (hrunning k (Nat.le_refl k)) with ⟨-, hfits, -⟩ |
    ⟨-, -, hoverflow⟩ | ⟨hends, -⟩
  · exact hnot hfits
  · exact hnever ⟨k + 1, hoverflow⟩
  · exact hends hretried

end

/-! ## The main result -/

/-- **Headline.**  For every budget of retries, every back-off whose minimum can be scaled by `2^32`, and
    every run of outcomes: `connect_inner` makes at most `max_retries + 1` attempts, overflows nowhere and
    sleeps for the delays of the formula, exactly when each retry after the 32nd is made without traces
    being logged, and its delay is a `Duration`. -/
theorem backoff_safe_iff (o : Options) (hbackoff : o.minBackoff * 2 ^ 32 < durationLimit)
    (traces : Bool) (world : Nat → Attempt) :
    ((connectInner o traces world (o.maxRetries + 1)).returned.isSome = true ∧
        ∀ n, Safe o world (connectInner o traces world n)) ↔
      ∀ k, 32 ≤ k → Retried o world k → traces = false ∧
        min (o.minBackoff * (2 ^ 32 - 1)) o.maxBackoff + o.minBackoff * (world k).jitter <
          durationLimit := by
  have hsaturated : ∀ k, 32 ≤ k → saturatingPow k = 2 ^ 32 - 1 := by
    intro k hk
    have hle : 2 ^ 32 ≤ 2 ^ k := Nat.pow_le_pow_right (by decide) hk
    exact Nat.min_eq_right (by omega)
  constructor
  · rintro ⟨-, hsafe⟩ k hk hretried
    by_contra hnot
    have hfits : ¬ Fits o traces world k := by
      intro hfits
      apply hnot
      have hdelay := hfits.delay
      unfold delayAt at hdelay
      rw [hsaturated k hk] at hdelay
      refine ⟨Bool.eq_false_iff.mpr fun htraces => ?_, hdelay⟩
      have hlt := hfits.trace htraces
      omega
    obtain ⟨n, hoverflow⟩ := overflows_of_not_fits hbackoff hretried hfits
    exact (hsafe n).noOverflow hoverflow
  · intro h
    have hfits : ∀ k, Retried o world k → Fits o traces world k := by
      intro k hretried
      rcases Nat.lt_or_ge k 32 with hk | hk
      · exact fits_of_lt hbackoff hk
      · obtain ⟨htraces, hdelay⟩ := h k hk hretried
        refine ⟨?_, fun htrue => by cases htraces.symm.trans htrue⟩
        unfold delayAt
        rw [hsaturated k hk]
        exact hdelay
    refine ⟨connectInner_returns hbackoff hfits, fun n => ?_⟩
    rcases connectInner_of_fits hbackoff hfits n with hrunning | ⟨hsafe, -⟩
    · exact hrunning.safe
    · exact hsafe

/-- "Connection refused" -/
def refused : Attempt where
  result := .error (.Io .ConnectionRefused)
  jitter := 9

/-- The default back-off, with a budget of its own. -/
def tenMillis (maxRetries : Nat) (h : maxRetries < 2 ^ 32) : Options where
  maxRetries
  connectionMaxIdle := 120 * 10 ^ 9
  minBackoff := 10 * 10 ^ 6
  maxBackoff := 30 * 10 ^ 9
  maxRetries_lt := h

/-- The default budget of 12 retries is safe. -/
theorem backoff_safe_iff_default :
    Safe (tenMillis 12 (by decide)) (fun _ => refused)
      (connectInner (tenMillis 12 (by decide)) true (fun _ => refused) 13) := by
  refine ((backoff_safe_iff (tenMillis 12 (by decide)) (by decide) true fun _ => refused).mpr ?_).2 13
  intro k hk hretried
  have hlt : k < 12 := hretried.allowed
  omega

/-- With 33 retries, the value that is logged of the last one overflows. -/
theorem pow_overflows :
    ¬ ∀ (o : Options), o.minBackoff * 2 ^ 32 < durationLimit → ∀ traces world n,
      Safe o world (connectInner o traces world n) := by
  intro hall
  have hretried : Retried (tenMillis 33 (by decide)) (fun _ => refused) 32 :=
    ⟨fun _ _ => ⟨.Io .ConnectionRefused, rfl, rfl⟩, show 32 < 33 by decide⟩
  have hnot : ¬ Fits (tenMillis 33 (by decide)) true (fun _ => refused) 32 := by
    intro hfits
    have hlt := hfits.trace rfl
    omega
  obtain ⟨n, hoverflow⟩ := overflows_of_not_fits (by decide) hretried hnot
  exact (hall (tenMillis 33 (by decide)) (by decide) true (fun _ => refused) n).noOverflow hoverflow

end PulsarClient.ConnectionManager.Backoff
