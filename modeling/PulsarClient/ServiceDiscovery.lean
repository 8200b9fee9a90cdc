/-
  `ServiceDiscovery::lookup_topic`: which broker serves a topic.

  One loop asks the base broker, asks again where it is redirected to, and asks again later when the
  broker is not ready.  Only the last of the three looks at `operation_timeout`.

  1. THE PROGRAM — one turn of the loop (`Lookup.turn`) on what it meets (`Turn`: every answer, and how
     long it took), and the loop on an endless supply of these.  The requests are logged with the time
     that has passed since the start.

  2. `turn_cases` — a turn retries, follows a redirect, or returns.

  3. TERMINATION (`returns_iff`) — retries end by themselves: each takes `retry_delay`, and none begins
     after the deadline.  So a lookup goes on for ever exactly when it is redirected for ever.

  4. THE DEADLINE (`inTime_iff`) — a reconnect and a redirect are followed whatever the time, and a
     retry is begun before the deadline but asks after the delay.
-/
import PulsarClient.ConnectionManager.Pool

namespace PulsarClient.ServiceDiscovery

open ConnectionManager

/-! ## The program -/

/-- The `url` crate.  A `Url` is its text. -/
structure UrlCrate where
  parse : String → Option String
  scheme : String → String
  hostStr : String → Option String
  port : String → Option Nat

/-- `OperationRetryOptions`, times in milliseconds. -/
structure RetryOptions extends OperationRetryOptions where
  operationTimeout : Nat
  retryDelay : Nat

/-- `ConnectionManager`: what a lookup reads of it.  `ConnectionManager::new` refuses a URL without
    host. -/
structure Manager (u : UrlCrate) where
  url : String
  host : String
  hostStr_url : u.hostStr url = some host
  options : RetryOptions

/-- `get_base_address` -/
def Manager.getBaseAddress {u : UrlCrate} (m : Manager u) : BrokerAddress :=
  { url := m.url
    brokerUrl := m.host ++ ":" ++ toString ((u.port m.url).getD 6650)
    proxy := false }

/-- `CommandLookupTopicResponse` -/
structure CommandLookupTopicResponse where
  brokerServiceUrl : Option String
  brokerServiceUrlTls : Option String
  response : Option Int
  authoritative : Option Bool
  error : Option Int
  message : Option String
  proxyThroughServiceUrl : Option Bool
  deriving DecidableEq, Repr

/-- `LookupType::Redirect as i32` -/
def redirectType : Int := 0

/-- `LookupType::Failed as i32` -/
def failedType : Int := 2

namespace CommandLookupTopicResponse

variable (r : CommandLookupTopicResponse)

/-- There is no answer, or it is that the lookup failed. -/
def Failed : Prop := r.response = none ∨ r.response = some failedType

/-- `response.error.and_then(server_error)` -/
def serverError : Option ServerError := r.error.bind PulsarClient.serverError

/-- … for now. -/
def NotReady : Prop :=
  r.serverError = some .ServiceNotReady ∨ r.serverError = some .MetadataError

instance : Decidable r.Failed := inferInstanceAs (Decidable (_ ∨ _))

instance : Decidable r.NotReady := inferInstanceAs (Decidable (_ ∨ _))

end CommandLookupTopicResponse

/-- `LookupResponse` -/
structure LookupResponse where
  brokerUrl : Option String
  brokerUrlTls : Option String
  proxy : Bool
  redirect : Bool
  authoritative : Bool
  deriving DecidableEq, Repr

/-- A URL that is there is parsed. -/
def parseOptional (u : UrlCrate) : Option String → Option (Option String)
  | none => some none
  | some text => (u.parse text).map some

/-- `convert_lookup_response`; `none` is `NotFound`. -/
def convertLookupResponse (u : UrlCrate) (r : CommandLookupTopicResponse) : Option LookupResponse :=
  match parseOptional u r.brokerServiceUrl, parseOptional u r.brokerServiceUrlTls with
  | some brokerUrl, some brokerUrlTls => some
    { brokerUrl
      brokerUrlTls
      proxy := r.proxyThroughServiceUrl.getD false
      redirect := decide (r.response = some redirectType)
      authoritative := r.authoritative.getD false }
  | _, _ => none

inductive ServiceDiscoveryError where
  | Connection (e : ConnectionError)
  | Query (error : Option ServerError) (message : Option String)
  | NotFound
  deriving DecidableEq, Repr

inductive Outcome where
  | Ok (address : BrokerAddress)
  | Err (e : ServiceDiscoveryError)
  /-- `host_str().unwrap()` -/
  | Panic
  deriving DecidableEq, Repr

/-- A result, and how long it took. -/
structure Timed (α : Type) where
  took : Nat
  value : α

/-- What one turn of the loop meets. -/
structure Turn where
  reply : Timed (Except ConnectionError CommandLookupTopicResponse)
  /-- `get_connection`, if the connection was closed -/
  reconnected : Timed (Except ConnectionError Unit)
  /-- to the request made then -/
  secondReply : Timed (Except ConnectionError CommandLookupTopicResponse)
  /-- by how much a `delay` is late -/
  overslept : Nat
  /-- `get_connection` to the broker of the answer -/
  connected : Timed (Except ConnectionError Unit)

/-- `Err(ConnectionError::Disconnected)` -/
def Turn.closed (t : Turn) : Bool :=
  match t.reply.value with
  | .error .Disconnected => true
  | _ => false

/-- What one lookup meets. -/
structure Environment where
  /-- `get_base_connection` -/
  base : Except ConnectionError Unit
  turns : Nat → Turn

/-- One request of the log. -/
structure Request where
  /-- since the start -/
  elapsed : Nat
  broker : BrokerAddress
  authoritative : Bool
  deriving DecidableEq, Repr

/-- The locals of `lookup_topic`.  `conn` is a connection to `broker_address` throughout. -/
structure Lookup where
  proxiedQuery : Bool
  isAuthoritative : Bool
  brokerAddress : BrokerAddress
  /-- a `u32`: with a limit, which is one too, it does not pass it, and without one it is only logged -/
  currentRetries : Nat
  elapsed : Nat
  /-- not in the source: the requests made -/
  requests : List Request
  returned : Option Outcome
  deriving DecidableEq, Repr

namespace Lookup

def spend (s : Lookup) (took : Nat) : Lookup := { s with elapsed := s.elapsed + took }

def finish (s : Lookup) (outcome : Outcome) : Lookup := { s with returned := some outcome }

/-- `conn.sender().lookup_topic(..)` -/
def request (s : Lookup) : Lookup :=
  { s with
    requests := s.requests ++
      [{ elapsed := s.elapsed, broker := s.brokerAddress, authoritative := s.isAuthoritative }] }

/-- A request, and one more on a new connection when the connection was closed. -/
def ask (s : Lookup) (t : Turn) : Lookup × Except ConnectionError CommandLookupTopicResponse :=
  let s := s.request.spend t.reply.took
  if t.closed then
    let s := s.spend t.reconnected.took
    match t.reconnected.value with
    | .error e => (s, .error e)
    | .ok () => (s.request.spend t.secondReply.took, t.secondReply.value)
  else (s, t.reply.value)

/-- The broker has failed the lookup. -/
def failed (o : RetryOptions) (s : Lookup) (t : Turn) (r : CommandLookupTopicResponse) : Lookup :=
  if r.NotReady ∧ o.allowRetry s.currentRetries ∧ s.elapsed < o.operationTimeout then
    { s with currentRetries := s.currentRetries + 1 }.spend (o.retryDelay + t.overslept)
  else s.finish (.Err (.Query r.serverError r.message))

end Lookup

section

variable {u : UrlCrate} (m : Manager u)

/-- "Use broker url with the same schema of url in setting", with its default port. -/
def target (l : LookupResponse) : Option (String × Nat) :=
  if u.scheme m.url = "pulsar+ssl" then l.brokerUrlTls.map fun url => (url, 6651)
  else if u.scheme m.url = "pulsar" then l.brokerUrl.map fun url => (url, 6650)
  else none

namespace Lookup

/-- The broker has answered where to go. -/
def answered (s : Lookup) (t : Turn) (r : CommandLookupTopicResponse) : Lookup :=
  match convertLookupResponse u r with
  | none => s.finish (.Err .NotFound)
  | some l =>
    match target m l with
    | none => s.finish (.Err .NotFound)
    | some (url, brokerPort) =>
      match u.hostStr url with
      | none => s.finish .Panic
      | some host =>
        let proxy := s.proxiedQuery || l.proxy
        let brokerAddress : BrokerAddress :=
          { url := if proxy then m.url else url
            brokerUrl := host ++ ":" ++ toString ((u.port url).getD brokerPort)
            proxy }
        let s := { s with isAuthoritative := l.authoritative, brokerAddress }.spend t.connected.took
        match t.connected.value with
        | .error e => s.finish (.Err (.Connection e))
        | .ok () => if l.redirect then { s with proxiedQuery := proxy } else s.finish (.Ok brokerAddress)

/-- One turn of the loop. -/
def turn (s : Lookup) (t : Turn) : Lookup :=
  match s.returned with
  | some _ => s
  | none =>
    match s.ask t with
    | (s, .error e) => s.finish (.Err (.Connection e))
    | (s, .ok r) =>
      if r.Failed then s.failed m.options t r else s.answered m t r

/-- Before the loop. -/
def start (base : Except ConnectionError Unit) : Lookup :=
  { proxiedQuery := false
    isAuthoritative := false
    brokerAddress := m.getBaseAddress
    currentRetries := 0
    elapsed := 0
    requests := []
    returned :=
      match base with
      | .error e => some (.Err (.Connection e))
      | .ok () => none }

end Lookup

/-- `lookup_topic`, after `n` turns. -/
def lookupTopic (env : Environment) : Nat → Lookup
  | 0 => .start m env.base
  | n + 1 => (lookupTopic env n).turn m (env.turns n)

end

/-! ## One turn -/

namespace Turn

/-- The connection was closed, and there is a new one. -/
def Reconnects (t : Turn) : Prop := t.closed = true ∧ t.reconnected.value = .ok ()

/-- When the answer is there. -/
def took (t : Turn) : Nat :=
  if t.closed then
    match t.reconnected.value with
    | .error _ => t.reply.took + t.reconnected.took
    | .ok () => t.reply.took + t.reconnected.took + t.secondReply.took
  else t.reply.took

/-- The answer. -/
def answer (t : Turn) : Except ConnectionError CommandLookupTopicResponse :=
  if t.closed then
    match t.reconnected.value with
    | .error e => .error e
    | .ok () => t.secondReply.value
  else t.reply.value

end Turn

/-- The lookup failed for now, and there are retries and time left. -/
def Retries (o : RetryOptions) (s : Lookup) (t : Turn) : Prop :=
  ∃ r, t.answer = .ok r ∧ r.Failed ∧ r.NotReady ∧ o.allowRetry s.currentRetries ∧
    s.elapsed + t.took < o.operationTimeout

/-- The answer names another broker to ask, and there is a connection to it. -/
def Follows {u : UrlCrate} (m : Manager u) (t : Turn) : Prop :=
  ∃ r, t.answer = .ok r ∧ ¬ r.Failed ∧ ∃ l url port host,
    convertLookupResponse u r = some l ∧ target m l = some (url, port) ∧
      u.hostStr url = some host ∧ l.redirect = true ∧ t.connected.value = .ok ()

namespace Lookup

variable {u : UrlCrate} {m : Manager u} {s : Lookup} {t : Turn}

/-- The requests of a turn. -/
def Asked (s : Lookup) (t : Turn) (requests : List Request) : Prop :=
  requests.map Request.elapsed = [s.elapsed] ∧ ¬ t.Reconnects ∨
    requests.map Request.elapsed = [s.elapsed, s.elapsed + t.reply.took + t.reconnected.took] ∧
      t.Reconnects

/-- Asking makes one request or two, and takes its time. -/
theorem ask_spec (s : Lookup) (t : Turn) :
    (s.ask t).2 = t.answer ∧ (s.ask t).1.elapsed = s.elapsed + t.took ∧
      (s.ask t).1.currentRetries = s.currentRetries ∧ (s.ask t).1.returned = s.returned ∧
      ∃ requests, (s.ask t).1.requests = s.requests ++ requests ∧ s.Asked t requests := by
  have hone : ¬ t.Reconnects → s.Asked t
      [{ elapsed := s.elapsed, broker := s.brokerAddress, authoritative := s.isAuthoritative }] :=
    fun hnot => Or.inl ⟨rfl, hnot⟩
  unfold ask Turn.took Turn.answer
  cases hclosed : t.closed with
  | false =>
    refine ⟨rfl, rfl, rfl, rfl, _, rfl, hone fun h => ?_⟩
    exact Bool.false_ne_true (hclosed.symm.trans h.1)
  | true =>
    simp only [if_true]
    cases hreconnected : t.reconnected.value with
    | error e =>
      refine ⟨rfl, Nat.add_assoc _ _ _, rfl, rfl, _, rfl, hone fun h => ?_⟩
      cases hreconnected.symm.trans h.2
    | ok v =>
      refine ⟨rfl, ?_, rfl, rfl, _, List.append_assoc _ _ _,
        Or.inr ⟨rfl, hclosed, hreconnected⟩⟩
      show s.elapsed + _ + _ + _ = s.elapsed + (_ + _ + _)
      omega

/-- A failed lookup is retried, or that is what is returned. -/
theorem failed_cases (o : RetryOptions) (s : Lookup) (t : Turn) (r : CommandLookupTopicResponse) :
    (s.failed o t r).requests = s.requests ∧
      ((r.NotReady ∧ o.allowRetry s.currentRetries ∧ s.elapsed < o.operationTimeout) ∧
          (s.failed o t r).returned = s.returned ∧
          (s.failed o t r).elapsed = s.elapsed + (o.retryDelay + t.overslept) ∨
        ¬ (r.NotReady ∧ o.allowRetry s.currentRetries ∧ s.elapsed < o.operationTimeout) ∧
          (s.failed o t r).returned.isSome) := by
  unfold failed
  by_cases hretry : r.NotReady ∧ o.allowRetry s.currentRetries ∧ s.elapsed < o.operationTimeout
  · rw [if_pos hretry]
    exact ⟨rfl, Or.inl ⟨hretry, rfl, rfl⟩⟩
  · rw [if_neg hretry]
    exact ⟨rfl, Or.inr ⟨hretry, rfl⟩⟩

/-- The answer names another broker to ask. -/
def Redirects (m : Manager u) (t : Turn) (r : CommandLookupTopicResponse) : Prop :=
  ∃ l url port host, convertLookupResponse u r = some l ∧ target m l = some (url, port) ∧
    u.hostStr url = some host ∧ l.redirect = true ∧ t.connected.value = .ok ()

/-- An answer is followed, or ends the lookup. -/
theorem answered_cases (m : Manager u) (s : Lookup) (t : Turn) (r : CommandLookupTopicResponse) :
    (s.answered m t r).requests = s.requests ∧
      (Redirects m t r ∧ (s.answered m t r).returned = s.returned ∧
          (s.answered m t r).elapsed = s.elapsed + t.connected.took ∨
        ¬ Redirects m t r ∧ (s.answered m t r).returned.isSome) := by
  unfold answered Redirects
  cases hl : convertLookupResponse u r with
  | none =>
    refine ⟨rfl, Or.inr ⟨?_, rfl⟩⟩
    rintro ⟨_, _, _, _, h, -⟩
    cases h
  | some l =>
    cases htarget : target m l with
    | none =>
      simp only [htarget]
      refine ⟨rfl, Or.inr ⟨?_, rfl⟩⟩
      rintro ⟨l', _, _, _, hl', h, -⟩
      obtain rfl := Option.some.inj hl'
      rw [htarget] at h
      cases h
    | some target' =>
      obtain ⟨url, port⟩ := target'
      simp only [htarget]
      cases hhost : u.hostStr url with
      | none =>
        refine ⟨rfl, Or.inr ⟨?_, rfl⟩⟩
        rintro ⟨l', url', port', host', hl', h, hhost', -⟩
        obtain rfl := Option.some.inj hl'
        obtain ⟨rfl, -⟩ := Prod.mk.inj (Option.some.inj (htarget.symm.trans h))
        rw [hhost] at hhost'
        cases hhost'
      | some host =>
        cases hconnected : t.connected.value with
        | error e =>
          refine ⟨rfl, Or.inr ⟨?_, rfl⟩⟩
          rintro ⟨_, _, _, _, -, -, -, -, h⟩
          cases h
        | ok v =>
          cases hredirect : l.redirect with
          | true =>
            exact ⟨rfl, Or.inl ⟨⟨l, url, port, host, rfl, htarget, hhost, hredirect, rfl⟩, rfl, rfl⟩⟩
          | false =>
            refine ⟨rfl, Or.inr ⟨?_, rfl⟩⟩
            rintro ⟨l', _, _, _, hl', -, -, h, -⟩
            obtain rfl := Option.some.inj hl'
            rw [hredirect] at h
            cases h

/-- **A turn** retries, follows a redirect, or returns. -/
theorem turn_cases (hnone : s.returned = none) (m : Manager u) (t : Turn) :
    (∃ requests, (s.turn m t).requests = s.requests ++ requests ∧ s.Asked t requests) ∧
      (Retries m.options s t ∧ ¬ Follows m t ∧ (s.turn m t).returned = none ∧
          (s.turn m t).elapsed = s.elapsed + t.took + (m.options.retryDelay + t.overslept) ∨
        Follows m t ∧ ¬ Retries m.options s t ∧ (s.turn m t).returned = none ∧
          (s.turn m t).elapsed = s.elapsed + t.took + t.connected.took ∨
        ¬ Retries m.options s t ∧ ¬ Follows m t ∧ (s.turn m t).returned.isSome) := by
  obtain ⟨hanswer, helapsed, hretries, hreturned, requests, hrequests, hasked⟩ := s.ask_spec t
  have hturn : s.turn m t =
      match (s.ask t).2 with
      | .error e => (s.ask t).1.finish (.Err (.Connection e))
      | .ok r =>
        if r.Failed then (s.ask t).1.failed m.options t r else (s.ask t).1.answered m t r := by
    unfold turn
    rw [hnone]
    obtain ⟨s', a⟩ := s.ask t
    cases a <;> rfl
  obtain ⟨s', hs'⟩ : ∃ s', (s.ask t).1 = s' := ⟨_, rfl⟩
  rw [hs'] at hturn helapsed hretries hreturned hrequests
  rw [hanswer] at hturn
  rw [hturn]
  cases hvalue : t.answer with
  | error e =>
    refine ⟨⟨requests, hrequests, hasked⟩, Or.inr (Or.inr ⟨?_, ?_, rfl⟩)⟩
    · rintro ⟨r, hr, -⟩
      rw [hvalue] at hr
      cases hr
    · rintro ⟨r, hr, -⟩
      rw [hvalue] at hr
      cases hr
  | ok r =>
    have hretry : Retries m.options s t ↔ r.Failed ∧ r.NotReady ∧
        m.options.allowRetry s'.currentRetries ∧ s'.elapsed < m.options.operationTimeout := by
      rw [hretries, helapsed]
      constructor
      · rintro ⟨r', hr', h⟩
        obtain rfl := Except.ok.inj (hvalue.symm.trans hr')
        exact h
      · intro h
        exact ⟨r, hvalue, h⟩
    have hfollow : Follows m t ↔ ¬ r.Failed ∧ Redirects m t r := by
      constructor
      · rintro ⟨r', hr', h⟩
        obtain rfl := Except.ok.inj (hvalue.symm.trans hr')
        exact h
      · intro h
        exact ⟨r, hvalue, h⟩
    rw [hretry, hfollow]
    by_cases hfailed : r.Failed
    · simp only [if_pos hfailed]
      obtain ⟨hsame, ⟨hcan, hstill, hlater⟩ | ⟨hcannot, hends⟩⟩ :=
        failed_cases m.options s' t r
      · refine ⟨⟨requests, hsame.trans hrequests, hasked⟩, Or.inl ⟨⟨hfailed, hcan⟩,
          fun h => h.1 hfailed, hstill.trans (hreturned.trans hnone), ?_⟩⟩
        rw [hlater, helapsed]
      · exact ⟨⟨requests, hsame.trans hrequests, hasked⟩, Or.inr (Or.inr ⟨fun h => hcannot h.2,
          fun h => h.1 hfailed, hends⟩)⟩
    · simp only [if_neg hfailed]
      obtain ⟨hsame, ⟨hcan, hstill, hlater⟩ | ⟨hcannot, hends⟩⟩ := answered_cases m s' t r
      · refine ⟨⟨requests, hsame.trans hrequests, hasked⟩, Or.inr (Or.inl ⟨⟨hfailed, hcan⟩,
          fun h => hfailed h.1, hstill.trans (hreturned.trans hnone), ?_⟩)⟩
        rw [hlater, helapsed]
      · exact ⟨⟨requests, hsame.trans hrequests, hasked⟩, Or.inr (Or.inr ⟨fun h => hfailed h.1,
          fun h => hcannot h.2, hends⟩)⟩

/-- When the requests were made. -/
def times (s : Lookup) : List Nat := s.requests.map Request.elapsed

/-- No request but the first is made once the time is up. -/
def InTime (o : RetryOptions) (s : Lookup) : Prop := ∀ time ∈ s.times.tail, time < o.operationTimeout

/-- What makes another request leaves time for it. -/
structure Timely (m : Manager u) (s : Lookup) (t : Turn) : Prop where
  reconnect : t.Reconnects →
    s.elapsed + t.reply.took + t.reconnected.took < m.options.operationTimeout
  retry : Retries m.options s t →
    s.elapsed + t.took + (m.options.retryDelay + t.overslept) < m.options.operationTimeout
  follow : Follows m t → s.elapsed + t.took + t.connected.took < m.options.operationTimeout

/-- The requests of a turn, by their times. -/
theorem times_turn (hnone : s.returned = none) (m : Manager u) (t : Turn) :
    (s.turn m t).times = s.times ++ [s.elapsed] ∧ ¬ t.Reconnects ∨
      (s.turn m t).times =
          s.times ++ [s.elapsed, s.elapsed + t.reply.took + t.reconnected.took] ∧
        t.Reconnects := by
  obtain ⟨⟨requests, hrequests, hasked⟩, -⟩ := turn_cases hnone m t
  unfold times
  rw [hrequests, List.map_append]
  exact hasked.imp (fun h => ⟨congrArg _ h.1, h.2⟩) fun h => ⟨congrArg _ h.1, h.2⟩

theorem turn_of_returned (h : s.returned.isSome) (m : Manager u) (t : Turn) : s.turn m t = s := by
  obtain ⟨outcome, houtcome⟩ := Option.isSome_iff_exists.mp h
  unfold turn
  rw [houtcome]

end Lookup

/-! ## Whole lookups -/

section

variable {u : UrlCrate} {m : Manager u} {env : Environment}

theorem returned_mono {n n' : Nat} (hle : n ≤ n') (h : (lookupTopic m env n).returned.isSome) :
    (lookupTopic m env n').returned.isSome := by
  have hsame : lookupTopic m env n' = lookupTopic m env n := by
    apply Runs.eq_of_le_of_stopped hle (fun s : Lookup => s.returned.isSome = true) ?_ h
    intro k hreturned
    exact Lookup.turn_of_returned hreturned m (env.turns k)
  rw [hsame]
  exact h

theorem running_of_le {n n' : Nat} (hle : n ≤ n') (h : (lookupTopic m env n').returned = none) :
    (lookupTopic m env n).returned = none := by
  cases hreturned : (lookupTopic m env n).returned with
  | none => rfl
  | some outcome =>
    have hsome := returned_mono (m := m) hle (Option.isSome_iff_exists.mpr ⟨outcome, hreturned⟩)
    rw [h] at hsome
    cases hsome

/-- After the last redirect the time runs out. -/
theorem elapsed_of_running (hdelay : 0 < m.options.retryDelay) {N : Nat}
    (hredirects : ∀ n, (lookupTopic m env n).returned = none → Follows m (env.turns n) → n < N)
    (k : Nat) (hrunning : (lookupTopic m env (N + k)).returned = none) :
    k ≤ (lookupTopic m env (N + k)).elapsed := by
  induction k with
  | zero => exact Nat.zero_le _
  | succ k ih =>
    have hbefore := running_of_le (Nat.le_succ (N + k)) hrunning
    have hih := ih hbefore
    obtain ⟨-, ⟨-, -, -, hlater⟩ | ⟨hfollows, -⟩ | ⟨-, -, hends⟩⟩ :=
      Lookup.turn_cases hbefore m (env.turns (N + k))
    · have hlater' : (lookupTopic m env (N + (k + 1))).elapsed = _ := hlater
      omega
    · have hlt := hredirects _ hbefore hfollows
      omega
    · have hends' : (lookupTopic m env (N + (k + 1))).returned.isSome := hends
      rw [hrunning] at hends'
      cases hends'

/-- **A lookup ends** exactly when it is not redirected for ever. -/
theorem returns_iff (hdelay : 0 < m.options.retryDelay) :
    (∃ n, (lookupTopic m env n).returned.isSome) ↔
      ∃ N, ∀ n, (lookupTopic m env n).returned = none → Follows m (env.turns n) → n < N := by
  constructor
  · rintro ⟨N, hN⟩
    refine ⟨N, fun n hnone _ => ?_⟩
    apply Nat.lt_of_not_le
    intro hle
    have hsome := returned_mono hle hN
    rw [hnone] at hsome
    cases hsome
  · rintro ⟨N, hredirects⟩
    refine ⟨N + m.options.operationTimeout + 1, ?_⟩
    cases hreturned : (lookupTopic m env (N + m.options.operationTimeout + 1)).returned with
    | some outcome => rfl
    | none =>
      have hbefore := running_of_le (Nat.le_succ _) hreturned
      have helapsed := elapsed_of_running hdelay hredirects _ hbefore
      obtain ⟨-, ⟨⟨_, -, -, -, -, hlt⟩, -⟩ | ⟨hfollows, -⟩ | ⟨-, -, hends⟩⟩ :=
        Lookup.turn_cases hbefore m (env.turns (N + m.options.operationTimeout))
      · omega
      · have hlt := hredirects _ hbefore hfollows
        omega
      · have hends' :
            (lookupTopic m env (N + m.options.operationTimeout + 1)).returned.isSome := hends
        rw [hreturned] at hends'
        cases hends'

theorem mem_tail_append {l new : List Nat} {x : Nat} (h : x ∈ (l ++ new).tail) :
    x ∈ l.tail ∨ (l = [] ∧ x ∈ new.tail) ∨ (l ≠ [] ∧ x ∈ new) := by
  cases l with
  | nil => exact Or.inr (Or.inl ⟨rfl, h⟩)
  | cons y l =>
    rcases List.mem_append.mp h with h | h
    · exact Or.inl h
    · exact Or.inr (Or.inr ⟨List.cons_ne_nil y l, h⟩)

/-- While it goes on, the next request is in time, or there was none. -/
theorem inTime_of_timely
    (h : ∀ n, (lookupTopic m env n).returned = none →
      Lookup.Timely m (lookupTopic m env n) (env.turns n)) (n : Nat) :
    (lookupTopic m env n).InTime m.options ∧
      ((lookupTopic m env n).returned = none → (lookupTopic m env n).times = [] ∨
        (lookupTopic m env n).elapsed < m.options.operationTimeout) := by
  induction n with
  | zero =>
    refine ⟨fun time htime => ?_, fun _ => Or.inl rfl⟩
    cases htime
  | succ n ih =>
    obtain ⟨hinTime, hnext⟩ := ih
    obtain ⟨s, hs⟩ : ∃ s, lookupTopic m env n = s := ⟨_, rfl⟩
    have hstep : lookupTopic m env (n + 1) = s.turn m (env.turns n) := by rw [← hs]; rfl
    rw [hs] at hinTime hnext
    rw [hstep]
    cases hreturned : s.returned with
    | some outcome =>
      have hsome : s.returned.isSome := Option.isSome_iff_exists.mpr ⟨outcome, hreturned⟩
      rw [Lookup.turn_of_returned hsome]
      refine ⟨hinTime, fun hnone => ?_⟩
      rw [hnone] at hreturned
      cases hreturned
    | none =>
      have htimely := h n (by rw [hs, hreturned])
      rw [hs] at htimely
      constructor
      · -- what was asked in this turn
        intro time htime
        have hnow : s.times ≠ [] → s.elapsed < m.options.operationTimeout :=
          fun hne => (hnext hreturned).resolve_left hne
        rcases Lookup.times_turn hreturned m (env.turns n) with ⟨heq, -⟩ | ⟨heq, hreconnects⟩
        · rw [heq] at htime
          rcases mem_tail_append htime with hold | ⟨-, hnew⟩ | ⟨hne, hnew⟩
          · exact hinTime time hold
          · cases hnew
          · rw [List.mem_singleton.mp hnew]
            exact hnow hne
        · rw [heq] at htime
          have hagain := htimely.reconnect hreconnects
          rcases mem_tail_append htime with hold | ⟨-, hnew⟩ | ⟨hne, hnew⟩
          · exact hinTime time hold
          · rw [List.mem_singleton.mp hnew]
            exact hagain
          · rcases List.mem_cons.mp hnew with rfl | hnew
            · exact hnow hne
            · rw [List.mem_singleton.mp hnew]
              exact hagain
      · intro hstill
        obtain ⟨-, ⟨hretries, -, -, hlater⟩ | ⟨hfollows, -, -, hlater⟩ | ⟨-, -, hends⟩⟩ :=
          Lookup.turn_cases hreturned m (env.turns n)
        · exact Or.inr (hlater ▸ htimely.retry hretries)
        · exact Or.inr (hlater ▸ htimely.follow hfollows)
        · rw [hstill] at hends
          cases hends

/-- When a lookup goes on, the next request is made as the turn ends. -/
theorem mem_times_next (n : Nat) (hnone : (lookupTopic m env n).returned = none)
    (hstill : (lookupTopic m env (n + 1)).returned = none) :
    (lookupTopic m env (n + 1)).elapsed ∈ (lookupTopic m env (n + 2)).times.tail := by
  have hne : (lookupTopic m env (n + 1)).times ≠ [] := by
    rcases Lookup.times_turn hnone m (env.turns n) with ⟨heq, -⟩ | ⟨heq, -⟩
    · exact fun h => List.append_ne_nil_of_right_ne_nil _ (List.cons_ne_nil _ _) (heq.symm.trans h)
    · exact fun h => List.append_ne_nil_of_right_ne_nil _ (List.cons_ne_nil _ _) (heq.symm.trans h)
  obtain ⟨time, times, htimes⟩ := List.exists_cons_of_ne_nil hne
  have hcases := Lookup.times_turn hstill m (env.turns (n + 1))
  rw [htimes] at hcases
  show _ ∈ (Lookup.turn m (lookupTopic m env (n + 1)) (env.turns (n + 1))).times.tail
  rcases hcases with ⟨heq, -⟩ | ⟨heq, -⟩
  · rw [heq]
    exact List.mem_append_right times List.mem_cons_self
  · rw [heq]
    exact List.mem_append_right times List.mem_cons_self

/-- **No late request** exactly when whatever makes another one leaves time for it. -/
theorem inTime_iff :
    (∀ n, (lookupTopic m env n).InTime m.options) ↔
      ∀ n, (lookupTopic m env n).returned = none →
        Lookup.Timely m (lookupTopic m env n) (env.turns n) := by
  refine ⟨fun h n hnone => ?_, fun h n => (inTime_of_timely h n).1⟩
  have hnext (hstill : (lookupTopic m env (n + 1)).returned = none) :
      (lookupTopic m env (n + 1)).elapsed < m.options.operationTimeout :=
    h (n + 2) _ (mem_times_next n hnone hstill)
  obtain ⟨-, hcases⟩ := Lookup.turn_cases hnone m (env.turns n)
  constructor
  · intro hreconnects
    apply h (n + 1)
    show _ ∈ (Lookup.turn m (lookupTopic m env n) (env.turns n)).times.tail
    rcases Lookup.times_turn hnone m (env.turns n) with ⟨-, hnot⟩ | ⟨heq, -⟩
    · exact absurd hreconnects hnot
    · rw [heq]
      cases (lookupTopic m env n).times with
      | nil => exact List.mem_cons_self
      | cons time times =>
        exact List.mem_append_right times (List.mem_cons_of_mem _ List.mem_cons_self)
  · intro hretries
    rcases hcases with ⟨-, -, hstill, hlater⟩ | ⟨-, hnot, -⟩ | ⟨hnot, -⟩
    · exact hlater ▸ hnext hstill
    · exact absurd hretries hnot
    · exact absurd hretries hnot
  · intro hfollows
    rcases hcases with ⟨-, hnot, -⟩ | ⟨-, -, hstill, hlater⟩ | ⟨-, hnot, -⟩
    · exact absurd hfollows hnot
    · exact hlater ▸ hnext hstill
    · exact absurd hfollows hnot

end

/-- **A lookup ends, and asks nobody once the time is up,** exactly when it is redirected finitely
    often, and every redirect, every reconnect and every retry leaves time for the request it makes. -/
theorem lookup_ends_iff {u : UrlCrate} (m : Manager u) (hdelay : 0 < m.options.retryDelay)
    (env : Environment) :
    ((∃ n, (lookupTopic m env n).returned.isSome) ∧
        ∀ n, (lookupTopic m env n).InTime m.options) ↔
      (∃ N, ∀ n, (lookupTopic m env n).returned = none → Follows m (env.turns n) → n < N) ∧
        ∀ n, (lookupTopic m env n).returned = none →
          Lookup.Timely m (lookupTopic m env n) (env.turns n) := by
  rw [returns_iff hdelay, inTime_iff]

/-! ### A broker that names itself -/

/-- One URL. -/
def oneUrl : UrlCrate where
  parse text := if text = "pulsar://broker:6650" then some text else none
  scheme _ := "pulsar"
  hostStr _ := some "broker"
  port _ := some 6650

/-- The default options. -/
def defaults : Manager oneUrl where
  url := "pulsar://broker:6650"
  host := "broker"
  hostStr_url := rfl
  options := { operationTimeout := 30 * 1000, retryDelay := 5 * 1000, maxRetries := none }

/-- "Ask me", after ten seconds. -/
def askMe : Turn where
  reply :=
    { took := 10 * 1000
      value := .ok
        { brokerServiceUrl := some "pulsar://broker:6650", brokerServiceUrlTls := none,
          response := some redirectType, authoritative := none, error := none, message := none,
          proxyThroughServiceUrl := none } }
  reconnected := { took := 0, value := .ok () }
  secondReply := { took := 0, value := .error .Disconnected }
  overslept := 0
  connected := { took := 0, value := .ok () }

def askMeForever : Environment := { base := .ok (), turns := fun _ => askMe }

theorem lookup_ends_iff_askMe :
    ((∃ n, (lookupTopic defaults askMeForever n).returned.isSome) ∧
        ∀ n, (lookupTopic defaults askMeForever n).InTime defaults.options) ↔
      (∃ N, ∀ n, (lookupTopic defaults askMeForever n).returned = none →
          Follows defaults (askMeForever.turns n) → n < N) ∧
        ∀ n, (lookupTopic defaults askMeForever n).returned = none →
          Lookup.Timely defaults (lookupTopic defaults askMeForever n) (askMeForever.turns n) :=
  lookup_ends_iff defaults (by decide) askMeForever

/-- It is asked for ever, and the fourth request comes when the time is up. -/
theorem redirected_for_ever :
    (∀ n, (lookupTopic defaults askMeForever n).returned = none) ∧
      (lookupTopic defaults askMeForever 4).times = [0, 10 * 1000, 20 * 1000, 30 * 1000] ∧
      defaults.options.operationTimeout = 30 * 1000 := by
  refine ⟨fun n => ?_, by decide +kernel, rfl⟩
  have hfollows : Follows defaults askMe :=
    ⟨_, rfl, by decide +kernel, _, "pulsar://broker:6650", 6650, "broker", rfl, rfl, rfl, rfl, rfl⟩
  induction n with
  | zero => rfl
  | succ n ih =>
    obtain ⟨-, ⟨-, hnot, -⟩ | ⟨-, -, hstill, -⟩ | ⟨-, hnot, -⟩⟩ :=
      Lookup.turn_cases ih defaults (askMeForever.turns n)
    · exact absurd hfollows hnot
    · exact hstill
    · exact absurd hfollows hnot

end PulsarClient.ServiceDiscovery
