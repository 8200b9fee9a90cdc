/-
  ESTABLISHING A CONNECTION — the handshake, the addresses of a broker, and the retries around both.

  Three loops, one inside the other: `connect_inner` retries, `Connection::new` tries the addresses of
  the broker in a random order, and `connect` exchanges the first two messages over one of them.

  1. THE PROGRAM — `connect` (the credentials go out with `CommandConnect`; the first answer decides),
     `new` (an address that fails is noted, the next is tried; of the noted errors the first that is
     retryable is returned).  TCP, TLS, name resolution and the auth provider are the world's: `Endpoint`
     is an address with all that it will meet, and `Provider` what the one provider, which all addresses
     share, says call by call.

  2. `new_of_accepting`, `new_of_refused` — the spec of the address loop, from its step lemma.

  3. `new_order_independent` — where the turn of the provider makes no difference to any address, the
     shuffle decides which error is returned, but neither whether the connection is made nor whether the
     failure is retried.

  4. `connects_as_configured` — every `CommandConnect` carries the credentials that are configured, those
     of a provider from a call made for this address and no other.

  5. `established` — `connect_inner` over `new`: it stops at the first round in which an address accepts,
     or in which every address has failed for good, or with the last round allowed.
-/
import Mathlib.Data.List.Perm.Basic
import PulsarClient.ConnectionManager.Backoff
import PulsarClient.Message

namespace PulsarClient.Connection.Establish

open Proto ConnectionManager

/-! ## What is exchanged -/

/-- `proto::FeatureFlags` -/
structure FeatureFlags where
  supportsAuthRefresh : Option Bool := none
  supportsBrokerEntryMetadata : Option Bool := none
  supportsPartialProducer : Option Bool := none
  supportsTopicWatchers : Option Bool := none
  supportsGetPartitionedMetadataWithoutAutoCreation : Option Bool := none
  supportsReplDedupByLidAndEid : Option Bool := none
  supportsTopicWatcherReconcile : Option Bool := none
  supportsScalableTopics : Option Bool := none
  supportsTcMetadataDiscovery : Option Bool := none
  deriving DecidableEq, Repr

/-- `client_feature_flags`: only what this client implements is advertised. -/
def clientFeatureFlags : FeatureFlags where
  supportsAuthRefresh := some true
  supportsPartialProducer := some true
  supportsGetPartitionedMetadataWithoutAutoCreation := some true

structure BrokerFeatures where
  supportsTopicWatchers : Bool := false
  supportsGetPartitionedMetadataWithoutAutoCreation : Bool := false
  supportsReplDedupByLidAndEid : Bool := false
  supportsTopicWatcherReconcile : Bool := false
  supportsScalableTopics : Bool := false
  supportsTcMetadataDiscovery : Bool := false
  deriving DecidableEq, Repr

/-- `BrokerFeatures::from`: what a broker does not mention it does not support. -/
def BrokerFeatures.from : Option FeatureFlags → BrokerFeatures
  | none => {}
  | some flags =>
    { supportsTopicWatchers := flags.supportsTopicWatchers.getD false
      supportsGetPartitionedMetadataWithoutAutoCreation :=
        flags.supportsGetPartitionedMetadataWithoutAutoCreation.getD false
      supportsReplDedupByLidAndEid := flags.supportsReplDedupByLidAndEid.getD false
      supportsTopicWatcherReconcile := flags.supportsTopicWatcherReconcile.getD false
      supportsScalableTopics := flags.supportsScalableTopics.getD false
      supportsTcMetadataDiscovery := flags.supportsTcMetadataDiscovery.getD false }

/-- `connection::Authentication` -/
structure Authentication where
  name : String
  data : Bytes
  deriving DecidableEq, Repr

structure CommandConnect where
  authMethodName : Option String
  authData : Option Bytes
  proxyToBrokerUrl : Option String
  protocolVersion : Option Int
  featureFlags : Option FeatureFlags
  deriving DecidableEq, Repr

/-- `messages::connect` -/
def connectMessage (auth : Option Authentication) (proxyToBrokerUrl : Option String) :
    CommandConnect where
  authMethodName := auth.map (·.name)
  authData := auth.map (·.data)
  proxyToBrokerUrl
  protocolVersion := some 12
  featureFlags := some clientFeatureFlags

structure CommandConnected where
  serverVersion : String
  featureFlags : Option FeatureFlags
  deriving DecidableEq, Repr

/-- The first message of a broker, as far as `connect` reads it. -/
structure Greeting where
  error : Option CommandError := none
  connected : Option CommandConnected := none
  /-- its `Debug` text -/
  debug : String := ""
  deriving DecidableEq, Repr

/-! ## The handshake -/

/-- Where the credentials come from. -/
inductive AuthMethod where
  /-- a configured provider, with its `auth_method_name` -/
  | Provider (name : String)
  /-- `Authentication { name: "tls", data: [] }`, for a client certificate without a provider -/
  | Tls
  deriving DecidableEq, Repr

/-- `match (auth_data, client_identity)`: "an explicitly configured provider still wins". -/
def authMethod (auth : Option String) (clientIdentity : Bool) : Option AuthMethod :=
  match auth, clientIdentity with
  | none, true => some .Tls
  | some name, _ => some (.Provider name)
  | none, false => none

/-- A transport that is up: whether it takes the first message, and the first one it brings, which may
    depend on ours.  Here and below, a future that is not ready before the timeout is `none`. -/
structure Stream where
  send : Option (Except ConnectionError Unit)
  next : CommandConnect → Option (Option (Except ConnectionError Greeting))

/-- Which of the tasks of a connection the executor takes. -/
structure Executor where
  receiver : Bool := true
  sink : Bool := true
  authChallenge : Bool := true

structure SocketAddr where
  ip : String
  port : Nat
  deriving DecidableEq, Repr

/-- An address of the broker, and what it will meet when it is tried. -/
structure Endpoint where
  address : SocketAddr
  /-- TCP and, when it is asked for, TLS with the host name -/
  transport : (hostname : String) → (tls : Bool) → Option (Except ConnectionError Stream)
  executor : Executor := {}

/-- What the provider says when its `auth_data` is called for the first time, the second time, … -/
abbrev Provider := Nat → Option (Except AuthenticationError Bytes)

/-- An address that is tried, and the call of the provider that falls to it. -/
structure Try where
  endpoint : Endpoint
  /-- how often the provider has been called before -/
  turn : Nat
  authData : Option (Except AuthenticationError Bytes)

/-- `prepare_auth_data` -/
def prepareAuthData (authData : Option (Except AuthenticationError Bytes)) :
    Option AuthMethod → Option (Except ConnectionError (Option Authentication))
  | none => some (.ok none)
  | some .Tls => some (.ok (some { name := "tls", data := [] }))
  | some (.Provider name) =>
    authData.map fun
      | .ok data => .ok (some { name, data })
      | .error e => .error (.Authentication e)

/-- `match msg`: an error decides before anything else does. -/
def greeted : Option (Except ConnectionError Greeting) → Except ConnectionError CommandConnected
  | some (.ok msg) =>
    match msg.error with
    | some error => .error (.PulsarError (serverError error.error) (some error.message))
    | none =>
      match msg.connected with
      | some c => .ok c
      | none => .error (.Unexpected s!"Unexpected message from pulsar: {msg.debug}")
  | some (.error e) => .error e
  | none => .error .Disconnected

/-- The tasks of the connection, the last only with credentials. -/
def spawnTasks (executor : Executor) (auth : Option AuthMethod) : Except ConnectionError Unit :=
  if !executor.receiver then .error .Shutdown
  else if !executor.sink then .error .Shutdown
  else if auth.isSome && !executor.authChallenge then .error .Shutdown
  else .ok ()

/-- What has been handed to the transport, and what `connect` returns. -/
structure Handshake where
  written : List CommandConnect := []
  result : Option (Except ConnectionError BrokerFeatures) := none
  deriving DecidableEq

/-- `Connection::connect`.  Of the `ConnectionSender` it returns, the broker features. -/
def connect (authData : Option (Except AuthenticationError Bytes)) (auth : Option AuthMethod)
    (proxyToBrokerUrl : Option String) (executor : Executor) (stream : Stream) : Handshake :=
  match prepareAuthData authData auth with
  | none => {}
  | some (.error e) => { result := some (.error e) }
  | some (.ok authentication) =>
    { written := [connectMessage authentication proxyToBrokerUrl]
      result :=
        match stream.send with
        | none => none
        | some (.error e) => some (.error e)
        | some (.ok ()) =>
          (stream.next (connectMessage authentication proxyToBrokerUrl)).map fun msg => do
            let connected ← greeted msg
            spawnTasks executor auth
            .ok (BrokerFeatures.from connected.featureFlags) }

/-! ## The addresses -/

/-- `Url`, of which `new` reads these. -/
structure Url where
  scheme : String
  host : Option String
  port : Option Nat
  deriving DecidableEq, Repr

/-- The `default_port_number` of `socket_addrs`. -/
def defaultPort (scheme : String) : Option Nat :=
  if scheme = "pulsar" then some 6650 else if scheme = "pulsar+ssl" then some 6651 else none

/-- What `new` is called with. -/
structure Params where
  url : Url
  /-- the `auth_method_name` of the provider -/
  auth : Option String
  clientIdentity : Bool
  proxyToBrokerUrl : Option String
  deriving DecidableEq, Repr

def Params.method (p : Params) : Option AuthMethod := authMethod p.auth p.clientIdentity

/-- The transport of `prepare_stream`. -/
def Endpoint.reached (p : Params) (e : Endpoint) : Option (Except ConnectionError Stream) :=
  e.transport (p.url.host.getD e.address.ip) (p.url.scheme = "pulsar+ssl")

/-- `prepare_stream` -/
def prepareStream (p : Params) (t : Try) : Handshake :=
  match t.endpoint.reached p with
  | none => {}
  | some (.error err) => { result := some (.error err) }
  | some (.ok stream) => connect t.authData p.method p.proxyToBrokerUrl t.endpoint.executor stream

/-- `select(sender_prepare, delay_f)` with `connection_timeout`. -/
def dial (p : Params) (t : Try) : Except ConnectionError BrokerFeatures :=
  (prepareStream p t).result.getD (.error (.Io .TimedOut))

/-- Whether the provider, if there is one, is called while `e` is tried: once its transport is up. -/
def asks (p : Params) (e : Endpoint) : Bool :=
  match e.reached p with
  | some (.ok _) => p.auth.isSome
  | _ => false

/-- The addresses in their order, each with its turn of the provider, which has been called `turn` times
    before. -/
def tries (p : Params) (provider : Provider) (turn : Nat) : List Endpoint → List Try
  | [] => []
  | e :: rest =>
    { endpoint := e, turn, authData := provider turn } ::
      tries p provider (if asks p e then turn + 1 else turn) rest

/-- The error for the noted `errors`: the first that is retryable, or "fatal error when connecting to the
    Pulsar server". -/
def verdict (errors : List ConnectionError) : ConnectionError :=
  match errors.filter (·.establishRetryable) with
  | [] => .Io .other
  | e :: _ => e

/-- The addresses tried, oldest first, and what `new` returns. -/
structure New where
  tried : List Try
  result : Except ConnectionError BrokerFeatures

/-- `for address in addresses` -/
def dialEach (p : Params) (errors : List ConnectionError) : List Try → New
  | [] => { tried := [], result := .error (verdict errors) }
  | t :: rest =>
    match dial p t with
    | .ok features => { tried := [t], result := .ok features }
    | .error err =>
      { dialEach p (errors ++ [err]) rest with tried := t :: (dialEach p (errors ++ [err]) rest).tried }

/-- `Connection::new`; `socketAddrs` is the lookup of a host and a port, shuffled. -/
def new (p : Params) (provider : Provider) (socketAddrs : String → Nat → Option (List Endpoint)) :
    New :=
  if p.url.scheme ≠ "pulsar" ∧ p.url.scheme ≠ "pulsar+ssl" then
    { tried := [], result := .error .NotFound }
  else
    match p.url.host, p.url.port <|> defaultPort p.url.scheme with
    | some host, some port =>
      match socketAddrs host port with
      | some (e :: rest) => dialEach p [] (tries p provider 0 (e :: rest))
      | _ => { tried := [], result := .error .NotFound }
    | _, _ => { tried := [], result := .error .NotFound }

/-! ## The errors -/

section

variable {p : Params} {errors : List ConnectionError} {ts : List Try}

/-- An address over which the connection is made, … -/
def Accepts (p : Params) (t : Try) : Prop := ∃ features, dial p t = .ok features

/-- … or not, and for which it is tried again, … -/
def RefusesForNow (p : Params) (t : Try) : Prop :=
  ∃ err, dial p t = .error err ∧ err.establishRetryable = true

/-- … or not. -/
def RefusesForGood (p : Params) (t : Try) : Prop :=
  ∃ err, dial p t = .error err ∧ err.establishRetryable = false

theorem accepts_or_refuses (p : Params) (t : Try) :
    Accepts p t ∨ RefusesForNow p t ∨ RefusesForGood p t := by
  cases hdial : dial p t with
  | ok features => exact Or.inl ⟨features, hdial⟩
  | error err =>
    cases hretryable : err.establishRetryable with
    | true => exact Or.inr (Or.inl ⟨err, hdial, hretryable⟩)
    | false => exact Or.inr (Or.inr ⟨err, hdial, hretryable⟩)

theorem RefusesForNow.not_accepts {t : Try} (h : RefusesForNow p t) : ¬ Accepts p t := by
  rintro ⟨features, hok⟩
  obtain ⟨err, herror, -⟩ := h
  cases hok.symm.trans herror

theorem RefusesForGood.not_accepts {t : Try} (h : RefusesForGood p t) : ¬ Accepts p t := by
  rintro ⟨features, hok⟩
  obtain ⟨err, herror, -⟩ := h
  cases hok.symm.trans herror

theorem RefusesForGood.not_forNow {t : Try} (h : RefusesForGood p t) : ¬ RefusesForNow p t := by
  rintro ⟨err, herror, hretryable⟩
  obtain ⟨err', herror', hfatal⟩ := h
  obtain rfl := Except.error.inj (herror.symm.trans herror')
  cases hretryable.symm.trans hfatal

/-- The error that is noted for an address. -/
def noted (p : Params) (t : Try) : Option ConnectionError :=
  match dial p t with
  | .ok _ => none
  | .error err => some err

theorem noted_eq_some_iff {t : Try} {err : ConnectionError} :
    noted p t = some err ↔ dial p t = .error err := by
  unfold noted
  cases dial p t with
  | ok features => exact iff_of_false (Option.some_ne_none err).symm fun h => by cases h
  | error err' => rw [Option.some.injEq, Except.error.injEq]

/-- The verdict is retryable when a noted error is, … -/
theorem verdict_retryable (h : ∃ err ∈ errors, err.establishRetryable = true) :
    verdict errors ∈ errors ∧ (verdict errors).establishRetryable = true := by
  obtain ⟨err, hmem, hretryable⟩ := h
  have hne : errors.filter (·.establishRetryable) ≠ [] :=
    List.ne_nil_of_mem (List.mem_filter.mpr ⟨hmem, hretryable⟩)
  unfold verdict
  cases hfilter : errors.filter (·.establishRetryable) with
  | nil => exact absurd hfilter hne
  | cons first rest =>
    have hfirst : first ∈ errors.filter (·.establishRetryable) := by
      rw [hfilter]
      exact List.mem_cons_self
    exact List.mem_filter.mp hfirst

/-- … and says nothing of them when none is. -/
theorem verdict_of_fatal (h : ∀ err ∈ errors, err.establishRetryable = false) :
    verdict errors = .Io .other := by
  have hfilter : errors.filter (·.establishRetryable) = [] := by
    rw [List.filter_eq_nil_iff]
    intro err hmem
    rw [h err hmem]
    exact Bool.false_ne_true
  unfold verdict
  rw [hfilter]

/-! ## The loop over the addresses -/

/-- **The step lemma.** -/
theorem dialEach_cons (t : Try) (rest : List Try) :
    (Accepts p t ∧ ∃ features, dial p t = .ok features ∧
        dialEach p errors (t :: rest) = { tried := [t], result := .ok features }) ∨
      ∃ err, dial p t = .error err ∧
        dialEach p errors (t :: rest) =
          { dialEach p (errors ++ [err]) rest with
            tried := t :: (dialEach p (errors ++ [err]) rest).tried } := by
  cases hdial : dial p t with
  | ok features =>
    refine Or.inl ⟨⟨features, hdial⟩, features, rfl, ?_⟩
    simp only [dialEach, hdial]
  | error err =>
    refine Or.inr ⟨err, rfl, ?_⟩
    simp only [dialEach, hdial]

/-- **The addresses that refuse**, at the front: each is tried, and its error noted. -/
theorem dialEach_append {pre : List Try} (hpre : ∀ t ∈ pre, ¬ Accepts p t)
    (errors : List ConnectionError) (ts : List Try) :
    dialEach p errors (pre ++ ts) =
      { dialEach p (errors ++ pre.filterMap (noted p)) ts with
        tried := pre ++ (dialEach p (errors ++ pre.filterMap (noted p)) ts).tried } := by
  induction pre generalizing errors with
  | nil =>
    rw [List.filterMap_nil, List.append_nil]
    rfl
  | cons t pre ih =>
    rcases @dialEach_cons p errors t (pre ++ ts) with ⟨haccepts, -⟩ |
      ⟨err, hdial, heq⟩
    · exact absurd haccepts (hpre t List.mem_cons_self)
    · rw [List.cons_append, heq, ih (fun t' ht' => hpre t' (List.mem_cons_of_mem t ht')),
        List.filterMap_cons_some (noted_eq_some_iff.mpr hdial), List.append_assoc,
        List.singleton_append]
      rfl

/-- Of a list of addresses, one is the first that accepts, or all refuse. -/
theorem first_accepting (p : Params) (ts : List Try) :
    (∃ pre t post features, ts = pre ++ t :: post ∧ (∀ t' ∈ pre, ¬ Accepts p t') ∧
        dial p t = .ok features) ∨ ∀ t ∈ ts, ¬ Accepts p t := by
  induction ts with
  | nil => exact Or.inr fun t ht => absurd ht List.not_mem_nil
  | cons t ts ih =>
    by_cases haccepts : Accepts p t
    · obtain ⟨features, hdial⟩ := haccepts
      exact Or.inl ⟨[], t, ts, features, rfl, fun t' ht' => absurd ht' List.not_mem_nil, hdial⟩
    · rcases ih with ⟨pre, t', post, features, rfl, hpre, hdial⟩ | hall
      · refine Or.inl ⟨t :: pre, t', post, features, rfl, fun t'' ht'' => ?_, hdial⟩
        rcases List.mem_cons.mp ht'' with rfl | ht''
        · exact haccepts
        · exact hpre t'' ht''
      · refine Or.inr fun t' ht' => ?_
        rcases List.mem_cons.mp ht' with rfl | ht'
        · exact haccepts
        · exact hall t' ht'

theorem dialEach_of_accepting {pre post : List Try} {t : Try} {features : BrokerFeatures}
    (hpre : ∀ t' ∈ pre, ¬ Accepts p t') (hdial : dial p t = .ok features) :
    dialEach p [] (pre ++ t :: post) = { tried := pre ++ [t], result := .ok features } := by
  rw [dialEach_append hpre]
  simp only [dialEach, hdial]

theorem dialEach_of_refused (hall : ∀ t ∈ ts, ¬ Accepts p t) :
    dialEach p [] ts = { tried := ts, result := .error (verdict (ts.filterMap (noted p))) } := by
  have happend := dialEach_append hall [] []
  rw [List.append_nil, List.nil_append] at happend
  rw [happend]
  simp only [dialEach, List.append_nil]

/-! ## `new` -/

variable {provider : Provider} {socketAddrs : String → Nat → Option (List Endpoint)}

/-- The addresses that `new` will try; none for a URL it does not take. -/
def endpoints (p : Params) (socketAddrs : String → Nat → Option (List Endpoint)) : List Endpoint :=
  if p.url.scheme ≠ "pulsar" ∧ p.url.scheme ≠ "pulsar+ssl" then []
  else
    match p.url.host, p.url.port <|> defaultPort p.url.scheme with
    | some host, some port => (socketAddrs host port).getD []
    | _, _ => []

/-- … and their turns, as long as each of them is tried. -/
def planned (p : Params) (provider : Provider) (socketAddrs : String → Nat → Option (List Endpoint)) :
    List Try :=
  tries p provider 0 (endpoints p socketAddrs)

theorem new_eq (p : Params) (provider : Provider)
    (socketAddrs : String → Nat → Option (List Endpoint)) :
    new p provider socketAddrs =
      if planned p provider socketAddrs = [] then { tried := [], result := .error .NotFound }
      else dialEach p [] (planned p provider socketAddrs) := by
  unfold new planned endpoints
  by_cases hscheme : p.url.scheme ≠ "pulsar" ∧ p.url.scheme ≠ "pulsar+ssl"
  · rw [if_pos hscheme, if_pos hscheme]
    rfl
  · rw [if_neg hscheme, if_neg hscheme]
    cases p.url.host with
    | none => rfl
    | some host =>
      cases (p.url.port <|> defaultPort p.url.scheme) with
      | none => rfl
      | some port =>
        cases hresolved : socketAddrs host port with
        | none => simp only [hresolved, Option.getD_none, tries, if_true]
        | some es =>
          cases es with
          | nil => simp only [hresolved, Option.getD_some, tries, if_true]
          | cons e rest =>
            simp only [hresolved, Option.getD_some, tries, if_neg (List.cons_ne_nil _ _)]

/-- **The first address that accepts** is the last one tried, … -/
theorem new_of_accepting {pre post : List Try} {t : Try} {features : BrokerFeatures}
    (hts : planned p provider socketAddrs = pre ++ t :: post) (hpre : ∀ t' ∈ pre, ¬ Accepts p t')
    (hdial : dial p t = .ok features) :
    new p provider socketAddrs = { tried := pre ++ [t], result := .ok features } := by
  rw [new_eq, if_neg, hts, dialEach_of_accepting hpre hdial]
  rw [hts]
  exact List.append_ne_nil_of_right_ne_nil pre (List.cons_ne_nil t post)

/-- … and without one, all are tried. -/
theorem new_of_refused (hne : planned p provider socketAddrs ≠ [])
    (hall : ∀ t ∈ planned p provider socketAddrs, ¬ Accepts p t) :
    new p provider socketAddrs =
      { tried := planned p provider socketAddrs
        result := .error (verdict ((planned p provider socketAddrs).filterMap (noted p))) } := by
  rw [new_eq, if_neg hne, dialEach_of_refused hall]

/-- What is tried is a first part of what is planned. -/
theorem tried_prefix (p : Params) (provider : Provider)
    (socketAddrs : String → Nat → Option (List Endpoint)) :
    (new p provider socketAddrs).tried <+: planned p provider socketAddrs := by
  by_cases hne : planned p provider socketAddrs = []
  · rw [new_eq, if_pos hne]
    exact List.nil_prefix
  rcases first_accepting p (planned p provider socketAddrs) with
    ⟨pre, t, post, features, hts, hpre, hdial⟩ | hall
  · rw [new_of_accepting hts hpre hdial, hts]
    exact (List.prefix_append_right_inj pre).mpr ⟨post, rfl⟩
  · have htried := congrArg New.tried (new_of_refused hne hall)
    exact ⟨[], (List.append_nil _).trans htried⟩

/-- The three ways `new` can end, each for its own tries. -/
inductive Ends (p : Params) (ts : List Try) : Except ConnectionError BrokerFeatures → Prop where
  | made (features : BrokerFeatures) (haccepts : ∃ t ∈ ts, Accepts p t) : Ends p ts (.ok features)
  | refusedForNow (err : ConnectionError) (hall : ∀ t ∈ ts, ¬ Accepts p t)
      (hnow : ∃ t ∈ ts, RefusesForNow p t) (hretryable : err.establishRetryable = true)
      (hnoted : ∃ t ∈ ts, dial p t = .error err) : Ends p ts (.error err)
  | refusedForGood (hall : ∀ t ∈ ts, RefusesForGood p t) :
    Ends p ts (.error (if ts.isEmpty then .NotFound else .Io .other))

theorem ends (p : Params) (provider : Provider)
    (socketAddrs : String → Nat → Option (List Endpoint)) :
    Ends p (planned p provider socketAddrs) (new p provider socketAddrs).result := by
  by_cases hne : planned p provider socketAddrs = []
  · rw [new_eq, if_pos hne, hne]
    exact .refusedForGood (fun t ht => absurd ht List.not_mem_nil)
  rcases first_accepting p (planned p provider socketAddrs) with
    ⟨pre, t, post, features, hts, hpre, hdial⟩ | hall
  · rw [new_of_accepting hts hpre hdial]
    refine .made features ⟨t, ?_, features, hdial⟩
    rw [hts]
    exact List.mem_append_right pre List.mem_cons_self
  · rw [new_of_refused hne hall]
    by_cases hnow : ∃ t ∈ planned p provider socketAddrs, RefusesForNow p t
    · obtain ⟨t, ht, err, hdial, hretryable⟩ := hnow
      obtain ⟨hmem, hverdict⟩ := verdict_retryable
        ⟨err, List.mem_filterMap.mpr ⟨t, ht, noted_eq_some_iff.mpr hdial⟩, hretryable⟩
      obtain ⟨t', ht', hnoted⟩ := List.mem_filterMap.mp hmem
      exact .refusedForNow _ hall ⟨t, ht, err, hdial, hretryable⟩ hverdict
        ⟨t', ht', noted_eq_some_iff.mp hnoted⟩
    · have hgood : ∀ t ∈ planned p provider socketAddrs, RefusesForGood p t := by
        intro t ht
        rcases accepts_or_refuses p t with haccepts | hrefuses | hrefuses
        · exact absurd haccepts (hall t ht)
        · exact absurd ⟨t, ht, hrefuses⟩ hnow
        · exact hrefuses
      rw [verdict_of_fatal]
      · have hempty : (planned p provider socketAddrs).isEmpty = false := by
          rw [List.isEmpty_eq_false_iff]
          exact hne
        have hends := Ends.refusedForGood (p := p) hgood
        rw [hempty] at hends
        exact hends
      · intro err hmem
        obtain ⟨t, ht, hnoted⟩ := List.mem_filterMap.mp hmem
        obtain ⟨err', hdial, hfatal⟩ := hgood t ht
        obtain rfl := Except.error.inj ((noted_eq_some_iff.mp hnoted).symm.trans hdial)
        exact hfatal

/-! ## The turns of the provider -/

theorem mem_tries {t : Try} {turn : Nat} {es : List Endpoint} (h : t ∈ tries p provider turn es) :
    turn ≤ t.turn ∧ t.endpoint ∈ es ∧ t.authData = provider t.turn := by
  induction es generalizing turn with
  | nil => exact absurd h List.not_mem_nil
  | cons e es ih =>
    rcases List.mem_cons.mp h with rfl | h
    · exact ⟨Nat.le_refl turn, List.mem_cons_self, rfl⟩
    · obtain ⟨hturn, hmem, hanswer⟩ := ih h
      refine ⟨Nat.le_trans ?_ hturn, List.mem_cons_of_mem e hmem, hanswer⟩
      split
      · exact Nat.le_succ turn
      · exact Nat.le_refl turn

/-- Each address has its turn. -/
theorem exists_try {e : Endpoint} {es : List Endpoint} (h : e ∈ es) (turn : Nat) :
    ∃ t ∈ tries p provider turn es, t.endpoint = e := by
  induction es generalizing turn with
  | nil => exact absurd h List.not_mem_nil
  | cons e' es ih =>
    rcases List.mem_cons.mp h with rfl | h
    · exact ⟨_, List.mem_cons_self, rfl⟩
    · obtain ⟨t, ht, heq⟩ := ih h (if asks p e' then turn + 1 else turn)
      exact ⟨t, List.mem_cons_of_mem _ ht, heq⟩

/-- No call of the provider serves two addresses. -/
theorem tries_turns (p : Params) (provider : Provider) (turn : Nat) (es : List Endpoint) :
    (tries p provider turn es).Pairwise fun t t' => asks p t.endpoint = true → t.turn < t'.turn := by
  induction es generalizing turn with
  | nil => exact List.Pairwise.nil
  | cons e es ih =>
    refine List.pairwise_cons.mpr ⟨fun t' ht' hasks => ?_, ih _⟩
    have hturn := (mem_tries ht').1
    rw [if_pos (show asks p e = true from hasks)] at hturn
    exact hturn

end

/-! ## The order of the addresses -/

/-- Two outcomes that a caller who retries cannot tell apart, but for the text. -/
inductive SameFate : Except ConnectionError BrokerFeatures → Except ConnectionError BrokerFeatures → Prop
  where
  | made (f g : BrokerFeatures) : SameFate (.ok f) (.ok g)
  | retried (e e' : ConnectionError) (h : e.establishRetryable = true)
      (h' : e'.establishRetryable = true) : SameFate (.error e) (.error e')
  | final (e : ConnectionError) (h : e.establishRetryable = false) : SameFate (.error e) (.error e)

/-- Whichever turn of the provider falls to `e`, it accepts, or it refuses for now, or it refuses for
    good. -/
def Steady (p : Params) (provider : Provider) (e : Endpoint) : Prop :=
  (∀ n, Accepts p ⟨e, n, provider n⟩) ∨ (∀ n, RefusesForNow p ⟨e, n, provider n⟩) ∨
    ∀ n, RefusesForGood p ⟨e, n, provider n⟩

theorem steady_of_dial {p : Params} {provider : Provider} {e : Endpoint}
    (h : ∀ n, dial p ⟨e, n, provider n⟩ = dial p ⟨e, 0, provider 0⟩) : Steady p provider e := by
  unfold Steady Accepts RefusesForNow RefusesForGood
  simp only [h]
  rcases accepts_or_refuses p ⟨e, 0, provider 0⟩ with haccepts | hrefuses | hrefuses
  · exact Or.inl fun _ => haccepts
  · exact Or.inr (Or.inl fun _ => hrefuses)
  · exact Or.inr (Or.inr fun _ => hrefuses)

/-- So it is when the provider always says the same, … -/
theorem steady_of_constant {provider : Provider} (h : ∀ n, provider n = provider 0) (p : Params)
    (e : Endpoint) : Steady p provider e := by
  apply steady_of_dial
  intro n
  rw [h n]
  rfl

/-- … and when there is none. -/
theorem steady_of_no_provider {p : Params} (h : p.auth = none) (provider : Provider) (e : Endpoint) :
    Steady p provider e := by
  have hprepared : ∀ answer answer',
      prepareAuthData answer p.method = prepareAuthData answer' p.method := by
    intro answer answer'
    unfold Params.method authMethod
    rw [h]
    cases p.clientIdentity with
    | true => rfl
    | false => rfl
  apply steady_of_dial
  intro n
  unfold dial prepareStream connect
  simp only [hprepared (provider n) (provider 0)]

section

variable {p : Params} {provider : Provider} {sa sb : String → Nat → Option (List Endpoint)}

/-- In the other order the same address has another turn. -/
theorem exists_planned (h : (endpoints p sa).Perm (endpoints p sb)) {t : Try}
    (ht : t ∈ planned p provider sa) :
    ∃ t' ∈ planned p provider sb, t'.endpoint = t.endpoint :=
  exists_try (h.mem_iff.mp (mem_tries ht).2.1) 0

/-- Of a steady address all turns are alike. -/
theorem Steady.alike {t t' : Try} {m n : Nat} {es es' : List Endpoint}
    (h : Steady p provider t.endpoint) (ht : t ∈ tries p provider m es)
    (ht' : t' ∈ tries p provider n es') (heq : t'.endpoint = t.endpoint) :
    (Accepts p t → Accepts p t') ∧ (RefusesForNow p t → RefusesForNow p t') := by
  obtain ⟨e, i, answer⟩ := t
  obtain ⟨e', j, answer'⟩ := t'
  obtain rfl : e' = e := heq
  obtain rfl : answer = provider i := (mem_tries ht).2.2
  obtain rfl : answer' = provider j := (mem_tries ht').2.2
  rcases h with haccepts | hnow | hgood
  · exact ⟨fun _ => haccepts j, fun h => absurd (haccepts i) h.not_accepts⟩
  · exact ⟨fun h => absurd h (hnow i).not_accepts, fun _ => hnow j⟩
  · exact ⟨fun h => absurd h (hgood i).not_accepts, fun h => absurd h (hgood i).not_forNow⟩

theorem accepts_of_perm (h : (endpoints p sa).Perm (endpoints p sb))
    (hsteady : ∀ e ∈ endpoints p sa, Steady p provider e)
    (ha : ∃ t ∈ planned p provider sa, Accepts p t) : ∃ t ∈ planned p provider sb, Accepts p t := by
  obtain ⟨t, ht, haccepts⟩ := ha
  obtain ⟨t', ht', heq⟩ := exists_planned h ht
  exact ⟨t', ht', ((hsteady _ (mem_tries ht).2.1).alike ht ht' heq).1 haccepts⟩

theorem forNow_of_perm (h : (endpoints p sa).Perm (endpoints p sb))
    (hsteady : ∀ e ∈ endpoints p sa, Steady p provider e)
    (ha : ∃ t ∈ planned p provider sa, RefusesForNow p t) :
    ∃ t ∈ planned p provider sb, RefusesForNow p t := by
  obtain ⟨t, ht, hrefuses⟩ := ha
  obtain ⟨t', ht', heq⟩ := exists_planned h ht
  exact ⟨t', ht', ((hsteady _ (mem_tries ht).2.1).alike ht ht' heq).2 hrefuses⟩

theorem planned_isEmpty (p : Params) (provider : Provider)
    (socketAddrs : String → Nat → Option (List Endpoint)) :
    (planned p provider socketAddrs).isEmpty = (endpoints p socketAddrs).isEmpty := by
  unfold planned
  cases endpoints p socketAddrs <;> rfl

/-- **The shuffle does not matter**, where the turn of the provider makes no difference to any address.
    In whatever order the addresses of a broker are tried, the connection is made or not, and the failure
    is one that is retried or not; a failure that is not retried is the very same. -/
theorem new_order_independent (h : (endpoints p sa).Perm (endpoints p sb))
    (hsteady : ∀ e ∈ endpoints p sa, Steady p provider e) :
    SameFate (new p provider sa).result (new p provider sb).result := by
  have hsteady' : ∀ e ∈ endpoints p sb, Steady p provider e := fun e he =>
    hsteady e (h.mem_iff.mpr he)
  have ha := ends p provider sa
  have hb := ends p provider sb
  generalize (new p provider sa).result = ra at ha
  generalize (new p provider sb).result = rb at hb
  cases ha with
  | made f haccepts =>
    obtain ⟨t, ht, haccepts⟩ := accepts_of_perm h hsteady haccepts
    cases hb with
    | made g _ => exact .made f g
    | refusedForNow err hall _ _ _ => exact absurd haccepts (hall t ht)
    | refusedForGood hall => exact absurd haccepts (hall t ht).not_accepts
  | refusedForNow err hall hnow hretryable _ =>
    obtain ⟨t, ht, hrefuses⟩ := forNow_of_perm h hsteady hnow
    cases hb with
    | made g haccepts =>
      obtain ⟨t', ht', haccepts⟩ := accepts_of_perm h.symm hsteady' haccepts
      exact absurd haccepts (hall t' ht')
    | refusedForNow err' _ _ hretryable' _ => exact .retried err err' hretryable hretryable'
    | refusedForGood hgood => exact absurd hrefuses (hgood t ht).not_forNow
  | refusedForGood hall =>
    have hempty : (planned p provider sa).isEmpty = (planned p provider sb).isEmpty := by
      rw [planned_isEmpty, planned_isEmpty, Bool.eq_iff_iff, List.isEmpty_iff, List.isEmpty_iff]
      constructor
      · intro hnil
        exact List.Perm.eq_nil (hnil ▸ h.symm)
      · intro hnil
        exact List.Perm.eq_nil (hnil ▸ h)
    cases hb with
    | made g haccepts =>
      obtain ⟨t, ht, haccepts⟩ := accepts_of_perm h.symm hsteady' haccepts
      exact absurd haccepts (hall t ht).not_accepts
    | refusedForNow err _ hnow _ _ =>
      obtain ⟨t, ht, hrefuses⟩ := forNow_of_perm h.symm hsteady' hnow
      exact absurd hrefuses (hall t ht).not_forNow
    | refusedForGood _ =>
      rw [hempty]
      refine .final _ ?_
      split <;> rfl

end

/-- `pulsar://broker:6650`, with a token. -/
def withToken : Params where
  url := { scheme := "pulsar", host := some "broker", port := none }
  auth := some "token"
  clientIdentity := false
  proxyToBrokerUrl := none

/-- The token. -/
def token : Provider := fun _ => some (.ok [0x74])

/-- Nobody listens here. -/
def closed : Endpoint where
  address := { ip := "10.0.0.1", port := 6650 }
  transport _ _ := some (.error (.Io .ConnectionRefused))

/-- A broker that answers `greeting`. -/
def answers (greeting : Greeting) : Endpoint where
  address := { ip := "10.0.0.2", port := 6650 }
  transport _ _ := some (.ok { send := some (.ok ()), next := fun _ => some (some (.ok greeting)) })

def welcomes : Endpoint := answers { connected := some { serverVersion := "4.0", featureFlags := none } }

/-- "AuthenticationError" -/
def denies : Endpoint :=
  answers { error := some { requestId := 0, error := 3, message := "Failed to authenticate" } }

theorem new_order_independent_swapped :
    SameFate (new withToken token fun _ _ => some [closed, welcomes]).result
      (new withToken token fun _ _ => some [welcomes, closed]).result :=
  new_order_independent (p := withToken) (List.Perm.swap welcomes closed [])
    fun e _ => steady_of_constant (fun _ => rfl) withToken e

/-! ## The credentials -/

/-- What `new` writes, each message with the try it is written in. -/
def New.written (n : New) (p : Params) : List (Try × CommandConnect) :=
  n.tried.flatMap fun t => (prepareStream p t).written.map fun c => (t, c)

/-- The credentials of a `CommandConnect` are the configured ones; those of a provider are what it has
    said in this very try. -/
def AsConfigured (p : Params) (provider : Provider) (t : Try) (c : CommandConnect) : Prop :=
  match p.auth, p.clientIdentity with
  | some name, _ => c.authMethodName = some name ∧
      ∃ data, provider t.turn = some (.ok data) ∧ c.authData = some data
  | none, true => c.authMethodName = some "tls" ∧ c.authData = some []
  | none, false => c.authMethodName = none ∧ c.authData = none

theorem mem_written {p : Params} {t : Try} {c : CommandConnect}
    (h : c ∈ (prepareStream p t).written) : asks p t.endpoint = p.auth.isSome ∧
      ∃ authentication, prepareAuthData t.authData p.method = some (.ok authentication) ∧
        c = connectMessage authentication p.proxyToBrokerUrl := by
  unfold prepareStream at h
  unfold asks
  split at h
  · exact absurd h List.not_mem_nil
  · exact absurd h List.not_mem_nil
  · rename_i stream hreached
    rw [hreached]
    refine ⟨rfl, ?_⟩
    unfold connect at h
    split at h
    · exact absurd h List.not_mem_nil
    · exact absurd h List.not_mem_nil
    · rename_i authentication hprepared
      exact ⟨authentication, hprepared, List.mem_singleton.mp h⟩

/-- An address gets one message at most. -/
theorem written_length (p : Params) (t : Try) : (prepareStream p t).written.length ≤ 1 := by
  unfold prepareStream
  split
  · exact Nat.zero_le 1
  · exact Nat.zero_le 1
  · unfold connect
    split
    · exact Nat.zero_le 1
    · exact Nat.zero_le 1
    · exact Nat.le_refl 1

/-- The messages follow the turns of the provider. -/
theorem written_turns (p : Params) (hauth : p.auth.isSome = true) {ts : List Try}
    (h : ts.Pairwise fun t t' => asks p t.endpoint = true → t.turn < t'.turn) :
    (ts.flatMap fun t => (prepareStream p t).written.map fun c => (t, c)).Pairwise
      fun w w' => w.1.turn < w'.1.turn := by
  rw [List.pairwise_flatMap]
  refine ⟨fun t _ => ?_, h.imp fun {t t'} hlt w hw w' hw' => ?_⟩
  · rw [List.pairwise_map]
    have hone := written_length p t
    match hwritten : (prepareStream p t).written with
    | [] => exact List.Pairwise.nil
    | [c] => exact List.pairwise_singleton _ c
    | c :: c' :: rest =>
      rw [hwritten, List.length_cons, List.length_cons] at hone
      omega
  · obtain ⟨c, hc, rfl⟩ := List.mem_map.mp hw
    obtain ⟨c', -, rfl⟩ := List.mem_map.mp hw'
    exact hlt ((mem_written hc).1.trans hauth)

/-- **A connection never goes without its credentials.**  Every `CommandConnect` that is written, to
    whichever address, names the broker behind the proxy and the features of this client, and carries the
    name of the configured provider with what the provider has said when it was called for this address;
    `tls` for a certificate alone; and nothing where nothing is configured.  And no two messages share a
    call of the provider: a later one comes from a later call. -/
theorem connects_as_configured (p : Params) (provider : Provider)
    (socketAddrs : String → Nat → Option (List Endpoint)) :
    (∀ t c, (t, c) ∈ (new p provider socketAddrs).written p →
      c.proxyToBrokerUrl = p.proxyToBrokerUrl ∧ c.featureFlags = some clientFeatureFlags ∧
        AsConfigured p provider t c) ∧
      (p.auth.isSome = true →
        ((new p provider socketAddrs).written p).Pairwise fun w w' => w.1.turn < w'.1.turn) := by
  have htried := tried_prefix p provider socketAddrs
  refine ⟨fun t c hc => ?_, fun hauth =>
    written_turns p hauth ((tries_turns p provider 0 _).sublist htried.sublist)⟩
  obtain ⟨t', ht, hmem⟩ := List.mem_flatMap.mp hc
  obtain ⟨c', hwritten, heq⟩ := List.mem_map.mp hmem
  obtain ⟨rfl, rfl⟩ := Prod.mk.inj heq
  obtain ⟨-, authentication, hprepared, rfl⟩ := mem_written hwritten
  refine ⟨rfl, rfl, ?_⟩
  unfold Params.method authMethod at hprepared
  unfold AsConfigured
  split at hprepared
  · rename_i hauth hidentity
    rw [hauth, hidentity]
    obtain rfl := Except.ok.inj (Option.some.inj hprepared)
    exact ⟨rfl, rfl⟩
  · rename_i name hauth
    rw [hauth]
    obtain ⟨answer, hanswer, hok⟩ := Option.map_eq_some_iff.mp hprepared
    cases answer with
    | error err => cases hok
    | ok data =>
      obtain rfl := Except.ok.inj hok
      exact ⟨rfl, data, (mem_tries (htried.subset ht)).2.2.symm.trans hanswer, rfl⟩
  · rename_i hauth hidentity
    rw [hauth, hidentity]
    obtain rfl := Except.ok.inj (Option.some.inj hprepared)
    exact ⟨rfl, rfl⟩

/-- Another token for every call. -/
def renewed : Provider := fun n => some (.ok [UInt8.ofNat n])

/-- The first broker denies the first token; the second gets the next one. -/
theorem connects_as_configured_renewed :
    AsConfigured withToken renewed { endpoint := welcomes, turn := 1, authData := renewed 1 }
        (connectMessage (some { name := "token", data := [1] }) none) ∧
      ((new withToken renewed fun _ _ => some [denies, welcomes]).written withToken).Pairwise
        fun w w' => w.1.turn < w'.1.turn := by
  have hconfigured := connects_as_configured withToken renewed fun _ _ => some [denies, welcomes]
  refine ⟨(hconfigured.1 _ _ ?_).2.2, hconfigured.2 rfl⟩
  show _ ∈ [(_, _), (_, connectMessage (some { name := "token", data := [1] }) none)]
  exact List.mem_cons_of_mem _ (List.mem_singleton_self _)

/-! ## The retries -/

open Backoff

/-- One round of `connect_inner`: the broker is looked up anew, and the provider goes on. -/
structure Round where
  provider : Provider
  socketAddrs : String → Nat → Option (List Endpoint)

/-- What `new` tries in this round. -/
def Round.planned (r : Round) (p : Params) : List Try := Establish.planned p r.provider r.socketAddrs

/-- The attempts of `connect_inner`. -/
def attempts (p : Params) (rounds : Nat → Round) (jitter : Nat → Fin 10) (k : Nat) : Attempt where
  result := (new p (rounds k).provider (rounds k).socketAddrs).result.map fun _ => ()
  jitter := jitter k

/-- No address has accepted in this round, and one may in the next. -/
def Undecided (p : Params) (ts : List Try) : Prop :=
  (∀ t ∈ ts, ¬ Accepts p t) ∧ ∃ t ∈ ts, RefusesForNow p t

section

variable {p : Params} {rounds : Nat → Round} {jitter : Nat → Fin 10}
  {o : Options} {traces : Bool} {world : Nat → Attempt}

theorem fails_iff (k : Nat) :
    (attempts p rounds jitter k).Fails ↔ Undecided p ((rounds k).planned p) := by
  have hends := ends p (rounds k).provider (rounds k).socketAddrs
  unfold Attempt.Fails attempts
  generalize (new p (rounds k).provider (rounds k).socketAddrs).result = result at hends
  cases hends with
  | made features haccepts =>
    refine iff_of_false (fun ⟨err, hok, _⟩ => by cases hok) fun hundecided => ?_
    obtain ⟨t, ht, haccepts⟩ := haccepts
    exact hundecided.1 t ht haccepts
  | refusedForNow err hall hnow hretryable hnoted =>
    exact iff_of_true ⟨err, rfl, hretryable⟩ ⟨hall, hnow⟩
  | refusedForGood hall =>
    refine iff_of_false (fun ⟨err, herror, hretryable⟩ => ?_) fun ⟨_, t, ht, hrefuses⟩ =>
      (hall t ht).not_forNow hrefuses
    obtain rfl := Except.error.inj herror
    split at hretryable <;> cases hretryable

/-- What an attempt that is not repeated makes `connect_inner` return. -/
def Attempt.outcome (a : Attempt) : Backoff.Outcome :=
  match a.result with
  | .ok () => .Ok
  | .error e => .Err e

/-- As long as the attempts fail and may be repeated, they are. -/
theorem running_of_fails (hbackoff : o.minBackoff * 2 ^ 32 < durationLimit)
    (hfits : ∀ k, Retried o world k → Fits o traces world k) {n : Nat}
    (hfails : ∀ j < n, (world j).Fails) (hn : n ≤ o.maxRetries) :
    Running o world n (connectInner o traces world n) := by
  induction n with
  | zero => exact ⟨rfl, rfl, rfl, rfl, Nat.zero_le _, fun j hj => absurd hj (Nat.not_lt_zero j)⟩
  | succ n ih =>
    have hrunning := ih (fun j hj => hfails j (Nat.lt_succ_of_lt hj)) (Nat.le_of_succ_le hn)
    have hretried := hrunning.retried (hfails n (Nat.lt_succ_self n)) hn
    rcases step_cases hbackoff traces hrunning with ⟨-, -, hnext⟩ | ⟨-, hnot, -⟩ | ⟨hends, -⟩
    · exact hnext
    · exact absurd (hfits n hretried) hnot
    · exact absurd hretried hends

/-- The last attempt: what it brings is returned. -/
theorem step_last {n : Nat} {s : Connecting} (hrunning : Running o world n s)
    (hlast : (world n).Fails → n = o.maxRetries) :
    (s.step o traces (world n)).returned = some (Attempt.outcome (world n)) ∧
      (s.step o traces (world n)).attempts = n + 1 := by
  have hattempts := hrunning.attempts
  rw [step_of_running hrunning.returned]
  unfold Attempt.outcome
  cases hresult : (world n).result with
  | ok _ => exact ⟨rfl, congrArg (· + 1) hattempts⟩
  | error e =>
    by_cases hretryable : e.establishRetryable = true
    · have heq := hlast ⟨e, hresult, hretryable⟩
      have hmax : o.maxRetries ≤ s.currentRetries :=
        Nat.le_of_eq (heq.symm.trans hrunning.currentRetries.symm)
      simp only [if_pos hretryable, if_pos hmax]
      exact ⟨rfl, congrArg (· + 1) hattempts⟩
    · simp only [if_neg hretryable]
      exact ⟨rfl, congrArg (· + 1) hattempts⟩

/-- **The run lemma**: the first attempt that does not fail, or the last that is allowed, decides. -/
theorem connectInner_of_first (hbackoff : o.minBackoff * 2 ^ 32 < durationLimit)
    (hfits : ∀ k, Retried o world k → Fits o traces world k) {k : Nat} (hk : k ≤ o.maxRetries)
    (hfails : ∀ j < k, (world j).Fails) (hlast : (world k).Fails → k = o.maxRetries) :
    (connectInner o traces world (o.maxRetries + 1)).returned =
        some (Attempt.outcome (world k)) ∧
      (connectInner o traces world (o.maxRetries + 1)).attempts = k + 1 := by
  have hdone := @step_last _ traces _ _ _ (running_of_fails hbackoff hfits hfails hk) hlast
  -- from then on nothing changes
  have hstays : ∀ d, connectInner o traces world (k + 1 + d) = connectInner o traces world (k + 1) := by
    intro d
    induction d with
    | zero => rfl
    | succ d ih =>
      show (connectInner o traces world (k + 1 + d)).step o traces _ = _
      rw [ih]
      refine step_of_returned ?_ _
      show ((connectInner o traces world k).step o traces (world k)).returned.isSome = true
      rw [hdone.1]
      rfl
  have heq : o.maxRetries + 1 = k + 1 + (o.maxRetries - k) := by omega
  rw [heq, hstays]
  exact hdone

end

/-- Some attempt is the first that does not fail, or the last that is allowed. -/
theorem first_decided (fails : Nat → Prop) (n : Nat) :
    ∃ k ≤ n, (∀ j < k, fails j) ∧ (fails k → k = n) := by
  induction n with
  | zero => exact ⟨0, Nat.le_refl 0, fun j hj => absurd hj (Nat.not_lt_zero j), fun _ => rfl⟩
  | succ n ih =>
    obtain ⟨k, hk, hbefore, hlast⟩ := ih
    by_cases hfails : fails k
    · obtain rfl := hlast hfails
      refine ⟨k + 1, Nat.le_refl _, fun j hj => ?_, fun _ => rfl⟩
      rcases Nat.lt_or_eq_of_le (Nat.le_of_lt_succ hj) with hlt | rfl
      · exact hbefore j hlt
      · exact hfails
    · exact ⟨k, Nat.le_succ_of_le hk, hbefore, fun h => absurd h hfails⟩

/-- **Headline.**  For every budget of retries whose delays fit (`hbackoff`, `hfits`: otherwise the code
    panics), whatever addresses a broker has in each round and whatever they and the provider do:
    `connect_inner` passes over the rounds in which no address accepts and one refuses for now;
    and it ends with the first other round, or the last that is allowed.  It returns the connection if an
    address accepts there; a retryable error if none does and the rounds are used up; and otherwise that
    the addresses have failed for good, or that there are none. -/
theorem established (o : Options) (hbackoff : o.minBackoff * 2 ^ 32 < durationLimit) (traces : Bool)
    (p : Params) (rounds : Nat → Round) (jitter : Nat → Fin 10)
    (hfits : ∀ k, Retried o (attempts p rounds jitter) k → Fits o traces (attempts p rounds jitter) k) :
    ∃ k ≤ o.maxRetries, (∀ j < k, Undecided p ((rounds j).planned p)) ∧
      (connectInner o traces (attempts p rounds jitter) (o.maxRetries + 1)).attempts = k + 1 ∧
      ((∃ t ∈ (rounds k).planned p, Accepts p t) ∧
          (connectInner o traces (attempts p rounds jitter) (o.maxRetries + 1)).returned = some .Ok ∨
        Undecided p ((rounds k).planned p) ∧ k = o.maxRetries ∧
          (∃ err, err.establishRetryable = true ∧
            (∃ t ∈ (rounds k).planned p, dial p t = .error err) ∧
            (connectInner o traces (attempts p rounds jitter) (o.maxRetries + 1)).returned =
              some (.Err err)) ∨
        (∀ t ∈ (rounds k).planned p, RefusesForGood p t) ∧
          (connectInner o traces (attempts p rounds jitter) (o.maxRetries + 1)).returned =
            some (.Err (if ((rounds k).planned p).isEmpty then .NotFound else .Io .other))) := by
  obtain ⟨k, hk, hbefore, hlast⟩ := first_decided
    (fun j => (attempts p rounds jitter j).Fails) o.maxRetries
  obtain ⟨hreturned, hattempts⟩ := connectInner_of_first hbackoff hfits hk hbefore hlast
  refine ⟨k, hk, fun j hj => (fails_iff j).mp (hbefore j hj), hattempts, ?_⟩
  rw [hreturned]
  have houtcome : Attempt.outcome (attempts p rounds jitter k) =
      match (new p (rounds k).provider (rounds k).socketAddrs).result with
      | .ok _ => .Ok
      | .error e => .Err e := by
    unfold Attempt.outcome attempts
    cases (new p (rounds k).provider (rounds k).socketAddrs).result <;> rfl
  rw [houtcome]
  have hends := ends p (rounds k).provider (rounds k).socketAddrs
  have hfails := @fails_iff p rounds jitter k
  generalize (new p (rounds k).provider (rounds k).socketAddrs).result = result at hends
  cases hends with
  | made features haccepts => exact Or.inl ⟨haccepts, rfl⟩
  | refusedForNow err hall hnow hretryable hnoted =>
    exact Or.inr (Or.inl ⟨⟨hall, hnow⟩, hlast (hfails.mpr ⟨hall, hnow⟩), err, hretryable, hnoted, rfl⟩)
  | refusedForGood hall => exact Or.inr (Or.inr ⟨hall, rfl⟩)

/-- Nobody listens in the first round; in the second the only broker denies the credentials, and that
    is the end of it. -/
def twice (k : Nat) : Round where
  provider := token
  socketAddrs _ _ := if k = 0 then some [closed] else some [denies]

theorem established_twice : ∃ k ≤ 5, (∀ j < k, Undecided withToken ((twice j).planned withToken)) ∧
    (connectInner (tenMillis 5 (by decide)) false (attempts withToken twice fun _ => 0) 6).attempts =
      k + 1 ∧
    ((∃ t ∈ (twice k).planned withToken, Accepts withToken t) ∧
        (connectInner (tenMillis 5 (by decide)) false (attempts withToken twice fun _ => 0)
          6).returned = some .Ok ∨
      Undecided withToken ((twice k).planned withToken) ∧ k = 5 ∧
        (∃ err, err.establishRetryable = true ∧
          (∃ t ∈ (twice k).planned withToken, dial withToken t = .error err) ∧
          (connectInner (tenMillis 5 (by decide)) false (attempts withToken twice fun _ => 0)
            6).returned = some (.Err err)) ∨
      (∀ t ∈ (twice k).planned withToken, RefusesForGood withToken t) ∧
        (connectInner (tenMillis 5 (by decide)) false (attempts withToken twice fun _ => 0)
          6).returned =
          some (.Err (if ((twice k).planned withToken).isEmpty then .NotFound else .Io .other))) :=
  established (tenMillis 5 (by decide)) (by decide) false withToken twice (fun _ => 0)
    fun k hretried => fits_of_lt (by decide) (Nat.lt_trans hretried.allowed (by decide))

end PulsarClient.Connection.Establish
