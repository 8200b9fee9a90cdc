/-
  THE CHAIN OF ANSWERS — where `lookup_topic` ends up after redirects.

  Four locals are carried from answer to answer: the connection, the authoritative flag, the flag that
  some answer asked for the proxy, and the address.  Retries and reconnects come in between.

  1. `Traced` — the lookup with its connection (`conn`, by the address it was opened for), the answers it
     has read, and what it asked, where, and after which answers.

  2. `addressOf`, `authoritativeOf` — what a chain of answers says, with no locals: its last URL, whether
     any of it wants the proxy, the last flag.

  3. `Coherent` — while the lookup runs, the locals are what the chain says.

  4. **`host_str().unwrap()`** — an answer's URL without a host is a panic, and nothing else is
     (`chain_correct_iff`).
-/
import PulsarClient.ServiceDiscovery

namespace PulsarClient.ServiceDiscovery

open ConnectionManager

/-! ## The lookup, with its connection -/

/-- What is asked: over which connection, how, and after which answers. -/
structure Query where
  conn : BrokerAddress
  authoritative : Bool
  chain : List CommandLookupTopicResponse
  deriving DecidableEq, Repr

/-- A lookup and its connection.  `chain` and `queries` are not in the source. -/
structure Traced where
  lookup : Lookup
  /-- whom `conn` is connected to -/
  conn : BrokerAddress
  /-- the answers that were read: they are there, and not `Failed` -/
  chain : List CommandLookupTopicResponse := []
  queries : List Query := []

namespace Traced

/-- `conn.sender().lookup_topic(..)` -/
def query (s : Traced) : Traced :=
  { s with
    queries := s.queries ++
      [{ conn := s.conn, authoritative := s.lookup.isAuthoritative, chain := s.chain }] }

/-- A request, and `conn = get_connection(&broker_address)` and one more when the connection was
    closed. -/
def ask (s : Traced) (t : Turn) : Traced :=
  if t.closed then
    match t.reconnected.value with
    | .error _ => s.query
    | .ok () => { s.query with conn := s.lookup.brokerAddress }.query
  else s.query

/-- The answer is read, unless the lookup failed. -/
def read (s : Traced) (t : Turn) : List CommandLookupTopicResponse :=
  match t.answer with
  | .error _ => s.chain
  | .ok r => if r.Failed then s.chain else s.chain ++ [r]

variable {u : UrlCrate} (m : Manager u)

/-- `conn = get_connection(&broker_address)`, of a redirect. -/
def connect (s : Traced) (t : Turn) (next : Lookup) : BrokerAddress :=
  match t.answer with
  | .error _ => s.conn
  | .ok r =>
    if r.Failed then s.conn
    else
      match convertLookupResponse u r, t.connected.value with
      | some l, .ok () => if l.redirect then next.brokerAddress else s.conn
      | _, _ => s.conn

/-- One turn of the loop. -/
def turn (s : Traced) (t : Turn) : Traced :=
  match s.lookup.returned with
  | some _ => s
  | none =>
    { lookup := s.lookup.turn m t
      conn := (s.ask t).connect (u := u) t (s.lookup.turn m t)
      chain := s.read t
      queries := (s.ask t).queries }

/-- Before the loop: `get_base_connection`. -/
def start (base : Except ConnectionError Unit) : Traced :=
  { lookup := .start m base, conn := m.getBaseAddress }

end Traced

section

variable {u : UrlCrate} (m : Manager u)

/-- `lookup_topic` with its connection, after `n` turns. -/
def trace (env : Environment) : Nat → Traced
  | 0 => .start m env.base
  | n + 1 => (trace env n).turn m (env.turns n)

/-! ## What a chain says -/

/-- The URL of an answer for the base scheme, and the default port of that scheme. -/
def urlFor (r : CommandLookupTopicResponse) : Option (String × Nat) :=
  if u.scheme m.url = "pulsar+ssl" then r.brokerServiceUrlTls.map fun text => (text, 6651)
  else if u.scheme m.url = "pulsar" then r.brokerServiceUrl.map fun text => (text, 6650)
  else none

/-- That URL, and its `host:port`. -/
def named (r : CommandLookupTopicResponse) : Option (String × String) :=
  match urlFor m r with
  | none => none
  | some (text, port) =>
    match u.parse text with
    | none => none
    | some url =>
      match u.hostStr url with
      | none => none
      | some host => some (url, host ++ ":" ++ toString ((u.port url).getD port))

/-- Some answer has set `proxy_through_service_url`. -/
def proxiedBy (chain : List CommandLookupTopicResponse) : Bool :=
  chain.any fun r => r.proxyThroughServiceUrl.getD false

/-- The address that a chain names: the base address, or that of its last answer, by the proxy if any
    answer wants it. -/
def addressOf (chain : List CommandLookupTopicResponse) : Option BrokerAddress :=
  match chain.getLast? with
  | none => some m.getBaseAddress
  | some r =>
    (named m r).map fun place =>
      { url := if proxiedBy chain then m.url else place.1
        brokerUrl := place.2
        proxy := proxiedBy chain }

/-- The flag of the last answer. -/
def authoritativeOf (chain : List CommandLookupTopicResponse) : Bool :=
  (chain.getLast?.bind fun r => r.authoritative).getD false

/-- What the lookup should have done so far. -/
structure Correct (s : Traced) : Prop where
  noPanic : s.lookup.returned ≠ some .Panic
  queries : ∀ q ∈ s.queries,
    addressOf m q.chain = some q.conn ∧ q.authoritative = authoritativeOf q.chain
  result : ∀ address, s.lookup.returned = some (.Ok address) →
    s.chain ≠ [] ∧ addressOf m s.chain = some address

/-- The answer is read, and its URL has no host. -/
def Hostless (t : Turn) : Prop :=
  ∃ r l url port, t.answer = .ok r ∧ ¬ r.Failed ∧ convertLookupResponse u r = some l ∧
    target m l = some (url, port) ∧ u.hostStr url = none

end

/-! ## One more answer -/

section

variable {u : UrlCrate} {m : Manager u} {chain : List CommandLookupTopicResponse}
  {r : CommandLookupTopicResponse} {l : LookupResponse}

theorem convert_fields (h : convertLookupResponse u r = some l) :
    l.proxy = r.proxyThroughServiceUrl.getD false ∧ l.authoritative = r.authoritative.getD false ∧
      (∀ url, l.brokerUrl = some url → ∃ text, r.brokerServiceUrl = some text ∧
        u.parse text = some url) ∧
      ∀ url, l.brokerUrlTls = some url → ∃ text, r.brokerServiceUrlTls = some text ∧
        u.parse text = some url := by
  have hparsed : ∀ {given : Option String} {parsed : Option String},
      parseOptional u given = some parsed → ∀ url, parsed = some url →
        ∃ text, given = some text ∧ u.parse text = some url := by
    intro given parsed hparse url hurl
    cases given with
    | none =>
      obtain rfl := Option.some.inj hparse
      cases hurl
    | some text =>
      obtain ⟨url', hurl', rfl⟩ := Option.map_eq_some_iff.mp hparse
      obtain rfl := Option.some.inj hurl
      exact ⟨text, rfl, hurl'⟩
  unfold convertLookupResponse at h
  split at h
  · rename_i brokerUrl brokerUrlTls hplain htls
    obtain rfl := Option.some.inj h
    exact ⟨rfl, rfl, hparsed hplain, hparsed htls⟩
  · cases h

/-- The URL that is used is the one for the base scheme. -/
theorem named_of_target {url host : String} {port : Nat} (hl : convertLookupResponse u r = some l)
    (htarget : target m l = some (url, port)) (hhost : u.hostStr url = some host) :
    named m r = some (url, host ++ ":" ++ toString ((u.port url).getD port)) := by
  obtain ⟨-, -, hplain, htls⟩ := convert_fields hl
  have hurl : ∃ text, urlFor m r = some (text, port) ∧ u.parse text = some url := by
    unfold target at htarget
    unfold urlFor
    split at htarget
    · rename_i hscheme
      obtain ⟨url', hurl', heq⟩ := Option.map_eq_some_iff.mp htarget
      obtain ⟨rfl, rfl⟩ := Prod.mk.inj heq
      obtain ⟨text, htext, hparse⟩ := htls _ hurl'
      rw [if_pos hscheme, htext]
      exact ⟨text, rfl, hparse⟩
    · rename_i hscheme
      rw [if_neg hscheme]
      split at htarget
      · rename_i hscheme'
        obtain ⟨url', hurl', heq⟩ := Option.map_eq_some_iff.mp htarget
        obtain ⟨rfl, rfl⟩ := Prod.mk.inj heq
        obtain ⟨text, htext, hparse⟩ := hplain _ hurl'
        rw [if_pos hscheme', htext]
        exact ⟨text, rfl, hparse⟩
      · cases htarget
  obtain ⟨text, htext, hparse⟩ := hurl
  unfold named
  simp only [htext, hparse, hhost]

theorem proxiedBy_concat : proxiedBy (chain ++ [r]) =
    (proxiedBy chain || r.proxyThroughServiceUrl.getD false) := by
  unfold proxiedBy
  rw [List.any_append, List.any_cons, List.any_nil, Bool.or_false]

theorem authoritativeOf_concat : authoritativeOf (chain ++ [r]) = r.authoritative.getD false := by
  unfold authoritativeOf
  rw [List.getLast?_concat]
  rfl

theorem addressOf_concat {place : String × String} (h : named m r = some place) :
    addressOf m (chain ++ [r]) = some
      { url := if proxiedBy (chain ++ [r]) then m.url else place.1
        brokerUrl := place.2
        proxy := proxiedBy (chain ++ [r]) } := by
  unfold addressOf
  rw [List.getLast?_concat]
  show (named m r).map _ = _
  rw [h]
  rfl

end

/-! ## One turn -/

/-- The address that the lookup makes of an answer. -/
def madeAddress {u : UrlCrate} (m : Manager u) (s : Lookup) (l : LookupResponse) (url host : String)
    (port : Nat) : BrokerAddress :=
  { url := if s.proxiedQuery || l.proxy then m.url else url
    brokerUrl := host ++ ":" ++ toString ((u.port url).getD port)
    proxy := s.proxiedQuery || l.proxy }

/-- An answer that is read, and the host of its URL. -/
structure Reads {u : UrlCrate} (m : Manager u) (t : Turn) (r : CommandLookupTopicResponse)
    (l : LookupResponse) (url host : String) (port : Nat) : Prop where
  answer : t.answer = .ok r
  read : ¬ r.Failed
  converted : convertLookupResponse u r = some l
  target : target m l = some (url, port)
  host : u.hostStr url = some host

/-- A turn of a running lookup, by what becomes of its locals. -/
inductive Turns {u : UrlCrate} (m : Manager u) (s : Lookup) (t : Turn) (s' : Lookup) : Prop where
  | ended {e} (hhost : ¬ Hostless m t) (hreturned : s'.returned = some (.Err e))
  | panicked (hhost : Hostless m t) (hreturned : s'.returned = some .Panic)
  | retried {r} (hanswer : t.answer = .ok r) (hfailed : r.Failed) (hreturned : s'.returned = none)
    (haddress : s'.brokerAddress = s.brokerAddress)
    (hauthoritative : s'.isAuthoritative = s.isAuthoritative)
    (hproxied : s'.proxiedQuery = s.proxiedQuery)
  | redirected {r l url host port} (hreads : Reads m t r l url host port) (hredirect : l.redirect = true)
    (hconnected : t.connected.value = .ok ()) (hreturned : s'.returned = none)
    (haddress : s'.brokerAddress = madeAddress m s l url host port)
    (hauthoritative : s'.isAuthoritative = l.authoritative)
    (hproxied : s'.proxiedQuery = (s.proxiedQuery || l.proxy))
  | found {r l url host port} (hreads : Reads m t r l url host port)
    (hreturned : s'.returned = some (.Ok (madeAddress m s l url host port)))

section

variable {u : UrlCrate} {m : Manager u} {s : Lookup} {t : Turn}

/-- Asking leaves the locals. -/
theorem ask_keeps (s : Lookup) (t : Turn) :
    (s.ask t).1.brokerAddress = s.brokerAddress ∧ (s.ask t).1.isAuthoritative = s.isAuthoritative ∧
      (s.ask t).1.proxiedQuery = s.proxiedQuery := by
  unfold Lookup.ask
  cases t.closed with
  | false => exact ⟨rfl, rfl, rfl⟩
  | true =>
    cases t.reconnected.value with
    | error e => exact ⟨rfl, rfl, rfl⟩
    | ok v => exact ⟨rfl, rfl, rfl⟩

/-- The URL of an answer that is read, if it has one, has a host or not. -/
theorem hostless_iff {r : CommandLookupTopicResponse} (hanswer : t.answer = .ok r)
    (hread : ¬ r.Failed) : Hostless m t ↔ ∃ l url port, convertLookupResponse u r = some l ∧
      target m l = some (url, port) ∧ u.hostStr url = none := by
  constructor
  · rintro ⟨r', l, url, port, hanswer', -, h⟩
    obtain rfl := Except.ok.inj (hanswer.symm.trans hanswer')
    exact ⟨l, url, port, h⟩
  · rintro ⟨l, url, port, h⟩
    exact ⟨r, l, url, port, hanswer, hread, h⟩

theorem Reads.not_hostless {r : CommandLookupTopicResponse} {l : LookupResponse} {url host : String}
    {port : Nat} (h : Reads m t r l url host port) : ¬ Hostless m t := by
  rw [hostless_iff h.answer h.read]
  rintro ⟨l', url', port', hl', htarget', hhost'⟩
  obtain rfl := Option.some.inj (h.converted.symm.trans hl')
  obtain ⟨rfl, -⟩ := Prod.mk.inj (Option.some.inj (h.target.symm.trans htarget'))
  cases h.host.symm.trans hhost'

/-- What is made of an answer that is read. -/
theorem turns_answered {s' : Lookup} {r : CommandLookupTopicResponse} (hnone : s'.returned = none)
    (hproxied : s'.proxiedQuery = s.proxiedQuery) (hanswer : t.answer = .ok r) (hread : ¬ r.Failed) :
    Turns m s t (s'.answered m t r) := by
  unfold Lookup.answered
  cases hl : convertLookupResponse u r with
  | none =>
    refine .ended ?_ rfl
    rw [hostless_iff hanswer hread]
    rintro ⟨l, url, port, hl', -⟩
    cases hl.symm.trans hl'
  | some l =>
    cases htarget : target m l with
    | none =>
      simp only [htarget]
      refine .ended ?_ rfl
      rw [hostless_iff hanswer hread]
      rintro ⟨l', url, port, hl', htarget', -⟩
      obtain rfl := Option.some.inj (hl.symm.trans hl')
      cases htarget.symm.trans htarget'
    | some place =>
      obtain ⟨url, port⟩ := place
      simp only [htarget]
      cases hhost : u.hostStr url with
      | none => exact .panicked ⟨r, l, url, port, hanswer, hread, hl, htarget, hhost⟩ rfl
      | some host =>
        have hreads : Reads m t r l url host port := ⟨hanswer, hread, hl, htarget, hhost⟩
        cases hconnected : t.connected.value with
        | error e => exact .ended hreads.not_hostless rfl
        | ok v =>
          cases hredirect : l.redirect with
          | true =>
            refine .redirected hreads hredirect hconnected hnone ?_ rfl ?_
            · unfold madeAddress
              rw [← hproxied]
              rfl
            · show (s'.proxiedQuery || l.proxy) = _
              rw [hproxied]
          | false =>
            refine .found hreads ?_
            unfold madeAddress
            rw [← hproxied]
            rfl

/-- **The inversion lemma** for a turn. -/
theorem turns_turn (hnone : s.returned = none) (m : Manager u) (t : Turn) :
    Turns m s t (s.turn m t) := by
  obtain ⟨hanswer, -, -, hreturned, -⟩ := Lookup.ask_spec s t
  obtain ⟨haddress, hauthoritative, hproxied⟩ := ask_keeps s t
  obtain ⟨s', answer, hask⟩ : ∃ s' answer, s.ask t = (s', answer) := ⟨_, _, rfl⟩
  rw [hask] at hanswer hreturned haddress hauthoritative hproxied
  have hreturned' : s'.returned = none := hreturned.trans hnone
  unfold Lookup.turn
  rw [hnone, hask]
  cases answer with
  | error e =>
    refine .ended ?_ rfl
    rintro ⟨r, -, -, -, hr, -⟩
    cases hanswer.trans hr
  | ok r =>
    show Turns m s t (if r.Failed then s'.failed m.options t r else s'.answered m t r)
    by_cases hfailed : r.Failed
    · rw [if_pos hfailed]
      unfold Lookup.failed
      split
      · exact .retried hanswer.symm hfailed hreturned' haddress hauthoritative hproxied
      · refine .ended ?_ rfl
        rintro ⟨r', -, -, -, hr', hread, -⟩
        obtain rfl := Except.ok.inj (hanswer.trans hr')
        exact hread hfailed
    · rw [if_neg hfailed]
      exact turns_answered hreturned' hproxied hanswer.symm hfailed

/-- **A URL without a host** is a panic, and nothing else is. -/
theorem panic_iff (hnone : s.returned = none) (m : Manager u) (t : Turn) :
    (s.turn m t).returned = some .Panic ↔ Hostless m t := by
  cases turns_turn hnone m t with
  | ended hhost hreturned =>
    rw [hreturned]
    exact iff_of_false (fun h => by cases h) hhost
  | panicked hhost hreturned => exact iff_of_true hreturned hhost
  | retried hanswer hfailed hreturned =>
    rw [hreturned]
    refine iff_of_false (fun h => by cases h) ?_
    rintro ⟨r, -, -, -, hr, hread, -⟩
    obtain rfl := Except.ok.inj (hanswer.symm.trans hr)
    exact hread hfailed
  | redirected hreads _ _ hreturned =>
    rw [hreturned]
    exact iff_of_false (fun h => by cases h) hreads.not_hostless
  | found hreads hreturned =>
    rw [hreturned]
    exact iff_of_false (fun h => by cases h) hreads.not_hostless

end

/-! ## While the lookup runs -/

/-- The locals are what the chain says. -/
structure Coherent {u : UrlCrate} (m : Manager u) (s : Traced) : Prop where
  conn : s.conn = s.lookup.brokerAddress
  address : addressOf m s.chain = some s.lookup.brokerAddress
  authoritative : s.lookup.isAuthoritative = authoritativeOf s.chain
  proxied : s.lookup.proxiedQuery = proxiedBy s.chain

section

variable {u : UrlCrate} {m : Manager u} {env : Environment} {s : Traced} {t : Turn}

theorem Coherent.start (base : Except ConnectionError Unit) : Coherent m (.start m base) :=
  ⟨rfl, rfl, rfl, rfl⟩

theorem traced_turn (hnone : s.lookup.returned = none) (m : Manager u) (t : Turn) :
    s.turn m t =
      { lookup := s.lookup.turn m t
        conn := (s.ask t).connect (u := u) t (s.lookup.turn m t)
        chain := s.read t
        queries := (s.ask t).queries } := by
  unfold Traced.turn
  rw [hnone]

/-- A reconnect is to where the connection was. -/
theorem Coherent.conn_ask (h : Coherent m s) (t : Turn) :
    (s.ask t).conn = s.lookup.brokerAddress := by
  unfold Traced.ask
  split
  · split
    · exact h.conn
    · rfl
  · exact h.conn

/-- … so both requests of a turn are made there. -/
theorem Coherent.queries_ask (h : Coherent m s) (t : Turn) :
    ∀ q ∈ (s.ask t).queries, q ∈ s.queries ∨
      q = { conn := s.lookup.brokerAddress
            authoritative := s.lookup.isAuthoritative
            chain := s.chain } := by
  have hquery : ∀ q ∈ s.query.queries, q ∈ s.queries ∨
      q = { conn := s.lookup.brokerAddress
            authoritative := s.lookup.isAuthoritative
            chain := s.chain } := by
    intro q hq
    rcases List.mem_append.mp hq with hq | hq
    · exact Or.inl hq
    · rw [List.mem_singleton.mp hq, h.conn]
      exact Or.inr rfl
  intro q hq
  unfold Traced.ask at hq
  split at hq
  · split at hq
    · exact hquery q hq
    · rcases List.mem_append.mp hq with hq | hq
      · exact hquery q hq
      · exact Or.inr (List.mem_singleton.mp hq)
  · exact hquery q hq

/-- **One more answer**: the address that is made of it is the one that the chain names. -/
theorem Coherent.address_concat (h : Coherent m s) {r : CommandLookupTopicResponse}
    {l : LookupResponse} {url host : String} {port : Nat} (hreads : Reads m t r l url host port) :
    addressOf m (s.chain ++ [r]) = some (madeAddress m s.lookup l url host port) ∧
      (s.lookup.proxiedQuery || l.proxy) = proxiedBy (s.chain ++ [r]) ∧
      l.authoritative = authoritativeOf (s.chain ++ [r]) := by
  obtain ⟨hproxy, hauthoritative, -⟩ := convert_fields hreads.converted
  have hproxied : (s.lookup.proxiedQuery || l.proxy) = proxiedBy (s.chain ++ [r]) := by
    rw [proxiedBy_concat, h.proxied, hproxy]
  refine ⟨?_, hproxied, hauthoritative.trans authoritativeOf_concat.symm⟩
  rw [addressOf_concat (named_of_target hreads.converted hreads.target hreads.host)]
  unfold madeAddress
  rw [hproxied]

theorem read_of_reads {r : CommandLookupTopicResponse} {l : LookupResponse} {url host : String}
    {port : Nat} (hreads : Reads m t r l url host port) : s.read t = s.chain ++ [r] := by
  unfold Traced.read
  rw [hreads.answer]
  exact if_neg hreads.read

/-- **The step lemma**: while the lookup runs, its locals are what the chain says. -/
theorem Coherent.turn (h : Coherent m s) (hnone : s.lookup.returned = none)
    (hstill : (s.turn m t).lookup.returned = none) : Coherent m (s.turn m t) := by
  rw [traced_turn hnone] at hstill ⊢
  cases turns_turn hnone m t with
  | ended _ hreturned => cases hreturned.symm.trans hstill
  | panicked _ hreturned => cases hreturned.symm.trans hstill
  | found _ hreturned => cases hreturned.symm.trans hstill
  | retried hanswer hfailed hreturned haddress hauthoritative hproxied =>
    have hread : s.read t = s.chain := by
      unfold Traced.read
      rw [hanswer]
      exact if_pos hfailed
    have hconn : (s.ask t).connect (u := u) t (s.lookup.turn m t) = (s.ask t).conn := by
      unfold Traced.connect
      rw [hanswer]
      exact if_pos hfailed
    constructor
    · show (s.ask t).connect (u := u) t _ = (s.lookup.turn m t).brokerAddress
      rw [hconn, h.conn_ask, haddress]
    · show addressOf m (s.read t) = some (s.lookup.turn m t).brokerAddress
      rw [hread, haddress]
      exact h.address
    · show (s.lookup.turn m t).isAuthoritative = authoritativeOf (s.read t)
      rw [hread, hauthoritative]
      exact h.authoritative
    · show (s.lookup.turn m t).proxiedQuery = proxiedBy (s.read t)
      rw [hread, hproxied]
      exact h.proxied
  | redirected hreads hredirect hconnected hreturned haddress hauthoritative hproxied =>
    obtain ⟨hmade, hproxied', hauthoritative'⟩ := h.address_concat hreads
    have hread := read_of_reads (s := s) hreads
    constructor
    · show (s.ask t).connect (u := u) t _ = (s.lookup.turn m t).brokerAddress
      unfold Traced.connect
      simp only [hreads.answer, if_neg hreads.read, hreads.converted, hconnected, hredirect, if_true]
    · show addressOf m (s.read t) = some (s.lookup.turn m t).brokerAddress
      rw [hread, hmade, haddress]
    · show (s.lookup.turn m t).isAuthoritative = authoritativeOf (s.read t)
      rw [hread, hauthoritative, hauthoritative']
    · show (s.lookup.turn m t).proxiedQuery = proxiedBy (s.read t)
      rw [hread, hproxied, hproxied']

/-- … and what is asked and found is what the chain says. -/
theorem Correct.turn (hcorrect : Correct m s) (hnone : s.lookup.returned = none)
    (h : Coherent m s) : Correct m (s.turn m t) ↔ ¬ Hostless m t := by
  rw [← panic_iff hnone m t, traced_turn hnone]
  refine ⟨fun hafter => hafter.noPanic, fun hpanic => ⟨hpanic, ?_, ?_⟩⟩
  · intro q hq
    rcases h.queries_ask t q hq with hold | rfl
    · exact hcorrect.queries q hold
    · exact ⟨h.address, h.authoritative⟩
  · intro address haddress
    show s.read t ≠ [] ∧ addressOf m (s.read t) = some address
    have haddress' : (s.lookup.turn m t).returned = some (.Ok address) := haddress
    cases turns_turn hnone m t with
    | ended _ hreturned => cases hreturned.symm.trans haddress'
    | panicked _ hreturned => cases hreturned.symm.trans haddress'
    | retried _ _ hreturned => cases hreturned.symm.trans haddress'
    | redirected _ _ _ hreturned => cases hreturned.symm.trans haddress'
    | found hreads hreturned =>
      obtain rfl := Outcome.Ok.inj (Option.some.inj (hreturned.symm.trans haddress'))
      rw [read_of_reads hreads]
      exact ⟨List.append_ne_nil_of_right_ne_nil _ (List.cons_ne_nil _ []), (h.address_concat hreads).1⟩

/-! ## Whole lookups -/

/-- The connection and the logs do not change the lookup. -/
theorem trace_lookup (n : Nat) : (trace m env n).lookup = lookupTopic m env n := by
  induction n with
  | zero => rfl
  | succ n ih =>
    show ((trace m env n).turn m (env.turns n)).lookup = (lookupTopic m env n).turn m (env.turns n)
    rw [← ih]
    cases hreturned : (trace m env n).lookup.returned with
    | none => rw [traced_turn hreturned]
    | some outcome =>
      have hsome := Option.isSome_iff_exists.mpr ⟨outcome, hreturned⟩
      unfold Traced.turn
      rw [hreturned, Lookup.turn_of_returned hsome]

theorem traced_turn_of_returned {outcome : Outcome} (h : s.lookup.returned = some outcome)
    (m : Manager u) (t : Turn) : s.turn m t = s := by
  unfold Traced.turn
  rw [h]

theorem correct_start (base : Except ConnectionError Unit) : Correct m (.start m base) := by
  refine ⟨?_, fun q hq => absurd hq List.not_mem_nil, fun address haddress => ?_⟩
  · show (Lookup.start m base).returned ≠ some .Panic
    unfold Lookup.start
    cases base <;> exact fun h => by cases h
  · have haddress' : (Lookup.start m base).returned = some (.Ok address) := haddress
    unfold Lookup.start at haddress'
    cases base <;> cases haddress'

/-- **The run lemma.** -/
theorem correct_trace (h : ∀ n, (lookupTopic m env n).returned = none → ¬ Hostless m (env.turns n))
    (n : Nat) : Correct m (trace m env n) ∧
      ((trace m env n).lookup.returned = none → Coherent m (trace m env n)) := by
  induction n with
  | zero => exact ⟨correct_start env.base, fun _ => .start env.base⟩
  | succ n ih =>
    obtain ⟨hcorrect, hcoherent⟩ := ih
    show Correct m ((trace m env n).turn m (env.turns n)) ∧
      (((trace m env n).turn m (env.turns n)).lookup.returned = none →
        Coherent m ((trace m env n).turn m (env.turns n)))
    cases hreturned : (trace m env n).lookup.returned with
    | none =>
      have hhost := h n (by rw [← trace_lookup, hreturned])
      exact ⟨(hcorrect.turn hreturned (hcoherent hreturned)).mpr hhost,
        fun hstill => (hcoherent hreturned).turn hreturned hstill⟩
    | some outcome =>
      rw [traced_turn_of_returned hreturned]
      exact ⟨hcorrect, fun hnone => by cases hreturned.symm.trans hnone⟩

end

/-! ## The main result -/

/-- **Headline.**  Through any redirects, retries and reconnects: a lookup does not panic, asks over the
    connection and with the flag of the answers before, and finds the address that its answers name,
    exactly when each answer that it reads has a host in its URL for the base scheme. -/
theorem chain_correct_iff {u : UrlCrate} (m : Manager u) (env : Environment) :
    (∀ n, Correct m (trace m env n)) ↔
      ∀ n, (lookupTopic m env n).returned = none → ¬ Hostless m (env.turns n) := by
  refine ⟨fun h n hnone hhostless => ?_, fun h n => (correct_trace h n).1⟩
  apply (h (n + 1)).noPanic
  rw [trace_lookup]
  exact (panic_iff hnone m (env.turns n)).mpr hhostless

/-- The `url` crate on a URL with a host and on one without. -/
def twoUrls : UrlCrate where
  parse text := if text = "pulsar://broker:6650" ∨ text = "pulsar:broker" then some text else none
  scheme _ := "pulsar"
  hostStr url := if url = "pulsar:broker" then none else some "broker"
  port url := if url = "pulsar:broker" then none else some 6650

/-- "Connect to pulsar:broker". -/
def noHost : Turn where
  reply :=
    { took := 0
      value := .ok
        { brokerServiceUrl := some "pulsar:broker", brokerServiceUrlTls := none, response := some 1,
          authoritative := none, error := none, message := none, proxyThroughServiceUrl := none } }
  reconnected := { took := 0, value := .ok () }
  secondReply := { took := 0, value := .error .Disconnected }
  overslept := 0
  connected := { took := 0, value := .ok () }

/-- The lookup panics. -/
theorem chain_panics :
    ¬ ∀ (u : UrlCrate) (m : Manager u) (env : Environment) (n : Nat), Correct m (trace m env n) := by
  intro hall
  have hcorrect := hall twoUrls
    { url := "pulsar://broker:6650"
      host := "broker"
      hostStr_url := by decide +kernel
      options := { operationTimeout := 30 * 1000, retryDelay := 5 * 1000, maxRetries := none } }
    { base := .ok (), turns := fun _ => noHost } 1
  exact hcorrect.noPanic (by decide +kernel)

end PulsarClient.ServiceDiscovery
