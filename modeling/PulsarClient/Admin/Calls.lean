/-
  The CALLS of the admin client: what a caller is told at the end of a chain of redirects.

  Every operation of the admin API is a URL and one of the calls below: `send`, a look at the status,
  and a way to read the body.  Of all the responses of a chain only one is looked at, and all that a
  caller learns — a value, "not set", the reason of a failure, whether to try again — is out of that one.

  1. THE PROGRAM — `AdminError::from_status`, `reason` and `is_retriable`; `check_response`,
     `require_success`, `decode`; and the calls, `sendEmpty` to `sendMultipartText`, as readers of a
     response.

  2. `ends_iff` — which response that is: the first that is no redirect to be followed.

  3. `told_by_last` — a call returns a value exactly when the broker it has ended up at accepts the
     request; `retriable_iff` — what a retry is for; `unset_or_absent` — "a policy with no override" is
     told apart from a resource that is missing.
-/
import PulsarClient.Admin.Authenticated
import PulsarClient.Admin.FlatUrls

namespace PulsarClient.Admin.Calls

open Redirects Authenticated OAuth2

/-! ## The program -/

inductive AdminError where
  /-- the text of a `reqwest::Error` -/
  | Request (e : String)
  | NotFound (reason : String)
  | Conflict (reason : String)
  | BadRequest (reason : String)
  | NotAuthorized (reason : String)
  | PreconditionFailed (reason : String)
  | NotAllowed (reason : String)
  | NotSupported (reason : String)
  | ServerUnavailable (reason : String)
  | Http (status : Nat) (body : String)
  | Decode (text : String)
  | SchemaDecode (text : String)
  | InvalidSchemaType (schemaType : String)
  | InvalidTopic (text : String)
  | TlsConfig (text : String)
  deriving DecidableEq, Repr

set_option linter.dupNamespace false in
inductive Error where
  | Authentication (e : AuthenticationError)
  /-- `Error::Custom`: "auth data is not valid UTF-8", and where -/
  | InvalidUtf8 (data : Bytes)
  | Custom (text : String)
  | Admin (e : AdminError)
  deriving DecidableEq, Repr

/-- `char::is_whitespace` -/
def isWhitespace (c : Char) : Bool :=
  (9 ≤ c.val && c.val ≤ 13) || c.val = 0x20 || c.val = 0x85 || c.val = 0xA0 || c.val = 0x1680 ||
    (0x2000 ≤ c.val && c.val ≤ 0x200A) || c.val = 0x2028 || c.val = 0x2029 || c.val = 0x202F ||
    c.val = 0x205F || c.val = 0x3000

/-- `str::trim` -/
def trim (s : String) : String :=
  String.ofList ((s.toList.dropWhile isWhitespace).reverse.dropWhile isWhitespace).reverse

/-- A body that has been read, and the text it is for its charset. -/
structure Body where
  bytes : Bytes
  text : String
  deriving DecidableEq, Repr

/-- `reqwest::Response` -/
structure Response where
  status : Nat
  /-- what reading the body comes to -/
  body : Except String Body

/-- The client, with what it uses of other crates. -/
structure AdminClient where
  adminUrl : String
  auth : Option (Nat → Credentials)
  http : Http
  /-- `Url::parse` and `Url::join` -/
  join : String → String → Except Failure String
  /-- `from_str::<Reason>` -/
  fromStrReason : String → Option String
  /-- `is_timeout() || is_connect()` of the error with that text -/
  isTransient : String → Bool
  /-- `Display` -/
  display : Failure → String

/-- What comes back for the `i`-th request of a call. -/
structure Servers where
  answers : Nat → Answer Failure
  bodies : Nat → Except String Body

/-- `StatusCode::is_success` -/
def isSuccess (status : Nat) : Bool := 200 ≤ status && status < 300

/-- `AdminError::reason` -/
def AdminClient.reason (c : AdminClient) (body : String) : String :=
  match (c.fromStrReason body).filter (!·.isEmpty) with
  | some reason => reason
  | none => if (trim body).isEmpty then "<no message>" else trim body

/-- `AdminError::from_status` -/
def AdminClient.fromStatus (c : AdminClient) (status : Nat) (body : String) : AdminError :=
  match status with
  | 400 | 422 => .BadRequest (c.reason body)
  | 401 | 403 => .NotAuthorized (c.reason body)
  | 404 => .NotFound (c.reason body)
  | 405 => .NotAllowed (c.reason body)
  | 409 => .Conflict (c.reason body)
  | 412 => .PreconditionFailed (c.reason body)
  | 501 => .NotSupported (c.reason body)
  | 503 => .ServerUnavailable (c.reason body)
  | _ => .Http status body

/-- `AdminError::is_retriable` -/
def AdminClient.isRetriable (c : AdminClient) : AdminError → Bool
  | .ServerUnavailable _ => true
  | .Request e => c.isTransient e
  | .Http status _ => 500 ≤ status
  | _ => false

/-- The error behind a request that is not made, or not answered. -/
def ofFailure : Failure → Error
  | .Authentication e => .Authentication e
  | .InvalidUtf8 data => .InvalidUtf8 data
  | .NotSupported text => .Admin (.NotSupported text)
  | .Request text => .Admin (.Request text)

/-- The errors of `send_with_redirects`. -/
def AdminClient.ofRedirects (c : AdminClient) : Redirects.Error Failure → Error
  | .Other e => ofFailure e
  | .UnusableLocation location e =>
    .Admin (.Decode ("broker redirected to an unusable location " ++ c.http.debug location ++
      ": " ++ c.display e))
  | .Decode text => .Admin (.Decode text)

/-- `text().await.unwrap_or_default()` -/
def Response.textOrDefault (resp : Response) : String :=
  match resp.body with
  | .ok body => body.text
  | .error _ => ""

/-- `check_response` -/
def AdminClient.checkResponse (c : AdminClient) (resp : Response) : Except Error Unit :=
  if isSuccess resp.status then .ok ()
  else .error (.Admin (c.fromStatus resp.status resp.textOrDefault))

/-- `require_success` -/
def AdminClient.requireSuccess (c : AdminClient) (resp : Response) : Except Error Response :=
  if isSuccess resp.status then .ok resp
  else .error (.Admin (c.fromStatus resp.status resp.textOrDefault))

/-- `text().await`, or `bytes().await` -/
def Response.read (resp : Response) : Except Error Body :=
  match resp.body with
  | .ok body => .ok body
  | .error e => .error (.Admin (.Request e))

/-- `decode`, for a type that `fromStr` reads. -/
def decode {T : Type} (fromStr : String → Except String T) (body : String) : Except Error T :=
  match fromStr (if (trim body).isEmpty then "null" else body) with
  | .ok value => .ok value
  | .error e =>
    .error (.Admin (.Decode (e ++ "; body was: " ++ String.ofList (body.toList.take 512))))

section Send

variable {β : Type}

/-- `send`: the response is that to the last request. -/
def AdminClient.send (c : AdminClient) (servers : Servers) (method : Method) (url : String)
    (query : List (String × String)) (json : Option β) : Except Error Response :=
  let chain := Authenticated.send c.http c.join c.auth servers.answers method url query json
  match chain.response with
  | .error e => .error (c.ofRedirects e)
  | .ok status => .ok { status, body := servers.bodies (chain.requests.length - 1) }

/-- What a call makes of a response that is a success: all that can go wrong is its body. -/
structure Reader (T : Type) where
  read : Response → Except Error T
  fails : ∀ resp e, read resp = .error e →
    match resp.body with
    | .error text => e = .Admin (.Request text)
    | .ok _ => ∃ text, e = .Admin (.Decode text)

theorem decode_fails {T : Type} {fromStr : String → Except String T} {body : String} {e : Error}
    (h : decode fromStr body = .error e) : ∃ text, e = .Admin (.Decode text) := by
  unfold decode at h
  split at h
  · cases h
  · exact ⟨_, (Except.error.inj h).symm⟩

/-- A reader of the body. -/
def Reader.ofBody {T : Type} (read : Body → Except Error T)
    (fails : ∀ body e, read body = .error e → ∃ text, e = .Admin (.Decode text)) : Reader T where
  read resp := do
    let body ← resp.read
    read body
  fails resp e h := by
    obtain ⟨status, body⟩ := resp
    cases body with
    | error text => exact (Except.error.inj h).symm
    | ok body => exact fails body e h

theorem Reader.read_ofBody {T : Type} {read : Body → Except Error T}
    {fails : ∀ body e, read body = .error e → ∃ text, e = .Admin (.Decode text)} {resp : Response}
    {body : Body} (h : resp.body = .ok body) : (Reader.ofBody read fails).read resp = read body := by
  obtain ⟨status, _⟩ := resp
  cases h
  rfl

/-- The body is discarded. -/
def Reader.empty : Reader Unit where
  read _ := .ok ()
  fails _ _ h := nomatch h

def Reader.json {T : Type} (fromStr : String → Except String T) : Reader T :=
  .ofBody (fun body => decode fromStr body.text) fun _ _ => decode_fails

/-- "Several policy endpoints answer 200 with an empty body to mean "unset"." -/
def Reader.jsonOpt {T : Type} (fromStr : String → Except String T) : Reader (Option T) :=
  .ofBody (fun body =>
      if (trim body.text).isEmpty then .ok none else (decode fromStr body.text).map some)
    fun body e h => by
      split at h
      · cases h
      · cases hdecode : decode fromStr body.text with
        | ok value =>
          rw [hdecode] at h
          cases h
        | error e' =>
          rw [hdecode] at h
          obtain rfl := Except.error.inj h
          exact decode_fails hdecode

/-- `from_str::<String>`, or else the text as it is. -/
def Reader.text (fromStr : String → Except String String) : Reader String :=
  .ofBody (fun body =>
      match fromStr (trim body.text) with
      | .ok decoded => .ok decoded
      | .error _ => .ok (trim body.text))
    fun body e h => by split at h <;> cases h

def Reader.bytes : Reader Bytes := .ofBody (fun body => .ok body.bytes) fun _ _ h => nomatch h

/-- `text().await`, without what stands around it. -/
def Reader.trimmed : Reader String :=
  .ofBody (fun body => .ok (trim body.text)) fun _ _ h => nomatch h

/-- `send`, `require_success` and the reader. -/
def AdminClient.call {T : Type} (c : AdminClient) (servers : Servers) (reader : Reader T)
    (method : Method) (url : String) (query : List (String × String)) (json : Option β) :
    Except Error T := do
  let resp ← c.send servers method url query json
  let resp ← c.requireSuccess resp
  reader.read resp

/-- `send_empty` -/
def AdminClient.sendEmpty (c : AdminClient) (servers : Servers) (method : Method) (url : String)
    (query : List (String × String)) (json : Option β) : Except Error Unit := do
  let resp ← c.send servers method url query json
  c.checkResponse resp

/-- `send_raw_text` -/
def AdminClient.sendRawText (c : AdminClient) (servers : Servers) (method : Method) (url : String)
    (query : List (String × String)) (body : String) : Except Error Unit := do
  let resp ← c.send servers method url query (some body)
  c.checkResponse resp

/-- `send_json` -/
def AdminClient.sendJson {T : Type} (c : AdminClient) (servers : Servers)
    (fromStr : String → Except String T) (method : Method) (url : String)
    (query : List (String × String)) (json : Option β) : Except Error T :=
  c.call servers (.json fromStr) method url query json

/-- `send_json_opt` -/
def AdminClient.sendJsonOpt {T : Type} (c : AdminClient) (servers : Servers)
    (fromStr : String → Except String T) (method : Method) (url : String)
    (query : List (String × String)) (json : Option β) : Except Error (Option T) :=
  c.call servers (.jsonOpt fromStr) method url query json

/-- `send_json_absent_on_404`; `fromStr` reads an `Option<T>`. -/
def AdminClient.sendJsonAbsentOn404 {T : Type} (c : AdminClient) (servers : Servers)
    (fromStr : String → Except String (Option T)) (method : Method) (url : String)
    (query : List (String × String)) (json : Option β) : Except Error (Option T) := do
  let resp ← c.send servers method url query json
  if resp.status = 404 then .ok none
  else do
    let resp ← c.requireSuccess resp
    (Reader.json fromStr).read resp

/-- `send_text` -/
def AdminClient.sendText (c : AdminClient) (servers : Servers)
    (fromStr : String → Except String String) (method : Method) (url : String)
    (query : List (String × String)) : Except Error String :=
  c.call servers (.text fromStr) method url query (none : Option Unit)

/-- `send_bytes` -/
def AdminClient.sendBytes (c : AdminClient) (servers : Servers) (method : Method) (url : String)
    (query : List (String × String)) : Except Error Bytes :=
  c.call servers .bytes method url query (none : Option Unit)

/-- A part of a form. -/
structure Part where
  name : String
  fileName : Option String
  mime : String
  content : Bytes
  deriving DecidableEq, Repr

/-- `build_form`: "the form is rebuilt for every attempt." -/
def buildForm (jsonParts textParts : List (String × String))
    (filePart : Option (String × String × Bytes)) : List Part :=
  jsonParts.map (fun (name, json) => ⟨name, none, "application/json", intoBytes json⟩) ++
    textParts.map (fun (name, text) => ⟨name, none, "text/plain", intoBytes text⟩) ++
    (filePart.map fun (name, fileName, bytes) =>
      ⟨name, some fileName, "application/octet-stream", bytes⟩).toList

/-- `send_multipart_text` -/
def AdminClient.sendMultipartText (c : AdminClient) (servers : Servers) (method : Method)
    (url : String) (query : List (String × String)) (jsonParts textParts : List (String × String))
    (filePart : Option (String × String × Bytes)) : Except Error String :=
  c.call servers .trimmed method url query (some (buildForm jsonParts textParts filePart))

/-- `send_multipart` -/
def AdminClient.sendMultipart (c : AdminClient) (servers : Servers) (method : Method) (url : String)
    (query : List (String × String)) (jsonParts textParts : List (String × String))
    (filePart : Option (String × String × Bytes)) : Except Error Unit :=
  c.call servers .empty method url query (some (buildForm jsonParts textParts filePart))

/-- The parsers of names and the builders of URLs fail with an `InvalidTopic`. -/
def ofTopic {α : Type} : Except Admin.AdminError α → Except Error α
  | .ok a => .ok a
  | .error (.InvalidTopic text) => .error (.Admin (.InvalidTopic text))

/-- `set_max_unacked_messages_on_consumer` -/
def AdminClient.setMaxUnackedMessagesOnConsumer (c : AdminClient) (servers : Servers)
    (topic : String) (maxUnacked : UInt32) : Except Error Unit := do
  let url ← ofTopic (topicPolicyUrl c.adminUrl topic "maxUnackedMessagesOnConsumer")
  let resp ← c.send servers .POST url [] (some (toString maxUnacked))
  c.checkResponse resp

/-- `remove_max_unacked_messages_on_consumer` -/
def AdminClient.removeMaxUnackedMessagesOnConsumer (c : AdminClient) (servers : Servers)
    (topic : String) : Except Error Unit := do
  let url ← ofTopic (topicPolicyUrl c.adminUrl topic "maxUnackedMessagesOnConsumer")
  let resp ← c.send servers .DELETE url [] (none : Option String)
  c.checkResponse resp

end Send

/-! ## The end of a chain -/

section Chains

variable {β ε : Type}

/-- The answer is not followed: what the chain comes to then. -/
def stops : Answer ε → Option (Except ε Nat)
  | .Unsent e => some (.error e)
  | .Failed e => some (.error e)
  | .Response status location =>
    if keepBody status = none ∨ location = none then some (.ok status) else none

/-- What `send_with_redirects` returns of it. -/
def returned : Except ε Nat → Except (Redirects.Error ε) Nat
  | .ok status => .ok status
  | .error e => .error (.Other e)

theorem returned_inj {r r' : Except ε Nat} (h : returned r = returned r') : r = r' := by
  cases r <;> cases r' <;> cases h <;> rfl

variable {join : String → String → Except ε String} {answers : Nat → Answer ε}

theorem stops_of_follow {target : String} {answer : Answer ε} {next : Hop}
    (h : answer.follow join target = some next) : stops answer = none := by
  have hredirects := (follow_some h).2.1
  cases answer with
  | Unsent e => cases hredirects
  | Failed e => cases hredirects
  | Response status location =>
    cases location with
    | none => cases h
    | some location =>
      have hkeep : keepBody status = some next.keepBody := hredirects
      exact if_neg (by simp [hkeep])

/-- One turn of the loop, `rest` for the turns after it. -/
inductive Turn (join : String → String → Except ε String) (target : String) (request : Request β)
    (answer : Answer ε) (rest : Hop → Chain β ε) : Chain β ε → Prop where
  | stops {r : Except ε Nat} (h : stops answer = some r) :
    Turn join target request answer rest
      { requests := if answer.isSent then [request] else [], response := returned r }
  | unusable {location : String} {e : ε} (h : stops answer = none)
    (hfollow : answer.follow join target = none) :
    Turn join target request answer rest
      { requests := [request], response := .error (.UnusableLocation location e) }
  | followed {next : Hop} (hfollow : answer.follow join target = some next) :
    Turn join target request answer rest ((rest next).after request)

/-- **The step lemma.** -/
theorem sendLoop_turn (request : Hop → Request β) (url : String) (n i : Nat) (target : String)
    (hop : Hop) :
    Turn join target (request { hop with url := target }) (answers i)
      (fun next => Redirects.sendLoop join answers (fun hop => .ok (request hop)) url n (i + 1)
        next.url { next with url })
      (Redirects.sendLoop join answers (fun hop => .ok (request hop)) url (n + 1) i target hop) := by
  rw [Redirects.sendLoop]
  cases answers i with
  | Unsent e => exact Turn.stops (r := .error e) rfl
  | Failed e => exact Turn.stops (r := .error e) rfl
  | Response status location =>
    simp only
    cases hkeep : keepBody status with
    | none => exact Turn.stops (r := .ok status) (if_pos (.inl hkeep))
    | some keeps =>
      cases location with
      | none => exact Turn.stops (r := .ok status) (if_pos (.inr rfl))
      | some location =>
        simp only
        cases hjoin : join target location with
        | error e =>
          have hstops : stops (Answer.Response status (some location) : Answer ε) = none :=
            if_neg (by simp [hkeep])
          have hfollow : (Answer.Response status (some location)).follow join target = none := by
            simp only [Answer.follow, hkeep, hjoin]
          exact .unusable hstops hfollow
        | ok next =>
          have hfollow : (Answer.Response status (some location)).follow join target =
              some { url := next, keepBody := keeps, applyQuery := false } := by
            simp only [Answer.follow, hkeep, hjoin]
          exact .followed hfollow

/-- The chain stops at the `j`-th answer, and there it comes to `r`. -/
def Stops (join : String → String → Except ε String) (answers : Nat → Answer ε) (i : Nat) (hop : Hop)
    (n j : Nat) (r : Except ε Nat) : Prop :=
  j < n ∧ (hopAt join answers i hop j).isSome = true ∧ stops (answers (i + j)) = some r

/-- What is returned, the loop has stopped at … -/
theorem stops_of_response (request : Hop → Request β) (url : String) {n i : Nat} {target : String}
    {hop : Hop} {r : Except ε Nat}
    (h : (Redirects.sendLoop join answers (fun hop => .ok (request hop)) url n i target hop).response =
      returned r) :
    ∃ j, Stops join answers i { hop with url := target } n j r := by
  induction n generalizing i target hop with
  | zero => cases r <;> cases h
  | succ n ih =>
    have hturn := @sendLoop_turn β ε join answers request url n i target hop
    generalize Redirects.sendLoop join answers (fun hop => .ok (request hop)) url (n + 1) i target hop
      = chain at h hturn
    cases hturn with
    | stops hstops =>
      rw [returned_inj h] at hstops
      exact ⟨0, Nat.succ_pos n, rfl, hstops⟩
    | unusable => cases r <;> cases h
    | followed hfollow =>
      obtain ⟨j, hj, hreached, hstops⟩ := ih h
      refine ⟨j + 1, Nat.succ_lt_succ hj, ?_, ?_⟩
      · rw [hopAt, hfollow]
        exact hreached
      · rw [show i + (j + 1) = i + 1 + j by omega]
        exact hstops

/-- … and the other way round; nothing is sent after that. -/
theorem response_of_stops (request : Hop → Request β) (url : String) {n i j : Nat} {target : String}
    {hop : Hop} {r : Except ε Nat} (h : Stops join answers i { hop with url := target } n j r) :
    (Redirects.sendLoop join answers (fun hop => .ok (request hop)) url n i target hop).response =
        returned r ∧
      (Redirects.sendLoop join answers (fun hop => .ok (request hop)) url n i target
        hop).requests.length = if (answers (i + j)).isSent then j + 1 else j := by
  obtain ⟨hj, hreached, hstops⟩ := h
  induction n generalizing i j target hop with
  | zero => exact absurd hj (Nat.not_lt_zero j)
  | succ n ih =>
    have hturn := @sendLoop_turn β ε join answers request url n i target hop
    generalize Redirects.sendLoop join answers (fun hop => .ok (request hop)) url (n + 1) i target hop
      = chain at hturn
    cases j with
    | zero =>
      rw [Nat.add_zero] at hstops ⊢
      cases hturn with
      | stops hsame =>
        obtain rfl := Option.some.inj (hsame.symm.trans hstops)
        refine ⟨rfl, ?_⟩
        cases (answers i).isSent <;> rfl
      | unusable hnot =>
        rw [hstops] at hnot
        cases hnot
      | followed hfollow =>
        rw [stops_of_follow hfollow] at hstops
        cases hstops
    | succ j =>
      obtain ⟨next, hnext⟩ := Option.isSome_iff_exists.mp hreached
      obtain ⟨first, hfirst, hlater⟩ := hopAt_cons hnext
      rw [show i + (j + 1) = i + 1 + j by omega] at hstops ⊢
      cases hturn with
      | stops hsame =>
        rw [stops_of_follow hfirst] at hsame
        cases hsame
      | unusable _ hfollow =>
        rw [hfirst] at hfollow
        cases hfollow
      | followed hfollow =>
        obtain rfl := Option.some.inj (hfirst.symm.trans hfollow)
        have hrest := @ih (i + 1) j first.url { first with url } (Nat.lt_of_succ_lt_succ hj)
          (Option.isSome_iff_exists.mpr ⟨next, hlater⟩) hstops
        refine ⟨hrest.1, ?_⟩
        show (_ :: _).length = _
        rw [List.length_cons, hrest.2]
        split <;> rfl

end Chains

/-! ## The response that is looked at -/

section

variable {β T : Type} {c : AdminClient} {servers : Servers} {method : Method} {url : String}
  {query : List (String × String)} {json : Option β}

/-- A call to `url` ends with the `j`-th answer; where the provider fails, nothing is sent. -/
def AdminClient.EndsAt (c : AdminClient) (servers : Servers) (url : String) (j : Nat)
    (r : Except Failure Nat) : Prop :=
  Stops c.join (unauthenticated c.http c.auth servers.answers) 0 (firstHop url) (maxRedirects + 1) j r

/-- Without the headers, it is a chain of `Redirects`. -/
theorem erase_send (c : AdminClient) (servers : Servers) (method : Method) (url : String)
    (query : List (String × String)) (json : Option β) :
    (Authenticated.send c.http c.join c.auth servers.answers method url query json).erase =
      Redirects.sendLoop c.join (unauthenticated c.http c.auth servers.answers)
        (fun hop => .ok (request method query json hop)) url (maxRedirects + 1) 0 url (firstHop url) :=
  erase_sendLoop _ url (maxRedirects + 1) 0 url (firstHop url)

theorem isSent_of_stops {ε : Type} {answer : Answer ε} {status : Nat}
    (h : stops answer = some (.ok status)) : answer.isSent = true := by
  cases answer with
  | Unsent e => cases h
  | Failed e => cases h
  | Response status location => rfl

/-- The chain behind an end. -/
theorem chain_of_ends {j : Nat} {r : Except Failure Nat} (h : c.EndsAt servers url j r) :
    (Authenticated.send c.http c.join c.auth servers.answers method url query json).response = returned r ∧
      ∀ status, r = .ok status →
        (Authenticated.send c.http c.join c.auth servers.answers method url query json).requests.length =
          j + 1 := by
  obtain ⟨hresponse, hlength⟩ := @response_of_stops β Failure _ _ (request method query json) url
    (maxRedirects + 1) 0 j url (firstHop url) r h
  rw [← erase_send] at hresponse hlength
  refine ⟨hresponse, ?_⟩
  rintro status rfl
  rw [Nat.zero_add] at hlength
  have hstops := h.2.2
  rw [Nat.zero_add] at hstops
  rw [if_pos (isSent_of_stops hstops)] at hlength
  exact (List.length_map _).symm.trans hlength

theorem ends_of_response {r : Except Failure Nat}
    (h : (Authenticated.send c.http c.join c.auth servers.answers method url query json).response =
      returned r) : ∃ j, c.EndsAt servers url j r := by
  have hchain : (Authenticated.send c.http c.join c.auth servers.answers method url query
      json).erase.response = returned r := h
  rw [erase_send] at hchain
  exact @stops_of_response β Failure _ _ (request method query json) url (maxRedirects + 1) 0 url
    (firstHop url) r hchain

theorem send_of_ends {j status : Nat} (h : c.EndsAt servers url j (.ok status)) :
    c.send servers method url query json = .ok { status, body := servers.bodies j } := by
  obtain ⟨hresponse, hlength⟩ := @chain_of_ends β c servers method url query json j _ h
  unfold AdminClient.send
  simp only
  rw [hresponse, hlength status rfl]
  rfl

theorem send_of_fails {j : Nat} {e : Failure} (h : c.EndsAt servers url j (.error e)) :
    c.send servers method url query json = .error (ofFailure e) := by
  unfold AdminClient.send
  simp only
  rw [(chain_of_ends h).1]
  rfl

theorem ends_of_send {resp : Response} (h : c.send servers method url query json = .ok resp) :
    ∃ j, c.EndsAt servers url j (.ok resp.status) ∧ resp.body = servers.bodies j := by
  unfold AdminClient.send at h
  simp only at h
  split at h
  · cases h
  · rename_i status hresponse
    obtain rfl := Except.ok.inj h
    obtain ⟨j, hj⟩ := ends_of_response (r := .ok status) hresponse
    refine ⟨j, hj, ?_⟩
    show servers.bodies _ = _
    rw [(chain_of_ends hj).2 status rfl]
    rfl

/-- Nothing comes back that could be looked at. -/
theorem fails_of_send {e : Error} (h : c.send servers method url query json = .error e) :
    (∃ j failure, c.EndsAt servers url j (.error failure) ∧ e = ofFailure failure) ∨
      ∃ text, e = .Admin (.Decode text) := by
  unfold AdminClient.send at h
  simp only at h
  split at h
  · rename_i e' hresponse
    obtain rfl := Except.error.inj h
    cases e' with
    | Other failure =>
      obtain ⟨j, hj⟩ := ends_of_response (r := .error failure) hresponse
      exact .inl ⟨j, failure, hj, rfl⟩
    | UnusableLocation location e => exact .inr ⟨_, rfl⟩
    | Decode text => exact .inr ⟨text, rfl⟩
  · cases h

/-- **The response is that of the end**, if there is one. -/
theorem send_ok_iff {resp : Response} :
    c.send servers method url query json = .ok resp ↔
      ∃ j status, c.EndsAt servers url j (.ok status) ∧ resp = { status, body := servers.bodies j } := by
  constructor
  · intro h
    obtain ⟨j, hj, hbody⟩ := ends_of_send h
    exact ⟨j, resp.status, hj, by rw [← hbody]⟩
  · rintro ⟨j, status, hj, rfl⟩
    exact send_of_ends hj

/-- A call, once there is a response. -/
theorem call_of_send {reader : Reader T} {resp : Response}
    (h : c.send servers method url query json = .ok resp) :
    c.call servers reader method url query json =
      if isSuccess resp.status then reader.read resp
      else .error (.Admin (c.fromStatus resp.status resp.textOrDefault)) := by
  unfold AdminClient.call
  rw [h]
  show (c.requireSuccess resp >>= fun resp => reader.read resp) = _
  unfold AdminClient.requireSuccess
  split <;> rfl

theorem call_of_failure {reader : Reader T} {e : Error}
    (h : c.send servers method url query json = .error e) :
    c.call servers reader method url query json = .error e := by
  unfold AdminClient.call
  rw [h]
  rfl

/-- `check_response` looks at the status as `require_success` does. -/
theorem sendEmpty_eq_call :
    c.sendEmpty servers method url query json = c.call servers .empty method url query json := by
  unfold AdminClient.sendEmpty AdminClient.call
  cases c.send servers method url query json with
  | error e => rfl
  | ok resp =>
    show c.checkResponse resp = (c.requireSuccess resp >>= fun resp => Reader.empty.read resp)
    unfold AdminClient.checkResponse AdminClient.requireSuccess
    split <;> rfl

/-- The limit is set, and removed, at one URL. -/
theorem maxUnackedMessagesOnConsumer_eq_call {topic : String}
    (hurl : topicPolicyUrl c.adminUrl topic "maxUnackedMessagesOnConsumer" = .ok url)
    (maxUnacked : UInt32) :
    c.setMaxUnackedMessagesOnConsumer servers topic maxUnacked =
        c.call servers .empty .POST url [] (some (toString maxUnacked)) ∧
      c.removeMaxUnackedMessagesOnConsumer servers topic =
        c.call servers .empty .DELETE url [] (none : Option String) := by
  unfold AdminClient.setMaxUnackedMessagesOnConsumer AdminClient.removeMaxUnackedMessagesOnConsumer
  rw [hurl]
  exact ⟨sendEmpty_eq_call, sendEmpty_eq_call⟩

/-! ## A value -/

theorem call_ok_iff {reader : Reader T} {value : T} :
    c.call servers reader method url query json = .ok value ↔
      ∃ j status, c.EndsAt servers url j (.ok status) ∧ isSuccess status = true ∧
        reader.read { status, body := servers.bodies j } = .ok value := by
  constructor
  · intro h
    cases hsend : c.send servers method url query json with
    | error e =>
      rw [call_of_failure hsend] at h
      cases h
    | ok resp =>
      rw [call_of_send hsend] at h
      obtain ⟨j, status, hj, rfl⟩ := send_ok_iff.mp hsend
      split at h
      · rename_i hsuccess
        exact ⟨j, status, hj, hsuccess, h⟩
      · cases h
  · rintro ⟨j, status, hj, hsuccess, hread⟩
    rw [call_of_send (send_of_ends hj)]
    exact (if_pos hsuccess).trans hread

/-- After `j` redirects it is still the caller's request: the last of them is a 307 or a 308. -/
def Repeated (answers : Nat → Answer Failure) : Nat → Prop
  | 0 => True
  | j + 1 => (answers j).redirects = some true

theorem redirects_of_unauthenticated {http : Http} {auth : Option (Nat → Credentials)}
    {answers : Nat → Answer Failure} {i : Nat} {keeps : Bool}
    (h : (unauthenticated http auth answers i).redirects = some keeps) :
    (answers i).redirects = some keeps := by
  unfold unauthenticated at h
  split at h
  · cases h
  · exact h

/-- The last request of the chain: the caller's, or a GET. -/
theorem last_of_ends {j status : Nat} (h : c.EndsAt servers url j (.ok status)) :
    ∃ r, (Authenticated.send c.http c.join c.auth servers.answers method url query json).requests.getLast? =
        some r ∧
      (Repeated servers.answers j ∧ r.request.method = method ∧ r.request.body = json ∨
        ¬ Repeated servers.answers j ∧ r.request.method = .GET ∧ r.request.body = none) := by
  have hlength := (@chain_of_ends β c servers method url query json j _ h).2 status rfl
  obtain ⟨hj, hreached, hstops⟩ := h
  obtain ⟨hop, hhop⟩ := Option.isSome_iff_exists.mp hreached
  rw [Nat.zero_add] at hstops
  have hrequest := (@requests_iff β Failure c.join (unauthenticated c.http c.auth servers.answers)
    (request method query json) url (maxRedirects + 1) 0 j url (firstHop url)
    (request method query json hop)).mpr
    ⟨hj, by rw [Nat.zero_add]; exact isSent_of_stops hstops, hop, hhop, rfl⟩
  rw [← erase_send] at hrequest
  unfold SignedChain.erase at hrequest
  rw [List.getElem?_map] at hrequest
  obtain ⟨r, hr, hsame⟩ := Option.map_eq_some_iff.mp hrequest
  refine ⟨r, ?_, ?_⟩
  · rw [List.getLast?_eq_getElem?, hlength]
    exact hr
  · rw [hsame]
    cases j with
    | zero =>
      obtain rfl := Option.some.inj hhop
      exact .inl ⟨trivial, rfl, rfl⟩
    | succ j =>
      have hlast := (hopAt_succ hhop).1
      rw [Nat.zero_add] at hlast
      have hlast := redirects_of_unauthenticated hlast
      cases hkeep : hop.keepBody with
      | true =>
        rw [hkeep] at hlast
        exact .inl ⟨hlast, if_pos hkeep, if_pos hkeep⟩
      | false =>
        have hnot : ¬ hop.keepBody = true := by rw [hkeep]; exact Bool.false_ne_true
        refine .inr ⟨fun hrepeated => ?_, if_neg hnot, if_neg hnot⟩
        rw [show (servers.answers j).redirects = some true from hrepeated] at hlast
        exact hnot (Option.some.inj hlast).symm

/-- **A value is told by the broker at the end.**  A call returns one exactly when the chain of its
    redirects ends with a 2xx, of whose body it is read; and what that broker has accepted is the
    caller's own method and body if it was the first asked, or a 307 or 308 has led there, and otherwise
    a GET without a body. -/
theorem told_by_last (c : AdminClient) (servers : Servers) (reader : Reader T) (method : Method)
    (url : String) (query : List (String × String)) (json : Option β) :
    (∀ value, c.call servers reader method url query json = .ok value ↔
      ∃ j status, c.EndsAt servers url j (.ok status) ∧ isSuccess status = true ∧
        reader.read { status, body := servers.bodies j } = .ok value) ∧
    ∀ j status, c.EndsAt servers url j (.ok status) → ∃ r,
      (Authenticated.send c.http c.join c.auth servers.answers method url query json).requests.getLast? =
          some r ∧
        (Repeated servers.answers j ∧ r.request.method = method ∧ r.request.body = json ∨
          ¬ Repeated servers.answers j ∧ r.request.method = .GET ∧ r.request.body = none) := by
  exact ⟨fun value => call_ok_iff, fun j status => last_of_ends⟩

/-- Without a provider, and with servers that are asked for a URL as it stands. -/
def plain : AdminClient where
  adminUrl := "http://lookup:8080"
  auth := none
  http := headers
  join _ location := .ok location
  fromStrReason _ := none
  isTransient text := text == "operation timed out"
  display _ := ""

/-- The first server sends the request on, and the second answers it. -/
def movedTo (redirect status : Nat) (body : String) : Servers where
  answers
    | 0 => .Response redirect (some "http://owner:8080/")
    | _ => .Response status none
  bodies _ := .ok { bytes := intoBytes body, text := body }

theorem movedTo_ends {redirect status : Nat} {body : String} (hredirect : (keepBody redirect).isSome)
    (hstatus : keepBody status = none) (url : String) :
    plain.EndsAt (movedTo redirect status body) url 1 (.ok status) := by
  refine ⟨by decide, ?_, if_pos (.inl hstatus)⟩
  obtain ⟨keeps, hkeeps⟩ := Option.isSome_iff_exists.mp hredirect
  have hfollow : (unauthenticated plain.http plain.auth (movedTo redirect status body).answers
      0).follow plain.join (firstHop url).url =
        some { url := "http://owner:8080/", keepBody := keeps, applyQuery := false } := by
    show (Answer.Response redirect (some "http://owner:8080/")).follow plain.join url = _
    simp only [Answer.follow, hkeeps]
    rfl
  rw [hopAt, hfollow]
  rfl

/-- The owner has accepted a PUT. -/
theorem told_by_last_moved :
    plain.sendEmpty (movedTo 307 204 "") .PUT "http://lookup:8080/" [] (some ()) = .ok () ∧
      ∃ r, (Authenticated.send plain.http plain.join plain.auth (movedTo 307 204 "").answers .PUT
          "http://lookup:8080/" [] (some ())).requests.getLast? = some r ∧
        r.request.method = .PUT ∧ r.request.body = some () := by
  have hends := @movedTo_ends 307 204 "" rfl rfl "http://lookup:8080/"
  obtain ⟨hvalue, hlast⟩ := told_by_last plain (movedTo 307 204 "") .empty .PUT "http://lookup:8080/"
    [] (some ())
  refine ⟨sendEmpty_eq_call.trans ((hvalue ()).mpr ⟨1, 204, hends, rfl, rfl⟩), ?_⟩
  obtain ⟨r, hr, hkind⟩ := hlast 1 204 hends
  refine ⟨r, hr, ?_⟩
  rcases hkind with ⟨-, hrequest⟩ | ⟨hnot, -⟩
  · exact hrequest
  · exact absurd rfl hnot

/-! ## A retry -/

/-- What it takes for a retry to be of use: the broker at the end is not able to serve the request, or
    it could not be reached in time. -/
inductive Transient (c : AdminClient) (servers : Servers) (url : String) : Prop where
  /-- "the broker does not implement this operation" is for good -/
  | server {j status : Nat} (h : c.EndsAt servers url j (.ok status)) (hfailed : 500 ≤ status)
    (hsupported : status ≠ 501)
  | request {j : Nat} {text : String} (h : c.EndsAt servers url j (.error (.Request text)))
    (htransient : c.isTransient text = true)
  | body {j status : Nat} {text : String} (h : c.EndsAt servers url j (.ok status))
    (hsuccess : isSuccess status = true) (hbody : servers.bodies j = .error text)
    (htransient : c.isTransient text = true)

theorem isRetriable_fromStatus (c : AdminClient) (status : Nat) (body : String) :
    c.isRetriable (c.fromStatus status body) = true ↔ 500 ≤ status ∧ status ≠ 501 := by
  unfold AdminClient.fromStatus
  split <;> simp_all [AdminClient.isRetriable]

/-- Without a response, only what reqwest says counts. -/
theorem retriable_of_failure {e : AdminError}
    (h : c.send servers method url query json = .error (.Admin e)) :
    c.isRetriable e = true ↔ Transient c servers url := by
  constructor
  · intro hretriable
    rcases fails_of_send h with ⟨j, failure, hj, he⟩ | ⟨text, he⟩
    · cases failure with
      | Authentication e => cases he
      | InvalidUtf8 data => cases he
      | NotSupported text =>
        cases he
        cases hretriable
      | Request text =>
        cases he
        exact .request hj hretriable
    · cases he
      cases hretriable
  · intro htransient
    cases htransient with
    | server hj => cases h.symm.trans (send_of_ends hj)
    | body hj => cases h.symm.trans (send_of_ends hj)
    | request hj htext =>
      cases h.symm.trans (send_of_fails hj)
      exact htext

/-- **What is worth a retry.**  The error of a call, whichever it is, is retriable exactly if the broker
    at the end of its redirects has answered a 5xx other than 501, or a connection or a time limit has
    failed on the way; what is wrong with the request itself, a 4xx above all, never is. -/
theorem retriable_iff (c : AdminClient) (servers : Servers) (reader : Reader T) (method : Method)
    (url : String) (query : List (String × String)) (json : Option β) (e : AdminError)
    (h : c.call servers reader method url query json = .error (.Admin e)) :
    c.isRetriable e = true ↔ Transient c servers url := by
  cases hsend : c.send servers method url query json with
  | error e' =>
    rw [call_of_failure hsend] at h
    obtain rfl := Except.error.inj h
    exact retriable_of_failure hsend
  | ok resp =>
    rw [call_of_send hsend] at h
    obtain ⟨j, status, hj, rfl⟩ := send_ok_iff.mp hsend
    -- there is but one end
    have hone : ∀ {j' status' : Nat}, c.EndsAt servers url j' (.ok status') →
        status' = status ∧ servers.bodies j' = servers.bodies j := fun hj' => by
      have hsame := Except.ok.inj ((send_of_ends hj').symm.trans hsend)
      exact ⟨congrArg Response.status hsame, congrArg Response.body hsame⟩
    split at h
    · rename_i hsuccess
      have hfails := reader.fails _ _ h
      have hbelow : status < 300 := by
        have hrange := hsuccess
        simp only [isSuccess, Bool.and_eq_true, decide_eq_true_eq] at hrange
        exact hrange.2
      -- so it is reading the body that has failed
      have hreads : Transient c servers url ↔
          ∃ text, servers.bodies j = .error text ∧ c.isTransient text = true := by
        constructor
        · intro htransient
          cases htransient with
          | server hj' hstatus =>
            have hsame := (hone hj').1
            omega
          | request hj' => cases hsend.symm.trans (send_of_fails hj')
          | body hj' hsuccess' hbody htext => exact ⟨_, (hone hj').2 ▸ hbody, htext⟩
        · rintro ⟨text, hbody, htext⟩
          exact .body hj hsuccess hbody htext
      rw [hreads]
      simp only at hfails
      cases hbody : servers.bodies j with
      | error text =>
        rw [hbody] at hfails
        obtain rfl := Error.Admin.inj hfails
        constructor
        · intro htext
          exact ⟨text, rfl, htext⟩
        · rintro ⟨text', hsame, htext⟩
          obtain rfl := Except.error.inj hsame
          exact htext
      | ok body =>
        rw [hbody] at hfails
        obtain ⟨text, he⟩ := hfails
        obtain rfl := Error.Admin.inj he
        refine iff_of_false Bool.false_ne_true ?_
        rintro ⟨text', hsame, -⟩
        cases hsame
    · rename_i hfailed
      obtain rfl := Error.Admin.inj (Except.error.inj h)
      rw [isRetriable_fromStatus]
      constructor
      · rintro ⟨hstatus, hsupported⟩
        exact .server hj hstatus hsupported
      · intro htransient
        cases htransient with
        | server hj' hstatus hsupported =>
          rw [(hone hj').1] at hstatus hsupported
          exact ⟨hstatus, hsupported⟩
        | request hj' => cases hsend.symm.trans (send_of_fails hj')
        | body hj' hsuccess => exact absurd ((hone hj').1 ▸ hsuccess) hfailed

theorem retriable_iff_unavailable :
    plain.isRetriable (.ServerUnavailable "starting") = true ↔
      Transient plain (movedTo 307 503 "starting") "http://lookup:8080/" := by
  have hends := @movedTo_ends 307 503 "starting" rfl rfl "http://lookup:8080/"
  refine retriable_iff plain (movedTo 307 503 "starting") .empty .PUT "http://lookup:8080/" []
    (some ()) _ ?_
  rw [call_of_send (send_of_ends hends)]
  decide +kernel

/-! ## Not set, and not there -/

/-- There is no text in it. -/
def Blank (s : String) : Prop := ∀ ch ∈ s.toList, isWhitespace ch = true

theorem dropWhile_of_all {α : Type} {p : α → Bool} {l : List α}
    (h : ∀ a ∈ l.dropWhile p, p a = true) : l.dropWhile p = [] := by
  cases hdrop : l.dropWhile p with
  | nil => rfl
  | cons a rest =>
    have hhead := List.head?_dropWhile_not p l
    rw [hdrop] at hhead h
    rw [List.head?_cons] at hhead
    simp [h a List.mem_cons_self] at hhead

theorem trim_isEmpty_iff (s : String) : (trim s).isEmpty = true ↔ Blank s := by
  have hempty : (trim s).isEmpty = true ↔
      (s.toList.dropWhile isWhitespace).reverse.dropWhile isWhitespace = [] := by
    rw [String.isEmpty_iff, ← String.toList_inj]
    unfold trim
    rw [String.toList_ofList, String.toList_empty, List.reverse_eq_nil_iff]
  rw [hempty, List.dropWhile_eq_nil_iff]
  constructor
  · intro h
    have hnil := dropWhile_of_all fun ch hch => h ch (List.mem_reverse.mpr hch)
    exact fun ch hch => List.dropWhile_eq_nil_iff.mp hnil ch hch
  · intro h ch hch
    exact h ch ((List.dropWhile_suffix isWhitespace).subset (List.mem_reverse.mp hch))

theorem jsonOpt_none_iff {fromStr : String → Except String T} {resp : Response} :
    (Reader.jsonOpt fromStr).read resp = .ok none ↔ ∃ body, resp.body = .ok body ∧ Blank body.text := by
  cases hbody : resp.body with
  | error text =>
    refine iff_of_false (fun h => ?_) ?_
    · obtain ⟨status, _⟩ := resp
      cases hbody
      cases h
    · rintro ⟨body, hsame, -⟩
      cases hsame
  | ok body =>
    unfold Reader.jsonOpt
    rw [Reader.read_ofBody hbody]
    constructor
    · intro h
      refine ⟨body, rfl, (trim_isEmpty_iff _).mp ?_⟩
      by_contra hnot
      rw [if_neg hnot] at h
      cases hdecode : decode fromStr body.text with
      | error e =>
        rw [hdecode] at h
        cases h
      | ok value =>
        rw [hdecode] at h
        cases h
    · rintro ⟨body', hsame, hblank⟩
      obtain rfl := Except.ok.inj hsame
      exact if_pos ((trim_isEmpty_iff _).mpr hblank)

/-- **Not set is not absent.**  A policy is told to have no override exactly if a 2xx without a text is
    at the end of the redirects; a 404 there, a resource that does not exist, is the error `NotFound`,
    and is `None` to nothing but the calls that ask for it, which are `send_json` otherwise. -/
theorem unset_or_absent (c : AdminClient) (servers : Servers) (fromStr : String → Except String T)
    (fromStrOpt : String → Except String (Option T)) (method : Method) (url : String)
    (query : List (String × String)) (json : Option β) :
    (c.sendJsonOpt servers fromStr method url query json = .ok none ↔
      ∃ j status body, c.EndsAt servers url j (.ok status) ∧ isSuccess status = true ∧
        servers.bodies j = .ok body ∧ Blank body.text) ∧
    (∀ j, c.EndsAt servers url j (.ok 404) →
      c.sendJsonOpt servers fromStr method url query json =
          .error (.Admin (.NotFound (c.reason (Response.textOrDefault ⟨404, servers.bodies j⟩)))) ∧
        c.sendJsonAbsentOn404 servers fromStrOpt method url query json = .ok none) ∧
    ((∀ j, ¬ c.EndsAt servers url j (.ok 404)) →
      c.sendJsonAbsentOn404 servers fromStrOpt method url query json =
        c.sendJson servers fromStrOpt method url query json) := by
  refine ⟨?_, fun j hj => ⟨?_, ?_⟩, fun hnever => ?_⟩
  · unfold AdminClient.sendJsonOpt
    rw [call_ok_iff]
    constructor
    · rintro ⟨j, status, hj, hsuccess, hread⟩
      obtain ⟨body, hbody, hblank⟩ := jsonOpt_none_iff.mp hread
      exact ⟨j, status, body, hj, hsuccess, hbody, hblank⟩
    · rintro ⟨j, status, body, hj, hsuccess, hbody, hblank⟩
      exact ⟨j, status, hj, hsuccess, jsonOpt_none_iff.mpr ⟨body, hbody, hblank⟩⟩
  · unfold AdminClient.sendJsonOpt
    rw [call_of_send (send_of_ends hj)]
    rfl
  · unfold AdminClient.sendJsonAbsentOn404
    rw [send_of_ends hj]
    rfl
  · unfold AdminClient.sendJsonAbsentOn404 AdminClient.sendJson AdminClient.call
    cases hsend : c.send servers method url query json with
    | error e => rfl
    | ok resp =>
      have hstatus : resp.status ≠ 404 := by
        intro h404
        obtain ⟨j, hj, -⟩ := ends_of_send hsend
        exact hnever j (h404 ▸ hj)
      exact if_neg hstatus

/-- A rack that is not assigned, for `bookies/racks-info/{bookie}` and for any other. -/
theorem unset_or_absent_missing :
    let fromStr : String → Except String String := .ok
    plain.sendJsonOpt (movedTo 307 404 "no rack") fromStr .GET "http://lookup:8080/" []
        (none : Option Unit) = .error (.Admin (.NotFound "no rack")) ∧
      plain.sendJsonAbsentOn404 (movedTo 307 404 "no rack") (fun s => .ok (some s)) .GET
        "http://lookup:8080/" [] (none : Option Unit) = .ok none := by
  intro fromStr
  have hends := @movedTo_ends 307 404 "no rack" rfl rfl "http://lookup:8080/"
  obtain ⟨hfound, habsent⟩ := (unset_or_absent plain (movedTo 307 404 "no rack") fromStr
    (fun s => .ok (some s)) .GET "http://lookup:8080/" [] (none : Option Unit)).2.1 1 hends
  refine ⟨hfound.trans ?_, habsent⟩
  decide +kernel

end

end PulsarClient.Admin.Calls
