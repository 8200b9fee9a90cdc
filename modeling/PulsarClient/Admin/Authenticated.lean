/-
  `apply_auth`: the CREDENTIALS along a chain of redirects.

  Redirects are followed by hand, "because reqwest strips `Authorization` when a redirect crosses to
  another host or port — which is exactly what Pulsar's 307 to the broker that owns a resource does".
  So each hop is a request of its own, and asks the provider again.

  1. THE PROGRAM — `applyAuth` and the loop with it (`Authenticated.sendLoop`); what it sends are requests
     with a header (`Signed`).  The headers are written by reqwest (`Http`).

  2. `erase_sendLoop` — without their headers these are the requests of `Redirects`, for a provider that
     fails where `Redirects` has its requests unsent.

  3. `sends_credentials` — every request carries what the provider has answered for that very hop, down to
     the bytes that a broker reads out of the header; and what the client cannot express over HTTP is not
     sent at all.

  4. `provider_signs` — a token, or a user with a password, is the same on every hop.
-/
import PulsarClient.Admin.Redirects
import PulsarClient.Authentication.OAuth2
import PulsarClient.Lib.Base64
import PulsarClient.Lib.Split

namespace PulsarClient.Admin.Authenticated

open Redirects OAuth2

/-! ## The program -/

/-- Why a request is not made, or not answered. -/
inductive Failure where
  | Authentication (e : AuthenticationError)
  /-- `Error::Custom`: "auth data is not valid UTF-8", and where -/
  | InvalidUtf8 (data : Bytes)
  | NotSupported (text : String)
  /-- `reqwest::Error` -/
  | Request (text : String)
  deriving DecidableEq, Repr

/-- One turn with the provider: its `auth_method_name`, and its `auth_data`. -/
structure Credentials where
  method : String
  data : Except AuthenticationError Bytes

/-- `String::from_utf8` -/
def fromUtf8 (bytes : Bytes) : Option String := String.fromUTF8? bytes.toByteArray

/-- What the client uses of reqwest for a header, and how Rust prints a text for debugging. -/
structure Http where
  /-- `RequestBuilder::bearer_auth` -/
  bearerAuth : String → String
  /-- `RequestBuilder::basic_auth` -/
  basicAuth : (username : String) → (password : Option String) → String
  /-- `{:?}` -/
  debug : String → String
  bearerAuth_eq : ∀ token, bearerAuth token = "Bearer " ++ token
  /-- a password that is not given is empty -/
  basicAuth_eq : ∀ username password, basicAuth username password =
    "Basic " ++ Base64.encode (intoBytes (username ++ ":" ++ password.getD ""))

/-- `split_once(':')` -/
def splitOnce (s : String) : Option (String × String) :=
  (Split.splitOnce [':'] s.toList).map fun (user, pass) => (String.ofList user, String.ofList pass)

/-- The header for a method, "token" or "basic". -/
def authorize (http : Http) (method dataStr : String) : Except Failure String :=
  if method = "token" then .ok (http.bearerAuth dataStr)
  else if method = "basic" then
    match splitOnce dataStr with
    | some (user, pass) => .ok (http.basicAuth user (some pass))
    | none => .ok (http.basicAuth dataStr none)
  else
    .error (.NotSupported
      ("the admin client cannot send " ++ http.debug method ++ " authentication over HTTP; " ++
        "only \"token\" and \"basic\" are mapped"))

/-- `apply_auth`: the header, if there is a provider. -/
def applyAuth (http : Http) : Option Credentials → Except Failure (Option String)
  | none => .ok none
  | some credentials =>
    match credentials.data with
    | .error e => .error (.Authentication e)
    | .ok data =>
      match fromUtf8 data with
      | none => .error (.InvalidUtf8 data)
      | some dataStr => (authorize http credentials.method dataStr).map some

/-- A request with its header `Authorization`. -/
structure Signed (β : Type) where
  request : Request β
  authorization : Option String
  deriving DecidableEq

/-- What is sent, oldest first, and the status of the response that is returned. -/
structure SignedChain (β : Type) where
  requests : List (Signed β)
  response : Except (Redirects.Error Failure) Nat

def SignedChain.after {β : Type} (request : Signed β) (c : SignedChain β) : SignedChain β :=
  { c with requests := request :: c.requests }

/-- … without the headers. -/
def SignedChain.erase {β : Type} (c : SignedChain β) : Chain β Failure where
  requests := c.requests.map Signed.request
  response := c.response

variable {β : Type}

/-- The loop of `send_with_redirects`, with `apply_auth` in its place: the provider is asked for the
    `i`-th request. -/
def sendLoop (http : Http) (join : String → String → Except Failure String)
    (auth : Option (Nat → Credentials))
    (answers : Nat → Answer Failure) (requestFor : Hop → Except (Redirects.Error Failure) (Request β))
    (url : String) : Nat → Nat → String → Hop → SignedChain β
  | 0, _, _, _ =>
    { requests := []
      response := .error (.Decode s!"gave up after {maxRedirects} redirects starting from {url}") }
  | n + 1, i, target, hop =>
    match requestFor { hop with url := target } with
    | .error e => { requests := [], response := .error e }
    | .ok request =>
      match applyAuth http (auth.map (· i)) with
      | .error e => { requests := [], response := .error (.Other e) }
      | .ok authorization =>
        match answers i with
        | .Unsent e => { requests := [], response := .error (.Other e) }
        | .Failed e => { requests := [{ request, authorization }], response := .error (.Other e) }
        | .Response status location =>
          match keepBody status with
          | none => { requests := [{ request, authorization }], response := .ok status }
          | some keepBody =>
            match location with
            | none => { requests := [{ request, authorization }], response := .ok status }
            | some location =>
              match join target location with
              | .error e =>
                { requests := [{ request, authorization }]
                  response := .error (.UnusableLocation location e) }
              | .ok target =>
                (sendLoop http join auth answers requestFor url n (i + 1) target
                  { url, keepBody, applyQuery := false }).after { request, authorization }

/-- `AdminClient::send` -/
def send (http : Http) (join : String → String → Except Failure String)
    (auth : Option (Nat → Credentials)) (answers : Nat → Answer Failure) (method : Method) (url : String)
    (query : List (String × String)) (json : Option β) : SignedChain β :=
  sendLoop http join auth answers (fun hop => .ok (request method query json hop)) url
    (maxRedirects + 1) 0 url (firstHop url)

/-! ## Without the headers -/

/-- Where the provider fails, nothing is sent. -/
def unauthenticated (http : Http) (auth : Option (Nat → Credentials)) (answers : Nat → Answer Failure)
    (i : Nat) : Answer Failure :=
  match applyAuth http (auth.map (· i)) with
  | .error e => .Unsent e
  | .ok _ => answers i

variable {http : Http} {join : String → String → Except Failure String}
  {auth : Option (Nat → Credentials)} {answers : Nat → Answer Failure}

/-- **The headers are all that authentication adds.** -/
theorem erase_sendLoop (requestFor : Hop → Except (Redirects.Error Failure) (Request β)) (url : String)
    (n i : Nat) (target : String) (hop : Hop) :
    (sendLoop http join auth answers requestFor url n i target hop).erase =
      Redirects.sendLoop join (unauthenticated http auth answers) requestFor url n i target hop := by
  induction n generalizing i target hop with
  | zero => rfl
  | succ n ih =>
    rw [sendLoop, Redirects.sendLoop]
    cases requestFor { hop with url := target } with
    | error e => rfl
    | ok request =>
      simp only
      unfold unauthenticated
      cases applyAuth http (auth.map (· i)) with
      | error e => rfl
      | ok authorization =>
        simp only
        cases answers i with
        | Unsent e => rfl
        | Failed e => rfl
        | Response status location =>
          simp only
          cases keepBody status with
          | none => rfl
          | some keeps =>
            cases location with
            | none => rfl
            | some location =>
              simp only
              cases join target location with
              | error e => rfl
              | ok next =>
                show Chain.after request (sendLoop http join auth answers requestFor url n (i + 1) next
                  { url, keepBody := keeps, applyQuery := false }).erase = _
                rw [ih]
                rfl

/-- **The step lemma**: the `j`-th request has the header of the `j`-th turn with the provider. -/
theorem applyAuth_of_getElem? (requestFor : Hop → Except (Redirects.Error Failure) (Request β))
    (url : String) {n i j : Nat} {target : String} {hop : Hop} {r : Signed β}
    (h : (sendLoop http join auth answers requestFor url n i target hop).requests[j]? = some r) :
    applyAuth http (auth.map (· (i + j))) = .ok r.authorization := by
  induction n generalizing i j target hop with
  | zero => cases h
  | succ n ih =>
    rw [sendLoop] at h
    split at h
    · cases h
    · split at h
      · cases h
      · rename_i request _ _ authorization hauth
        -- the first request is this one, and there are others if the answer is followed
        have hone : [Signed.mk request authorization][j]? = some r →
            applyAuth http (auth.map (· (i + j))) = .ok r.authorization := by
          intro hr
          cases j with
          | zero =>
            obtain rfl := Option.some.inj hr
            exact hauth
          | succ j => cases hr
        split at h
        · cases h
        · exact hone h
        · split at h
          · exact hone h
          · split at h
            · exact hone h
            · split at h
              · exact hone h
              · cases j with
                | zero => exact hone h
                | succ j =>
                  have hlater := ih h
                  rw [show i + 1 + j = i + (j + 1) by omega] at hlater
                  exact hlater

/-! ## What a broker reads -/

theorem intoBytes_of_fromUtf8 {data : Bytes} {s : String} (h : fromUtf8 data = some s) :
    intoBytes s = data := by
  unfold fromUtf8 String.fromUTF8? at h
  split at h
  · rename_i hvalid
    obtain rfl := Option.some.inj h
    show (data.toByteArray).data.toList = data
    exact List.toList_data_toByteArray
  · cases h

/-- `split_once` only takes the first colon out. -/
theorem append_of_splitOnce {s user pass : String} (h : splitOnce s = some (user, pass)) :
    user ++ ":" ++ pass = s := by
  unfold splitOnce at h
  obtain ⟨⟨front, back⟩, hsplit, hparts⟩ := Option.map_eq_some_iff.mp h
  obtain ⟨rfl, rfl⟩ := Prod.mk.inj hparts
  have happend := Split.append_of_splitOnce hsplit
  rw [← String.toList_inj, String.toList_append, String.toList_append, String.toList_ofList,
    String.toList_ofList, String.toList_ofList, happend, List.append_assoc]

theorem splitOnce_eq_none {s : String} (h : splitOnce s = none) : ':' ∉ s.toList := by
  intro hmem
  obtain ⟨front, back, hs, hfront⟩ := List.eq_append_cons_of_mem hmem
  have hsplit := @Split.splitOnce_append _ _ ':' [] front hfront back
  unfold splitOnce at h
  rw [hs, show front ++ ':' :: back = front ++ (':' :: [] ++ back) from rfl, hsplit] at h
  cases h

theorem mem_of_splitOnce {s user pass : String} (h : splitOnce s = some (user, pass)) :
    ':' ∈ s.toList := by
  rw [← append_of_splitOnce h, String.toList_append, String.toList_append]
  exact List.mem_append_left _ (List.mem_append_right _ List.mem_cons_self)

/-- The credentials that a broker reads out of a header. -/
inductive Carries (method : String) (data : Bytes) : String → Prop where
  | token {token : String} (hmethod : method = "token") (htoken : intoBytes token = data) :
    Carries method data ("Bearer " ++ token)
  /-- a user without a colon has an empty password -/
  | basic {dataStr text : String} (hmethod : method = "basic") (hdata : intoBytes dataStr = data)
    (htext : Base64.decode text =
      some (intoBytes (if ':' ∈ dataStr.toList then dataStr else dataStr ++ ":"))) :
    Carries method data ("Basic " ++ text)

theorem carries_of_authorize {method dataStr header : String}
    (h : authorize http method dataStr = .ok header) : Carries method (intoBytes dataStr) header := by
  unfold authorize at h
  split at h
  · rename_i htoken
    obtain rfl := Except.ok.inj h
    rw [http.bearerAuth_eq]
    exact .token htoken rfl
  · split at h
    · rename_i hbasic
      split at h
      · rename_i user pass hsplit
        obtain rfl := Except.ok.inj h
        rw [http.basicAuth_eq]
        refine .basic hbasic rfl ?_
        rw [Base64.decode_encode, if_pos (mem_of_splitOnce hsplit), Option.getD_some,
          append_of_splitOnce hsplit]
      · rename_i hsplit
        obtain rfl := Except.ok.inj h
        rw [http.basicAuth_eq]
        refine .basic hbasic rfl ?_
        rw [Base64.decode_encode, if_neg (splitOnce_eq_none hsplit), Option.getD_none,
          String.append_empty]
    · cases h

/-- What `apply_auth` puts on a request, if it returns. -/
theorem applyAuth_some {credentials : Credentials} {authorization : Option String}
    (h : applyAuth http (some credentials) = .ok authorization) :
    ∃ data header, credentials.data = .ok data ∧ authorization = some header ∧
      Carries credentials.method data header := by
  unfold applyAuth at h
  simp only at h
  split at h
  · cases h
  · rename_i data hdata
    split at h
    · cases h
    · rename_i dataStr hutf8
      cases hauthorize : authorize http credentials.method dataStr with
      | error e =>
        rw [hauthorize] at h
        cases h
      | ok header =>
        rw [hauthorize] at h
        obtain rfl := Except.ok.inj h
        refine ⟨data, header, hdata, rfl, ?_⟩
        rw [← intoBytes_of_fromUtf8 hutf8]
        exact carries_of_authorize hauthorize

/-- **Every hop is authenticated.**  The `j`-th request of a chain, whatever the redirects before it,
    carries the credentials of the provider's `j`-th answer, down to the bytes; without a provider it
    carries none; and apart from that the chain is that of `Redirects`, with nothing sent where the
    provider fails, or names a method that is not mapped. -/
theorem sends_credentials (http : Http) (join : String → String → Except Failure String)
    (auth : Option (Nat → Credentials)) (answers : Nat → Answer Failure) (method : Method)
    (url : String) (query : List (String × String)) (json : Option β) :
    (send http join auth answers method url query json).erase =
        Redirects.send join (unauthenticated http auth answers) method url query json ∧
      ∀ j r, (send http join auth answers method url query json).requests[j]? = some r →
        match auth with
        | none => r.authorization = none
        | some call => ∃ data header, (call j).data = .ok data ∧ r.authorization = some header ∧
            Carries (call j).method data header := by
  refine ⟨erase_sendLoop _ url (maxRedirects + 1) 0 url (firstHop url), fun j r hr => ?_⟩
  have hauth := applyAuth_of_getElem? _ url hr
  rw [Nat.zero_add] at hauth
  cases auth with
  | none => exact (Except.ok.inj hauth).symm
  | some call => exact applyAuth_some hauth

/-- The headers as they are written. -/
def headers : Http where
  bearerAuth token := "Bearer " ++ token
  basicAuth username password :=
    "Basic " ++ Base64.encode (intoBytes (username ++ ":" ++ password.getD ""))
  debug s := "\"" ++ s ++ "\""
  bearerAuth_eq _ := rfl
  basicAuth_eq _ _ := rfl

/-- The token has been renewed by the time the broker sends the request on. -/
theorem sends_credentials_renewed :
    let renewed : Nat → Credentials := fun i =>
      { method := "token", data := .ok [if i = 0 then 97 else 98] }
    let moved : Nat → Answer Failure := fun i =>
      if i = 0 then .Response 307 (some "http://owner:8080/") else .Response 204 none
    ∃ r, (send headers (fun _ location => .ok location) (some renewed) moved .PUT "http://lookup:8080/" []
        (some ())).requests[1]? = some r ∧
      ∃ data header, (renewed 1).data = .ok data ∧ r.authorization = some header ∧
        Carries "token" data header := by
  intro renewed moved
  obtain ⟨r, hr⟩ : ∃ r, (send headers (fun _ location => .ok location) (some renewed) moved .PUT
      "http://lookup:8080/" [] (some ())).requests[1]? = some r :=
    Option.isSome_iff_exists.mp (by decide +kernel)
  exact ⟨r, hr, (sends_credentials headers (fun _ location => .ok location) (some renewed) moved .PUT
    "http://lookup:8080/" [] (some ())).2 1 r hr⟩

/-! ## A token, or a user with a password -/

/-- `BasicAuthentication` -/
def basicAuthentication (username password : String) : Credentials where
  method := "basic"
  data := .ok (intoBytes (username ++ ":" ++ password))

/-- `TokenAuthentication` -/
def tokenAuthentication (token : String) : Credentials where
  method := "token"
  data := .ok (intoBytes token)

theorem fromUtf8_intoBytes (s : String) : fromUtf8 (intoBytes s) = some s := by
  have hbytes : (intoBytes s).toByteArray = s.toByteArray := by
    apply ByteArray.ext
    rw [← Array.toList_inj, List.toList_data_toByteArray]
    rfl
  unfold fromUtf8 String.fromUTF8?
  rw [hbytes, dif_pos s.isValidUTF8]
  rfl

/-- One of the two, as it is configured.  `OAuth2Authentication` is not of this kind: it asks a server, and
    its token changes. -/
inductive FixedProvider where
  | basic (username password : String)
  | token (secret : String)

def FixedProvider.credentials : FixedProvider → Credentials
  | .basic username password => basicAuthentication username password
  | .token secret => tokenAuthentication secret

/-- The header that its configuration asks for. -/
def FixedProvider.header (http : Http) : FixedProvider → String
  | .basic username password => http.basicAuth username (some password)
  | .token secret => http.bearerAuth secret

theorem applyAuth_provider (provider : FixedProvider) :
    applyAuth http (some provider.credentials) = .ok (some (provider.header http)) := by
  cases provider with
  | token secret =>
    unfold FixedProvider.credentials tokenAuthentication applyAuth
    simp only [fromUtf8_intoBytes]
    rfl
  | basic username password =>
    unfold FixedProvider.credentials basicAuthentication applyAuth
    simp only [fromUtf8_intoBytes]
    -- the text is split at its first colon, and joined again
    cases hsplit : splitOnce (username ++ ":" ++ password) with
    | none =>
      have hcolon : ':' ∈ (username ++ ":" ++ password).toList := by
        rw [String.toList_append, String.toList_append]
        exact List.mem_append_left _ (List.mem_append_right _ List.mem_cons_self)
      exact absurd hcolon (splitOnce_eq_none hsplit)
    | some parts =>
      obtain ⟨user, pass⟩ := parts
      have hjoined := append_of_splitOnce hsplit
      unfold authorize
      rw [if_neg (by decide), if_pos rfl, hsplit]
      show Except.ok (some (http.basicAuth user (some pass))) =
        Except.ok (some (http.basicAuth username (some password)))
      rw [http.basicAuth_eq, http.basicAuth_eq, Option.getD_some, Option.getD_some, hjoined]

/-- The user and the password of a header, as a server takes them out of it: the user is what stands
    before the first colon. -/
def readBasic (header : String) : Option (String × String) :=
  if "Basic ".toList.isPrefixOf header.toList then
    ((Base64.decode (String.ofList (header.toList.drop 6))).bind fromUtf8).bind splitOnce
  else none

theorem readBasic_basicAuth (username password : String) :
    readBasic (http.basicAuth username (some password)) = splitOnce (username ++ ":" ++ password) := by
  rw [http.basicAuth_eq]
  unfold readBasic
  have hprefix : "Basic ".toList <+:
      ("Basic " ++ Base64.encode (intoBytes (username ++ ":" ++ password))).toList := by
    rw [String.toList_append]
    exact List.prefix_append _ _
  rw [Option.getD_some, if_pos (List.isPrefixOf_iff_prefix.mpr hprefix), String.toList_append]
  show ((Base64.decode (String.ofList ("Basic ".toList ++ _).tail.tail.tail.tail.tail.tail)).bind
    fromUtf8).bind splitOnce = _
  show ((Base64.decode (String.ofList
    (Base64.encode (intoBytes (username ++ ":" ++ password))).toList)).bind fromUtf8).bind splitOnce = _
  rw [String.ofList_toList, Base64.decode_encode, Option.bind_some, fromUtf8_intoBytes,
    Option.bind_some]

theorem splitOnce_colon {username : String} (hcolon : ':' ∉ username.toList) (password : String) :
    splitOnce (username ++ ":" ++ password) = some (username, password) := by
  have hsplit := @Split.splitOnce_append _ _ ':' [] username.toList hcolon password.toList
  unfold splitOnce
  rw [String.toList_append, String.toList_append, List.append_assoc]
  show Option.map _ (Split.splitOnce [':'] (username.toList ++ ([':'] ++ password.toList))) = _
  rw [hsplit, Option.map_some]
  simp only [String.ofList_toList]

/-- **A configured provider signs every hop.**  With a token, or with a user and a password, every
    request of the chain has the very same header, and the chain is otherwise that of `Redirects`, with
    the answers as they are; the server reads that user and that password out of it if and only if there
    is no colon in the user. -/
theorem provider_signs (http : Http) (join : String → String → Except Failure String)
    (provider : FixedProvider) (answers : Nat → Answer Failure) (method : Method) (url : String)
    (query : List (String × String)) (json : Option β) :
    (send http join (some fun _ => provider.credentials) answers method url query json).erase =
        Redirects.send join answers method url query json ∧
      (∀ r ∈ (send http join (some fun _ => provider.credentials) answers method url query json).requests,
        r.authorization = some (provider.header http)) ∧
      ∀ username password, provider = .basic username password →
        (readBasic (provider.header http) = some (username, password) ↔ ':' ∉ username.toList) := by
  have hanswers : unauthenticated http (some fun _ => provider.credentials) answers = answers := by
    funext i
    unfold unauthenticated
    rw [Option.map_some, applyAuth_provider]
  refine ⟨?_, fun r hr => ?_, ?_⟩
  · have herase := @erase_sendLoop _ http join (some fun _ => provider.credentials) answers
      (fun hop => .ok (request method query json hop)) url (maxRedirects + 1) 0 url (firstHop url)
    rw [hanswers] at herase
    exact herase
  · obtain ⟨j, hj⟩ := List.mem_iff_getElem?.mp hr
    have hauth := applyAuth_of_getElem? _ url hj
    rw [Option.map_some, applyAuth_provider] at hauth
    exact (Except.ok.inj hauth).symm
  · rintro username password rfl
    show readBasic (http.basicAuth username (some password)) = _ ↔ _
    rw [readBasic_basicAuth]
    refine ⟨fun hread hcolon => ?_, fun hcolon => splitOnce_colon hcolon password⟩
    -- what is read is what stands before the first colon
    obtain ⟨front, back, husername, hfront⟩ := List.eq_append_cons_of_mem hcolon
    have hcut : username ++ ":" ++ password =
        String.ofList front ++ ":" ++ (String.ofList back ++ ":" ++ password) := by
      rw [← String.toList_inj]
      simp only [String.toList_append, String.toList_ofList, husername]
      simp
    rw [hcut, splitOnce_colon (by rwa [String.toList_ofList])] at hread
    have huser := congrArg String.toList (Prod.mk.inj (Option.some.inj hread)).1
    rw [String.toList_ofList, husername] at huser
    have hlen := congrArg List.length huser
    rw [List.length_append, List.length_cons] at hlen
    omega

end PulsarClient.Admin.Authenticated
