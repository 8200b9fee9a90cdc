/-
  THE OAUTH2 PROVIDER (`src/authentication/oauth2.rs`): a token is fetched, kept, and fetched anew before
  it expires.

  1. `CachedToken` — the token with its two deadlines, when it is expired and when it is expiring.  Both are
     sums of an `Instant` and a `Duration`, and such a sum panics when the platform has no `Instant` for it.

  2. `Platform` — the last `Instant`, and what `Duration::mul_f32` makes of nine tenths of a lifetime.  How
     it rounds depends on the toolchain: what is assumed is that it is nine tenths to within the precision
     of an `f32`, which gives that it is not more than the lifetime (`nineTenths_le`).  `floats` are two of
     them, with the floats of 24 and of 53 digits.

  3. `initializeProvider`, `tokenUrl`, `fetchToken`, `authData` — the provider.  The identity provider at the
     other end, and the crates that parse URLs, files and JSON, are parameters.

  An `Instant` and a `Duration` are their nanoseconds.
-/
import PulsarClient.Error
import PulsarClient.Message
import PulsarClient.Lib.Rounding
import Mathlib.Tactic.Linarith

namespace PulsarClient.OAuth2

open Rounding

/-! ## Instants and durations -/

/-- `Duration::from_secs` -/
def fromSecs (secs : UInt64) : Nat := secs.toNat * 10 ^ 9

/-- The platform, and the `std` of the toolchain. -/
structure Platform where
  /-- the last `Instant` -/
  last : Nat
  /-- `Duration::from_secs(secs).mul_f32(0.9)`, … -/
  nineTenths : UInt64 → Nat
  /-- … which is nine tenths, to within one part in `2 ^ 22` and half a nanosecond. -/
  near : ∀ secs,
    2 ^ 22 * (9 * fromSecs secs) ≤ 2 ^ 22 * (10 * nineTenths secs + 5) + 9 * fromSecs secs ∧
      2 ^ 22 * (10 * nineTenths secs) ≤ 2 ^ 22 * (9 * fromSecs secs + 5) + 9 * fromSecs secs

/-- **The mark does not come after the end.** -/
theorem Platform.nineTenths_le (p : Platform) (secs : UInt64) :
    p.nineTenths secs ≤ fromSecs secs := by
  have hnear := (p.near secs).2
  unfold fromSecs at *
  omega

/-- `now.add(d)`; `none` is the panic. -/
def Platform.add (p : Platform) (now d : Nat) : Option Nat :=
  if now + d ≤ p.last then some (now + d) else none

/-! ### Floats -/

/-- `0.9_f32`, in units of `2 ^ -24`. -/
def nineTenthsF32 : Nat := 15099494

/-- The seconds as a float of `bits` digits, times `0.9_f32`. -/
def product (bits n : Nat) : Nat := significant bits (significant bits n * nineTenthsF32)

/-- It is nine tenths of the seconds, to within one part in `2 ^ 22`. -/
theorem product_near {bits : Nat} (h : 24 ≤ bits) (n : Nat) :
    2 ^ 22 * (9 * (n * 2 ^ 24)) ≤ 2 ^ 22 * (10 * product bits n) + 9 * (n * 2 ^ 24) ∧
      2 ^ 22 * (10 * product bits n) ≤ 2 ^ 22 * (9 * (n * 2 ^ 24)) + 9 * (n * 2 ^ 24) := by
  obtain ⟨hover, hunder⟩ := significant_near_of_le h n
  obtain ⟨hover', hunder'⟩ := significant_near_of_le h (significant bits n * nineTenthsF32)
  unfold product
  unfold nineTenthsF32 at *
  constructor
  · omega
  · omega

/-- `mul_f32` in floats of `bits` digits, rounded to nanoseconds: 24 in an older `std`, 53 since. -/
def Platform.floats (last bits : Nat) (h : 24 ≤ bits) : Platform where
  last
  nineTenths secs := divEven (product bits secs.toNat * 10 ^ 9) (2 ^ 24)
  near secs := by
    obtain ⟨hunder, hover⟩ := product_near h secs.toNat
    obtain ⟨hover', hunder'⟩ := divEven_near (product bits secs.toNat * 10 ^ 9) (2 ^ 24)
      (Nat.two_pow_pos 24)
    unfold fromSecs
    constructor
    · linarith
    · linarith

-- An hour's token is refreshed after 54 minutes, or a tenth of a millisecond before.
example : (Platform.floats 0 24 (by decide)).nineTenths 3600 = 3240 * 10 ^ 9 ∧
    (Platform.floats 0 53 (by decide)).nineTenths 3600 = 3239999914169 := by decide +kernel

/-! ## The cached token -/

/-- `BasicTokenResponse` -/
structure TokenResponse where
  accessToken : String
  expiresIn : Option UInt64
  deriving DecidableEq, Repr

structure CachedToken where
  tokenSecret : Bytes
  expiringAt : Option Nat
  expiredAt : Option Nat
  deriving DecidableEq, Repr

/-- `String::into_bytes` -/
def intoBytes (s : String) : Bytes := s.toUTF8.data.toList

namespace CachedToken

/-- When a token with a lifetime of `d` seconds is expiring, and when it is expired. -/
def deadlines (p : Platform) (now : Nat) (d : UInt64) : Option (Nat × Nat) :=
  (p.add now (p.nineTenths d)).bind fun expiringAt =>
    (p.add now (fromSecs d)).map fun expiredAt => (expiringAt, expiredAt)

/-- `CachedToken::from`, at `now`; `none` is a panic of one of the sums. -/
def ofResponse (p : Platform) (now : Nat) (resp : TokenResponse) : Option CachedToken :=
  match resp.expiresIn with
  | none => some ⟨intoBytes resp.accessToken, none, none⟩
  | some d =>
    (deadlines p now d).map fun (expiringAt, expiredAt) =>
      ⟨intoBytes resp.accessToken, some expiringAt, some expiredAt⟩

def isExpiring (t : CachedToken) (now : Nat) : Bool :=
  match t.expiringAt with
  | some expiringAt => decide (expiringAt ≤ now)
  | none => false

def isExpired (t : CachedToken) (now : Nat) : Bool :=
  match t.expiredAt with
  | some expiredAt => decide (expiredAt ≤ now)
  | none => false

end CachedToken

/-- **Both deadlines are instants, or the sums panic**: the first is not after the second. -/
theorem CachedToken.deadlines_eq (p : Platform) (now : Nat) (d : UInt64) :
    deadlines p now d =
      if now + fromSecs d ≤ p.last then some (now + p.nineTenths d, now + fromSecs d) else none := by
  have hle := p.nineTenths_le d
  unfold deadlines Platform.add
  by_cases hfits : now + fromSecs d ≤ p.last
  · rw [if_pos hfits, if_pos hfits, if_pos (Nat.le_trans (Nat.add_le_add_left hle now) hfits)]
    rfl
  · rw [if_neg hfits, if_neg hfits]
    cases (if now + p.nineTenths d ≤ p.last then some (now + p.nineTenths d) else none) with
    | none => rfl
    | some expiringAt => rfl

/-! ## The provider -/

structure OAuth2PrivateParams where
  clientId : String
  clientSecret : String
  issuerUrl : Option String
  deriving DecidableEq, Repr

structure OAuth2Params where
  issuerUrl : String
  credentialsUrl : String
  audience : Option String
  scope : Option String
  deriving DecidableEq, Repr

structure OAuth2Authentication where
  params : OAuth2Params
  privateParams : Option OAuth2PrivateParams
  tokenUrl : Option String
  token : Option CachedToken
  deriving DecidableEq, Repr

/-- What the provider reads of a parsed URL. -/
structure ParsedUrl where
  href : String
  scheme : String
  path : String
  deriving DecidableEq, Repr

/-- The crates and the files the provider reads with; an error is its text. -/
structure Libraries extends Platform where
  /-- `Url::parse` -/
  parseUrl : String → Except String ParsedUrl
  /-- `fs::read_to_string` -/
  readToString : String → Except String String
  /-- `DataUrl::process` and `decode_to_vec` -/
  decodeDataUrl : String → Except String Bytes
  /-- `serde_json::from_slice` -/
  fromJson : Bytes → Except String OAuth2PrivateParams
  /-- the `Debug` text of an optional string -/
  debug : Option String → String

/-- The request for a token, as it is built. -/
structure TokenRequest where
  clientId : String
  clientSecret : String
  authUri : String
  tokenUri : String
  audience : Option String
  scope : Option String
  deriving DecidableEq, Repr

/-- `RequestTokenError`, with its `Debug` text. -/
inductive RequestTokenError where
  | ServerResponse (text : String)
  | other (text : String)
  deriving DecidableEq, Repr

/-- The identity provider, as one call meets it. -/
structure Issuer where
  /-- the token endpoint in the metadata of an issuer -/
  discover : String → Except String (Option String)
  request : TokenRequest → Except RequestTokenError TokenResponse

/-- A `Box<dyn std::error::Error>`: what a downcast to `AuthenticationError` finds, or another error's
    text. -/
inductive FetchError where
  | Authentication (e : AuthenticationError)
  | Other (text : String)
  deriving DecidableEq, Repr

/-- How a call ends. -/
inductive Outcome (ε α : Type) where
  | Ok (a : α)
  | Err (e : ε)
  | Panicked
  deriving DecidableEq, Repr

section Provider

variable (lib : Libraries)

def clientCredentials (params : OAuth2Params) : OAuth2Authentication :=
  { params, privateParams := none, tokenUrl := none, token := none }

/-- `credentials_hint` -/
def credentialsHint (params : OAuth2Params) : String :=
  match lib.parseUrl params.credentialsUrl with
  | .ok url => if url.scheme = "file" then "file:" ++ url.path else url.scheme ++ ":<redacted>"
  | .error _ => "<invalid credentials_url>"

/-- `OAuth2Params::read_private_params` -/
def readPrivateParams (params : OAuth2Params) : Except String OAuth2PrivateParams :=
  match lib.parseUrl params.credentialsUrl with
  | .error e => .error e
  | .ok url =>
    if url.scheme = "file" then (lib.readToString url.path).bind fun s => lib.fromJson (intoBytes s)
    else if url.scheme = "data" then
      match lib.decodeDataUrl params.credentialsUrl with
      | .error err => .error ("invalid data url [" ++ params.credentialsUrl ++ "]: " ++ err)
      | .ok body => lib.fromJson body
    else .error ("invalid credential url [" ++ params.credentialsUrl ++ "]")

/-- `OAuth2Authentication::token_url`: discovered once. -/
def tokenUrl (issuer : Issuer) (auth : OAuth2Authentication) :
    Except String String × OAuth2Authentication :=
  match auth.tokenUrl with
  | some url => (.ok url, auth)
  | none =>
    match lib.parseUrl auth.params.issuerUrl with
    | .error e => (.error e, auth)
    | .ok url =>
      match issuer.discover url.href with
      | .error e => (.error e, auth)
      | .ok none => (.error "token url not exists", auth)
      | .ok (some endpoint) => (.ok endpoint, { auth with tokenUrl := some endpoint })

/-- `failed to discover OAuth2 token endpoint for issuer [..]: ..` -/
def undiscovered (params : OAuth2Params) (e : String) : String :=
  "failed to discover OAuth2 token endpoint for issuer [" ++ params.issuerUrl ++ "]: " ++ e

/-- `initialize` -/
def initializeProvider (issuer : Issuer) (auth : OAuth2Authentication) :
    Except AuthenticationError Unit × OAuth2Authentication :=
  match readPrivateParams lib auth.params with
  | .error e =>
    (.error (.Custom ("failed to read OAuth2 credentials from " ++ credentialsHint lib auth.params
      ++ ": " ++ e)), auth)
  | .ok privateParams =>
    match tokenUrl lib issuer { auth with privateParams := some privateParams } with
    | (.error e, auth) => (.error (.Custom (undiscovered auth.params e)), auth)
    | (.ok _, auth) => (.ok (), auth)

/-- `<what> for issuer [..] (audience=.., scope=..): ..` -/
def report (params : OAuth2Params) (what e : String) : String :=
  what ++ " for issuer [" ++ params.issuerUrl ++ "] (audience=" ++ lib.debug params.audience
    ++ ", scope=" ++ lib.debug params.scope ++ "): " ++ e

/-- The request of `fetch_token` -/
def tokenRequest (params : OAuth2Params) (privateParams : OAuth2PrivateParams)
    (authUri tokenUri : String) : TokenRequest :=
  { clientId := privateParams.clientId, clientSecret := privateParams.clientSecret, authUri, tokenUri
    audience := params.audience, scope := params.scope }

/-- What `fetch_token` makes of an error of the request: only an answer of the server is final. -/
def requestError (params : OAuth2Params) : RequestTokenError → FetchError
  | .ServerResponse text =>
    .Authentication (.Custom (report lib params "token endpoint request failed" text))
  | .other text =>
    .Authentication (.Retriable (report lib params "token endpoint request failed" text))

/-- `OAuth2Authentication::fetch_token` -/
def fetchToken (issuer : Issuer) (auth : OAuth2Authentication) :
    Outcome FetchError TokenResponse × OAuth2Authentication :=
  match tokenUrl lib issuer auth with
  | (.error e, auth) =>
    (.Err (.Authentication (.Retriable (undiscovered auth.params e))), auth)
  | (.ok url, auth) =>
    match auth.privateParams with
    -- `expect("oauth2 provider is uninitialized")`
    | none => (.Panicked, auth)
    | some privateParams =>
      match lib.parseUrl (privateParams.issuerUrl.getD auth.params.issuerUrl) with
      | .error e => (.Err (.Other e), auth)
      | .ok authUri =>
        match issuer.request (tokenRequest auth.params privateParams authUri.href url) with
        | .error e => (.Err (requestError lib auth.params e), auth)
        | .ok token => (.Ok token, auth)

/-- A call of `auth_data`: the identity provider it meets, and its readings of the clock. -/
structure Call where
  issuer : Issuer
  /-- the reading of `is_expired` -/
  expired : Nat
  /-- the reading of `is_expiring` -/
  expiring : Nat
  /-- the reading of `CachedToken::from` -/
  fetched : Nat

/-- What a call comes to. -/
structure Turn where
  outcome : Outcome AuthenticationError Bytes
  /-- what `fetch_token` returns, when it is called -/
  fetch : Option (Outcome FetchError TokenResponse)
  auth : OAuth2Authentication
  deriving DecidableEq, Repr

/-- `none_or_expired` -/
def noneOrExpired (auth : OAuth2Authentication) (c : Call) : Bool :=
  match auth.token with
  | some token => token.isExpired c.expired
  | none => true

/-- `need_token` -/
def needToken (auth : OAuth2Authentication) (c : Call) : Bool :=
  match auth.token with
  | some token => token.isExpired c.expired || token.isExpiring c.expiring
  | none => true

/-- `self.token.as_ref().unwrap().token_secret.clone()` -/
def tokenSecret (auth : OAuth2Authentication) : Outcome AuthenticationError Bytes :=
  match auth.token with
  | some token => .Ok token.tokenSecret
  | none => .Panicked

/-- The error of a call whose fetch failed. -/
def fetchFailed (params : OAuth2Params) : FetchError → AuthenticationError
  | .Authentication e => e
  | .Other text => .Custom (report lib params "failed to fetch OAuth2 access token" text)

/-- `auth_data` -/
def authData (c : Call) (auth : OAuth2Authentication) : Turn :=
  if auth.privateParams.isNone then
    { outcome := .Err (.Custom "not initialized"), fetch := none, auth }
  else if needToken auth c then
    match fetchToken lib c.issuer auth with
    | (.Panicked, after) => { outcome := .Panicked, fetch := some .Panicked, auth := after }
    | (.Ok resp, after) =>
      match CachedToken.ofResponse lib.toPlatform c.fetched resp with
      | none => { outcome := .Panicked, fetch := some (.Ok resp), auth := after }
      | some token =>
        { outcome := tokenSecret { after with token := some token }, fetch := some (.Ok resp)
          auth := { after with token := some token } }
    | (.Err e, after) =>
      if noneOrExpired auth c then
        { outcome := .Err (fetchFailed lib after.params e), fetch := some (.Err e)
          auth := { after with token := none } }
      else { outcome := tokenSecret after, fetch := some (.Err e), auth := after }
  else { outcome := tokenSecret auth, fetch := none, auth }

end Provider

/-! ## What they leave alone -/

section Frames

variable (lib : Libraries) (issuer : Issuer) (auth : OAuth2Authentication)

/-- `token_url` finds the endpoint, and changes nothing else. -/
theorem tokenUrl_frame : (tokenUrl lib issuer auth).2.params = auth.params ∧
    (tokenUrl lib issuer auth).2.privateParams = auth.privateParams ∧
    (tokenUrl lib issuer auth).2.token = auth.token := by
  unfold tokenUrl
  cases auth.tokenUrl with
  | some url => exact ⟨rfl, rfl, rfl⟩
  | none =>
    cases lib.parseUrl auth.params.issuerUrl with
    | error e => exact ⟨rfl, rfl, rfl⟩
    | ok url =>
      cases hmetadata : issuer.discover url.href with
      | error e => simp only [hmetadata, and_self]
      | ok endpoint =>
        cases endpoint with
        | none => simp only [hmetadata, and_self]
        | some endpoint => simp only [hmetadata, and_self]

/-- **The cases of a fetch**, which leaves what finding the endpoint left: an error; the panic of a provider
    that is not initialised; a token that was issued. -/
theorem fetchToken_cases :
    (∃ e, fetchToken lib issuer auth = (.Err e, (tokenUrl lib issuer auth).2)) ∨
      (auth.privateParams = none ∧
        fetchToken lib issuer auth = (.Panicked, (tokenUrl lib issuer auth).2)) ∨
      ∃ request resp, issuer.request request = .ok resp ∧
        fetchToken lib issuer auth = (.Ok resp, (tokenUrl lib issuer auth).2) := by
  obtain ⟨-, hframe, -⟩ := tokenUrl_frame lib issuer auth
  unfold fetchToken
  rcases hfound : tokenUrl lib issuer auth with ⟨endpoint, found⟩
  rw [hfound] at hframe
  cases endpoint with
  | error e => exact Or.inl ⟨_, rfl⟩
  | ok url =>
    cases hprivate : found.privateParams with
    | none =>
      refine Or.inr (Or.inl ⟨hframe.symm.trans hprivate, ?_⟩)
      simp only [hprivate]
    | some privateParams =>
      cases hparse : lib.parseUrl (privateParams.issuerUrl.getD found.params.issuerUrl) with
      | error e => exact Or.inl ⟨.Other e, by simp only [hprivate, hparse]⟩
      | ok authUri =>
        cases hrequest : issuer.request (tokenRequest found.params privateParams authUri.href url) with
        | error e =>
          exact Or.inl ⟨requestError lib found.params e, by simp only [hprivate, hparse, hrequest]⟩
        | ok resp =>
          exact Or.inr (Or.inr ⟨_, resp, hrequest, by simp only [hprivate, hparse, hrequest]⟩)

/-- A token that is fetched is one that was issued. -/
theorem fetchToken_ok {resp : TokenResponse} (h : (fetchToken lib issuer auth).1 = .Ok resp) :
    ∃ request, issuer.request request = .ok resp := by
  rcases fetchToken_cases lib issuer auth with
    ⟨e, hfetch⟩ | ⟨-, hfetch⟩ | ⟨request, issued, hissued, hfetch⟩
  · rw [hfetch] at h
    cases h
  · rw [hfetch] at h
    cases h
  · rw [hfetch] at h
    obtain rfl : issued = resp := Outcome.Ok.inj h
    exact ⟨request, hissued⟩

end Frames

/-! ## What a call comes to -/

section Calls

variable (lib : Libraries) (c : Call) {auth : OAuth2Authentication}

/-- **The cases of a call** on a provider that is initialised: no fetch; a fetch that succeeds; one that
    succeeds, and the lifetime panics; one that fails, without and with a token to go on with. -/
theorem authData_cases (hinit : auth.privateParams.isSome) :
    (needToken auth c = false ∧
      authData lib c auth = { outcome := tokenSecret auth, fetch := none, auth }) ∨
    needToken auth c = true ∧ ∃ found,
      found.params = auth.params ∧ found.privateParams = auth.privateParams ∧
      found.token = auth.token ∧
      ((∃ resp token, (fetchToken lib c.issuer auth).1 = .Ok resp ∧
          CachedToken.ofResponse lib.toPlatform c.fetched resp = some token ∧
          authData lib c auth = { outcome := .Ok token.tokenSecret, fetch := some (.Ok resp)
                                  auth := { found with token := some token } }) ∨
        (∃ resp, (fetchToken lib c.issuer auth).1 = .Ok resp ∧
          CachedToken.ofResponse lib.toPlatform c.fetched resp = none ∧
          authData lib c auth = { outcome := .Panicked, fetch := some (.Ok resp), auth := found }) ∨
        ∃ e, (fetchToken lib c.issuer auth).1 = .Err e ∧
          (noneOrExpired auth c = true ∧
              authData lib c auth = { outcome := .Err (fetchFailed lib auth.params e)
                                      fetch := some (.Err e)
                                      auth := { found with token := none } } ∨
            noneOrExpired auth c = false ∧
              authData lib c auth = { outcome := tokenSecret found, fetch := some (.Err e)
                                      auth := found })) := by
  have hnone : ¬ auth.privateParams.isNone = true := by
    rw [Option.isNone_iff_eq_none]
    exact Option.isSome_iff_ne_none.mp hinit
  unfold authData
  rw [if_neg hnone]
  cases hneed : needToken auth c with
  | false => exact Or.inl ⟨rfl, rfl⟩
  | true =>
    obtain ⟨hparams, hprivate, htoken⟩ := tokenUrl_frame lib c.issuer auth
    refine Or.inr ⟨rfl, (tokenUrl lib c.issuer auth).2, hparams, hprivate, htoken, ?_⟩
    rw [if_pos rfl]
    rcases fetchToken_cases lib c.issuer auth with
      ⟨e, hfetch⟩ | ⟨hcontra, -⟩ | ⟨-, resp, -, hfetch⟩
    · rw [hfetch]
      refine Or.inr (Or.inr ⟨e, rfl, ?_⟩)
      cases noneOrExpired auth c with
      | true => exact Or.inl ⟨rfl, by rw [← hparams]; rfl⟩
      | false => exact Or.inr ⟨rfl, rfl⟩
    · rw [hcontra] at hinit
      cases hinit
    · rw [hfetch]
      cases hstamp : CachedToken.ofResponse lib.toPlatform c.fetched resp with
      | none => exact Or.inr (Or.inl ⟨resp, rfl, hstamp, by simp only [hstamp]⟩)
      | some token => exact Or.inl ⟨resp, token, rfl, hstamp, by simp only [hstamp]; rfl⟩

end Calls

end PulsarClient.OAuth2
