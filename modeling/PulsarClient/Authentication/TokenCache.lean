/-
  THE TOKEN CACHE IS SAFE (`src/authentication/oauth2.rs`), over any sequence of `auth_data` calls whose
  clock readings do not decrease, and any outcomes of the fetches.

  1. `Fetched` — a token as the identity provider gave it, and when: until when it is `Unexpired`, and from
     when it is `PastMark`, the 90% mark of its lifetime.  The deadlines in the cache are these
     (`isExpired_iff`, `isExpiring_iff`).

  2. `Sound` — the invariant: the provider is initialised, and what is cached is the last token fetched,
     with its deadlines.

  3. `Safe` — what a call owes.  It pays exactly if the deadlines of the token it fetches are instants of
     the platform (`safe_iff_fits`): a lifetime that is too long for the clock is a panic, and the only one.
-/
import PulsarClient.Authentication.OAuth2
import PulsarClient.Lib.Runs

namespace PulsarClient.OAuth2

open Runs

/-! ## A token and its lifetime -/

/-- A token that was fetched. -/
structure Fetched where
  response : TokenResponse
  /-- when its lifetime began -/
  received : Nat
  deriving DecidableEq, Repr

namespace Fetched

/-- The lifetime has not passed. -/
def Unexpired (f : Fetched) (now : Nat) : Prop :=
  ∀ secs, f.response.expiresIn = some secs → now < f.received + fromSecs secs

/-- Nine tenths of the lifetime have passed. -/
def PastMark (p : Platform) (f : Fetched) (now : Nat) : Prop :=
  ∃ secs, f.response.expiresIn = some secs ∧ f.received + p.nineTenths secs ≤ now

/-- The end of the lifetime is an instant. -/
def Fits (last : Nat) (f : Fetched) : Prop :=
  ∀ secs, f.response.expiresIn = some secs → f.received + fromSecs secs ≤ last

/-- What is cached of it. -/
def cached (p : Platform) (f : Fetched) : Option CachedToken :=
  CachedToken.ofResponse p f.received f.response

/-- A token without a lifetime has no deadlines. -/
theorem cached_of_none {f : Fetched} (p : Platform) (h : f.response.expiresIn = none) :
    f.cached p = some ⟨intoBytes f.response.accessToken, none, none⟩ := by
  simp only [cached, CachedToken.ofResponse, h]

/-- A token with a lifetime has both deadlines, or is a panic. -/
theorem cached_of_some {f : Fetched} {secs : UInt64} (p : Platform)
    (h : f.response.expiresIn = some secs) :
    f.cached p =
      if f.received + fromSecs secs ≤ p.last then
        some ⟨intoBytes f.response.accessToken, some (f.received + p.nineTenths secs),
          some (f.received + fromSecs secs)⟩
      else none := by
  simp only [cached, CachedToken.ofResponse, h, CachedToken.deadlines_eq p f.received secs]
  split
  · rfl
  · rfl

/-- **A token is cached** unless its lifetime is too long for the clock. -/
theorem cached_isSome_iff (p : Platform) (f : Fetched) : (f.cached p).isSome ↔ f.Fits p.last := by
  cases hexpires : f.response.expiresIn with
  | none =>
    rw [cached_of_none p hexpires]
    exact iff_of_true rfl fun secs hsecs => nomatch hexpires.symm.trans hsecs
  | some secs =>
    have hfits : f.Fits p.last ↔ f.received + fromSecs secs ≤ p.last := by
      unfold Fits
      simp only [hexpires, Option.some.injEq, forall_eq']
    rw [cached_of_some p hexpires, hfits]
    split
    · next hle => exact iff_of_true rfl hle
    · next hgt => exact iff_of_false Bool.false_ne_true hgt

section Deadlines

variable {p : Platform} {f : Fetched} {token : CachedToken} (h : f.cached p = some token)

include h

/-- What is cached of a token is its secret, and the deadlines if it has a lifetime. -/
theorem eq_of_cached :
    token.tokenSecret = intoBytes f.response.accessToken ∧
      (f.response.expiresIn = none ∧ token.expiringAt = none ∧ token.expiredAt = none ∨
        ∃ secs, f.response.expiresIn = some secs ∧
          token.expiringAt = some (f.received + p.nineTenths secs) ∧
          token.expiredAt = some (f.received + fromSecs secs)) := by
  cases hexpires : f.response.expiresIn with
  | none =>
    rw [cached_of_none p hexpires, Option.some.injEq] at h
    subst h
    exact ⟨rfl, Or.inl ⟨rfl, rfl, rfl⟩⟩
  | some secs =>
    rw [cached_of_some p hexpires] at h
    split at h
    · rw [Option.some.injEq] at h
      subst h
      exact ⟨rfl, Or.inr ⟨secs, rfl, rfl, rfl⟩⟩
    · cases h

theorem isExpired_iff (now : Nat) : token.isExpired now = true ↔ ¬ f.Unexpired now := by
  unfold CachedToken.isExpired Unexpired
  obtain ⟨-, ⟨hexpires, -, hexpired⟩ | ⟨secs, hexpires, -, hexpired⟩⟩ := eq_of_cached h
  · simp only [hexpires, hexpired]
    simp
  · simp only [hexpires, hexpired]
    simp

theorem isExpiring_iff (now : Nat) : token.isExpiring now = true ↔ f.PastMark p now := by
  unfold CachedToken.isExpiring PastMark
  obtain ⟨-, ⟨hexpires, hexpiring, -⟩ | ⟨secs, hexpires, hexpiring, -⟩⟩ := eq_of_cached h
  · simp only [hexpires, hexpiring]
    simp
  · simp only [hexpires, hexpiring]
    simp

end Deadlines

/-- What has expired is past its mark. -/
theorem pastMark_of_expired (p : Platform) {f : Fetched} {now later : Nat} (hle : now ≤ later)
    (h : ¬ f.Unexpired now) : f.PastMark p later := by
  unfold Unexpired at h
  push Not at h
  obtain ⟨secs, hsecs, hend⟩ := h
  have hmark := p.nineTenths_le secs
  exact ⟨secs, hsecs, by omega⟩

end Fetched

/-! ## Runs of calls -/

/-- The provider, and what is known of the past. -/
structure World where
  auth : OAuth2Authentication
  /-- the last reading of the clock -/
  clock : Nat
  /-- the last token that was fetched -/
  fetched : Option Fetched

/-- A call whose readings do not go back. -/
def World.step (lib : Libraries) (w : World) (c : Call) : Option World :=
  if w.clock ≤ c.expired ∧ c.expired ≤ c.expiring ∧ c.expiring ≤ c.fetched then
    some
      { auth := (authData lib c w.auth).auth
        clock := c.fetched
        fetched :=
          match (authData lib c w.auth).fetch with
          | some (.Ok resp) => some ⟨resp, c.fetched⟩
          | _ => w.fetched }
  else none

/-- A provider that `initialize` was called on, with success. -/
def Initialised (lib : Libraries) (w : World) : Prop :=
  ∃ issuer params,
    initializeProvider lib issuer (clientCredentials params) = (.ok (), w.auth) ∧ w.fetched = none

def calls (lib : Libraries) : Sys World Call where
  init := Initialised lib
  step := World.step lib

/-! ## What is claimed -/

/-- The cached token is this one. -/
def World.Caches (w : World) (f : Fetched) : Prop := w.auth.token.isSome ∧ w.fetched = some f

/-- There is a token that has not expired. -/
def World.Usable (w : World) (now : Nat) (f : Fetched) : Prop := w.Caches f ∧ f.Unexpired now

/-- The error is handed on: as it is, or as the end of a text. -/
def Carries (e : FetchError) (reported : AuthenticationError) : Prop :=
  match e with
  | .Authentication e => reported = e
  | .Other text => ∃ context, reported = .Custom (context ++ text)

/-- **What a call owes.** -/
structure Safe (lib : Libraries) (w : World) (c : Call) : Prop where
  noPanic : (authData lib c w.auth).outcome ≠ .Panicked
  /-- the token returned was fetched by the call, or is unexpired when its expiry is checked -/
  usable : ∀ secret, (authData lib c w.auth).outcome = .Ok secret →
    ∃ f : Fetched, secret = intoBytes f.response.accessToken ∧
      ((authData lib c w.auth).fetch = some (.Ok f.response) ∨ w.Usable c.expired f)
  /-- a fetch is attempted exactly when there is no token or its 90% mark has passed -/
  attempted : (authData lib c w.auth).fetch.isSome ↔
    w.auth.token = none ∨ ∃ f, w.Caches f ∧ f.PastMark lib.toPlatform c.expiring
  /-- a failed fetch leaves a token that has not expired in its place, and returns it -/
  kept : ∀ e f, (authData lib c w.auth).fetch = some (.Err e) → w.Usable c.expired f →
    (authData lib c w.auth).auth.token = w.auth.token ∧
      (authData lib c w.auth).outcome = .Ok (intoBytes f.response.accessToken)
  /-- a failed fetch without a token that could be used empties the cache, and returns the error, which
      is retried exactly when it is retriable -/
  dropped : ∀ e, (authData lib c w.auth).fetch = some (.Err e) → (¬ ∃ f, w.Usable c.expired f) →
    (authData lib c w.auth).auth.token = none ∧
      ∃ reported, (authData lib c w.auth).outcome = .Err reported ∧ Carries e reported ∧
        ((ConnectionError.Authentication reported).establishRetryable = true ↔
          ∃ text, e = .Authentication (.Retriable text))

/-- The token that the call fetches, if it fetches one, has a lifetime that the clock can add. -/
def Fits (lib : Libraries) (w : World) (c : Call) : Prop :=
  needToken w.auth c = true → ∀ resp, (fetchToken lib c.issuer w.auth).1 = .Ok resp →
    (Fetched.mk resp c.fetched).Fits lib.last

/-- Whatever the issuer gives fits. -/
theorem fits_of_issued {lib : Libraries} {w : World} {c : Call}
    (h : ∀ request resp, c.issuer.request request = .ok resp →
      (Fetched.mk resp c.fetched).Fits lib.last) : Fits lib w c := by
  intro _ resp hresp
  obtain ⟨request, hissued⟩ := fetchToken_ok lib c.issuer w.auth hresp
  exact h request resp hissued

/-! ## The invariant -/

/-- The provider is initialised, and the cached token is the last one fetched, with its deadlines. -/
structure Sound (lib : Libraries) (w : World) : Prop where
  initialised : w.auth.privateParams.isSome
  cached : ∀ token, w.auth.token = some token →
    ∃ f, w.fetched = some f ∧ f.cached lib.toPlatform = some token

theorem sound_init {lib : Libraries} {w : World} (h : Initialised lib w) : Sound lib w := by
  obtain ⟨issuer, params, hinit, -⟩ := h
  unfold initializeProvider at hinit
  cases hread : readPrivateParams lib (clientCredentials params).params with
  | error e =>
    rw [hread] at hinit
    cases hinit
  | ok privateParams =>
    obtain ⟨-, hprivate, htoken⟩ := tokenUrl_frame lib issuer
      { clientCredentials params with privateParams := some privateParams }
    rw [hread] at hinit
    rcases hfound : tokenUrl lib issuer
      { clientCredentials params with privateParams := some privateParams } with ⟨endpoint, after⟩
    rw [hfound] at hprivate htoken
    simp only [hfound] at hinit
    cases endpoint with
    | error e => cases hinit
    | ok url =>
      obtain rfl : after = w.auth := (Prod.mk.inj hinit).2
      constructor
      · rw [hprivate]
        rfl
      · intro token hsome
        cases htoken.symm.trans hsome

section Sound

variable {lib : Libraries} {w : World} (h : Sound lib w)

include h

/-- A cached token is known, with its secret. -/
theorem exists_caches {token : CachedToken} (htoken : w.auth.token = some token) :
    ∃ f, w.Caches f ∧ f.cached lib.toPlatform = some token ∧
      token.tokenSecret = intoBytes f.response.accessToken := by
  obtain ⟨f, hf, hcached⟩ := h.cached token htoken
  exact ⟨f, ⟨by rw [htoken]; rfl, hf⟩, hcached, (Fetched.eq_of_cached hcached).1⟩

/-- **Where `auth_data` looks for an expired token**, there is none to go on with. -/
theorem noneOrExpired_iff (c : Call) :
    noneOrExpired w.auth c = true ↔ ¬ ∃ f, w.Usable c.expired f := by
  unfold noneOrExpired
  cases htoken : w.auth.token with
  | none =>
    refine iff_of_true rfl ?_
    rintro ⟨f, ⟨hsome, -⟩, -⟩
    rw [htoken] at hsome
    cases hsome
  | some token =>
    obtain ⟨f, hcaches, hcached, -⟩ := exists_caches h htoken
    have hexpired := Fetched.isExpired_iff hcached c.expired
    constructor
    · rintro hyes ⟨g, ⟨-, hg⟩, hunexpired⟩
      obtain rfl : f = g := Option.some.inj (hcaches.2.symm.trans hg)
      exact hexpired.mp hyes hunexpired
    · intro hno
      exact hexpired.mpr fun hunexpired => hno ⟨f, hcaches, hunexpired⟩

/-- **When a token is needed**: an expired token is past its mark. -/
theorem needToken_iff {c : Call} (hle : c.expired ≤ c.expiring) :
    needToken w.auth c = true ↔
      w.auth.token = none ∨ ∃ f, w.Caches f ∧ f.PastMark lib.toPlatform c.expiring := by
  unfold needToken
  cases htoken : w.auth.token with
  | none => exact iff_of_true rfl (Or.inl rfl)
  | some token =>
    obtain ⟨f, hcaches, hcached, -⟩ := exists_caches h htoken
    have hexpired := Fetched.isExpired_iff hcached c.expired
    have hexpiring := Fetched.isExpiring_iff hcached c.expiring
    simp only [Bool.or_eq_true]
    constructor
    · intro hneeded
      refine Or.inr ⟨f, hcaches, ?_⟩
      rcases hneeded with hneeded | hneeded
      · exact Fetched.pastMark_of_expired lib.toPlatform hle (hexpired.mp hneeded)
      · exact hexpiring.mp hneeded
    · rintro (hnone | ⟨g, ⟨-, hg⟩, hmark⟩)
      · cases hnone
      · obtain rfl : f = g := Option.some.inj (hcaches.2.symm.trans hg)
        exact Or.inr (hexpiring.mpr hmark)

/-- What is returned when no token is fetched, or none anew. -/
theorem tokenSecret_of_unexpired {c : Call} (hkeeps : noneOrExpired w.auth c = false) :
    ∃ f, w.Usable c.expired f ∧
      tokenSecret w.auth = .Ok (intoBytes f.response.accessToken) := by
  have husable : ∃ f, w.Usable c.expired f := by
    by_contra hnone
    rw [(noneOrExpired_iff h c).mpr hnone] at hkeeps
    cases hkeeps
  obtain ⟨f, husable⟩ := husable
  refine ⟨f, husable, ?_⟩
  obtain ⟨token, htoken⟩ := Option.isSome_iff_exists.mp husable.1.1
  obtain ⟨g, ⟨-, hg⟩, -, hsecret⟩ := exists_caches h htoken
  obtain rfl : g = f := Option.some.inj (hg.symm.trans husable.1.2)
  unfold tokenSecret
  rw [htoken]
  exact congrArg Outcome.Ok hsecret

end Sound

/-- Without need of a token, there is one that has not expired. -/
theorem noneOrExpired_of_needToken {auth : OAuth2Authentication} {c : Call}
    (h : needToken auth c = false) : noneOrExpired auth c = false := by
  unfold needToken at h
  unfold noneOrExpired
  cases htoken : auth.token with
  | none =>
    rw [htoken] at h
    cases h
  | some token =>
    rw [htoken] at h
    exact (Bool.or_eq_false_iff.mp h).1

/-! ## One call -/

/-- What is reported of a failed fetch carries its error, and is retried when that is retriable. -/
theorem carries_fetchFailed (lib : Libraries) (params : OAuth2Params) (e : FetchError) :
    Carries e (fetchFailed lib params e) ∧
      ((ConnectionError.Authentication (fetchFailed lib params e)).establishRetryable = true ↔
        ∃ text, e = .Authentication (.Retriable text)) := by
  cases e with
  | Authentication e =>
    refine ⟨rfl, ?_⟩
    cases e with
    | Custom text => exact iff_of_false Bool.false_ne_true fun ⟨_, heq⟩ => by cases heq
    | Retriable text => exact iff_of_true rfl ⟨text, rfl⟩
  | Other text =>
    exact ⟨⟨_, rfl⟩, iff_of_false Bool.false_ne_true fun ⟨_, heq⟩ => by cases heq⟩

/-- A call that is made, and the world it leaves. -/
theorem step_eq_some {lib : Libraries} {w w' : World} {c : Call} (hs : w.step lib c = some w') :
    c.expired ≤ c.expiring ∧ w'.auth = (authData lib c w.auth).auth ∧
      w'.fetched =
        match (authData lib c w.auth).fetch with
        | some (.Ok resp) => some ⟨resp, c.fetched⟩
        | _ => w.fetched := by
  unfold World.step at hs
  split at hs
  · next hle =>
    obtain rfl := Option.some.inj hs
    exact ⟨hle.2.1, rfl, rfl⟩
  · cases hs

/-- **The step lemma**: a call whose token has deadlines that fit keeps the invariant. -/
theorem sound_step {lib : Libraries} {w w' : World} {c : Call} (h : Sound lib w)
    (hfits : Fits lib w c) (hs : w.step lib c = some w') : Sound lib w' := by
  obtain ⟨-, hauth, hfetched⟩ := step_eq_some hs
  -- a call that fetched no token leaves the cache as it was, or empty
  have hkept : ∀ {found : OAuth2Authentication}, found.privateParams = w.auth.privateParams →
      found.token = w.auth.token → w'.auth = found → w'.fetched = w.fetched → Sound lib w' := by
    intro found hprivate htoken hfound hsame
    constructor
    · rw [hfound, hprivate]
      exact h.initialised
    · intro token hsome
      rw [hfound, htoken] at hsome
      rw [hsame]
      exact h.cached token hsome
  rcases authData_cases lib c h.initialised with
    ⟨-, hturn⟩ | ⟨hneed, found, -, hprivate, htoken, hcase⟩
  · rw [hturn] at hauth hfetched
    exact hkept rfl rfl hauth hfetched
  rcases hcase with ⟨resp, token, -, hcached, hturn⟩ | ⟨resp, hresp, hpanics, -⟩ |
    ⟨e, -, ⟨-, hturn⟩ | ⟨-, hturn⟩⟩
  · rw [hturn] at hauth hfetched
    constructor
    · rw [hauth]
      show found.privateParams.isSome
      rw [hprivate]
      exact h.initialised
    · intro token' hsome
      rw [hauth] at hsome
      obtain rfl : token = token' := Option.some.inj hsome
      exact ⟨⟨resp, c.fetched⟩, hfetched, hcached⟩
  · have hsome := (Fetched.cached_isSome_iff lib.toPlatform ⟨resp, c.fetched⟩).mpr
      (hfits hneed resp hresp)
    rw [Fetched.cached, hpanics] at hsome
    cases hsome
  · rw [hturn] at hauth
    constructor
    · rw [hauth]
      show found.privateParams.isSome
      rw [hprivate]
      exact h.initialised
    · intro token hsome
      rw [hauth] at hsome
      cases hsome
  · rw [hturn] at hauth hfetched
    exact hkept hprivate htoken hauth hfetched

/-- A call owes nothing for a fetch that it does not make, and returns the token it has. -/
theorem safe_of_kept {lib : Libraries} {w : World} {c : Call} (h : Sound lib w)
    (hle : c.expired ≤ c.expiring) (hneed : needToken w.auth c = false)
    (hturn : authData lib c w.auth =
      { outcome := tokenSecret w.auth, fetch := none, auth := w.auth }) : Safe lib w c := by
  obtain ⟨f, husable, hsecret⟩ := tokenSecret_of_unexpired h (noneOrExpired_of_needToken hneed)
  have hattempted := needToken_iff h hle
  constructor
  · rw [hturn]
    show tokenSecret w.auth ≠ .Panicked
    rw [hsecret]
    exact fun heq => nomatch heq
  · intro secret hok
    rw [hturn] at hok
    exact ⟨f, Outcome.Ok.inj (hok.symm.trans hsecret), Or.inr husable⟩
  · rw [← hattempted, hturn, hneed]
    exact iff_of_false Bool.false_ne_true Bool.false_ne_true
  · intro e f' hfailed
    rw [hturn] at hfailed
    cases hfailed
  · intro e hfailed
    rw [hturn] at hfailed
    cases hfailed

theorem safe_of_fetched {lib : Libraries} {w : World} {c : Call} (h : Sound lib w)
    (hle : c.expired ≤ c.expiring) (hneed : needToken w.auth c = true) {resp : TokenResponse}
    {token : CachedToken} {found : OAuth2Authentication}
    (hcached : (Fetched.mk resp c.fetched).cached lib.toPlatform = some token)
    (hturn : authData lib c w.auth =
      { outcome := .Ok token.tokenSecret, fetch := some (.Ok resp), auth := found }) :
    Safe lib w c := by
  have hattempted := needToken_iff h hle
  constructor
  · rw [hturn]
    exact fun heq => nomatch heq
  · intro secret hok
    rw [hturn] at hok
    refine ⟨⟨resp, c.fetched⟩, ?_, Or.inl ?_⟩
    · rw [← Outcome.Ok.inj hok]
      exact (Fetched.eq_of_cached hcached).1
    · rw [hturn]
  · rw [← hattempted, hturn, hneed]
    exact iff_of_true rfl rfl
  · intro e f hfailed
    rw [hturn] at hfailed
    cases hfailed
  · intro e hfailed
    rw [hturn] at hfailed
    cases hfailed

/-- A failed refresh: the token it was to replace is returned. -/
theorem safe_of_refused {lib : Libraries} {w : World} {c : Call} (h : Sound lib w)
    (hle : c.expired ≤ c.expiring) (hneed : needToken w.auth c = true)
    (hkeeps : noneOrExpired w.auth c = false) {e : FetchError} {found : OAuth2Authentication}
    (htoken : found.token = w.auth.token)
    (hturn : authData lib c w.auth =
      { outcome := tokenSecret found, fetch := some (.Err e), auth := found }) : Safe lib w c := by
  obtain ⟨f, husable, hsecret⟩ := tokenSecret_of_unexpired h hkeeps
  have hattempted := needToken_iff h hle
  have houtcome : (authData lib c w.auth).outcome = .Ok (intoBytes f.response.accessToken) := by
    rw [hturn, ← hsecret]
    show tokenSecret found = tokenSecret w.auth
    unfold tokenSecret
    rw [htoken]
  constructor
  · rw [houtcome]
    exact fun heq => nomatch heq
  · intro secret hok
    exact ⟨f, Outcome.Ok.inj (hok.symm.trans houtcome), Or.inr husable⟩
  · rw [← hattempted, hturn, hneed]
    exact iff_of_true rfl rfl
  · intro e' f' _ husable'
    obtain rfl : f = f' := Option.some.inj (husable.1.2.symm.trans husable'.1.2)
    refine ⟨?_, houtcome⟩
    rw [hturn]
    exact htoken
  · intro e' _ hnone
    exact absurd ⟨f, husable⟩ hnone

/-- A failed fetch with nothing to fall back on: the cache is empty, and the error is returned. -/
theorem safe_of_failed {lib : Libraries} {w : World} {c : Call} (h : Sound lib w)
    (hle : c.expired ≤ c.expiring) (hneed : needToken w.auth c = true)
    (hdrops : noneOrExpired w.auth c = true) {e : FetchError} {found : OAuth2Authentication}
    (hturn : authData lib c w.auth =
      { outcome := .Err (fetchFailed lib w.auth.params e), fetch := some (.Err e)
        auth := { found with token := none } }) : Safe lib w c := by
  have hnone := (noneOrExpired_iff h c).mp hdrops
  have hattempted := needToken_iff h hle
  constructor
  · rw [hturn]
    exact fun heq => nomatch heq
  · intro secret hok
    rw [hturn] at hok
    cases hok
  · rw [← hattempted, hturn, hneed]
    exact iff_of_true rfl rfl
  · intro e' f _ husable
    exact absurd ⟨f, husable⟩ hnone
  · intro e' hfailed _
    rw [hturn] at hfailed
    obtain rfl : e = e' := Outcome.Err.inj (Option.some.inj hfailed)
    obtain ⟨hcarries, hretried⟩ := carries_fetchFailed lib w.auth.params e
    rw [hturn]
    exact ⟨rfl, _, rfl, hcarries, hretried⟩

/-- **One call is safe exactly if the deadlines of its token fit.** -/
theorem safe_iff_fits {lib : Libraries} {w w' : World} {c : Call} (h : Sound lib w)
    (hs : w.step lib c = some w') : Safe lib w c ↔ Fits lib w c := by
  obtain ⟨hle, -, -⟩ := step_eq_some hs
  rcases authData_cases lib c h.initialised with
    ⟨hneed, hturn⟩ | ⟨hneed, found, -, -, htoken, hcase⟩
  · refine iff_of_true (safe_of_kept h hle hneed hturn) fun hyes => ?_
    rw [hneed] at hyes
    cases hyes
  rcases hcase with ⟨resp, token, hresp, hcached, hturn⟩ | ⟨resp, hresp, hpanics, hturn⟩ |
    ⟨e, he, hfailed⟩
  · refine iff_of_true (safe_of_fetched h hle hneed hcached hturn) fun _ resp' hresp' => ?_
    obtain rfl : resp = resp' := Outcome.Ok.inj (hresp.symm.trans hresp')
    exact (Fetched.cached_isSome_iff _ _).mp (by rw [Fetched.cached, hcached]; rfl)
  · constructor
    · intro hsafe
      exact absurd (by rw [hturn]) hsafe.noPanic
    · intro hfits
      have hsome := (Fetched.cached_isSome_iff lib.toPlatform ⟨resp, c.fetched⟩).mpr
        (hfits hneed resp hresp)
      rw [Fetched.cached, hpanics] at hsome
      cases hsome
  · have hfits : Fits lib w c := by
      intro _ resp hresp
      cases he.symm.trans hresp
    rcases hfailed with ⟨hdrops, hturn⟩ | ⟨hkeeps, hturn⟩
    · exact iff_of_true (safe_of_failed h hle hneed hdrops hturn) hfits
    · exact iff_of_true (safe_of_refused h hle hneed hkeeps htoken hturn) hfits

/-! ## Any number of calls -/

/-- **Headline.**  After `initialize`, every call of a run is safe exactly if every token that is fetched
    has a lifetime that the clock can add. -/
theorem tokenCache_safe (lib : Libraries) {w : World} (h : Initialised lib w) (run : List Call) :
    (calls lib).Guarded (Safe lib) w run ↔ (calls lib).Guarded (Fits lib) w run := by
  apply Sys.guarded_iff_guarded (I := Sound lib)
  · intro w c w' hsound hfits hs
    exact sound_step hsound hfits hs
  · intro w c w' hsound hs
    exact safe_iff_fits hsound hs
  · exact sound_init h

/-! ### A provider on Linux, whose instants are 64-bit seconds -/

def credentials : String :=
  "data:application/json;base64," ++
    "eyJjbGllbnRfaWQiOiJjbGllbnQtaWQiLCJjbGllbnRfc2VjcmV0IjoiY2xpZW50LXNlY3JldCJ9Cg=="

def credentialsJson : String :=
  "\x7b\"client_id\":\"client-id\",\"client_secret\":\"client-secret\"\x7d\n"

def linux : Libraries where
  toPlatform := .floats ((2 ^ 63 - 1) * 10 ^ 9 + 999999999) 53 (by decide)
  parseUrl s :=
    if s = credentials then .ok ⟨s, "data", (s.drop 5).toString⟩
    else if s = "https://issuer/" then .ok ⟨s, "https", "/"⟩
    else .error "relative URL without a base"
  readToString _ := .error "No such file or directory (os error 2)"
  decodeDataUrl s := if s = credentials then .ok (intoBytes credentialsJson) else .error "NotADataUrl"
  fromJson body :=
    if body = intoBytes credentialsJson then .ok ⟨"client-id", "client-secret", none⟩
    else .error "expected value at line 1 column 1"
  debug
    | none => "None"
    | some s => "Some(\"" ++ s ++ "\")"

/-- An issuer of tokens. -/
def issuing (accessToken : String) (expiresIn : UInt64) : Issuer where
  discover _ := .ok (some "https://issuer/token")
  request _ := .ok ⟨accessToken, some expiresIn⟩

/-- An issuer that is not reached. -/
def unreached : Issuer where
  discover _ := .error "request failed"
  request _ := .error (.other "Request(Reqwest(connection refused))")

def onLinux : World where
  auth := (initializeProvider linux (issuing "" 0)
    (clientCredentials ⟨"https://issuer/", credentials, none, none⟩)).2
  clock := 0
  fetched := none

theorem initialised_onLinux : Initialised linux onLinux :=
  ⟨issuing "" 0, ⟨"https://issuer/", credentials, none, none⟩, by rfl, rfl⟩

/-- An hour's token: fetched, kept over a failed refresh at its mark, dropped when it has expired. -/
def anHour : List Call :=
  [⟨issuing "secret" 3600, 0, 0, 10 ^ 9⟩, ⟨unreached, 5 * 10 ^ 11, 5 * 10 ^ 11, 5 * 10 ^ 11⟩,
    ⟨unreached, 33 * 10 ^ 11, 33 * 10 ^ 11, 34 * 10 ^ 11⟩,
    ⟨unreached, 37 * 10 ^ 11, 37 * 10 ^ 11, 37 * 10 ^ 11⟩]

/-- The hour fits. -/
theorem tokenCache_safe_hour : (calls linux).Guarded (Safe linux) onLinux anHour := by
  apply (tokenCache_safe linux initialised_onLinux anHour).mpr
  have hunreached : ∀ w expired expiring fetched,
      Fits linux w ⟨unreached, expired, expiring, fetched⟩ := by
    intro w expired expiring fetched
    exact fits_of_issued fun _ _ hissued => nomatch hissued
  refine fun w₁ _ => ⟨fits_of_issued ?_, fun w₂ _ => ⟨hunreached w₁ _ _ _, fun w₃ _ =>
    ⟨hunreached w₂ _ _ _, fun w₄ _ => ⟨hunreached w₃ _ _ _, trivial⟩⟩⟩⟩
  intro request resp hissued secs hsecs
  obtain rfl : ⟨"secret", some 3600⟩ = resp := Except.ok.inj hissued
  obtain rfl : 3600 = secs := Option.some.inj hsecs
  decide

/-- A lifetime of `u64::MAX` seconds: the call panics. -/
theorem longLifetime_panics :
    Initialised linux onLinux ∧
      ¬ (calls linux).Guarded (Safe linux) onLinux [⟨issuing "secret" 18446744073709551615, 0, 0, 0⟩] := by
  refine ⟨initialised_onLinux, fun h => ?_⟩
  exact (h _ rfl).1.noPanic (by rfl)

end PulsarClient.OAuth2
