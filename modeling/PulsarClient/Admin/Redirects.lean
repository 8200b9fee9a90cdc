/-
  `send_with_redirects`: the METHOD and the BODY along a chain of redirects.

  The admin client follows redirects by itself, one new request for each: a 307 or 308 "replays the
  method and body verbatim", a 301, 302 or 303 makes a GET without a body of it.  Which of the two a
  request is follows from ALL the answers before it; `send_with_redirects` goes by the last.

  1. THE PROGRAM — `Hop`, `sendWithRedirects` and the requests of `AdminClient::send`.

  2. `requests_iff` — the `j`-th request of a chain, in closed form: it is that of `hopAt j`.

  3. What always holds: at most eleven requests (`length_requests`), the query with the first
     (`queryOnce`), and the original method and body until the first 301, 302 or 303 (`repeats`).

  4. `redirects_obeyed_iff` — and what does not: a 307 or 308 that is followed later on brings the method
     and the body back.
-/
import Mathlib.Data.List.Basic

namespace PulsarClient.Admin.Redirects

/-! ## The program -/

/-- `reqwest::Method`, of which the client uses these. -/
inductive Method where
  | GET
  | POST
  | PUT
  | DELETE
  deriving DecidableEq, Repr

/-- "One hop of a redirect chain." -/
structure Hop where
  url : String
  /-- "False after a 301/302/303, which must be re-issued as a bodyless GET." -/
  keepBody : Bool
  /-- "True only for the first request" -/
  applyQuery : Bool

/-- A request, its body of type `β`. -/
structure Request (β : Type) where
  url : String
  method : Method
  query : List (String × String)
  body : Option β
  deriving DecidableEq

inductive Error (ε : Type) where
  /-- of the code outside: a request not built, not authenticated or not answered -/
  | Other (e : ε)
  /-- "broker redirected to an unusable location", with what the URL crate says of it -/
  | UnusableLocation (location : String) (e : ε)
  | Decode (text : String)

/-- What becomes of the `i`-th request. -/
inductive Answer (ε : Type) where
  /-- `apply_auth` fails, or the request cannot be made -/
  | Unsent (e : ε)
  /-- it is sent, and nothing comes back -/
  | Failed (e : ε)
  /-- the status, and `Location` if it is text -/
  | Response (status : Nat) (location : Option String)

/-- What is sent, oldest first, and the status of the response that is returned. -/
structure Chain (β ε : Type) where
  requests : List (Request β)
  response : Except (Error ε) Nat

/-- … once `request` has been sent. -/
def Chain.after {β ε : Type} (request : Request β) (c : Chain β ε) : Chain β ε :=
  { c with requests := request :: c.requests }

/-- "Matches the default reqwest would have applied." -/
def maxRedirects : Nat := 10

/-- `match status` -/
def keepBody (status : Nat) : Option Bool :=
  match status with
  | 307 | 308 => some true
  | 301 | 302 | 303 => some false
  | _ => none

section

variable {β ε : Type}

/-- The loop: `n` turns are left, and `i` requests have been made.  `join` is `Url::parse` and
    `Url::join`. -/
def sendLoop (join : String → String → Except ε String) (answers : Nat → Answer ε)
    (requestFor : Hop → Except (Error ε) (Request β)) (url : String) :
    Nat → Nat → String → Hop → Chain β ε
  | 0, _, _, _ =>
    { requests := []
      response := .error (.Decode s!"gave up after {maxRedirects} redirects starting from {url}") }
  | n + 1, i, target, hop =>
    match requestFor { hop with url := target } with
    | .error e => { requests := [], response := .error e }
    | .ok request =>
      match answers i with
      | .Unsent e => { requests := [], response := .error (.Other e) }
      | .Failed e => { requests := [request], response := .error (.Other e) }
      | .Response status location =>
        match keepBody status with
        | none => { requests := [request], response := .ok status }
        | some keepBody =>
          match location with
          | none => { requests := [request], response := .ok status }
          | some location =>
            match join target location with
            | .error e =>
              { requests := [request], response := .error (.UnusableLocation location e) }
            | .ok target =>
              (sendLoop join answers requestFor url n (i + 1) target
                { url, keepBody, applyQuery := false }).after request

/-- The first hop. -/
def firstHop (url : String) : Hop := { url, keepBody := true, applyQuery := true }

/-- `send_with_redirects` -/
def sendWithRedirects (join : String → String → Except ε String) (answers : Nat → Answer ε)
    (url : String) (requestFor : Hop → Except (Error ε) (Request β)) : Chain β ε :=
  sendLoop join answers requestFor url (maxRedirects + 1) 0 url (firstHop url)

/-- The request of `AdminClient::send` for one hop. -/
def request (method : Method) (query : List (String × String)) (json : Option β) (hop : Hop) :
    Request β where
  url := hop.url
  method := if hop.keepBody then method else .GET
  query := if hop.applyQuery && !query.isEmpty then query else []
  body := if hop.keepBody then json else none

/-- `AdminClient::send` -/
def send (join : String → String → Except ε String) (answers : Nat → Answer ε) (method : Method)
    (url : String) (query : List (String × String)) (json : Option β) : Chain β ε :=
  sendWithRedirects join answers url fun hop => .ok (request method query json hop)

/-! ## The requests of a chain -/

namespace Answer

def isSent : Answer ε → Bool
  | Unsent _ => false
  | Failed _ => true
  | Response _ _ => true

/-- What a status says of the body. -/
def redirects : Answer ε → Option Bool
  | Unsent _ => none
  | Failed _ => none
  | Response status _ => keepBody status

/-- The hop after one to `target`, if the answer is followed. -/
def follow (join : String → String → Except ε String) (target : String) : Answer ε → Option Hop
  | Unsent _ => none
  | Failed _ => none
  | Response _ none => none
  | Response status (some location) =>
    match keepBody status, join target location with
    | some keepBody, .ok url => some { url, keepBody, applyQuery := false }
    | _, _ => none

end Answer

/-- The `j`-th hop from `hop` on, if the `j` answers from the `i`-th on are all followed. -/
def hopAt (join : String → String → Except ε String) (answers : Nat → Answer ε) :
    Nat → Hop → Nat → Option Hop
  | _, hop, 0 => some hop
  | i, hop, j + 1 =>
    match (answers i).follow join hop.url with
    | none => none
    | some next => hopAt join answers (i + 1) next j

variable {join : String → String → Except ε String} {answers : Nat → Answer ε}

/-- An answer that is followed. -/
theorem follow_some {target : String} {answer : Answer ε} {next : Hop}
    (h : answer.follow join target = some next) :
    answer.isSent = true ∧ answer.redirects = some next.keepBody ∧ next.applyQuery = false := by
  cases answer with
  | Unsent e => cases h
  | Failed e => cases h
  | Response status location =>
    cases location with
    | none => cases h
    | some location =>
      rw [Answer.follow] at h
      split at h
      · rename_i keeps url hkeep hjoin
        obtain rfl := Option.some.inj h
        exact ⟨rfl, hkeep, rfl⟩
      · cases h

/-- **The step lemma.**  One turn of the loop, for requests that can always be built. -/
theorem sendLoop_succ (request : Hop → Request β) (url : String) (n i : Nat) (target : String)
    (hop : Hop) :
    (sendLoop join answers (fun hop => .ok (request hop)) url (n + 1) i target hop).requests =
      if (answers i).isSent then
        request { hop with url := target } ::
          match (answers i).follow join target with
          | none => []
          | some next =>
            (sendLoop join answers (fun hop => .ok (request hop)) url n (i + 1) next.url
              { next with url }).requests
      else [] := by
  rw [sendLoop]
  cases answers i with
  | Unsent e => rfl
  | Failed e => rfl
  | Response status location =>
    cases location with
    | none => cases hkeep : keepBody status <;> simp [Answer.isSent, Answer.follow, hkeep]
    | some location =>
      cases hkeep : keepBody status with
      | none => simp [Answer.isSent, Answer.follow, hkeep]
      | some keeps =>
        cases hjoin : join target location with
        | error e => simp [Answer.isSent, Answer.follow, hkeep, hjoin]
        | ok next => simp [Answer.isSent, Answer.follow, hkeep, hjoin, Chain.after]

/-- A later hop is one from the next. -/
theorem hopAt_cons {i j : Nat} {hop next : Hop} (h : hopAt join answers i hop (j + 1) = some next) :
    ∃ first, (answers i).follow join hop.url = some first ∧
      hopAt join answers (i + 1) first j = some next := by
  rw [hopAt] at h
  cases hfollow : (answers i).follow join hop.url with
  | none =>
    rw [hfollow] at h
    cases h
  | some first =>
    rw [hfollow] at h
    exact ⟨first, rfl, h⟩

/-- The `j`-th request is that of the `j`-th hop. -/
theorem requests_iff (request : Hop → Request β) (url : String) {n i j : Nat} {target : String}
    {hop : Hop} {r : Request β} :
    (sendLoop join answers (fun hop => .ok (request hop)) url n i target hop).requests[j]? =
        some r ↔
      j < n ∧ (answers (i + j)).isSent = true ∧
        ∃ next, hopAt join answers i { hop with url := target } j = some next ∧
          request next = r := by
  induction n generalizing i j target hop with
  | zero =>
    refine iff_of_false (fun h => ?_) fun h => Nat.not_lt_zero j h.1
    cases h
  | succ n ih =>
    rw [sendLoop_succ]
    by_cases hsent : (answers i).isSent = true
    · rw [if_pos hsent]
      cases j with
      | zero =>
        -- the request of `hop` itself
        constructor
        · intro h
          exact ⟨Nat.succ_pos n, hsent, _, rfl, Option.some.inj h⟩
        · rintro ⟨-, -, next, hnext, rfl⟩
          exact congrArg (fun hop => some (request hop)) (Option.some.inj hnext)
      | succ j =>
        rw [List.getElem?_cons_succ, hopAt]
        cases hfollow : (answers i).follow join target with
        | none =>
          -- the chain ends here
          refine iff_of_false (fun h => ?_) ?_
          · cases h
          · rintro ⟨-, -, next, hnext, -⟩
            cases hnext
        | some next =>
          refine ih.trans ?_
          rw [show i + 1 + j = i + (j + 1) by omega, Nat.succ_lt_succ_iff]
    · rw [if_neg hsent]
      refine iff_of_false (fun h => nomatch h) ?_
      rintro ⟨-, hsent', next, hnext, -⟩
      cases j with
      | zero => exact hsent hsent'
      | succ j =>
        obtain ⟨first, hfollow, -⟩ := hopAt_cons hnext
        exact hsent (follow_some hfollow).1

/-- What a hop is like, the answer before it decides. -/
theorem hopAt_succ {i j : Nat} {hop next : Hop} (h : hopAt join answers i hop (j + 1) = some next) :
    (answers (i + j)).redirects = some next.keepBody ∧ next.applyQuery = false := by
  obtain ⟨first, hfollow, hrest⟩ := hopAt_cons h
  induction j generalizing i hop first with
  | zero =>
    obtain rfl := Option.some.inj hrest
    exact (follow_some hfollow).2
  | succ j ih =>
    obtain ⟨second, hsecond, hlater⟩ := hopAt_cons hrest
    rw [show i + (j + 1) = i + 1 + j by omega]
    exact ih hrest second hsecond hlater

/-- Whatever the requests are. -/
theorem length_requests (join : String → String → Except ε String) (answers : Nat → Answer ε)
    (requestFor : Hop → Except (Error ε) (Request β)) (url : String) (n i : Nat) (target : String)
    (hop : Hop) :
    (sendLoop join answers requestFor url n i target hop).requests.length ≤ n := by
  induction n generalizing i target hop with
  | zero => exact Nat.le_refl 0
  | succ n ih =>
    have hone : ∀ r : Request β, [r].length ≤ n + 1 := fun r => Nat.succ_le_succ (Nat.zero_le n)
    unfold sendLoop
    split
    · exact Nat.zero_le _
    · rename_i request hrequest
      split
      · exact Nat.zero_le _
      · exact hone request
      · split
        · exact hone request
        · split
          · exact hone request
          · split
            · exact hone request
            · exact Nat.succ_le_succ (ih _ _ _)

/-! ## The rules -/

/-- There is a 301, 302 or 303 among the first `j` answers. -/
def Demoted (answers : Nat → Answer ε) (j : Nat) : Prop :=
  ∃ k < j, (answers k).redirects = some false

/-- "the caller's query belongs to the original URL only" -/
def QueryOnce (query : List (String × String)) (c : Chain β ε) : Prop :=
  ∀ j r, c.requests[j]? = some r → r.query = if j = 0 then query else []

/-- Until the first 301, 302 or 303 it is the original request. -/
def Repeats (answers : Nat → Answer ε) (method : Method) (json : Option β) (c : Chain β ε) : Prop :=
  ∀ j r, c.requests[j]? = some r → ¬ Demoted answers j → r.method = method ∧ r.body = json

/-- … and from there on a GET without a body. -/
def Demotes (answers : Nat → Answer ε) (c : Chain β ε) : Prop :=
  ∀ j r, c.requests[j]? = some r → Demoted answers j → r.method = .GET ∧ r.body = none

/-- A 307 or 308 is followed after a 301, 302 or 303. -/
def Restores (join : String → String → Except ε String) (answers : Nat → Answer ε)
    (url : String) : Prop :=
  ∃ j < maxRedirects, Demoted answers j ∧ (answers j).redirects = some true ∧
    (hopAt join answers 0 (firstHop url) (j + 1)).isSome = true ∧ (answers (j + 1)).isSent = true

section

variable {method : Method} {url : String} {query : List (String × String)} {json : Option β}

theorem send_requests {j : Nat} {r : Request β} :
    (send join answers method url query json).requests[j]? = some r ↔
      j < maxRedirects + 1 ∧ (answers j).isSent = true ∧
        ∃ hop, hopAt join answers 0 (firstHop url) j = some hop ∧
          request method query json hop = r := by
  show (sendLoop join answers (fun hop => .ok (request method query json hop)) url (maxRedirects + 1) 0
    url (firstHop url)).requests[j]? = some r ↔ _
  rw [requests_iff (request method query json), Nat.zero_add]
  exact Iff.rfl

theorem queryOnce : QueryOnce query (send join answers method url query json) := by
  intro j r hr
  obtain ⟨-, -, hop, hhop, rfl⟩ := send_requests.mp hr
  cases j with
  | zero =>
    obtain rfl := Option.some.inj hhop
    cases query with
    | nil => rfl
    | cons parameter query => rfl
  | succ j =>
    have hlater := (hopAt_succ hhop).2
    show (if hop.applyQuery && !query.isEmpty then query else []) = []
    rw [hlater]
    rfl

theorem repeats : Repeats answers method json (send join answers method url query json) := by
  intro j r hr hnot
  obtain ⟨-, -, hop, hhop, rfl⟩ := send_requests.mp hr
  have hkeep : hop.keepBody = true := by
    cases j with
    | zero =>
      obtain rfl := Option.some.inj hhop
      rfl
    | succ j =>
      have hlast := (hopAt_succ hhop).1
      rw [Nat.zero_add] at hlast
      by_contra hfalse
      rw [Bool.not_eq_true] at hfalse
      exact hnot ⟨j, Nat.lt_succ_self j, hfalse ▸ hlast⟩
  exact ⟨if_pos hkeep, if_pos hkeep⟩

theorem demotes_iff :
    Demotes answers (send join answers method url query json) ↔
      (method = .GET ∧ json = none) ∨ ¬ Restores join answers url := by
  constructor
  · intro hdemotes
    by_contra hneither
    rw [not_or, not_not] at hneither
    obtain ⟨hmutates, j, hj, ⟨k, hk, hdemoted⟩, hlast, hhop, hsent⟩ := hneither
    obtain ⟨hop, hhop⟩ := Option.isSome_iff_exists.mp hhop
    have hkeep : hop.keepBody = true := by
      have hlast' := (hopAt_succ hhop).1
      rw [Nat.zero_add, hlast] at hlast'
      exact (Option.some.inj hlast').symm
    have hr := hdemotes (j + 1) _ (send_requests.mpr ⟨by omega, hsent, hop, hhop, rfl⟩)
      ⟨k, by omega, hdemoted⟩
    exact hmutates ⟨(if_pos hkeep).symm.trans hr.1, (if_pos hkeep).symm.trans hr.2⟩
  · intro hcondition j r hr hdemoted
    obtain ⟨hj, hsent, hop, hhop, rfl⟩ := send_requests.mp hr
    rcases hcondition with ⟨rfl, rfl⟩ | hnever
    · -- either way it is the same
      exact ⟨ite_self _, ite_self _⟩
    · have hkeep : hop.keepBody = false := by
        cases j with
        | zero =>
          obtain ⟨k, hk, -⟩ := hdemoted
          omega
        | succ j =>
          have hlast := (hopAt_succ hhop).1
          rw [Nat.zero_add] at hlast
          by_contra htrue
          rw [Bool.not_eq_false] at htrue
          rw [htrue] at hlast
          -- the answer that has demoted the request is an earlier one
          obtain ⟨k, hk, hfalse⟩ := hdemoted
          have hne : k ≠ j := by
            rintro rfl
            rw [hlast] at hfalse
            cases hfalse
          exact hnever ⟨j, by omega, ⟨k, by omega, hfalse⟩, hlast,
            Option.isSome_iff_exists.mpr ⟨hop, hhop⟩, hsent⟩
      have hnot : ¬ hop.keepBody = true := Bool.not_eq_true _ ▸ hkeep
      exact ⟨if_neg hnot, if_neg hnot⟩

end

/-- **The method along a chain.**  Whatever is answered, at most eleven requests are sent, the first one
    with the query, and the original request until the first 301, 302 or 303.  It is a GET without a
    body ever after exactly if it was one to begin with, or no 307 or 308 is followed then. -/
theorem redirects_obeyed_iff (join : String → String → Except ε String) (answers : Nat → Answer ε)
    (method : Method) (url : String) (query : List (String × String)) (json : Option β) :
    (∀ requestFor : Hop → Except (Error ε) (Request β),
      (sendWithRedirects join answers url requestFor).requests.length ≤ 11) ∧
    QueryOnce query (send join answers method url query json) ∧
    Repeats answers method json (send join answers method url query json) ∧
    (Demotes answers (send join answers method url query json) ↔
      (method = .GET ∧ json = none) ∨ ¬ Restores join answers url) :=
  ⟨fun requestFor => length_requests join answers requestFor url _ _ _ _, queryOnce, repeats,
    demotes_iff⟩

/-! ## 303, then 307 -/

/-- … and then 200. -/
def seeOtherThenTemporary : Nat → Answer Unit
  | 0 => .Response 303 (some "http://lookup:8080/done")
  | 1 => .Response 307 (some "http://owner:8080/done")
  | _ => .Response 200 none

/-- The third request is the original POST again.  (An absolute location is taken as it is.) -/
theorem post_is_repeated :
    ¬ ∀ answers : Nat → Answer Unit,
      Demotes answers
        (send (fun _ location => .ok location) answers .POST "http://lookup:8080/" []
          (some "body")) := by
  intro hall
  have hget := hall seeOtherThenTemporary 2 ⟨"http://owner:8080/done", .POST, [], some "body"⟩ rfl
    ⟨0, by decide, rfl⟩
  cases hget.1

end

end PulsarClient.Admin.Redirects
