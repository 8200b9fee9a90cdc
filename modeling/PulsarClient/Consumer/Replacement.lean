/-
  THE REPLACEMENT — does `Consumer::seek` keep the consumer that it makes?

  `Consumer::seek` makes a second `TopicConsumer` with the configuration of the first and then drops the
  first.  The engine of the first ends some time later, and its `Drop` calls `close_consumer`: it pushes
  `Register::RemoveConsumer` and sends `CloseConsumer`.  Both name the consumer by its id only.

  1. The SYSTEM (`replacing`): the connections, and on them the engine of the old consumer, that of the
     new one, and other consumers.

  2. `Attached` — a new consumer that is subscribed is in the table of its connection, stays there when
     the queue is drained, and no `CloseConsumer` names it.

  3. `spares` — the condition: the old engine does not close or register the id of the new consumer on
     its connection, from the registration of the new one on.

  4. `attached_of_spares`; `spares_of_generated`: a generated id is all it takes; `detached_iff`,
     `replacement_detached`: a configured one is not enough.
-/
import PulsarClient.Connection.Registration

namespace PulsarClient.Consumer.Replacement

open Runs Connection Connection.Residue Connection.Registration

/-! ## The system -/

inductive Who where
  | old
  | new
  deriving DecidableEq, Repr

/-- The channels are named by their owners. -/
def Who.channel : Who → Nat
  | old => 0
  | new => 1

/-- Where the engine is with its subscription, or `TopicConsumer::new` for it. -/
inductive Stage where
  /-- before `subscribe`: at first, after a refusal, in `reconnect` -/
  | idle
  /-- `Register::Consumer` is pushed -/
  | registered
  /-- … and the `Subscribe` is sent -/
  | subscribing (r : Resolver)
  /-- the first `Flow` is out -/
  | serving (r : Resolver)
  /-- `Drop` has closed the consumer -/
  | gone
  deriving DecidableEq, Repr

def Stage.subscription (channel : Nat) : Stage → Option Subscription
  | registered => some { resolver := channel }
  | subscribing r => some { resolver := channel, request := some r }
  | serving r => some { resolver := channel, request := some r, flowed := true }
  | _ => none

structure Party where
  id : Nat
  connection : Nat := 0
  stage : Stage := .idle
  /-- the `ConsumerEngine` exists: from the end of `TopicConsumer::new` on -/
  engine : Bool := false
  deriving DecidableEq, Repr

structure State where
  conns : Nat → Responses.State
  /-- `CONSUMER_ID_GENERATOR` -/
  generator : Nat
  party : Who → Option Party
  /-- the `CloseConsumer` commands, by connection and id, since the last registration of the new
      consumer -/
  closes : List (Nat × Nat) := []

inductive Action where
  /-- `Consumer::seek` calls `TopicConsumer::new` -/
  | create
  /-- `get_connection`, and `subscribe` on it -/
  | register (who : Who) (connection : Nat)
  /-- … its request, and the command -/
  | subscribe (who : Who)
  /-- the `Subscribe` fails -/
  | refuse (who : Who)
  /-- the `Subscribe` is answered, and `send_flow` ends `new` or `reconnect` -/
  | flow (who : Who)
  /-- `reconnect` begins with `close_consumer` -/
  | reconnect (who : Who)
  /-- the engine is dropped, for whatever reason; or `TopicConsumer::new` fails, or is -/
  | drop (who : Who)
  /-- other consumers, with other ids -/
  | generate
  | registerOther (connection id resolver : Nat)
  | removeOther (connection id : Nat)
  /-- what is not about a consumer: requests, the socket, the receiver -/
  | other (connection : Nat) (a : Responses.Action)

namespace State

def setParty (s : State) (who : Who) (p : Party) : State :=
  { s with party := Function.update s.party who (some p) }

def setConn (s : State) (connection : Nat) (conn : Responses.State) : State :=
  { s with conns := Function.update s.conns connection conn }

/-- `close_consumer`: without a receiver it returns an error at once. -/
def closeConsumer (s : State) (connection id : Nat) : State :=
  match Responses.step (s.conns connection) (.removeConsumer id) with
  | some conn => { s.setConn connection conn with closes := s.closes ++ [(connection, id)] }
  | none => s

/-- The id is neither's. -/
def free (s : State) (id : Nat) : Bool :=
  (s.party .old).all (fun p => decide (p.id ≠ id)) && (s.party .new).all fun p => decide (p.id ≠ id)

def step (consumerId : Option Nat) (s : State) : Action → Option State
  | .create =>
    if (s.party .old).any (·.engine) = true ∧ s.party .new = none then
      match consumerId with
      | some id => some (s.setParty .new { id })
      | none => some { s.setParty .new { id := s.generator } with generator := s.generator + 1 }
    else none
  | .register who connection =>
    match s.party who with
    | some { id, connection := _, stage := .idle, engine } =>
      match Responses.step (s.conns connection) (.registerConsumer id who.channel) with
      | some conn =>
        some { (s.setConn connection conn).setParty who
            { id, connection, stage := .registered, engine } with
          closes := if who = .new then [] else s.closes }
      | none => some (s.setParty who { id, connection, stage := .idle, engine })
    | _ => none
  | .subscribe who =>
    match s.party who with
    | some { id, connection, stage := .registered, engine } =>
      (Responses.step (s.conns connection) .request).map fun conn =>
        let r : Resolver :=
          { key := .RequestId (s.conns connection).requestId, serial := (s.conns connection).serial }
        (s.setConn connection conn).setParty who { id, connection, stage := .subscribing r, engine }
    | _ => none
  | .refuse who =>
    match s.party who with
    | some { id, connection, stage := .registered, engine } =>
      some (s.setParty who { id, connection, stage := .idle, engine })
    | some { id, connection, stage := .subscribing _, engine } =>
      some (s.setParty who { id, connection, stage := .idle, engine })
    | _ => none
  | .flow who =>
    match s.party who with
    | some { id, connection, stage := .subscribing r, engine := _ } =>
      if r ∈ (s.conns connection).handed.map Prod.fst then
        some (s.setParty who { id, connection, stage := .serving r, engine := true })
      else none
    | _ => none
  | .reconnect who =>
    match s.party who with
    | some { id, connection, stage := .serving _, engine } =>
      some ((s.closeConsumer connection id).setParty who { id, connection, stage := .idle, engine })
    | _ => none
  | .drop who =>
    match s.party who with
    | some { id, connection, stage, engine } =>
      if stage = .gone then none
      else if engine then
        some ((s.closeConsumer connection id).setParty who { id, connection, stage := .gone, engine })
      else some (s.setParty who { id, connection, stage := .gone, engine })
    | none => none
  | .generate => some { s with generator := s.generator + 1 }
  | .registerOther connection id resolver =>
    if s.free id then
      (Responses.step (s.conns connection) (.registerConsumer id resolver)).map (s.setConn connection)
    else none
  | .removeOther connection id =>
    if s.free id then
      (Responses.step (s.conns connection) (.removeConsumer id)).map (s.setConn connection)
    else none
  | .other connection a =>
    if isOther a then (Responses.step (s.conns connection) a).map (s.setConn connection) else none

end State

/-- The old consumer, from its creation on.  Both take their id from the same configuration. -/
def replacing (consumerId : Option Nat) : Sys State Action where
  init s := (∀ connection, Responses.responses.init (s.conns connection)) ∧ s.closes = [] ∧
    s.party .new = none ∧ ∃ id, s.party .old = some { id } ∧
      match consumerId with
      | some configured => id = configured
      | none => id < s.generator
  step := State.step consumerId

/-- The new consumer, once it serves: `seek` has returned `Ok`. -/
def Attached (s : State) : Prop :=
  ∀ p r, s.party .new = some p → p.stage = .serving r →
    (s.conns p.connection).rx.consumers.lookup p.id = some Who.new.channel ∧
    (drained (s.conns p.connection).rx).consumers.lookup p.id = some Who.new.channel ∧
    (p.connection, p.id) ∉ s.closes

/-! ## The condition -/

/-- The new consumer is registered under this id, on this connection, and its receiver runs. -/
def State.hits (s : State) (connection id : Nat) : Bool :=
  (s.party .new).any fun p =>
    (p.stage.subscription Who.new.channel).isSome && decide (p.connection = connection) &&
      decide (p.id = id) && decide ((s.conns connection).phase ≠ .done)

/-- The old engine leaves the id of the new one alone. -/
def spares (s : State) : Action → Bool
  | .reconnect .old => !(s.party .old).any fun p => s.hits p.connection p.id
  | .drop .old => !(s.party .old).any fun p => p.engine && s.hits p.connection p.id
  | .register .old connection => !(s.party .old).any fun p => s.hits connection p.id
  | _ => true


/-! ## The invariant -/

structure Inv (s : State) : Prop where
  carried : ∀ connection, Carried (s.conns connection)
  follows : ∀ p sub, s.party .new = some p → p.stage.subscription Who.new.channel = some sub →
    Follows (s.conns p.connection) p.id sub ∧ (p.connection, p.id) ∉ s.closes

section

variable {s : State}

/-- One connection moves on. -/
theorem carried_setConn (h : ∀ connection, Carried (s.conns connection)) {connection : Nat}
    {conn : Responses.State} {a : Responses.Action}
    (hs : Responses.step (s.conns connection) a = some conn) (k : Nat) :
    Carried ((s.setConn connection conn).conns k) := by
  show Carried (Function.update s.conns connection conn k)
  by_cases hk : k = connection
  · subst hk
    rw [Function.update_self]
    exact (h k).step hs
  · rw [Function.update_of_ne hk]
    exact h k

theorem carried_closeConsumer (h : ∀ connection, Carried (s.conns connection)) (connection id k : Nat) :
    Carried ((s.closeConsumer connection id).conns k) := by
  unfold State.closeConsumer
  cases hs : Responses.step (s.conns connection) (.removeConsumer id) with
  | none => exact h k
  | some conn => exact carried_setConn h hs k

/-- … which keeps the new consumer's subscription there. -/
theorem Inv.setConn (h : Inv s) {connection : Nat} {conn : Responses.State} {a : Responses.Action}
    (hs : Responses.step (s.conns connection) a = some conn)
    (hkeeps : ∀ p sub, s.party .new = some p → p.stage.subscription Who.new.channel = some sub →
      p.connection = connection → Follows (s.conns connection) p.id sub → Follows conn p.id sub) :
    Inv (s.setConn connection conn) := by
  refine ⟨carried_setConn h.carried hs, ?_⟩
  intro p sub hp hsub
  obtain ⟨hfollows, hcloses⟩ := h.follows p sub hp hsub
  refine ⟨?_, hcloses⟩
  show Follows (Function.update s.conns connection conn p.connection) p.id sub
  by_cases hk : p.connection = connection
  · rw [hk] at hfollows
    rw [hk, Function.update_self]
    exact hkeeps p sub hp hsub hk hfollows
  · rw [Function.update_of_ne hk]
    exact hfollows

theorem Inv.setConn_other (h : Inv s) {connection : Nat} {conn : Responses.State} {a : Responses.Action}
    (ha : isOther a = true) (hs : Responses.step (s.conns connection) a = some conn) :
    Inv (s.setConn connection conn) :=
  h.setConn hs fun _ _ _ _ _ hfollows => hfollows.drift (drift_step ha hs)

theorem Inv.setOld (h : Inv s) (p : Party) : Inv (s.setParty .old p) := ⟨h.carried, h.follows⟩

theorem inv_setNew {p : Party} (hcarried : ∀ connection, Carried (s.conns connection))
    (hp : ∀ sub, p.stage.subscription Who.new.channel = some sub →
      Follows (s.conns p.connection) p.id sub ∧ (p.connection, p.id) ∉ s.closes) :
    Inv (s.setParty .new p) := by
  refine ⟨hcarried, ?_⟩
  intro p' sub hp' hsub
  obtain rfl := Option.some.inj hp'
  exact hp sub hsub

/-- Without a subscription there is nothing to keep. -/
theorem inv_setParty {p : Party} {who : Who} (h : Inv s)
    (hp : ∀ channel, p.stage.subscription channel = none) : Inv (s.setParty who p) := by
  cases who with
  | old => exact h.setOld p
  | new =>
    refine inv_setNew h.carried fun sub hsub => ?_
    rw [hp] at hsub
    cases hsub

/-- An id that does not hit the new consumer is another one, as far as its connection goes. -/
theorem ne_of_not_hits {connection id : Nat} (hhits : s.hits connection id = false) {p : Party}
    {sub : Subscription} (hp : s.party .new = some p)
    (hsub : p.stage.subscription Who.new.channel = some sub) (hk : p.connection = connection)
    (hphase : (s.conns connection).phase ≠ .done) : id ≠ p.id := by
  rintro rfl
  unfold State.hits at hhits
  rw [hp] at hhits
  simp [hsub, hk, hphase] at hhits

/-- A registration about a consumer needs a receiver. -/
theorem phase_ne_done {conn conn' : Responses.State} {a : Responses.Action} (ha : isOther a = false)
    (hs : Responses.step conn a = some conn') : conn.phase ≠ .done := by
  intro hphase
  cases a with
  | registerConsumer | removeConsumer =>
    simp only [Responses.step] at hs
    rw [if_pos hphase] at hs
    cases hs
  | _ => cases ha

/-- A registration of another id. -/
theorem Inv.registerConsumer (h : Inv s) {connection id resolver : Nat} {conn : Responses.State}
    (hs : Responses.step (s.conns connection) (.registerConsumer id resolver) = some conn)
    (hhits : s.hits connection id = false) : Inv (s.setConn connection conn) := by
  refine h.setConn hs fun p sub hp hsub hk hfollows => ?_
  exact hfollows.register_ne (ne_of_not_hits hhits hp hsub hk (phase_ne_done rfl hs)) hs

theorem Inv.removeConsumer (h : Inv s) {connection id : Nat} {conn : Responses.State}
    (hs : Responses.step (s.conns connection) (.removeConsumer id) = some conn)
    (hhits : s.hits connection id = false) : Inv (s.setConn connection conn) := by
  refine h.setConn hs fun p sub hp hsub hk hfollows => ?_
  exact hfollows.remove_ne (ne_of_not_hits hhits hp hsub hk (phase_ne_done rfl hs)) hs

/-- `close_consumer` of another id. -/
theorem Inv.closeConsumer (h : Inv s) {connection id : Nat} (hhits : s.hits connection id = false) :
    Inv (s.closeConsumer connection id) := by
  unfold State.closeConsumer
  cases hs : Responses.step (s.conns connection) (.removeConsumer id) with
  | none => exact h
  | some conn =>
    have hinv := h.removeConsumer hs hhits
    refine ⟨hinv.carried, ?_⟩
    intro p sub hp hsub
    obtain ⟨hfollows, hcloses⟩ := hinv.follows p sub hp hsub
    refine ⟨hfollows, ?_⟩
    intro hmem
    rcases List.mem_append.mp hmem with hold | hnew
    · exact hcloses hold
    · obtain ⟨hk, hid⟩ := Prod.mk.inj (List.mem_singleton.mp hnew)
      exact ne_of_not_hits hhits hp hsub hk (phase_ne_done rfl hs) hid.symm

/-- The id of neither hits nothing. -/
theorem hits_of_free {id : Nat} (hfree : s.free id = true) (connection : Nat) :
    s.hits connection id = false := by
  unfold State.free at hfree
  unfold State.hits
  cases hp : s.party .new with
  | none => rfl
  | some p =>
    rw [hp] at hfree
    have hne : p.id ≠ id := of_decide_eq_true (Bool.and_eq_true_iff.mp hfree).2
    simp [hne]

end

theorem inv_init {consumerId : Option Nat} {s : State} (h : (replacing consumerId).init s) : Inv s := by
  obtain ⟨hconns, -, hnew, -⟩ := h
  refine ⟨fun k => Carried.init (hconns k), ?_⟩
  intro p sub hp
  rw [hnew] at hp
  cases hp

/-! Each action, in turn. -/

section

variable {consumerId : Option Nat} {s s' : State}

theorem Inv.create (h : Inv s) (hs : State.step consumerId s .create = some s') : Inv s' := by
  simp only [State.step] at hs
  split at hs
  · cases consumerId with
    | some id =>
      obtain rfl := Option.some.inj hs
      exact inv_setParty h fun _ => rfl
    | none =>
      obtain rfl := Option.some.inj hs
      have hinv : Inv (s.setParty .new { id := s.generator }) := inv_setParty h fun _ => rfl
      exact ⟨hinv.carried, hinv.follows⟩
  · cases hs

theorem Inv.register (h : Inv s) {who : Who} {connection : Nat}
    (hok : spares s (.register who connection) = true)
    (hs : State.step consumerId s (.register who connection) = some s') : Inv s' := by
  simp only [State.step] at hs
  split at hs
  · rename_i id _ engine hp
    split at hs
    · rename_i conn hconn
      obtain rfl := Option.some.inj hs
      cases who with
      | old =>
        have hhits : s.hits connection id = false := by
          simpa [spares, hp] using hok
        have hinv := (h.registerConsumer hconn hhits).setOld
          { id, connection, stage := .registered, engine }
        exact ⟨hinv.carried, hinv.follows⟩
      | new =>
        refine ⟨carried_setConn h.carried hconn, ?_⟩
        intro p sub hp' hsub
        obtain rfl := Option.some.inj hp'
        obtain rfl := Option.some.inj hsub
        refine ⟨?_, List.not_mem_nil⟩
        show Follows (Function.update s.conns connection conn connection) id _
        rw [Function.update_self]
        exact follows_register hconn
    · obtain rfl := Option.some.inj hs
      exact inv_setParty h fun _ => rfl
  · cases hs

theorem Inv.subscribe (h : Inv s) {who : Who}
    (hs : State.step consumerId s (.subscribe who) = some s') : Inv s' := by
  simp only [State.step] at hs
  split at hs
  · rename_i id connection engine hp
    obtain ⟨conn, hconn, rfl⟩ := Option.map_eq_some_iff.mp hs
    have hinv := h.setConn_other rfl hconn
    cases who with
    | old => exact hinv.setOld _
    | new =>
      refine inv_setNew hinv.carried fun sub hsub => ?_
      obtain rfl := Option.some.inj hsub
      obtain ⟨hfollows, hcloses⟩ := h.follows _ _ hp rfl
      refine ⟨?_, hcloses⟩
      show Follows (Function.update s.conns connection conn connection) id _
      rw [Function.update_self]
      exact hfollows.subscribe hconn
  · cases hs

theorem Inv.refuse (h : Inv s) {who : Who}
    (hs : State.step consumerId s (.refuse who) = some s') : Inv s' := by
  simp only [State.step] at hs
  split at hs
  · obtain rfl := Option.some.inj hs
    exact inv_setParty h fun _ => rfl
  · obtain rfl := Option.some.inj hs
    exact inv_setParty h fun _ => rfl
  · cases hs

theorem Inv.flow (h : Inv s) {who : Who}
    (hs : State.step consumerId s (.flow who) = some s') : Inv s' := by
  simp only [State.step] at hs
  split at hs
  · rename_i id connection r engine hp
    split at hs
    · rename_i hanswered
      obtain rfl := Option.some.inj hs
      cases who with
      | old => exact h.setOld _
      | new =>
        refine inv_setNew h.carried fun sub hsub => ?_
        obtain rfl := Option.some.inj hsub
        obtain ⟨hfollows, hcloses⟩ := h.follows _ _ hp rfl
        exact ⟨hfollows.flow hanswered, hcloses⟩
    · cases hs
  · cases hs

/-- `close_consumer` of the old engine, which spares the new one, or of the new one itself. -/
theorem Inv.closes (h : Inv s) {who : Who} {connection id : Nat} {p : Party}
    (hp : ∀ channel, p.stage.subscription channel = none)
    (hhits : who = .old → s.hits connection id = false) :
    Inv ((s.closeConsumer connection id).setParty who p) := by
  cases who with
  | old => exact (h.closeConsumer (hhits rfl)).setOld p
  | new =>
    refine inv_setNew (carried_closeConsumer h.carried connection id) fun sub hsub => ?_
    rw [hp] at hsub
    cases hsub

theorem Inv.reconnect (h : Inv s) {who : Who} (hok : spares s (.reconnect who) = true)
    (hs : State.step consumerId s (.reconnect who) = some s') : Inv s' := by
  simp only [State.step] at hs
  split at hs
  · rename_i id connection r engine hp
    obtain rfl := Option.some.inj hs
    refine h.closes (fun _ => rfl) ?_
    rintro rfl
    simpa [spares, hp] using hok
  · cases hs

theorem Inv.drop (h : Inv s) {who : Who} (hok : spares s (.drop who) = true)
    (hs : State.step consumerId s (.drop who) = some s') : Inv s' := by
  simp only [State.step] at hs
  split at hs
  · rename_i id connection stage engine hp
    split at hs
    · cases hs
    · split at hs
      · rename_i hengine
        obtain rfl := Option.some.inj hs
        refine h.closes (fun _ => rfl) ?_
        rintro rfl
        simpa [spares, hp, hengine] using hok
      · obtain rfl := Option.some.inj hs
        exact inv_setParty h fun _ => rfl
  · cases hs

/-- **The step lemma.** -/
theorem Inv.step {a : Action} (h : Inv s) (hok : spares s a = true)
    (hs : State.step consumerId s a = some s') : Inv s' := by
  cases a with
  | create => exact h.create hs
  | register who connection => exact h.register hok hs
  | subscribe who => exact h.subscribe hs
  | refuse who => exact h.refuse hs
  | flow who => exact h.flow hs
  | reconnect who => exact h.reconnect hok hs
  | drop who => exact h.drop hok hs
  | generate =>
    obtain rfl := Option.some.inj hs
    exact ⟨h.carried, h.follows⟩
  | registerOther connection id resolver =>
    simp only [State.step] at hs
    split at hs
    · rename_i hfree
      obtain ⟨conn, hconn, rfl⟩ := Option.map_eq_some_iff.mp hs
      exact h.registerConsumer hconn (hits_of_free hfree connection)
    · cases hs
  | removeOther connection id =>
    simp only [State.step] at hs
    split at hs
    · rename_i hfree
      obtain ⟨conn, hconn, rfl⟩ := Option.map_eq_some_iff.mp hs
      exact h.removeConsumer hconn (hits_of_free hfree connection)
    · cases hs
  | other connection a =>
    simp only [State.step] at hs
    split at hs
    · rename_i ha
      obtain ⟨conn, hconn, rfl⟩ := Option.map_eq_some_iff.mp hs
      exact h.setConn_other ha hconn
    · cases hs

end

/-! ## What the replacement keeps -/

/-- **A new consumer that serves is attached.** -/
theorem Inv.attached {s : State} (h : Inv s) : Attached s := by
  intro p r hp hstage
  have hsub : p.stage.subscription Who.new.channel =
      some { resolver := Who.new.channel, request := some r, flowed := true } := by
    rw [hstage]
    rfl
  obtain ⟨hfollows, hcloses⟩ := h.follows p _ hp hsub
  exact ⟨hfollows.lookup (h.carried p.connection) (Or.inl rfl), hfollows.channel, hcloses⟩

theorem inv_of_reachIf {consumerId : Option Nat} {s : State}
    (h : (replacing consumerId).ReachIf (fun s a => spares s a = true) s) : Inv s :=
  h.inv Inv (fun _ hinit => inv_init hinit) fun _ _ _ hI hok hs => hI.step hok hs

/-- In every run whose old engine leaves the id of the new consumer alone, `seek` keeps the consumer
    that it makes: in the table, also when the receiver has caught up, and not closed. -/
theorem attached_of_spares (consumerId : Option Nat) {s : State}
    (h : (replacing consumerId).ReachIf (fun s a => spares s a = true) s) : Attached s :=
  (inv_of_reachIf h).attached

/-- The old consumer, under the configured id 7, and no other. -/
def seven : State where
  conns := fun _ => {}
  generator := 0
  party
    | .old => some { id := 7 }
    | .new => none

theorem init_seven : (replacing (some 7)).init seven :=
  ⟨fun _ => ⟨_, rfl⟩, rfl, rfl, 7, rfl, rfl⟩

/-- The broker's answer to a `Subscribe`. -/
def subscribed (requestId : Nat) : Message := { command := { success := some { requestId } } }

/-- A consumer subscribes on connection 0, and the receiver, idle or not, takes what there is. -/
def subscribes (who : Who) (requestId polls : Nat) : List Action :=
  [.register who 0, .subscribe who, .other 0 (.arrive (.msg (subscribed requestId)))] ++
    List.replicate polls (.other 0 .poll) ++ [.flow who]

/-- The engine of the old consumer closes it before the new one is registered, under the same id. -/
theorem attached_of_spares_configured :
    ∃ s, (replacing (some 7)).ReachIf (fun s a => spares s a = true) s ∧
      ((s.party .new).any fun p => decide (p =
        { id := 7, stage := .serving { key := .RequestId 1, serial := 1 }, engine := true })) = true ∧
      Attached s := by
  obtain ⟨s, hreach, hserving⟩ := Sys.exists_reachIf_of_execIf (S := replacing (some 7)) spares
    (p := fun s => (s.party .new).any fun p => decide (p =
      { id := 7, stage := .serving { key := .RequestId 1, serial := 1 }, engine := true }))
    init_seven (subscribes .old 0 6 ++ [.create, .drop .old] ++ subscribes .new 1 8)
    (by decide +kernel)
  exact ⟨s, hreach, hserving, attached_of_spares (some 7) hreach⟩

/-! ## Generated ids -/

/-- The ids of the two stay. -/
structure SameIds (s s' : State) : Prop where
  ids : ∀ who, (s'.party who).map Party.id = (s.party who).map Party.id
  generator : s'.generator = s.generator

/-- The id of the new consumer is generated after that of the old one. -/
structure Distinct (s : State) : Prop where
  generated : ∀ id, (s.party .old).map Party.id = some id → id < s.generator
  ne : ∀ id, (s.party .new).map Party.id = some id → (s.party .old).map Party.id ≠ some id

section

variable {s s' : State}

theorem sameIds_update {who : Who} {p p' : Party} (hp : s.party who = some p)
    (hparty : s'.party = Function.update s.party who (some p')) (hid : p'.id = p.id)
    (hgenerator : s'.generator = s.generator) : SameIds s s' := by
  refine ⟨fun k => ?_, hgenerator⟩
  rw [hparty]
  by_cases hk : k = who
  · subst hk
    rw [Function.update_self, hp]
    exact congrArg some hid
  · rw [Function.update_of_ne hk]

theorem party_closeConsumer (connection id : Nat) : (s.closeConsumer connection id).party = s.party := by
  unfold State.closeConsumer
  split <;> rfl

theorem generator_closeConsumer (connection id : Nat) :
    (s.closeConsumer connection id).generator = s.generator := by
  unfold State.closeConsumer
  split <;> rfl

theorem sameIds_closes {who : Who} {connection id : Nat} {p p' : Party} (hp : s.party who = some p)
    (hid : p'.id = p.id) : SameIds s ((s.closeConsumer connection id).setParty who p') := by
  refine sameIds_update hp ?_ hid (generator_closeConsumer connection id)
  show Function.update (s.closeConsumer connection id).party who (some p') = _
  rw [party_closeConsumer]

/-- No step changes an id: it only makes one. -/
theorem ids_step {consumerId : Option Nat} {a : Action} (ha : a ≠ .create) (hgen : a ≠ .generate)
    (hs : State.step consumerId s a = some s') : SameIds s s' := by
  cases a with
  | create => exact absurd rfl ha
  | generate => exact absurd rfl hgen
  | register who connection =>
    simp only [State.step] at hs
    split at hs
    · rename_i hp
      split at hs
      · obtain rfl := Option.some.inj hs
        exact sameIds_update hp rfl rfl rfl
      · obtain rfl := Option.some.inj hs
        exact sameIds_update hp rfl rfl rfl
    · cases hs
  | subscribe who =>
    simp only [State.step] at hs
    split at hs
    · rename_i hp
      obtain ⟨conn, -, rfl⟩ := Option.map_eq_some_iff.mp hs
      exact sameIds_update hp rfl rfl rfl
    · cases hs
  | refuse who =>
    simp only [State.step] at hs
    split at hs
    · rename_i hp
      obtain rfl := Option.some.inj hs
      exact sameIds_update hp rfl rfl rfl
    · rename_i hp
      obtain rfl := Option.some.inj hs
      exact sameIds_update hp rfl rfl rfl
    · cases hs
  | flow who =>
    simp only [State.step] at hs
    split at hs
    · rename_i hp
      split at hs
      · obtain rfl := Option.some.inj hs
        exact sameIds_update hp rfl rfl rfl
      · cases hs
    · cases hs
  | reconnect who =>
    simp only [State.step] at hs
    split at hs
    · rename_i hp
      obtain rfl := Option.some.inj hs
      exact sameIds_closes hp rfl
    · cases hs
  | drop who =>
    simp only [State.step] at hs
    split at hs
    · rename_i hp
      split at hs
      · cases hs
      · split at hs
        · obtain rfl := Option.some.inj hs
          exact sameIds_closes hp rfl
        · obtain rfl := Option.some.inj hs
          exact sameIds_update hp rfl rfl rfl
    · cases hs
  | registerOther | removeOther | other =>
    simp only [State.step] at hs
    split at hs
    · obtain ⟨conn, -, rfl⟩ := Option.map_eq_some_iff.mp hs
      exact ⟨fun _ => rfl, rfl⟩
    · cases hs

theorem Distinct.same (h : Distinct s) (hsame : SameIds s s') : Distinct s' := by
  refine ⟨fun id hid => ?_, fun id hid => ?_⟩
  · rw [hsame.generator]
    exact h.generated id (hsame.ids .old ▸ hid)
  · rw [hsame.ids]
    exact h.ne id (hsame.ids .new ▸ hid)

theorem Distinct.step {a : Action} (h : Distinct s) (hs : State.step none s a = some s') :
    Distinct s' := by
  by_cases hcreate : a = .create
  · subst hcreate
    simp only [State.step] at hs
    split at hs
    · obtain rfl := Option.some.inj hs
      refine ⟨fun id hid => Nat.lt_succ_of_lt (h.generated id hid), fun id hid hold => ?_⟩
      obtain rfl := Option.some.inj hid
      exact Nat.lt_irrefl _ (h.generated _ hold)
    · cases hs
  · by_cases hgen : a = .generate
    · subst hgen
      obtain rfl := Option.some.inj hs
      exact ⟨fun id hid => Nat.lt_succ_of_lt (h.generated id hid), h.ne⟩
    · exact h.same (ids_step hcreate hgen hs)

/-- What the old engine does to its own id does not hit another one. -/
theorem Distinct.spares (h : Distinct s) (a : Action) : spares s a = true := by
  have hmiss : ∀ p connection, s.party .old = some p → s.hits connection p.id = false := by
    intro p connection hp
    unfold State.hits
    cases hq : s.party .new with
    | none => rfl
    | some q =>
      have hne : q.id ≠ p.id := by
        intro heq
        apply h.ne q.id
        · rw [hq]
          rfl
        · rw [hp]
          exact congrArg some heq.symm
      simp [hne]
  cases a with
  | reconnect who | drop who | register who =>
    cases who with
    | new => rfl
    | old =>
      unfold Replacement.spares
      cases hp : s.party .old with
      | none => rfl
      | some p => simp [hmiss p _ hp]
  | create | subscribe | refuse | flow | generate | registerOther | removeOther | other => rfl

end

/-- **A generated id is enough**: in every run the old engine leaves the new consumer alone. -/
theorem spares_of_generated {s : State} (h : (replacing none).Reach s) :
    (replacing none).ReachIf (fun s a => spares s a = true) s := by
  have hboth : (replacing none).ReachIf (fun s a => spares s a = true) s ∧ Distinct s := by
    refine h.inv (fun s => (replacing none).ReachIf (fun s a => spares s a = true) s ∧ Distinct s) ?_ ?_
    · intro s hinit
      refine ⟨.init hinit, ?_⟩
      obtain ⟨-, -, hnew, id, hold, hlt⟩ := hinit
      refine ⟨fun id' hid => ?_, fun id' hid => ?_⟩
      · rw [hold] at hid
        obtain rfl := Option.some.inj hid
        exact hlt
      · rw [hnew] at hid
        cases hid
    · intro s a s' hI _ hs
      exact ⟨.step hI.1 (hI.2.spares a) hs, hI.2.step hs⟩
  exact hboth.1

/-! ## Who is detached -/

section

variable {s s' : State}

theorem hits_iff {connection id : Nat} : s.hits connection id = true ↔
    ∃ p sub, s.party .new = some p ∧ p.stage.subscription Who.new.channel = some sub ∧
      p.connection = connection ∧ p.id = id ∧ (s.conns connection).phase ≠ .done := by
  unfold State.hits
  constructor
  · intro h
    cases hp : s.party .new with
    | none =>
      rw [hp] at h
      cases h
    | some p =>
      rw [hp] at h
      simp only [Option.any_some, Bool.and_eq_true, decide_eq_true_eq] at h
      obtain ⟨⟨⟨hsome, hk⟩, hid⟩, hphase⟩ := h
      obtain ⟨sub, hsub⟩ := Option.isSome_iff_exists.mp hsome
      exact ⟨p, sub, rfl, hsub, hk, hid, hphase⟩
  · rintro ⟨p, sub, hp, hsub, hk, hid, hphase⟩
    rw [hp]
    simp [hsub, hk, hid, hphase]

/-- The `CloseConsumer` goes out when the receiver runs. -/
theorem mem_closes {connection id : Nat} (hphase : (s.conns connection).phase ≠ .done) :
    (connection, id) ∈ (s.closeConsumer connection id).closes := by
  have hs : Responses.step (s.conns connection) (.removeConsumer id) =
      some ((s.conns connection).enqueue (.RemoveConsumer id)) := if_neg hphase
  unfold State.closeConsumer
  rw [hs]
  exact List.mem_append_right _ (List.mem_singleton.mpr rfl)

/-- … and then the new consumer is detached. -/
theorem not_attached_closes {connection id : Nat} {p : Party} {r : Resolver}
    (hhits : s.hits connection id = true) {q : Party} (hq : s.party .new = some q)
    (hserving : q.stage = .serving r) :
    ¬ Attached ((s.closeConsumer connection id).setParty .old p) := by
  intro hattached
  obtain ⟨q', -, hq', -, rfl, rfl, hphase⟩ := hits_iff.mp hhits
  obtain rfl := Option.some.inj (hq.symm.trans hq')
  have hnew : ((s.closeConsumer q.connection q.id).setParty .old p).party .new = some q := by
    show (s.closeConsumer q.connection q.id).party .new = some q
    rw [party_closeConsumer]
    exact hq
  exact (hattached q r hnew hserving).2.2 (mem_closes hphase)

/-- A registration of the old engine puts its own channel in the place of the new one's. -/
theorem not_attached_register {connection id : Nat} {conn : Responses.State} {p : Party} {r : Resolver}
    (hs : Responses.step (s.conns connection) (.registerConsumer id Who.old.channel) = some conn)
    (hhits : s.hits connection id = true) {q : Party} (hq : s.party .new = some q)
    (hserving : q.stage = .serving r) :
    ¬ Attached ((s.setConn connection conn).setParty .old p) := by
  intro hattached
  obtain ⟨q', -, hq', -, rfl, rfl, -⟩ := hits_iff.mp hhits
  obtain rfl := Option.some.inj (hq.symm.trans hq')
  have hchannel := (hattached q r hq hserving).2.1
  have hown := (follows_register hs).channel
  have hconn : ((s.setConn q.connection conn).setParty .old p).conns q.connection = conn :=
    Function.update_self _ _ _
  rw [hconn, hown] at hchannel
  cases hchannel

/-- **One step, exactly.**  The new consumer serves, and nothing has gone wrong so far: it stays attached
    exactly when the step leaves it alone. -/
theorem detached_iff {consumerId : Option Nat} {a : Action}
    (h : (replacing consumerId).ReachIf (fun s a => spares s a = true) s)
    (hserving : ∃ q r, s.party .new = some q ∧ q.stage = .serving r)
    (hs : State.step consumerId s a = some s') : Attached s' ↔ spares s a = true := by
  refine ⟨fun hattached => ?_, fun hok => (inv_of_reachIf (h.step hok hs)).attached⟩
  obtain ⟨q, r, hq, hstage⟩ := hserving
  by_contra hspares
  cases a with
  | reconnect who =>
    cases who with
    | new => exact hspares rfl
    | old =>
      simp only [State.step] at hs
      split at hs
      · rename_i id connection _ engine hp
        obtain rfl := Option.some.inj hs
        have hhits : s.hits connection id = true := by
          simpa [spares, hp] using hspares
        exact not_attached_closes hhits hq hstage hattached
      · cases hs
  | drop who =>
    cases who with
    | new => exact hspares rfl
    | old =>
      simp only [State.step] at hs
      split at hs
      · rename_i id connection stage engine hp
        have hhits : engine = true ∧ s.hits connection id = true := by
          simpa [spares, hp] using hspares
        rw [if_pos hhits.1] at hs
        split at hs
        · cases hs
        · obtain rfl := Option.some.inj hs
          exact not_attached_closes hhits.2 hq hstage hattached
      · cases hs
  | register who connection =>
    cases who with
    | new => exact hspares rfl
    | old =>
      simp only [State.step] at hs
      split at hs
      · rename_i id _ engine hp
        have hhits : s.hits connection id = true := by
          simpa [spares, hp] using hspares
        split at hs
        · rename_i conn hconn
          obtain rfl := Option.some.inj hs
          exact not_attached_register hconn hhits hq hstage hattached
        · rename_i hconn
          obtain ⟨-, -, -, -, -, -, hphase⟩ := hits_iff.mp hhits
          have hsome : Responses.step (s.conns connection) (.registerConsumer id Who.old.channel) =
              some ((s.conns connection).enqueue (.Consumer id Who.old.channel)) := if_neg hphase
          rw [hsome] at hconn
          cases hconn
      · cases hs
  | create | subscribe | refuse | flow | generate | registerOther | removeOther | other =>
    exact hspares rfl

end

/-- `seek` with a configured id: the new consumer is subscribed and serves, and then the engine of the
    old one is dropped.  The receiver forgets the id, and the broker is told to close it. -/
theorem replacement_detached :
    ∃ s, (replacing (some 7)).Reach s ∧
      ((s.party .new).any fun p => decide (p =
        { id := 7, stage := .serving { key := .RequestId 1, serial := 1 }, engine := true })) = true ∧
      (s.conns 0).rx.consumers.lookup 7 = none ∧ (0, 7) ∈ s.closes ∧ ¬ Attached s := by
  obtain ⟨s, hreach, h⟩ := Sys.exists_reach_of_exec (S := replacing (some 7))
    (p := fun s => ((s.party .new).any fun p => decide (p =
        { id := 7, stage := .serving { key := .RequestId 1, serial := 1 }, engine := true })) &&
      decide ((s.conns 0).rx.consumers.lookup 7 = none ∧ (0, 7) ∈ s.closes))
    init_seven
    (subscribes .old 0 6 ++ [.create] ++ subscribes .new 1 8 ++
      (.drop .old :: List.replicate 4 (.other 0 .poll)))
    (by decide +kernel)
  obtain ⟨hserving, hrest⟩ := Bool.and_eq_true_iff.mp h
  obtain ⟨hlookup, hcloses⟩ := of_decide_eq_true hrest
  refine ⟨s, hreach, hserving, hlookup, hcloses, ?_⟩
  intro hattached
  cases hp : s.party .new with
  | none =>
    rw [hp] at hserving
    cases hserving
  | some p =>
    rw [hp] at hserving
    have hp' : p = { id := 7, stage := .serving { key := .RequestId 1, serial := 1 }, engine := true } :=
      of_decide_eq_true hserving
    subst hp'
    exact (hattached _ _ hp rfl).2.2 hcloses

end PulsarClient.Consumer.Replacement
