/-
  THE READER — does a reconnect go on where the reader was?

  A reader is a consumer of a non-durable subscription (`into_reader`): the broker keeps no cursor for it,
  and starts every subscription where the `Subscribe` says.  The engine says what its options said when it
  was made: a start message, else the first or the last entry of the topic.

  1. `Reading` — a session, and the broker: the topic, the next entry to send, what is on the way to the
     forwarders.  An entry that the connection loses is one that the broker has not sent.

  2. `Resumes` — no re-subscription starts before a message that was delivered; no message is delivered
     twice; the entries that arrive are, in order, those published from the first start on; and each of
     them is taken by the engine or still on its way.

  3. `resumesRight` — the condition: at a re-subscription, the start that the options stand for is the
     next entry to arrive.

  4. `reader_resumes`; and `reader_rewinds`: from the earliest entry on, everything comes again.
-/
import Mathlib.Data.List.Nodup
import Mathlib.Data.List.Perm.Basic
import PulsarClient.Consumer.Delivery
import PulsarClient.Consumer.Permits

namespace PulsarClient.Consumer

open Runs Proto

/-! ## The broker -/

/-- An entry of a topic. -/
structure Entry where
  message : CommandMessage
  payload : Payload
  deriving DecidableEq, Repr

/-- The entry, as it is sent. -/
def Entry.toMessage (e : Entry) : PulsarClient.Message where
  command := { message := some e.message }
  payload := some e.payload

/-- The order of the entries of a topic. -/
def entryBefore (id id' : MessageIdData) : Bool :=
  decide (id.ledgerId < id'.ledgerId) ||
    (decide (id.ledgerId = id'.ledgerId) && decide (id.entryId < id'.entryId))

/-- An id is that of a message of the entry. -/
def Entry.holds (e : Entry) (id : MessageIdData) : Prop :=
  id.ledgerId = e.message.messageId.ledgerId ∧ id.entryId = e.message.messageId.entryId

/-- Where the broker starts a non-durable subscription: the entries that it passes over. -/
def startOf (command : Subscribe) (published : List Entry) : Nat :=
  match command.startMessageId with
  | some start => published.findIdx fun e => !entryBefore e.message.messageId start
  | none => if command.initialPosition = 1 then 0 else published.length

/-- `into_reader` -/
def Settings.intoReader (c : Settings) : Settings := { c with durable := some false }

inductive Milestone where
  /-- a re-subscription is answered: the entries up to its start, that one included -/
  | subscribed (reached : List Entry)
  /-- an entry arrives at the source of the subscription -/
  | arrived (e : Entry)
  /-- the engine takes an entry from its queue -/
  | taken (m : PulsarClient.Message)
  | delivered (messageId : MessageIdData)
  deriving DecidableEq, Repr

structure Reading where
  session : Session
  /-- the entries of the topic -/
  published : List Entry
  /-- the next entry of the subscription -/
  cursor : Nat
  /-- the start of the first subscription -/
  first : Nat
  /-- arrived at a source, and not forwarded -/
  inbox : List (Nat × PulsarClient.Message) := []
  history : List Milestone := []

inductive ReadingAction where
  | publish (e : Entry)
  /-- the next entry arrives -/
  | send
  /-- another command arrives -/
  | notify (m : PulsarClient.Message)
  | session (a : SessionAction)

/-- What an action of the session does to the queue of the engine and to its messages. -/
def entriesTakenBy (s : Session) (a : SessionAction) : List PulsarClient.Message :=
  (a.engine.map (entriesTaken s.consumer)).getD []

def entriesForwardedBy (a : SessionAction) : List PulsarClient.Message :=
  (a.engine.map entriesForwarded).getD []

def deliveriesBy (c : Settings) (s : Session) (a : SessionAction) : List MessageIdData :=
  (a.engine.map (deliveries c.consumer s.consumer)).getD []

def milestones (c : Settings) (s : Session) (a : SessionAction) : List Milestone :=
  (entriesTakenBy s a).map .taken ++ (deliveriesBy c s a).map .delivered

def Reading.step (c : Settings) (t : Reading) : ReadingAction → Option Reading
  | .publish e =>
    if t.published.all fun e' => entryBefore e'.message.messageId e.message.messageId then
      some { t with published := t.published ++ [e] }
    else none
  | .send =>
    match t.published[t.cursor]?, t.session.consumers t.session.connection with
    | some e, some source =>
      -- the broker sends on the current subscription, once it has permits
      if source = (ledger t.session.log).source ∧ 0 < (ledger t.session.log).granted then
        some { t with
          cursor := t.cursor + 1
          inbox := t.inbox ++ [(source, e.toMessage)]
          history := t.history ++ [.arrived e] }
      else none
    | _, _ => none
  | .notify m =>
    match t.session.consumers t.session.connection, m.command.message with
    | some source, none => some { t with inbox := t.inbox ++ [(source, m)] }
    | _, _ => none
  | .session (.arrive source (some m)) =>
    if (t.inbox.find? fun x => decide (x.1 = source)) = some (source, m) then
      (t.session.step c (.arrive source (some m))).map fun session =>
        { t with
          session
          inbox := t.inbox.eraseP fun x => decide (x.1 = source) }
    else none
  | .session (.subscribed none) =>
    (t.session.step c (.subscribed none)).map fun session =>
      { t with
        session
        cursor := startOf c.subscribe t.published
        history := t.history ++
          [.subscribed (t.published.take (startOf c.subscribe t.published + 1))] }
  | .session a =>
    (t.session.step c a).map fun session =>
      { t with
        session
        history := t.history ++ milestones c t.session a }

/-- A reader of a topic that has some entries already. -/
def reader (c : Settings) : Sys Reading ReadingAction where
  init t :=
    t.published.Pairwise (fun e e' => entryBefore e.message.messageId e'.message.messageId = true) ∧
      t =
        { session := c.intoReader.start
          published := t.published
          cursor := startOf c.subscribe t.published
          first := startOf c.subscribe t.published }
  step := Reading.step c.intoReader

/-! ## Resuming -/

def arrivals (history : List Milestone) : List Entry :=
  history.filterMap fun n => match n with
    | .arrived e => some e
    | _ => none

def takings (history : List Milestone) : List PulsarClient.Message :=
  history.filterMap fun n => match n with
    | .taken m => some m
    | _ => none

def delivered (history : List Milestone) : List MessageIdData :=
  history.filterMap fun n => match n with
    | .delivered id => some id
    | _ => none

/-- The entries on their way to the engine. -/
def Reading.onTheWay (t : Reading) : List PulsarClient.Message :=
  t.session.consumer.queued ++ t.inbox.flatMap fun x => Event.entry (.Message (some x.2))

/-- A re-subscription does not start before a message that was delivered. -/
def StartsAfter (before : List Milestone) : Milestone → Prop
  | .subscribed reached => ∀ id, .delivered id ∈ before → ∃ e ∈ reached, e.holds id
  | _ => True

structure Resumes (t : Reading) : Prop where
  starts : Each StartsAfter t.history
  /-- nothing is delivered twice -/
  once : (delivered t.history).Nodup
  /-- nothing is skipped: what has arrived is what was published since the first start -/
  arrived : arrivals t.history = (t.published.take t.cursor).drop t.first
  /-- and nothing that has arrived is lost before the engine takes it -/
  kept : (takings t.history ++ t.onTheWay).Perm ((arrivals t.history).map Entry.toMessage)

/-! ## The condition -/

/-- The options stand for the next entry to arrive. -/
def resumesRight (c : Settings) (t : Reading) : ReadingAction → Bool
  | .session (.subscribed none) => decide (startOf c.subscribe t.published = t.cursor)
  | _ => true

/-! ## What a step does to the queue, and to the messages in hand -/

section

variable {c : Settings} {s s' : Session} {a : SessionAction}

theorem turn_queued (h : Turn c s a s') :
    entriesTakenBy s a ++ s'.consumer.queued = s.consumer.queued ++ entriesForwardedBy a := by
  unfold entriesTakenBy entriesForwardedBy
  rcases h.consumer with ⟨b, hengine, hb⟩ | ⟨hengine, heq | ⟨b, hb, hs⟩⟩
  · rw [hengine]
    exact queued_step hb
  · rw [hengine, heq]
    exact (List.append_nil s.consumer.queued).symm
  · rw [hengine]
    have hqueued := queued_step hs
    rcases hb with ⟨lost, rfl⟩ | ⟨err, rfl⟩ | ⟨err, rfl⟩
    · exact hqueued
    · exact hqueued
    · exact hqueued

theorem turn_held (h : Turn c s a s') :
    (deliveriesBy c s a ++ s'.consumer.pc.held).Sublist
      (s.consumer.pc.held ++ (entriesTakenBy s a).flatMap (idsOf c.consumer)) := by
  unfold deliveriesBy entriesTakenBy
  rcases h.consumer with ⟨b, hengine, hb⟩ | ⟨hengine, heq | ⟨b, hb, hs⟩⟩
  · rw [hengine]
    exact held_step hb
  · rw [hengine, heq]
    exact List.sublist_append_left s.consumer.pc.held []
  · rw [hengine]
    have hheld := held_step hs
    rcases hb with ⟨lost, rfl⟩ | ⟨err, rfl⟩ | ⟨err, rfl⟩
    · exact hheld
    · exact hheld
    · exact hheld

end

/-! ## The invariant -/

/-- The topic grows, and its entries are distinct. -/
def Sorted (published : List Entry) : Prop :=
  published.Pairwise fun e e' => entryBefore e.message.messageId e'.message.messageId = true

structure ReadingInv (c : Settings) (t : Reading) : Prop where
  sorted : Sorted t.published
  first : t.first ≤ t.cursor
  cursor : t.cursor ≤ t.published.length
  starts : Each StartsAfter t.history
  arrived : arrivals t.history = (t.published.take t.cursor).drop t.first
  kept : (takings t.history ++ t.onTheWay).Perm ((arrivals t.history).map Entry.toMessage)
  /-- what was delivered, and what is in hand, was taken in this order -/
  order : (delivered t.history ++ t.session.consumer.pc.held).Sublist
    ((takings t.history).flatMap (idsOf c.consumer))

section

variable {c : Settings} {t t' : Reading} {history entries : List Milestone}

@[simp] theorem arrivals_append :
    arrivals (history ++ entries) = arrivals history ++ arrivals entries := List.filterMap_append

@[simp] theorem takings_append :
    takings (history ++ entries) = takings history ++ takings entries := List.filterMap_append

@[simp] theorem delivered_append :
    delivered (history ++ entries) = delivered history ++ delivered entries := List.filterMap_append

theorem filterMap_none {α β : Type} {f : α → Option β} {l : List α} (h : ∀ x ∈ l, f x = none) :
    l.filterMap f = [] := List.filterMap_eq_nil_iff.mpr h

theorem arrivals_milestones (s : Session) (a : SessionAction) : arrivals (milestones c s a) = [] := by
  unfold milestones
  rw [arrivals_append]
  unfold arrivals
  simp only [List.filterMap_map, Function.comp_def]
  rw [filterMap_none fun _ _ => rfl, filterMap_none fun _ _ => rfl, List.append_nil]

theorem takings_milestones (s : Session) (a : SessionAction) :
    takings (milestones c s a) = entriesTakenBy s a := by
  unfold milestones
  rw [takings_append]
  unfold takings
  simp only [List.filterMap_map, Function.comp_def]
  rw [filterMap_none (l := deliveriesBy c s a) fun _ _ => rfl, List.append_nil]
  exact List.filterMap_some

theorem delivered_milestones (s : Session) (a : SessionAction) :
    delivered (milestones c s a) = deliveriesBy c s a := by
  unfold milestones
  rw [delivered_append]
  unfold delivered
  simp only [List.filterMap_map, Function.comp_def]
  rw [filterMap_none (l := entriesTakenBy s a) fun _ _ => rfl, List.nil_append]
  exact List.filterMap_some

theorem mem_milestones {s : Session} {a : SessionAction} {n : Milestone} (h : n ∈ milestones c s a)
    (before : List Milestone) : StartsAfter before n := by
  rcases List.mem_append.mp h with h | h
  · obtain ⟨m, -, rfl⟩ := List.mem_map.mp h
    trivial
  · obtain ⟨id, -, rfl⟩ := List.mem_map.mp h
    trivial

/-- The first item of a kind, taken out. -/
theorem perm_eraseP {α : Type} {p : α → Bool} {l : List α} {x : α} (h : l.find? p = some x) :
    l.Perm (x :: l.eraseP p) := by
  induction l with
  | nil => cases h
  | cons y l ih =>
    cases hp : p y with
    | true =>
      rw [List.find?_cons_of_pos hp] at h
      obtain rfl := Option.some.inj h
      rw [List.eraseP_cons_of_pos hp]
    | false =>
      have hnot : ¬ p y = true := by
        rw [hp]
        exact Bool.false_ne_true
      rw [List.find?_cons_of_neg hnot] at h
      rw [List.eraseP_cons_of_neg hnot]
      exact ((ih h).cons y).trans (List.Perm.swap x y _)

theorem startOf_le (command : Subscribe) (published : List Entry) :
    startOf command published ≤ published.length := by
  unfold startOf
  split
  · exact List.findIdx_le_length
  · split
    · exact Nat.zero_le _
    · exact Nat.le_refl _

/-- A message that was delivered is one of an entry before the cursor. -/
theorem ReadingInv.of_delivered (h : ReadingInv c t) {id : MessageIdData}
    (hid : .delivered id ∈ t.history) : ∃ e ∈ t.published.take t.cursor, e.holds id := by
  have hmem : id ∈ delivered t.history := List.mem_filterMap.mpr ⟨_, hid, rfl⟩
  have htaken := h.order.subset (List.mem_append_left _ hmem)
  obtain ⟨m, hm, hidm⟩ := List.mem_flatMap.mp htaken
  obtain ⟨e, he, rfl⟩ := List.mem_map.mp (h.kept.subset (List.mem_append_left _ hm))
  rw [h.arrived] at he
  obtain ⟨message, hmessage, hledger, hentry⟩ := entry_of_mem_idsOf hidm
  obtain rfl := Option.some.inj hmessage
  exact ⟨e, List.mem_of_mem_drop he, hledger, hentry⟩

/-- A step of the session that neither forwards nor subscribes. -/
theorem ReadingInv.session {a : SessionAction} {session : Session} (h : ReadingInv c t)
    (hforwarded : entriesForwardedBy a = []) (hs : Turn c t.session a session) :
    ReadingInv c { t with session, history := t.history ++ milestones c t.session a } := by
  have hqueued := turn_queued hs
  rw [hforwarded, List.append_nil] at hqueued
  refine ⟨h.sorted, h.first, h.cursor, ?_, ?_, ?_, ?_⟩
  · exact each_append h.starts fun n hn => mem_milestones hn
  · rw [arrivals_append, arrivals_milestones, List.append_nil]
    exact h.arrived
  · rw [arrivals_append, arrivals_milestones, List.append_nil, takings_append, takings_milestones]
    unfold Reading.onTheWay
    rw [List.append_assoc, ← List.append_assoc (entriesTakenBy _ _), hqueued]
    exact h.kept
  · rw [takings_append, takings_milestones, delivered_append, delivered_milestones,
      List.flatMap_append, List.append_assoc]
    refine ((turn_held hs).append_left (delivered t.history)).trans ?_
    rw [← List.append_assoc]
    exact h.order.append_right _

/-- A forwarder brings what has arrived into the queue. -/
theorem ReadingInv.forward {source : Nat} {m : PulsarClient.Message} {session : Session}
    (h : ReadingInv c t)
    (hfind : (t.inbox.find? fun x => decide (x.1 = source)) = some (source, m))
    (hs : Turn c t.session (.arrive source (some m)) session) :
    ReadingInv c
      { t with
        session
        inbox := t.inbox.eraseP fun x => decide (x.1 = source) } := by
  have hqueued : session.consumer.queued =
      t.session.consumer.queued ++ Event.entry (.Message (some m)) := turn_queued hs
  have hheld : session.consumer.pc.held.Sublist (t.session.consumer.pc.held ++ []) := turn_held hs
  refine ⟨h.sorted, h.first, h.cursor, h.starts, h.arrived, ?_, ?_⟩
  · refine (List.Perm.append_left _ ?_).trans h.kept
    unfold Reading.onTheWay
    rw [hqueued, List.append_assoc]
    apply List.Perm.append_left
    have hperm := (perm_eraseP hfind).flatMap_right fun x => Event.entry (.Message (some x.2))
    rw [List.flatMap_cons] at hperm
    exact hperm.symm
  · rw [List.append_nil] at hheld
    exact (hheld.append_left _).trans h.order

/-- A new entry. -/
theorem ReadingInv.publish {e : Entry} (h : ReadingInv c t)
    (hlast : (t.published.all fun e' =>
      entryBefore e'.message.messageId e.message.messageId) = true) :
    ReadingInv c { t with published := t.published ++ [e] } := by
  have htake : (t.published ++ [e]).take t.cursor = t.published.take t.cursor :=
    List.take_append_of_le_length h.cursor
  refine ⟨?_, h.first, ?_, h.starts, ?_, h.kept, h.order⟩
  · refine List.pairwise_append.mpr ⟨h.sorted, List.pairwise_singleton _ _, ?_⟩
    intro e' he' e'' he''
    obtain rfl := List.mem_singleton.mp he''
    exact List.all_eq_true.mp hlast e' he'
  · show t.cursor ≤ (t.published ++ [e]).length
    rw [List.length_append]
    exact Nat.le_add_right_of_le h.cursor
  · show arrivals t.history = ((t.published ++ [e]).take t.cursor).drop t.first
    rw [htake]
    exact h.arrived

/-- The next entry arrives. -/
theorem ReadingInv.send {e : Entry} {source : Nat} (h : ReadingInv c t)
    (hnext : t.published[t.cursor]? = some e) :
    ReadingInv c
      { t with
        cursor := t.cursor + 1
        inbox := t.inbox ++ [(source, e.toMessage)]
        history := t.history ++ [.arrived e] } := by
  obtain ⟨hlt, hget⟩ := List.getElem?_eq_some_iff.mp hnext
  have hfirst := h.first
  refine ⟨h.sorted, Nat.le_succ_of_le hfirst, hlt, ?_, ?_, ?_, ?_⟩
  · exact each_concat.mpr ⟨h.starts, trivial⟩
  · rw [arrivals_append, h.arrived]
    show _ ++ [e] = (t.published.take (t.cursor + 1)).drop t.first
    rw [List.take_succ_eq_append_getElem hlt, hget, List.drop_append_of_le_length]
    rw [List.length_take]
    omega
  · rw [arrivals_append, takings_append, List.map_append]
    show (takings t.history ++ [] ++ Reading.onTheWay _).Perm (_ ++ [e.toMessage])
    unfold Reading.onTheWay
    rw [List.append_nil, List.flatMap_append, ← List.append_assoc, ← List.append_assoc]
    refine List.Perm.append ?_ (List.Perm.refl _)
    rw [List.append_assoc]
    exact h.kept
  · rw [delivered_append, takings_append]
    show (delivered t.history ++ [] ++ _).Sublist ((takings t.history ++ []).flatMap _)
    rw [List.append_nil, List.append_nil]
    exact h.order

/-- Another command arrives. -/
theorem ReadingInv.notify {m : PulsarClient.Message} {source : Nat} (h : ReadingInv c t)
    (hnone : m.command.message = none) :
    ReadingInv c { t with inbox := t.inbox ++ [(source, m)] } := by
  have hentry : Event.entry (.Message (some m)) = [] := by
    show (if m.command.message.isSome = true then [m] else []) = []
    rw [hnone]
    rfl
  have hway : Reading.onTheWay { t with inbox := t.inbox ++ [(source, m)] } = t.onTheWay := by
    unfold Reading.onTheWay
    rw [List.flatMap_append, List.flatMap_singleton, hentry, List.append_nil]
  refine ⟨h.sorted, h.first, h.cursor, h.starts, h.arrived, ?_, h.order⟩
  rw [hway]
  exact h.kept

/-- A re-subscription at the cursor. -/
theorem ReadingInv.subscribe {session : Session} (h : ReadingInv c t)
    (hs : Turn c t.session (.subscribed none) session) :
    ReadingInv c
      { t with
        session
        history := t.history ++ [.subscribed (t.published.take (t.cursor + 1))] } := by
  have hquiet := h.session rfl hs
  have hnone : milestones c t.session (.subscribed none) = [] := rfl
  rw [hnone, List.append_nil] at hquiet
  refine ⟨h.sorted, h.first, h.cursor, ?_, ?_, ?_, ?_⟩
  · refine each_concat.mpr ⟨h.starts, fun id hid => ?_⟩
    obtain ⟨e, he, hholds⟩ := h.of_delivered hid
    exact ⟨e, List.take_subset_take_left _ (Nat.le_succ _) he, hholds⟩
  · rw [arrivals_append]
    show arrivals t.history ++ [] = _
    rw [List.append_nil]
    exact h.arrived
  · rw [arrivals_append, takings_append]
    show (takings t.history ++ [] ++ _).Perm ((arrivals t.history ++ []).map _)
    rw [List.append_nil, List.append_nil]
    exact hquiet.kept
  · rw [delivered_append, takings_append]
    show (delivered t.history ++ [] ++ _).Sublist ((takings t.history ++ []).flatMap _)
    rw [List.append_nil, List.append_nil]
    exact hquiet.order

/-- The other steps of the session. -/
theorem ReadingInv.other {a : SessionAction} (h : ReadingInv c t) (hforwarded : entriesForwardedBy a = [])
    (hs : ((t.session.step c a).map fun session =>
      { t with session, history := t.history ++ milestones c t.session a }) = some t') :
    ReadingInv c t' := by
  obtain ⟨session, hsession, rfl⟩ := Option.map_eq_some_iff.mp hs
  exact h.session hforwarded (turn hsession)

/-- **The step lemma**: a step that meets the condition keeps the invariant. -/
theorem ReadingInv.step {a : ReadingAction} (h : ReadingInv c t) (hok : resumesRight c t a = true)
    (hs : t.step c a = some t') : ReadingInv c t' := by
  cases a with
  | publish e =>
    simp only [Reading.step] at hs
    split at hs
    · rename_i hlast
      obtain rfl := Option.some.inj hs
      exact h.publish hlast
    · exact absurd hs (Option.some_ne_none t').symm
  | send =>
    simp only [Reading.step] at hs
    split at hs
    · rename_i e source hnext _
      split at hs
      · obtain rfl := Option.some.inj hs
        exact h.send hnext
      · exact absurd hs (Option.some_ne_none t').symm
    · exact absurd hs (Option.some_ne_none t').symm
  | notify m =>
    simp only [Reading.step] at hs
    split at hs
    · rename_i source _ hnone
      obtain rfl := Option.some.inj hs
      exact h.notify hnone
    · exact absurd hs (Option.some_ne_none t').symm
  | session a =>
    cases a with
    | arrive source m =>
      cases m with
      | none => exact h.other rfl hs
      | some m =>
        simp only [Reading.step] at hs
        split at hs
        · rename_i hfind
          obtain ⟨session, hsession, rfl⟩ := Option.map_eq_some_iff.mp hs
          exact h.forward hfind (turn hsession)
        · exact absurd hs (Option.some_ne_none t').symm
    | subscribed err =>
      cases err with
      | some e => exact h.other rfl hs
      | none =>
        obtain ⟨session, hsession, rfl⟩ := Option.map_eq_some_iff.mp hs
        have hstart : startOf c.subscribe t.published = t.cursor := of_decide_eq_true hok
        rw [hstart]
        exact h.subscribe (turn hsession)
    | inner b =>
      refine h.other ?_ hs
      have hinner : b.inner = true := by
        by_contra hinner
        obtain ⟨session, hsession, -⟩ := Option.map_eq_some_iff.mp hs
        simp only [Session.step, if_neg hinner] at hsession
        exact absurd hsession (Option.some_ne_none session).symm
      cases b with
      | arrive m => exact absurd hinner Bool.false_ne_true
      | _ => rfl
    | fails connection e ends => exact h.other (a := .fails connection e ends) rfl hs
    | taken connection => exact h.other (a := .taken connection) rfl hs
    | close connection => exact h.other (a := .close connection) rfl hs
    | _ => exact h.other rfl hs

theorem ReadingInv.init (ht : (reader c).init t) : ReadingInv c.intoReader t := by
  obtain ⟨hsorted, heq⟩ := ht
  have hcursor : t.cursor = startOf c.subscribe t.published := congrArg Reading.cursor heq
  have hfirst : t.first = startOf c.subscribe t.published := congrArg Reading.first heq
  have hhistory : t.history = [] := congrArg Reading.history heq
  have hinbox : t.inbox = [] := congrArg Reading.inbox heq
  have hsession : t.session = c.intoReader.start := congrArg Reading.session heq
  refine ⟨hsorted, ?_, ?_, ?_, ?_, ?_, ?_⟩
  · exact Nat.le_of_eq (hfirst.trans hcursor.symm)
  · rw [hcursor]
    exact startOf_le _ _
  · rw [hhistory]
    exact each_nil
  · rw [hhistory, hcursor, hfirst]
    refine (List.drop_eq_nil_of_le ?_).symm
    rw [List.length_take]
    exact Nat.min_le_left _ _
  · unfold Reading.onTheWay
    rw [hhistory, hinbox, hsession]
    exact List.Perm.refl _
  · rw [hhistory, hsession]
    exact List.Sublist.refl _

/-! ## The main result -/

/-- The messages of the entries of a topic have different ids. -/
theorem nodup_ids {entries : List Entry} (h : Sorted entries) :
    ((entries.map Entry.toMessage).flatMap (idsOf c.consumer)).Nodup := by
  refine List.nodup_flatMap.mpr ⟨fun m _ => nodup_idsOf _ m, ?_⟩
  refine List.pairwise_map.mpr (h.imp fun {e e'} hbefore => ?_)
  intro id hid hid'
  obtain ⟨message, hmessage, hledger, hentry⟩ := entry_of_mem_idsOf hid
  obtain ⟨message', hmessage', hledger', hentry'⟩ := entry_of_mem_idsOf hid'
  obtain rfl := Option.some.inj hmessage
  obtain rfl := Option.some.inj hmessage'
  simp only [entryBefore, Bool.or_eq_true, Bool.and_eq_true, decide_eq_true_eq] at hbefore
  omega

theorem ReadingInv.resumes (h : ReadingInv c t) : Resumes t := by
  refine ⟨h.starts, ?_, h.arrived, h.kept⟩
  have hsorted : Sorted (arrivals t.history) := by
    rw [h.arrived]
    exact (h.sorted.sublist (List.take_sublist _ _)).sublist (List.drop_sublist _ _)
  have hall : ((takings t.history ++ t.onTheWay).flatMap (idsOf c.consumer)).Nodup :=
    ((h.kept.flatMap_right _).nodup_iff).mpr (nodup_ids hsorted)
  rw [List.flatMap_append] at hall
  have htaken : ((takings t.history).flatMap (idsOf c.consumer)).Nodup :=
    hall.sublist (List.sublist_append_left _ _)
  exact htaken.sublist ((List.sublist_append_left _ _).trans h.order)

end

/-- **Headline.**  In every run of a reader whose steps all meet the condition — over any number of
    deliveries and reconnects — every re-subscription goes on where the reader was: no message is
    delivered twice, and no entry is skipped. -/
theorem reader_resumes (c : Settings) (t : Reading)
    (ht : (reader c).ReachIf (fun t a => resumesRight c.intoReader t a = true) t) : Resumes t := by
  have hinv : ReadingInv c.intoReader t := by
    apply ht.inv (ReadingInv c.intoReader)
    · exact fun t ht => .init ht
    · exact fun t a t' h hok hs => h.step hok hs
  exact hinv.resumes

/-- The entries of one ledger. -/
def entry (entryId : Nat) : Entry where
  message := { consumerId := 0, messageId := { ledgerId := 1, entryId } }
  payload := { metadata := {}, data := [7] }

/-- The next entry is sent, forwarded from a source, taken, and delivered to the application. -/
def reading (source entryId : Nat) : List ReadingAction :=
  [.send, .session (.arrive source (some (entry entryId).toMessage)), .session (.flow none),
    .session .next, .session (.inner .item), .session (.inner .item)]

/-- The connection is lost, and the reader subscribes on another one. -/
def reconnecting (connection : Nat) : List ReadingAction :=
  [.session .top, .session .closed, .session (.lookedUp none),
    .session (.connected (.ok connection)), .session (.subscribed none), .session (.granted none)]

/-- A reader of what comes, that had everything when the connection was lost. -/
theorem reader_resumes_latest : ∃ t : Reading,
    delivered t.history = [{ ledgerId := 1, entryId := 0 }, { ledgerId := 1, entryId := 1 }] ∧
      t.session.connection = 1 ∧ Resumes t := by
  obtain ⟨t, ht, hp⟩ := Sys.exists_reachIf_of_execIf (S := reader defaults)
    (resumesRight defaults.intoReader)
    (p := fun t => decide (delivered t.history =
      [{ ledgerId := 1, entryId := 0 }, { ledgerId := 1, entryId := 1 }]) &&
        decide (t.session.connection = 1))
    (s := { session := defaults.intoReader.start, published := [], cursor := 0, first := 0 })
    ⟨List.Pairwise.nil, rfl⟩
    (.session .top :: .publish (entry 0) :: reading 0 0 ++
      .session (.fails 0 .Disconnected true) :: reconnecting 1 ++
      .publish (entry 1) :: reading 1 1) (by decide +kernel)
  obtain ⟨hdelivered, hconnection⟩ := Bool.and_eq_true_iff.mp hp
  exact ⟨t, of_decide_eq_true hdelivered, of_decide_eq_true hconnection, reader_resumes defaults t ht⟩

/-- A reader of the topic from its first entry on. -/
def fromEarliest : Settings := { defaults with initialPosition := .Earliest }

/-- Two entries are delivered, the connection is lost, and the reader subscribes before the first of them
    again: it comes a second time. -/
theorem reader_rewinds : ¬ ∀ (c : Settings) (t : Reading), (reader c).Reach t → Resumes t := by
  intro hall
  obtain ⟨t, ht, hp⟩ := Sys.exists_reach_of_exec (S := reader fromEarliest)
    (p := fun t => decide (delivered t.history =
      [{ ledgerId := 1, entryId := 0 }, { ledgerId := 1, entryId := 1 },
        { ledgerId := 1, entryId := 0 }]))
    (s := { session := fromEarliest.intoReader.start, published := [], cursor := 0, first := 0 })
    ⟨List.Pairwise.nil, rfl⟩
    (.session .top :: .publish (entry 0) :: .publish (entry 1) :: reading 0 0 ++
      .session .top :: reading 0 1 ++
      .session (.fails 0 .Disconnected true) :: reconnecting 1 ++ reading 1 0) (by decide +kernel)
  have honce := (hall fromEarliest t ht).once
  rw [of_decide_eq_true hp] at honce
  exact absurd honce (by decide)

end PulsarClient.Consumer
