/-
  `Pulsar::send` — the client's own producer.

  A client sends on any topic without a producer of the caller's.  `send_raw` puts the message into an
  unbounded channel, beside the sender of a one-shot, and gives the caller its receiver; ONE task,
  `run_producer`, takes the messages out, sends them through a `MultiTopicProducer` of its own, and
  leaves each receipt to a task that races it against the operation timeout.

  1. THE SYSTEM (`clientSend`): the handles of the client, the channel, the loop of `run_producer` and the
     tasks it spawns.  Everything that is outside answers by labels: the brokers, the clock, the executor.

  2. THE PRODUCER OF THE LOOP (`Owned`): its options are the default ones, and the producers under a topic
     are those of the topic or of its partitions.

  3. `settled_once` — in every state of every run each message is in exactly one place, the one-shots have
     been used at most once, and the messages go to the producers in the order of the calls.  A lookup that
     panics takes the loop with it; what it held is dropped, and later calls are refused.

  4. `told_truly` — a caller is told what has become of ITS message, on ITS topic, and nothing else.

  5. `callers_told` — without further calls every schedule is short, and where it stops, the loop is inside
     a `send_non_blocking` or every caller has been told; and with the last handle gone the loop has ended.
     This is what `producer` is an `Option` for: the loop holds a client too, but not its channel.
-/
import PulsarClient.Lib.Progress
import PulsarClient.Producer.MultiTopicProducer
import PulsarClient.Producer.RoundRobin
import Mathlib.Data.List.Nodup

namespace PulsarClient.Client

open Runs Partitions Batching

/-! ## The system -/

/-- The `Error`s of a send. -/
abbrev Error := SendError ProducerError

/-- "client sink timed out when sending message to the Pulsar server" -/
def timedOut : Error := .Other (.Other (.Connection (.Io .TimedOut)))

/-- What `SendFuture` makes of a one-shot that is cancelled. -/
def disconnected : Error := .Other (.Custom "producer unexpectedly disconnected")

/-- `SendMessage`, with the number of the call that has made it. -/
structure SendMessage where
  topic : String
  message : Batching.Message
  resolver : Nat

/-- Where `run_producer` is. -/
inductive Loop where
  /-- in `messages.next()` -/
  | waiting
  /-- in `send_non_blocking` -/
  | sending (m : SendMessage)
  /-- out of its loop, or never spawned; the channel is gone -/
  | ended
  /-- unwound by a panic, and the channel is gone too -/
  | panicked

/-- The message that the loop holds. -/
def Loop.inHand : Loop → List SendMessage
  | sending m => [m]
  | _ => []

/-- The receiver of the channel is there. -/
def Loop.listens : Loop → Bool
  | waiting | sending _ => true
  | ended | panicked => false

/-- A spawned task: `select(send_f, delay_f)`. -/
structure Waiter (φ : Type) where
  resolver : Nat
  future : φ

variable {φ ρ : Type}

structure State (φ ρ : Type) where
  /-- the clones of the client that hold the channel's sender -/
  handles : Nat := 1
  queue : List SendMessage := []
  loop : Loop := .waiting
  producer : MultiTopicProducer := buildMultiTopic none
  waiters : List (Waiter φ) := []
  /-- what the callers' futures have resolved to, but for those whose message is `dropped` -/
  told : List (Nat × Except Error ρ) := []
  /-- the messages that `send_raw` has put into the channel -/
  submitted : List SendMessage := []
  /-- the calls that it has refused -/
  refused : Nat := 0
  /-- what a panic of the loop has dropped: the callers find their one-shots cancelled -/
  dropped : List SendMessage := []
  /-- what `send_non_blocking` has made of a message -/
  handed : List (SendMessage × Sent ProducerError φ) := []
  /-- what the futures of the producers have resolved to -/
  resolved : List (φ × Except Error ρ) := []

inductive Action (φ ρ : Type) where
  /-- `Pulsar::send` of a message that serialises -/
  | send (topic : String) (message : Batching.Message)
  | clone
  | drop
  /-- `messages.next()` -/
  | next
  /-- `send_non_blocking` returns; then `spawn` succeeds or not -/
  | sent (sending : Sending ProducerError φ) (spawned : Bool)
  /-- `send_non_blocking` panics, in a lookup -/
  | panic
  /-- the future of a task resolves -/
  | resolve (i : Nat) (result : Except Error ρ)
  /-- its delay elapses -/
  | elapse (i : Nat)

namespace State

/-- `resolver.send`, or the drop of the resolver. -/
def tell (s : State φ ρ) (resolver : Nat) (result : Except Error ρ) : State φ ρ :=
  { s with told := s.told ++ [(resolver, result)] }

/-- `send_raw` -/
def sendRaw (s : State φ ρ) (topic : String) (message : Batching.Message) : State φ ρ :=
  if s.loop.listens then
    let m : SendMessage := { topic, message, resolver := s.submitted.length }
    { s with queue := s.queue ++ [m], submitted := s.submitted ++ [m] }
  else { s with refused := s.refused + 1 }

/-- `send_non_blocking` has returned. -/
def handOver (s : State φ ρ) (m : SendMessage) (sent : Sent ProducerError φ)
    (producer : MultiTopicProducer) : State φ ρ :=
  { s with loop := .waiting, producer, handed := s.handed ++ [(m, sent)] }

/-- `executor.spawn` -/
def spawn (s : State φ ρ) (resolver : Nat) (future : φ) : State φ ρ :=
  { s with waiters := s.waiters ++ [{ resolver, future }] }

/-- The loop unwinds: everything that it holds is dropped. -/
def panic (s : State φ ρ) (m : SendMessage) : State φ ρ :=
  { s with loop := .panicked, queue := [], dropped := s.dropped ++ m :: s.queue }

/-- The body of the loop. -/
def sent (lib : Libraries) (murmur3_32 : Murmur3) (s : State φ ρ) (m : SendMessage)
    (sending : Sending ProducerError φ) (spawned : Bool) : State φ ρ :=
  let sent := s.producer.sendNonBlocking lib murmur3_32 .ok m.topic m.message sending
  let next := s.handOver m sent.1 sent.2
  match sent.1.result with
  | some (.ok future) =>
    if spawned then next.spawn m.resolver future
    -- the task is dropped, and the resolver with it
    else next.tell m.resolver (.error disconnected)
  | some (.error e) => next.tell m.resolver (.error e)
  | none => s.panic m

/-- A task ends. -/
def settle (s : State φ ρ) (i : Nat) (w : Waiter φ) (result : Except Error ρ) : State φ ρ :=
  { s with waiters := s.waiters.eraseIdx i }.tell w.resolver result

end State

/-- One client, from `Pulsar::new` on. -/
def clientSend (φ ρ : Type) (lib : Libraries) (murmur3_32 : Murmur3) :
    Sys (State φ ρ) (Action φ ρ) where
  -- "let _ = client.executor.spawn(..)"
  init s := s = {} ∨ s = { loop := .ended }
  step s
    | .send topic message => if 0 < s.handles then some (s.sendRaw topic message) else none
    | .clone => if 0 < s.handles then some { s with handles := s.handles + 1 } else none
    | .drop => if 0 < s.handles then some { s with handles := s.handles - 1 } else none
    | .next =>
      match s.loop, s.queue with
      | .waiting, m :: queue => some { s with loop := .sending m, queue }
      | .waiting, [] => if s.handles = 0 then some { s with loop := .ended } else none
      | _, _ => none
    | .sent sending spawned =>
      match s.loop with
      | .sending m => some (s.sent lib murmur3_32 m sending spawned)
      | _ => none
    | .panic =>
      match s.loop with
      | .sending m => some (s.panic m)
      | _ => none
    | .resolve i result =>
      match s.waiters[i]? with
      | some w => some { s.settle i w result with resolved := s.resolved ++ [(w.future, result)] }
      | none => none
    | .elapse i =>
      match s.waiters[i]? with
      | some w => some (s.settle i w (.error timedOut))
      | none => none

/-! ## The producer of the loop -/

/-- The topic itself, or a partition of it. -/
def Within (topic name : String) : Prop := name = topic ∨ ∃ i, name = partitionName topic i

/-- Its options are the default ones, and its producers are those of its topic. -/
structure Owned (inner : ProducerInner) : Prop where
  options : inner.options = {}
  within : ∀ p ∈ inner.producers, Within inner.topic p.topic

theorem lookupPartitionedTopic_within {a : Answers} {topic : String} {found : List String}
    (h : lookupPartitionedTopic a topic = some found) : ∀ name ∈ found, Within topic name := by
  intro name hname
  rcases lookupPartitionedTopic_some h with ⟨-, rfl, -⟩ | ⟨n, -, -, rfl⟩
  · exact Or.inl (List.mem_singleton.mp hname)
  · obtain ⟨i, -, rfl⟩ := List.mem_map.mp hname
    exact Or.inr ⟨i, rfl⟩

theorem mem_sortByPartition {p : TopicProducer} {producers : List TopicProducer} :
    p ∈ sortByPartition producers ↔ p ∈ producers := List.mem_mergeSort

theorem build_owned {topic : String} {partitionRefresh : Option Nat} {now : Nat} {a : Answers}
    {genRange : ∀ n, 0 < n → Fin n} {inner : ProducerInner}
    (h : build (some topic) {} partitionRefresh now a genRange = .ok inner) : Owned inner := by
  have htopic := build_topic h
  unfold build at h
  simp only at h
  split at h
  · cases h
  · rename_i partitions hlookup
    rw [mapM_new] at h
    split at h
    · cases h
    · rename_i producers hproducers
      obtain rfl := Option.some.inj (Option.ite_none_right_eq_some.mp hproducers).2
      have hwithin : ∀ p ∈ sortByPartition (partitions.map TopicProducer.mk),
          Within topic p.topic := by
        intro p hp
        obtain ⟨name, hname, rfl⟩ := List.mem_map.mp (mem_sortByPartition.mp hp)
        exact lookupPartitionedTopic_within hlookup name hname
      split at h
      · cases h
      · rename_i first rest hsorted
        rw [hsorted] at hwithin
        split at h
        · obtain rfl := Except.ok.inj h
          exact ⟨rfl, hwithin⟩
        · obtain rfl := Except.ok.inj h
          refine ⟨rfl, fun p hp => ?_⟩
          obtain rfl := List.mem_singleton.mp hp
          exact Or.inl rfl

namespace Owned

variable {inner : ProducerInner}

theorem refreshPartitions (h : Owned inner) (now : Nat) (a : Answers) :
    Owned (inner.refreshPartitions now a) := by
  cases inner with
  | Single producer options => exact h
  | Partitioned q =>
    refine ⟨(refreshPartitions_cursor q now a).2.trans h.options, fun p hp => ?_⟩
    show Within (q.refreshPartitions now a).topic p.topic
    rw [Partitions.refreshPartitions_topic]
    rcases refreshPartitions_cases q now a with ⟨hsame, -⟩ | ⟨found, -, hlookup, -, hgrown⟩
    · have hp' : p ∈ q.producers := hsame ▸ hp
      exact h.within p hp'
    · have hp' : p ∈ q.producers ++ (q.added found).map TopicProducer.mk :=
        mem_sortByPartition.mp (hgrown ▸ hp)
      rcases List.mem_append.mp hp' with hold | hnew
      · exact h.within p hold
      · -- a name that the lookup has found
        obtain ⟨name, hname, rfl⟩ := List.mem_map.mp hnew
        exact lookupPartitionedTopic_within hlookup name (List.mem_filter.mp hname).1

theorem choose (h : Owned inner) (lib : Libraries) (murmur3_32 : Murmur3) (m : Batching.Message) :
    Owned (inner.choose lib murmur3_32 m).2 := by
  cases inner with
  | Single producer options => exact h
  | Partitioned q =>
    have hproducers := choosePartition_producers lib murmur3_32 q m
    refine ⟨(choosePartition_options m).trans h.options, fun p hp => ?_⟩
    show Within (q.choosePartition lib murmur3_32 m).2.topic p.topic
    rw [hproducers.2]
    have hp' : p ∈ q.producers := hproducers.1 ▸ hp
    exact h.within p hp'

end Owned

theorem choosePartition_mem {q : PartitionedProducer} {lib : Libraries} {murmur3_32 : Murmur3}
    {m : Batching.Message} {p : TopicProducer}
    (h : (q.choosePartition lib murmur3_32 m).1 = some p) : p ∈ q.producers := by
  unfold PartitionedProducer.choosePartition at h
  split at h
  · exact Option.some.inj h ▸ List.getElem_mem _
  · split at h
    · exact Option.some.inj h ▸ List.getElem_mem _
    · exact List.mem_of_getElem? h
    · unfold PartitionedProducer.getNextRoundRobinProducer at h
      split at h
      · exact Option.some.inj h ▸ List.getElem_mem _
      · exact Option.some.inj h ▸ List.getElem_mem _
    · unfold PartitionedProducer.getNextRoundRobinProducer at h
      split at h
      · exact Option.some.inj h ▸ List.getElem_mem _
      · exact Option.some.inj h ▸ List.getElem_mem _

/-- With the default options there is a producer for every message, and it is one of the vector's. -/
theorem choose_some {inner : ProducerInner} (h : Owned inner) (lib : Libraries)
    (murmur3_32 : Murmur3) (m : Batching.Message) :
    ∃ p ∈ inner.producers, (inner.choose lib murmur3_32 m).1 = some p := by
  cases inner with
  | Single producer options => exact ⟨producer, List.mem_cons_self, rfl⟩
  | Partitioned q =>
    have hpolicy : ∀ route, q.options.routingPolicy ≠ some (.Custom route) := by
      intro route hroute
      have hdefault : q.options = {} := h.options
      rw [hdefault] at hroute
      cases hroute
    obtain ⟨p, hp⟩ := Option.isSome_iff_exists.mp
      (@choosePartition_isSome lib murmur3_32 _ m hpolicy)
    exact ⟨p, choosePartition_mem hp, hp⟩

/-- The map of the loop's `MultiTopicProducer`. -/
structure Keeps (s : MultiTopicProducer) : Prop where
  options : s.options = {}
  keyed : s.Keyed
  owned : ∀ (k : String) (inner : ProducerInner), s.producers[k]? = some inner → Owned inner

theorem Keeps.init : Keeps (buildMultiTopic none) := by
  have hnone : ∀ (k : String) (inner : ProducerInner),
      (buildMultiTopic none).producers[k]? = some inner → False := by
    intro k inner hinner
    rw [show (buildMultiTopic none).producers = ∅ from rfl, Std.TreeMap.getElem?_emptyc] at hinner
    cases hinner
  exact ⟨rfl, fun k inner hinner => (hnone k inner hinner).elim,
    fun k inner hinner => (hnone k inner hinner).elim⟩

theorem Keeps.entry {s : MultiTopicProducer} (h : Keeps s) {topic : String}
    {sending : Sending ProducerError φ} {inner : ProducerInner}
    (hentry : s.entry topic sending = .ok inner) : Owned inner ∧ inner.topic = topic := by
  refine ⟨?_, MultiTopicProducer.entry_topic h.keyed hentry⟩
  unfold MultiTopicProducer.entry at hentry
  split at hentry
  · rw [h.options] at hentry
    exact build_owned hentry
  · rename_i found hfound
    exact Except.ok.inj hentry ▸ h.owned topic found hfound

/-- What a message meets: no producer can be built, or one of its topic gets it. -/
inductive Meets (m : SendMessage) : Sent ProducerError φ → Prop where
  | failed (e : BuildError) : Meets m (.Failed (.Build e))
  | handed {p : TopicProducer} (hp : Within m.topic p.topic) (outcome : Except Error φ) :
    Meets m (.Handed p m.message outcome)

/-- **The spec of `send_non_blocking`** on the loop's producer. -/
theorem Keeps.sendNonBlocking {s : MultiTopicProducer} (h : Keeps s) (lib : Libraries)
    (murmur3_32 : Murmur3) (m : SendMessage) (sending : Sending ProducerError φ) :
    Meets m (s.sendNonBlocking lib murmur3_32 .ok m.topic m.message sending).1 ∧
      Keeps (s.sendNonBlocking lib murmur3_32 .ok m.topic m.message sending).2 := by
  have hkeyed := MultiTopicProducer.keyed_send lib murmur3_32 .ok h.keyed m.topic m.message sending
  revert hkeyed
  unfold MultiTopicProducer.sendNonBlocking
  simp only
  split
  · rename_i e hentry
    exact fun _ => ⟨.failed e, h⟩
  · rename_i inner hentry
    intro hkeyed
    obtain ⟨howned, htopic⟩ := h.entry hentry
    have hfresh := howned.refreshPartitions sending.now sending.refresh
    obtain ⟨p, hmem, hp⟩ := choose_some hfresh lib murmur3_32 m.message
    have hwithin := hfresh.within p hmem
    rw [ProducerInner.refreshPartitions_topic, htopic] at hwithin
    refine ⟨?_, h.options, hkeyed, fun k found hfound => ?_⟩
    · show Meets m (Sent.send _ m.message sending.outcome)
      rw [hp]
      exact .handed hwithin sending.outcome
    · rw [Std.TreeMap.getElem?_insert] at hfound
      split at hfound
      · exact Option.some.inj hfound ▸ hfresh.choose lib murmur3_32 m.message
      · exact h.owned k found hfound

/-! ## One step -/

/-- What a caller may be told of a message that met `sent`. -/
inductive Truly (resolved : List (φ × Except Error ρ)) (sent : Sent ProducerError φ) :
    Except Error ρ → Prop where
  /-- it has not been sent, and this is why -/
  | failed {e : Error} (h : sent.result = some (.error e)) : Truly resolved sent (.error e)
  /-- the result of its own future -/
  | resolved {future : φ} {result : Except Error ρ} (h : sent.result = some (.ok future))
    (hresult : (future, result) ∈ resolved) : Truly resolved sent result
  | timedOut {future : φ} (h : sent.result = some (.ok future)) :
    Truly resolved sent (.error timedOut)
  | disconnected {future : φ} (h : sent.result = some (.ok future)) :
    Truly resolved sent (.error disconnected)

theorem Truly.mono {resolved resolved' : List (φ × Except Error ρ)} {sent : Sent ProducerError φ}
    {result : Except Error ρ} (h : Truly resolved sent result) (hsub : resolved ⊆ resolved') :
    Truly resolved' sent result := by
  cases h with
  | failed h => exact .failed h
  | resolved h hresult => exact .resolved h (hsub hresult)
  | timedOut h => exact .timedOut h
  | disconnected h => exact .disconnected h

/-- **The turn of the loop**: the caller is told at once, or its future is left to a task. -/
theorem sent_cases {s : State φ ρ} (h : Keeps s.producer) (lib : Libraries)
    (murmur3_32 : Murmur3) (m : SendMessage) (sending : Sending ProducerError φ) (spawned : Bool) :
    ∃ sent producer, Meets m sent ∧ Keeps producer ∧
      ((∃ future, sent.result = some (.ok future) ∧
          s.sent lib murmur3_32 m sending spawned =
            (s.handOver m sent producer).spawn m.resolver future) ∨
        ∃ result, (∀ resolved, Truly resolved sent result) ∧
          s.sent lib murmur3_32 m sending spawned =
            (s.handOver m sent producer).tell m.resolver result) := by
  obtain ⟨hmeets, hkeeps⟩ := h.sendNonBlocking lib murmur3_32 m sending
  refine ⟨_, _, hmeets, hkeeps, ?_⟩
  unfold State.sent
  generalize s.producer.sendNonBlocking lib murmur3_32 .ok m.topic m.message sending = sent at hmeets
  simp only
  split
  · rename_i future hfuture
    by_cases hspawned : spawned = true
    · exact Or.inl ⟨future, hfuture, if_pos hspawned⟩
    · exact Or.inr ⟨_, fun _ => .disconnected hfuture, if_neg hspawned⟩
  · rename_i e he
    exact Or.inr ⟨_, fun _ => .failed he, rfl⟩
  · rename_i hnone
    -- with the default options nothing panics
    cases hmeets' : sent.1 with
    | Failed e =>
      rw [hmeets'] at hnone
      cases hnone
    | Handed p message outcome =>
      rw [hmeets'] at hnone
      cases hnone
    | Panicked =>
      rw [hmeets'] at hmeets
      cases hmeets

/-- The invariant. -/
structure Inv (s : State φ ρ) : Prop where
  keeps : Keeps s.producer
  /-- the messages are taken in the order of the calls -/
  order : s.handed.map Prod.fst ++ (s.dropped ++ (s.loop.inHand ++ s.queue)) = s.submitted
  numbered : s.submitted.map SendMessage.resolver = List.range s.submitted.length
  /-- a message that has been handed over is with a task, or its caller has been told -/
  settled : (s.told.map Prod.fst ++ s.waiters.map Waiter.resolver).Perm
    (s.handed.map fun entry => entry.1.resolver)
  meets : ∀ entry ∈ s.handed, Meets entry.1 entry.2
  truly : ∀ x ∈ s.told, ∃ entry ∈ s.handed, entry.1.resolver = x.1 ∧ Truly s.resolved entry.2 x.2
  future : ∀ w ∈ s.waiters, ∃ entry ∈ s.handed, entry.1.resolver = w.resolver ∧
    entry.2.result = some (.ok w.future)
  /-- the loop has been left by everyone, or never was -/
  ended : s.loop = .ended → s.queue = [] ∧ (s.handles = 0 ∨ s.submitted = [])
  /-- a panic drops at least the message in hand -/
  panicked : s.loop = .panicked → s.queue = [] ∧ s.dropped ≠ []
  dropped : s.dropped ≠ [] → s.loop = .panicked
  refused : s.refused ≠ 0 → s.loop = .ended ∧ s.submitted = [] ∨ s.loop = .panicked

namespace Inv

theorem empty : Inv ({} : State φ ρ) where
  keeps := Keeps.init
  order := rfl
  numbered := rfl
  settled := .refl _
  meets := fun _ h => nomatch h
  truly := fun _ h => nomatch h
  future := fun _ h => nomatch h
  ended := fun h => nomatch h
  panicked := fun h => nomatch h
  dropped := fun h => absurd rfl h
  refused := fun h => absurd rfl h

/-- The executor has not spawned the loop. -/
theorem unspawned : Inv ({ loop := .ended } : State φ ρ) where
  keeps := Keeps.init
  order := rfl
  numbered := rfl
  settled := .refl _
  meets := fun _ h => nomatch h
  truly := fun _ h => nomatch h
  future := fun _ h => nomatch h
  ended := fun _ => ⟨rfl, Or.inr rfl⟩
  panicked := fun h => nomatch h
  dropped := fun h => absurd rfl h
  refused := fun h => absurd rfl h

variable {s : State φ ρ}

/-- A loop that has not panicked has dropped nothing. -/
theorem dropped_nil (h : Inv s) (hloop : s.loop ≠ .panicked) : s.dropped = [] := by
  apply Decidable.byContradiction
  exact fun hdropped => hloop (h.dropped hdropped)

/-- The loop listens as long as it has neither ended nor panicked. -/
theorem not_refused (h : Inv s) (hlistens : s.loop.listens = true) : s.refused = 0 := by
  apply Decidable.byContradiction
  intro hrefused
  rcases h.refused hrefused with ⟨hended, -⟩ | hpanicked
  · rw [hended] at hlistens
    cases hlistens
  · rw [hpanicked] at hlistens
    cases hlistens

theorem not_listens (hlistens : s.loop.listens = false) : s.loop = .ended ∨ s.loop = .panicked := by
  cases hloop : s.loop with
  | waiting | sending =>
    rw [hloop] at hlistens
    cases hlistens
  | ended => exact Or.inl rfl
  | panicked => exact Or.inr rfl

theorem sendRaw (h : Inv s) (hhandles : 0 < s.handles) (topic : String)
    (message : Batching.Message) : Inv (s.sendRaw topic message) := by
  unfold State.sendRaw
  by_cases hlistens : s.loop.listens = true
  · rw [if_pos hlistens]
    have hended : s.loop ≠ .ended := fun hloop => by
      rw [hloop] at hlistens
      cases hlistens
    have hpanicked : s.loop ≠ .panicked := fun hloop => by
      rw [hloop] at hlistens
      cases hlistens
    refine { h with
      order := ?_
      numbered := ?_
      ended := fun hloop => absurd hloop hended
      panicked := fun hloop => absurd hloop hpanicked
      refused := fun hrefused => absurd (h.not_refused hlistens) hrefused }
    · show s.handed.map Prod.fst ++ (s.dropped ++ (s.loop.inHand ++ (s.queue ++ [_]))) =
        s.submitted ++ [_]
      rw [← h.order]
      simp only [List.append_assoc]
    · rw [List.map_append, h.numbered, List.length_append, List.length_singleton, List.range_succ]
      rfl
  · rw [if_neg hlistens]
    refine { h with refused := fun _ => ?_ }
    exact (not_listens (Bool.eq_false_iff.mpr hlistens)).imp (fun hended => ⟨hended,
      (h.ended hended).2.resolve_left (Nat.pos_iff_ne_zero.mp hhandles)⟩) id

theorem handles (h : Inv s) (hhandles : 0 < s.handles) (n : Nat) :
    Inv { s with handles := n } := by
  refine { h with ended := fun hended => ⟨(h.ended hended).1, Or.inr ?_⟩ }
  exact (h.ended hended).2.resolve_left (Nat.pos_iff_ne_zero.mp hhandles)

theorem take (h : Inv s) {m : SendMessage} {queue : List SendMessage} (hloop : s.loop = .waiting)
    (hqueue : s.queue = m :: queue) : Inv { s with loop := .sending m, queue } := by
  have hlistens : s.loop.listens = true := by rw [hloop]; rfl
  have hdropped := h.dropped_nil (by rw [hloop]; exact Loop.noConfusion)
  refine { h with
    order := ?_
    ended := fun hended => nomatch hended
    panicked := fun hpanicked => nomatch hpanicked
    dropped := fun hne => absurd hdropped hne
    refused := fun hrefused => absurd (h.not_refused hlistens) hrefused }
  have horder := h.order
  rw [hloop, hqueue] at horder
  exact horder

theorem finish (h : Inv s) (hloop : s.loop = .waiting) (hqueue : s.queue = [])
    (hhandles : s.handles = 0) : Inv { s with loop := .ended } := by
  have hlistens : s.loop.listens = true := by rw [hloop]; rfl
  have hdropped := h.dropped_nil (by rw [hloop]; exact Loop.noConfusion)
  refine { h with
    order := ?_
    ended := fun _ => ⟨hqueue, Or.inl hhandles⟩
    panicked := fun hpanicked => nomatch hpanicked
    dropped := fun hne => absurd hdropped hne
    refused := fun hrefused => absurd (h.not_refused hlistens) hrefused }
  have horder := h.order
  rw [hloop] at horder
  exact horder

/-- What the loop holds is dropped, and nothing else changes. -/
theorem panic (h : Inv s) {m : SendMessage} (hloop : s.loop = .sending m) : Inv (s.panic m) := by
  refine { h with
    order := ?_
    ended := fun hended => nomatch hended
    panicked := fun _ => ⟨rfl, List.append_ne_nil_of_right_ne_nil _ (List.cons_ne_nil m s.queue)⟩
    dropped := fun _ => rfl
    refused := fun _ => Or.inr rfl }
  have horder := h.order
  rw [hloop] at horder
  show s.handed.map Prod.fst ++ ((s.dropped ++ m :: s.queue) ++ ([] ++ [])) = s.submitted
  rw [List.append_nil, List.append_nil]
  exact horder

/-- The part of the invariant that a turn of the loop keeps, whatever follows. -/
theorem handOver_order (h : Inv s) {m : SendMessage} (hloop : s.loop = .sending m)
    (sent : Sent ProducerError φ) :
    (s.handed ++ [(m, sent)]).map Prod.fst ++ (s.dropped ++ s.queue) = s.submitted := by
  have hdropped := h.dropped_nil (by rw [hloop]; exact Loop.noConfusion)
  have horder := h.order
  rw [hloop, hdropped] at horder
  rw [List.map_append, List.append_assoc, hdropped]
  exact horder

theorem sent (h : Inv s) {m : SendMessage} (hloop : s.loop = .sending m) (lib : Libraries)
    (murmur3_32 : Murmur3) (sending : Sending ProducerError φ) (spawned : Bool) :
    Inv (s.sent lib murmur3_32 m sending spawned) := by
  obtain ⟨sent, producer, hmeets, hkeeps, hcases⟩ :=
    sent_cases h.keeps lib murmur3_32 m sending spawned
  have hlistens : s.loop.listens = true := by rw [hloop]; rfl
  have hdropped := h.dropped_nil (by rw [hloop]; exact Loop.noConfusion)
  have hold : ∀ {p : SendMessage × Sent ProducerError φ → Prop},
      (∃ entry ∈ s.handed, p entry) → ∃ entry ∈ s.handed ++ [(m, sent)], p entry := by
    rintro p ⟨entry, hentry, hp⟩
    exact ⟨entry, List.mem_append_left _ hentry, hp⟩
  have hnew : (m, sent) ∈ s.handed ++ [(m, sent)] :=
    List.mem_append_right _ List.mem_cons_self
  have hall : ∀ entry ∈ s.handed ++ [(m, sent)], Meets entry.1 entry.2 := by
    intro entry hentry
    rcases List.mem_append.mp hentry with hentry | hentry
    · exact h.meets entry hentry
    · obtain rfl := List.mem_singleton.mp hentry
      exact hmeets
  have hresolvers : (s.handed ++ [(m, sent)]).map (fun entry => entry.1.resolver) =
      (s.handed.map fun entry => entry.1.resolver) ++ [m.resolver] := List.map_append
  rcases hcases with ⟨future, hfuture, heq⟩ | ⟨result, htruly, heq⟩
  · rw [heq]
    exact {
      keeps := hkeeps
      order := h.handOver_order hloop sent
      numbered := h.numbered
      settled := by
        show (s.told.map Prod.fst ++
          (s.waiters ++ [{ resolver := m.resolver, future : Waiter φ }]).map Waiter.resolver).Perm
            ((s.handed ++ [(m, sent)]).map fun entry => entry.1.resolver)
        rw [List.map_append, ← List.append_assoc, hresolvers]
        exact h.settled.append_right _
      meets := hall
      truly := fun x hx => hold (h.truly x hx)
      future := by
        intro w hw
        rcases List.mem_append.mp hw with hw | hw
        · exact hold (h.future w hw)
        · obtain rfl := List.mem_singleton.mp hw
          exact ⟨(m, sent), hnew, rfl, hfuture⟩
      ended := fun hended => nomatch hended
      panicked := fun hpanicked => nomatch hpanicked
      dropped := fun hne => absurd hdropped hne
      refused := fun hrefused => absurd (h.not_refused hlistens) hrefused }
  · rw [heq]
    exact {
      keeps := hkeeps
      order := h.handOver_order hloop sent
      numbered := h.numbered
      settled := by
        show ((s.told ++ [(m.resolver, result)]).map Prod.fst ++
          s.waiters.map Waiter.resolver).Perm
            ((s.handed ++ [(m, sent)]).map fun entry => entry.1.resolver)
        rw [List.map_append, List.append_assoc, hresolvers]
        refine ((List.perm_append_comm).append_left _).trans ?_
        rw [← List.append_assoc]
        exact h.settled.append_right _
      meets := hall
      truly := by
        intro x hx
        rcases List.mem_append.mp hx with hx | hx
        · exact hold (h.truly x hx)
        · obtain rfl := List.mem_singleton.mp hx
          exact ⟨(m, sent), hnew, rfl, htruly s.resolved⟩
      future := fun w hw => hold (h.future w hw)
      ended := fun hended => nomatch hended
      panicked := fun hpanicked => nomatch hpanicked
      dropped := fun hne => absurd hdropped hne
      refused := fun hrefused => absurd (h.not_refused hlistens) hrefused }

/-- A task ends, with a result that its message allows. -/
theorem settle (h : Inv s) {i : Nat} {w : Waiter φ} (hw : s.waiters[i]? = some w)
    {result : Except Error ρ} {resolved : List (φ × Except Error ρ)}
    (hsub : s.resolved ⊆ resolved)
    (htruly : ∀ sent : Sent ProducerError φ, sent.result = some (.ok w.future) →
      Truly resolved sent result) :
    Inv { s.settle i w result with resolved } := by
  refine { h with settled := ?_, truly := ?_, future := ?_ }
  · obtain ⟨hi, rfl⟩ := List.getElem?_eq_some_iff.mp hw
    have herase : (s.waiters[i] :: s.waiters.eraseIdx i).Perm s.waiters :=
      List.getElem_cons_eraseIdx_perm hi
    show ((s.told ++ [(s.waiters[i].resolver, result)]).map Prod.fst ++
      (s.waiters.eraseIdx i).map Waiter.resolver).Perm _
    rw [List.map_append, List.append_assoc]
    exact ((herase.map Waiter.resolver).append_left _).trans h.settled
  · intro x hx
    rcases List.mem_append.mp hx with hx | hx
    · obtain ⟨entry, hentry, hresolver, ht⟩ := h.truly x hx
      exact ⟨entry, hentry, hresolver, ht.mono hsub⟩
    · obtain rfl := List.mem_singleton.mp hx
      obtain ⟨entry, hentry, hresolver, hfuture⟩ := h.future w (List.mem_of_getElem? hw)
      exact ⟨entry, hentry, hresolver, htruly entry.2 hfuture⟩
  · exact fun w' hw' => h.future w' (List.mem_of_mem_eraseIdx hw')

/-- **The step lemma.** -/
theorem step {lib : Libraries} {murmur3_32 : Murmur3} {s' : State φ ρ} {a : Action φ ρ}
    (h : Inv s) (hs : (clientSend φ ρ lib murmur3_32).step s a = some s') : Inv s' := by
  cases a with
  | send topic message =>
    obtain ⟨hhandles, heq⟩ := Option.ite_none_right_eq_some.mp hs
    exact Option.some.inj heq ▸ h.sendRaw hhandles topic message
  | clone =>
    obtain ⟨hhandles, heq⟩ := Option.ite_none_right_eq_some.mp hs
    exact Option.some.inj heq ▸ h.handles hhandles _
  | drop =>
    obtain ⟨hhandles, heq⟩ := Option.ite_none_right_eq_some.mp hs
    exact Option.some.inj heq ▸ h.handles hhandles _
  | next =>
    simp only [clientSend] at hs
    split at hs
    · rename_i m queue hloop hqueue
      exact Option.some.inj hs ▸ h.take hloop hqueue
    · rename_i hloop hqueue
      obtain ⟨hhandles, heq⟩ := Option.ite_none_right_eq_some.mp hs
      exact Option.some.inj heq ▸ h.finish hloop hqueue hhandles
    · cases hs
  | sent sending spawned =>
    simp only [clientSend] at hs
    split at hs
    · rename_i m hloop
      exact Option.some.inj hs ▸ h.sent hloop lib murmur3_32 sending spawned
    · cases hs
  | panic =>
    simp only [clientSend] at hs
    split at hs
    · rename_i m hloop
      exact Option.some.inj hs ▸ h.panic hloop
    · cases hs
  | resolve i result =>
    simp only [clientSend] at hs
    split at hs
    · rename_i w hw
      obtain rfl := Option.some.inj hs
      exact h.settle hw (List.subset_append_left _ _) fun sent hsent =>
        .resolved hsent (List.mem_append_right _ List.mem_cons_self)
    · cases hs
  | elapse i =>
    simp only [clientSend] at hs
    split at hs
    · rename_i w hw
      obtain rfl := Option.some.inj hs
      exact h.settle hw (List.Subset.refl _) fun sent hsent => .timedOut hsent
    · cases hs

theorem reach {lib : Libraries} {murmur3_32 : Murmur3}
    (h : (clientSend φ ρ lib murmur3_32).Reach s) : Inv s := by
  refine Sys.ReachIf.inv Inv ?_ (fun _ _ _ hinv _ hs => hinv.step hs) h
  rintro s (rfl | rfl)
  · exact empty
  · exact unspawned

end Inv

/-! ## Safety -/

variable {lib : Libraries} {murmur3_32 : Murmur3} {s : State φ ρ}

/-- Every call is behind the loop, dropped, in its hand, or before it. -/
theorem Inv.resolvers (h : Inv s) :
    (s.handed.map fun entry => entry.1.resolver) ++
      (s.dropped ++ (s.loop.inHand ++ s.queue)).map SendMessage.resolver =
        List.range s.submitted.length := by
  rw [← h.numbered, ← h.order]
  simp only [List.map_append, List.map_map, Function.comp_def]

/-- A message has the number of its place. -/
theorem Inv.getElem?_resolver (h : Inv s) {m : SendMessage} (hm : m ∈ s.submitted) :
    s.submitted[m.resolver]? = some m := by
  obtain ⟨i, hi, rfl⟩ := List.getElem_of_mem hm
  have hresolver : (s.submitted.map SendMessage.resolver)[i]? = (List.range s.submitted.length)[i]? :=
    congrArg (·[i]?) h.numbered
  rw [List.getElem?_map, List.getElem?_eq_getElem hi, List.getElem?_range hi] at hresolver
  have hplace : s.submitted[i].resolver = i := Option.some.inj hresolver
  rw [hplace]
  exact List.getElem?_eq_getElem hi

/-- **A caller is told what has become of its own message**: the error that kept it from being sent, the
    result of its own future, the timeout, or that its task could not be spawned.  And its message, as
    the caller gave it, has gone to a producer of the caller's topic or of a partition of it, or to
    none. -/
theorem told_truly (h : (clientSend φ ρ lib murmur3_32).Reach s) {resolver : Nat}
    {result : Except Error ρ} (htold : (resolver, result) ∈ s.told) :
    ∃ m sent, s.submitted[resolver]? = some m ∧ (m, sent) ∈ s.handed ∧ Meets m sent ∧
      Truly s.resolved sent result := by
  have hinv := Inv.reach h
  obtain ⟨⟨m, sent⟩, hentry, hresolver, htruly⟩ := hinv.truly _ htold
  obtain rfl : m.resolver = resolver := hresolver
  have hm : m ∈ s.submitted := by
    rw [← hinv.order]
    exact List.mem_append_left _ (List.mem_map_of_mem hentry)
  exact ⟨m, sent, hinv.getElem?_resolver hm, hentry, hinv.meets _ hentry, htruly⟩

/-! ## Progress -/

/-- Every step but those of the handles: the loop, the clock, the receipts, and all that
    `send_non_blocking` meets, a panic included. -/
def Own (_ : State φ ρ) : Action φ ρ → Prop
  | .send _ _ | .clone | .drop => False
  | .next | .sent _ _ | .panic | .resolve _ _ | .elapse _ => True

def Loop.work : Loop → Nat
  | waiting => 1
  | sending _ => 3
  | ended | panicked => 0

/-- What is left to do. -/
def State.work (s : State φ ρ) : Nat := 3 * s.queue.length + s.waiters.length + s.loop.work

theorem work_settle {i : Nat} {w : Waiter φ} (hw : s.waiters[i]? = some w) (result : Except Error ρ) :
    (s.settle i w result).work < s.work := by
  obtain ⟨hi, -⟩ := List.getElem?_eq_some_iff.mp hw
  show 3 * s.queue.length + (s.waiters.eraseIdx i).length + s.loop.work <
    3 * s.queue.length + s.waiters.length + s.loop.work
  rw [List.length_eraseIdx_of_lt hi]
  omega

/-- One turn of the loop leaves less to do, whatever it meets. -/
theorem work_sent (hs : Inv s) {m : SendMessage} (hloop : s.loop = .sending m)
    (sending : Sending ProducerError φ) (spawned : Bool) :
    (s.sent lib murmur3_32 m sending spawned).submitted = s.submitted ∧
      (s.sent lib murmur3_32 m sending spawned).handles = s.handles ∧
      (s.sent lib murmur3_32 m sending spawned).work < s.work := by
  have hwork : s.work = 3 * s.queue.length + s.waiters.length + 3 := by
    unfold State.work
    rw [hloop]
    rfl
  obtain ⟨sent, producer, -, -, ⟨future, -, heq⟩ | ⟨result, -, heq⟩⟩ :=
    sent_cases hs.keeps lib murmur3_32 m sending spawned
  · rw [heq, hwork]
    refine ⟨rfl, rfl, ?_⟩
    show 3 * s.queue.length + (s.waiters ++ [{ resolver := m.resolver, future : Waiter φ }]).length +
      1 < 3 * s.queue.length + s.waiters.length + 3
    rw [List.length_append, List.length_singleton]
    omega
  · rw [heq, hwork]
    refine ⟨rfl, rfl, ?_⟩
    show 3 * s.queue.length + s.waiters.length + 1 < 3 * s.queue.length + s.waiters.length + 3
    omega

/-- **The step lemma**: each of these steps leaves less to do. -/
theorem work_step {s' : State φ ρ} {a : Action φ ρ} (hs : Inv s) (hown : Own s a)
    (ha : (clientSend φ ρ lib murmur3_32).step s a = some s') :
    (s'.submitted = s.submitted ∧ s'.handles = s.handles) ∧ s'.work < s.work := by
  cases a with
  | send | clone | drop => exact hown.elim
  | next =>
    simp only [clientSend] at ha
    split at ha
    · rename_i m queue hloop hqueue
      obtain rfl := Option.some.inj ha
      refine ⟨⟨rfl, rfl⟩, ?_⟩
      simp only [State.work, Loop.work, hloop, hqueue, List.length_cons]
      omega
    · rename_i hloop hqueue
      obtain ⟨-, heq⟩ := Option.ite_none_right_eq_some.mp ha
      obtain rfl := Option.some.inj heq
      refine ⟨⟨rfl, rfl⟩, ?_⟩
      simp only [State.work, Loop.work, hloop]
      omega
    · cases ha
  | sent sending spawned =>
    simp only [clientSend] at ha
    split at ha
    · rename_i m hloop
      obtain rfl := Option.some.inj ha
      obtain ⟨hsubmitted, hhandles, hless⟩ := work_sent hs hloop sending spawned
      exact ⟨⟨hsubmitted, hhandles⟩, hless⟩
    · cases ha
  | panic =>
    simp only [clientSend] at ha
    split at ha
    · rename_i m hloop
      obtain rfl := Option.some.inj ha
      refine ⟨⟨rfl, rfl⟩, ?_⟩
      show 3 * 0 + s.waiters.length + 0 < 3 * s.queue.length + s.waiters.length + s.loop.work
      rw [hloop, Loop.work]
      omega
    · cases ha
  | resolve i result =>
    simp only [clientSend] at ha
    split at ha
    · rename_i w hw
      obtain rfl := Option.some.inj ha
      exact ⟨⟨rfl, rfl⟩, work_settle hw result⟩
    · cases ha
  | elapse i =>
    simp only [clientSend] at ha
    split at ha
    · rename_i w hw
      obtain rfl := Option.some.inj ha
      exact ⟨⟨rfl, rfl⟩, work_settle hw _⟩
    · cases ha

/-- The loop and the clock can do nothing by themselves. -/
structure Stopped (lib : Libraries) (murmur3_32 : Murmur3) (s : State φ ρ) : Prop where
  next : (clientSend φ ρ lib murmur3_32).step s .next = none
  elapse : ∀ i, (clientSend φ ρ lib murmur3_32).step s (.elapse i) = none

/-- Then no task is left, and the loop is inside `send_non_blocking` or has nothing to take. -/
theorem Stopped.idle (hstopped : Stopped lib murmur3_32 s) (hs : Inv s) :
    s.waiters = [] ∧ ((∃ m, s.loop = .sending m) ∨
      (s.loop.inHand = [] ∧ s.queue = []) ∧ (s.handles = 0 → s.loop = .ended ∨ s.loop = .panicked)) := by
  refine ⟨?_, ?_⟩
  · cases hwaiters : s.waiters with
    | nil => rfl
    | cons w waiters =>
      have hfirst : s.waiters[0]? = some w := by rw [hwaiters]; rfl
      have helapse := hstopped.elapse 0
      simp only [clientSend, hfirst] at helapse
      cases helapse
  · have hnext := hstopped.next
    cases hloop : s.loop with
    | waiting =>
      cases hqueue : s.queue with
      | cons m queue =>
        simp only [clientSend, hloop, hqueue] at hnext
        cases hnext
      | nil =>
        refine Or.inr ⟨⟨rfl, rfl⟩, fun hhandles => ?_⟩
        simp only [clientSend, hloop, hqueue, hhandles, if_true] at hnext
        cases hnext
    | sending m => exact Or.inl ⟨m, rfl⟩
    | ended => exact Or.inr ⟨⟨rfl, (hs.ended hloop).1⟩, fun _ => Or.inl rfl⟩
    | panicked => exact Or.inr ⟨⟨rfl, (hs.panicked hloop).1⟩, fun _ => Or.inr rfl⟩

/-- **Only a lookup can keep a caller waiting.**  From any reachable state on, without further calls, and
    whatever the producers, the brokers and the executor answer or do not answer: every schedule is linear
    in what is waiting; and where the loop and the clock cannot go on by themselves, either the loop is
    inside a `send_non_blocking`, or every caller has been told, or has lost its message by a panic of the
    loop — and if the last handle is gone, the loop has come to its end. -/
theorem callers_told (h : (clientSend φ ρ lib murmur3_32).Reach s) {as : List (Action φ ρ)}
    {t : State φ ρ} (hown : (clientSend φ ρ lib murmur3_32).Guarded Own s as)
    (ht : (clientSend φ ρ lib murmur3_32).exec s as = some t) :
    as.length ≤ 3 * s.queue.length + s.waiters.length + 3 ∧ t.submitted = s.submitted ∧
      (Stopped lib murmur3_32 t → t.waiters = [] ∧ ((∃ m, t.loop = .sending m) ∨
        (t.told.map Prod.fst ++ t.dropped.map SendMessage.resolver).Perm
            (List.range s.submitted.length) ∧
          (s.handles = 0 → t.loop = .ended ∨ t.loop = .panicked))) := by
  have hwork : s.work ≤ 3 * s.queue.length + s.waiters.length + 3 := by
    unfold State.work
    have hloop : s.loop.work ≤ 3 := by
      unfold Loop.work
      split <;> omega
    omega
  obtain ⟨⟨hinv, hsubmitted, hhandles⟩, hlen⟩ :=
    Sys.exec_of_measure (I := fun u => Inv u ∧ u.submitted = s.submitted ∧
        u.handles = s.handles) State.work
      (fun u a u' hu hown ha => by
        obtain ⟨⟨hsubmitted, hhandles⟩, hless⟩ := work_step hu.1 hown ha
        exact ⟨⟨hu.1.step ha, hsubmitted.trans hu.2.1, hhandles.trans hu.2.2⟩, hless⟩)
      ⟨Inv.reach h, rfl, rfl⟩ hown ht
  refine ⟨by omega, hsubmitted, fun hstopped => ?_⟩
  obtain ⟨hwaiters, hloop⟩ := hstopped.idle hinv
  refine ⟨hwaiters, hloop.imp id fun ⟨⟨hinHand, hqueue⟩, hgone⟩ =>
    ⟨?_, fun hzero => hgone (hhandles.trans hzero)⟩⟩
  have hsettled := hinv.settled
  have hresolvers := hinv.resolvers
  rw [hwaiters, List.map_nil, List.append_nil] at hsettled
  rw [hinHand, hqueue, List.append_nil, List.append_nil, hsubmitted] at hresolvers
  rw [← hresolvers]
  exact hsettled.append_right _

/-! ## Two messages -/

/-- A client whose futures and receipts are numbers. -/
abbrev numbers : Sys (State Nat Nat) (Action Nat Nat) :=
  clientSend Nat Nat threeLibraries fun _ _ => 0

/-- What `send_non_blocking` meets while the broker counts `number` partitions of every topic, if it
    answers at all. -/
def meeting (number : Option UInt32) : Sending ProducerError Nat where
  lookup := { number, found := fun _ => true, created := fun _ => true }
  built := 0
  genRange _ h := ⟨0, h⟩
  refresh := { number, found := fun _ => true, created := fun _ => true }
  now := 0
  outcome := .ok 7

/-- The first has a receipt, the second is in the hand of the loop. -/
def firstSent : List (Action Nat Nat) :=
  [.send "orders" {}, .send "prices" {}, .next, .sent (meeting (some 0)) true, .resolve 0 (.ok 1),
    .next]

theorem reach_firstSent : ∃ s, numbers.Reach s ∧
    (s.told.map Prod.fst == [0] && s.submitted.length == 2) = true :=
  Sys.exists_reach_of_exec (s := {}) (Or.inl rfl) firstSent (by decide +kernel)

theorem told_truly_firstSent : ∃ (s : State Nat Nat) (m : SendMessage)
    (sent : Sent ProducerError Nat) (result : Except Error Nat), (0, result) ∈ s.told ∧
      s.submitted[0]? = some m ∧ (m, sent) ∈ s.handed ∧ Meets m sent ∧
      Truly s.resolved sent result := by
  obtain ⟨s, hs, hp⟩ := reach_firstSent
  rw [Bool.and_eq_true] at hp
  have hmem : 0 ∈ s.told.map Prod.fst := by
    rw [eq_of_beq hp.1]
    exact List.mem_cons_self
  obtain ⟨⟨resolver, result⟩, htold, rfl⟩ := List.mem_map.mp hmem
  obtain ⟨m, sent, hresult⟩ := told_truly hs htold
  exact ⟨s, m, sent, result, htold, hresult⟩

/-- The brokers do not count the partitions any more; then nothing is left to do. -/
def stops (s : State Nat Nat) : Bool :=
  match numbers.exec s [.sent (meeting none) true] with
  | some t => t.waiters.isEmpty && (numbers.step t .next).isNone
  | none => false

theorem callers_told_firstSent : ∃ s t : State Nat Nat, numbers.exec s [.sent (meeting none) true] =
      some t ∧ 1 ≤ 3 * s.queue.length + s.waiters.length + 3 ∧ t.submitted = s.submitted ∧
    (t.waiters = [] ∧ ((∃ m, t.loop = .sending m) ∨
      (t.told.map Prod.fst ++ t.dropped.map SendMessage.resolver).Perm
          (List.range s.submitted.length) ∧
        (s.handles = 0 → t.loop = .ended ∨ t.loop = .panicked))) := by
  obtain ⟨s, hs, hp⟩ := Sys.exists_reach_of_exec (S := numbers) (p := stops) (s := {}) (Or.inl rfl)
    firstSent (by decide +kernel)
  unfold stops at hp
  split at hp
  · rename_i t ht
    rw [Bool.and_eq_true, List.isEmpty_iff, Option.isNone_iff_eq_none] at hp
    have helapse : ∀ i, numbers.step t (.elapse i) = none := by
      intro i
      simp only [clientSend, hp.1, List.getElem?_nil]
    have hown : numbers.Guarded Own s [.sent (meeting none) true] := fun _ _ => ⟨trivial, trivial⟩
    obtain ⟨hlen, hsubmitted, hstopped⟩ := callers_told hs hown ht
    exact ⟨s, t, ht, hlen, hsubmitted, hstopped ⟨hp.2, helapse⟩⟩
  · cases hp

end PulsarClient.Client
