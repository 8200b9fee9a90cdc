/-
  `MultiTopicProducer::close_producer`: does it close what `send_non_blocking` has opened?

  The producers are held in a map.  A send looks up the topic that the caller NAMES, and inserts the
  producer it builds under that name, whatever its partitions.  A close asks for the partitions of the
  topic and removes those names.

  1. THE PROGRAM — `Producer::send_non_blocking` (`ProducerInner.sendNonBlocking`), and over it the
     map: `sendNonBlocking`, `closeProducer`, `topics`.

  2. `keyed_reach` — in every run a producer stands under its own topic, so that `topics` are the topics.

  3. `getElem?_closeProducer` — a close removes the names that the lookup resolves to: the topic itself
     if it has no partitions, else its partitions and NEVER the topic (`partitionName_ne`).

  4. `close_producer_iff` — the exact condition.
-/
import Std.Data.TreeMap
import PulsarClient.Producer.Partitions

namespace PulsarClient.Partitions

open Runs

/-! ## Sending with one producer -/

/-- What goes wrong with a message. -/
inductive SendError (ε : Type) where
  | Build (e : BuildError)
  /-- of `serialize_message`, or of `TopicProducer::send` -/
  | Other (e : ε)

/-- What the code outside answers to one `send_non_blocking`. -/
structure Sending (ε φ : Type) where
  /-- to `build`, at `built` -/
  lookup : Answers
  built : Nat
  genRange : ∀ n, 0 < n → Fin n
  /-- to the re-check, at `now` -/
  refresh : Answers
  now : Nat
  /-- of `TopicProducer::send` -/
  outcome : Except (SendError ε) φ

/-- What becomes of a message. -/
inductive Sent (ε φ : Type) where
  /-- no producer gets it -/
  | Failed (e : SendError ε)
  /-- one does, and its `send` returns -/
  | Handed (producer : TopicProducer) (message : Batching.Message)
      (outcome : Except (SendError ε) φ)
  /-- the router of the application has named an index out of the vector -/
  | Panicked

variable {τ ε φ : Type}

namespace Sent

/-- What the caller gets, if anything. -/
def result : Sent ε φ → Option (Except (SendError ε) φ)
  | Failed e => some (.error e)
  | Handed _ _ outcome => some outcome
  | Panicked => none

/-- `choose_partition(&message).send(message)` -/
def send (chosen : Option TopicProducer) (message : Batching.Message)
    (outcome : Except (SendError ε) φ) : Sent ε φ :=
  match chosen with
  | some producer => Handed producer message outcome
  | none => Panicked

end Sent

namespace ProducerInner

/-- `Producer::topic` -/
def topic : ProducerInner → String
  | Single producer _ => producer.topic
  | Partitioned p => p.topic

/-- `refresh_partitions` of a producer that has it. -/
def refreshPartitions (inner : ProducerInner) (now : Nat) (a : Answers) : ProducerInner :=
  match inner with
  | Single producer options => Single producer options
  | Partitioned p => Partitioned (p.refreshPartitions now a)

/-- `Producer::send_non_blocking` -/
def sendNonBlocking (lib : Batching.Libraries) (murmur3_32 : Murmur3)
    (serializeMessage : τ → Except (SendError ε) Batching.Message) (inner : ProducerInner)
    (message : τ) (sending : Sending ε φ) : Sent ε φ × ProducerInner :=
  match serializeMessage message with
  | .error e => (.Failed e, inner)
  | .ok serialized =>
    let chosen :=
      (inner.refreshPartitions sending.now sending.refresh).choose lib murmur3_32 serialized
    (.send chosen.1 serialized sending.outcome, chosen.2)

@[simp] theorem refreshPartitions_topic (inner : ProducerInner) (now : Nat) (a : Answers) :
    (inner.refreshPartitions now a).topic = inner.topic := by
  cases inner with
  | Single producer options => rfl
  | Partitioned p => exact Partitions.refreshPartitions_topic p now a

@[simp] theorem choose_topic (lib : Batching.Libraries) (murmur3_32 : Murmur3)
    (inner : ProducerInner) (m : Batching.Message) :
    (inner.choose lib murmur3_32 m).2.topic = inner.topic := by
  cases inner with
  | Single producer options => rfl
  | Partitioned p => exact (choosePartition_producers lib murmur3_32 p m).2

/-- No send changes the topic. -/
theorem sendNonBlocking_topic (lib : Batching.Libraries) (murmur3_32 : Murmur3)
    (serializeMessage : τ → Except (SendError ε) Batching.Message) (inner : ProducerInner)
    (message : τ) (sending : Sending ε φ) :
    (inner.sendNonBlocking lib murmur3_32 serializeMessage message sending).2.topic =
      inner.topic := by
  unfold sendNonBlocking
  cases serializeMessage message with
  | error e => rfl
  | ok serialized =>
    show ((inner.refreshPartitions sending.now sending.refresh).choose lib murmur3_32
      serialized).2.topic = inner.topic
    rw [choose_topic, refreshPartitions_topic]

end ProducerInner

/-- `build` succeeds if every lookup and every producer does. -/
theorem build_ok {topic : String} (options : ProducerOptions) (partitionRefresh : Option Nat)
    (now : Nat) {a : Answers} (genRange : ∀ n, 0 < n → Fin n) {partitions : List String}
    (hlookup : lookupPartitionedTopic a topic = some partitions) (hsome : partitions ≠ [])
    (hcreated : partitions.all a.created = true) :
    ∃ inner, build (some topic) options partitionRefresh now a genRange = .ok inner := by
  have hsorted : sortByPartition (partitions.map TopicProducer.mk) ≠ [] := by
    intro hnil
    have hlength := congrArg List.length hnil
    rw [sortByPartition, List.length_mergeSort, List.length_map] at hlength
    exact hsome (List.length_eq_zero_iff.mp hlength)
  unfold build
  simp only [hlookup]
  rw [mapM_new, if_pos hcreated]
  simp only
  split
  · rename_i hnil
    exact absurd hnil hsorted
  · split
    · exact ⟨_, rfl⟩
    · exact ⟨_, rfl⟩

/-- What `build` makes has the topic it was given. -/
theorem build_topic {topic : String} {options : ProducerOptions} {partitionRefresh : Option Nat}
    {now : Nat} {a : Answers} {genRange : ∀ n, 0 < n → Fin n} {inner : ProducerInner}
    (h : build (some topic) options partitionRefresh now a genRange = .ok inner) :
    inner.topic = topic := by
  unfold build at h
  split at h
  · cases h
  · rename_i topic' htopic
    obtain rfl := Option.some.inj htopic
    split at h
    · cases h
    · rename_i partitions hlookup
      rw [mapM_new] at h
      by_cases hall : partitions.all a.created = true
      · rw [if_pos hall] at h
        rcases lookupPartitionedTopic_some hlookup with ⟨-, rfl, -⟩ | ⟨n, -, hpos, rfl⟩
        · -- the topic itself, by itself
          have hsorted : sortByPartition ([topic].map TopicProducer.mk) = [{ topic }] := by
            unfold sortByPartition
            exact List.mergeSort_singleton _
          simp only [hsorted, List.head?_cons, Option.any_some, ne_eq, not_true, decide_false] at h
          obtain rfl := Except.ok.inj h
          rfl
        · have hfirst : (((List.range n.toNat).map (partitionName topic)).head?.any
              fun first => decide (first ≠ topic)) = true := by
            obtain ⟨k, hk⟩ : ∃ k, n.toNat = k + 1 := ⟨n.toNat - 1, by omega⟩
            rw [hk, List.range_succ_eq_map]
            exact decide_eq_true (partitionName_ne topic 0)
          simp only [hfirst] at h
          split at h
          · cases h
          · obtain rfl := Except.ok.inj h
            rfl
      · rw [if_neg hall] at h
        cases h

/-! ## `MultiTopicProducer` -/

/-- `DEFAULT_PARTITION_REFRESH`, in milliseconds -/
def defaultPartitionRefresh : Nat := 60 * 1000

/-- `MultiTopicProducer`: "creating them as needed". -/
structure MultiTopicProducer where
  producers : Std.TreeMap String ProducerInner
  options : ProducerOptions

/-- `build_multi_topic` -/
def buildMultiTopic (producerOptions : Option ProducerOptions) : MultiTopicProducer where
  producers := ∅
  options := producerOptions.getD {}

namespace MultiTopicProducer

/-- "list topics currently handled by this producer" -/
def topics (s : MultiTopicProducer) : List String := s.producers.keys

/-- The entry of the topic: vacant, it is built. -/
def entry (s : MultiTopicProducer) (topic : String) (sending : Sending ε φ) :
    Except BuildError ProducerInner :=
  match s.producers[topic]? with
  | none =>
    build (some topic) s.options (some defaultPartitionRefresh) sending.built sending.lookup
      sending.genRange
  | some inner => .ok inner

/-- `MultiTopicProducer::send_non_blocking` -/
def sendNonBlocking (lib : Batching.Libraries) (murmur3_32 : Murmur3)
    (serializeMessage : τ → Except (SendError ε) Batching.Message) (s : MultiTopicProducer)
    (topic : String) (message : τ) (sending : Sending ε φ) : Sent ε φ × MultiTopicProducer :=
  match serializeMessage message with
  | .error e => (.Failed e, s)
  | .ok serialized =>
    match s.entry topic sending with
    | .error e => (.Failed (.Build e), s)
    | .ok inner =>
      -- a `Message` is serialised as it is; the key is the topic as it was given
      let sent := inner.sendNonBlocking lib murmur3_32 .ok serialized sending
      (sent.1, { s with producers := s.producers.insert topic sent.2 })

/-- `close_producer`, unless it fails. -/
def closeProducer (s : MultiTopicProducer) (topic : String) (a : Answers) :
    Option MultiTopicProducer :=
  match lookupPartitionedTopic a topic with
  | none => none
  | some partitions =>
    some { s with producers := partitions.foldl (fun producers t => producers.erase t) s.producers }

/-- A call. -/
inductive Action (τ ε φ : Type) where
  | send (topic : String) (message : τ) (sending : Sending ε φ)
  | close (topic : String) (a : Answers)

end MultiTopicProducer

/-- One multi-topic producer, from `build_multi_topic` on. -/
def multiTopic (φ : Type) (lib : Batching.Libraries) (murmur3_32 : Murmur3)
    (serializeMessage : τ → Except (SendError ε) Batching.Message) :
    Sys MultiTopicProducer (MultiTopicProducer.Action τ ε φ) where
  init s := ∃ producerOptions, s = buildMultiTopic producerOptions
  step s
    | .send topic message sending =>
      some (s.sendNonBlocking lib murmur3_32 serializeMessage topic message sending).2
    | .close topic a => some ((s.closeProducer topic a).getD s)

/-! ## What is under a name -/

namespace MultiTopicProducer

theorem mem_topics {s : MultiTopicProducer} {topic : String} :
    topic ∈ s.topics ↔ topic ∈ s.producers := Std.TreeMap.mem_keys

theorem mem_topics_iff {s : MultiTopicProducer} {topic : String} :
    topic ∈ s.topics ↔ s.producers[topic]?.isSome = true := by
  rw [mem_topics, Std.TreeMap.mem_iff_isSome_getElem?]

theorem getElem?_foldl_erase (producers : Std.TreeMap String ProducerInner)
    (names : List String) (k : String) :
    (names.foldl (fun producers t => producers.erase t) producers)[k]? =
      if k ∈ names then none else producers[k]? := by
  induction names generalizing producers with
  | nil => rfl
  | cons t names ih =>
    rw [List.foldl_cons, ih, Std.TreeMap.getElem?_erase]
    by_cases hk : k = t
    · subst hk
      simp
    · simp [hk, Ne.symm hk]

/-- What a close removes: all that the lookup resolves the topic to. -/
theorem getElem?_closeProducer {s s' : MultiTopicProducer} {topic : String} {a : Answers}
    (h : s.closeProducer topic a = some s') :
    ∃ partitions, lookupPartitionedTopic a topic = some partitions ∧
      ∀ k, s'.producers[k]? = if k ∈ partitions then none else s.producers[k]? := by
  unfold closeProducer at h
  split at h
  · cases h
  · rename_i partitions hlookup
    obtain rfl := Option.some.inj h
    exact ⟨partitions, hlookup, getElem?_foldl_erase s.producers partitions⟩

/-- A producer stands under its own topic. -/
def Keyed (s : MultiTopicProducer) : Prop :=
  ∀ k (inner : ProducerInner), s.producers[k]? = some inner → inner.topic = k

theorem entry_topic {s : MultiTopicProducer} (hs : s.Keyed) {topic : String}
    {sending : Sending ε φ} {inner : ProducerInner} (h : s.entry topic sending = .ok inner) :
    inner.topic = topic := by
  unfold entry at h
  split at h
  · exact build_topic h
  · rename_i found hfound
    obtain rfl := Except.ok.inj h
    exact hs topic found hfound

theorem keyed_send (lib : Batching.Libraries) (murmur3_32 : Murmur3)
    (serializeMessage : τ → Except (SendError ε) Batching.Message) {s : MultiTopicProducer}
    (hs : s.Keyed) (topic : String) (message : τ) (sending : Sending ε φ) :
    (s.sendNonBlocking lib murmur3_32 serializeMessage topic message sending).2.Keyed := by
  unfold sendNonBlocking
  split
  · exact hs
  · rename_i serialized hserialized
    split
    · exact hs
    · rename_i inner hentry
      intro k found hfound
      rw [Std.TreeMap.getElem?_insert] at hfound
      split at hfound
      · rename_i hk
        obtain rfl := Option.some.inj hfound
        rw [ProducerInner.sendNonBlocking_topic, entry_topic hs hentry]
        exact Std.LawfulEqCmp.compare_eq_iff_eq.mp hk
      · exact hs k found hfound

theorem keyed_close {s s' : MultiTopicProducer} (hs : s.Keyed) {topic : String} {a : Answers}
    (h : s.closeProducer topic a = some s') : s'.Keyed := by
  obtain ⟨partitions, -, hleft⟩ := getElem?_closeProducer h
  intro k inner hinner
  rw [hleft] at hinner
  split at hinner
  · cases hinner
  · exact hs k inner hinner

/-- A message that a producer has got: its topic is open. -/
theorem mem_topics_send {lib : Batching.Libraries} {murmur3_32 : Murmur3}
    {serializeMessage : τ → Except (SendError ε) Batching.Message} {s : MultiTopicProducer}
    {topic : String} {message : τ} {sending : Sending ε φ} {producer : TopicProducer}
    {serialized : Batching.Message} {outcome : Except (SendError ε) φ}
    (h : (s.sendNonBlocking lib murmur3_32 serializeMessage topic message sending).1 =
      .Handed producer serialized outcome) :
    topic ∈ (s.sendNonBlocking lib murmur3_32 serializeMessage topic message sending).2.topics := by
  revert h
  unfold sendNonBlocking
  split
  · exact fun h => nomatch h
  · split
    · exact fun h => nomatch h
    · rename_i inner hentry
      intro _
      rw [mem_topics]
      exact Std.TreeMap.mem_insert_self

/-! ## The exact condition -/

/-- `topic` is closed, and nothing else. -/
structure Closes (s : MultiTopicProducer) (topic : String) (s' : MultiTopicProducer) : Prop where
  topics : ∀ k, k ∈ s'.topics ↔ k ∈ s.topics ∧ k ≠ topic
  untouched : ∀ k, k ≠ topic → s'.producers[k]? = s.producers[k]?

/-- The topic has no partitions, or nothing of it is open, neither it nor a partition. -/
def Closable (s : MultiTopicProducer) (topic : String) (a : Answers) : Prop :=
  a.number = some 0 ∨
    topic ∉ s.topics ∧
      ∀ n i, a.number = some n → i < n.toNat → partitionName topic i ∉ s.topics

theorem closes_of_getElem? {s s' : MultiTopicProducer} {topic : String}
    (h : ∀ k, s'.producers[k]? = if k = topic then none else s.producers[k]?) :
    Closes s topic s' := by
  constructor
  · intro k
    rw [mem_topics_iff, mem_topics_iff, h k]
    by_cases hk : k = topic
    · simp [hk]
    · simp [hk]
  · intro k hk
    rw [h k, if_neg hk]

theorem getElem?_eq_none {s : MultiTopicProducer} {k : String} (h : k ∉ s.topics) :
    s.producers[k]? = none := Std.TreeMap.getElem?_eq_none fun hmem => h (mem_topics.mpr hmem)

theorem mem_topics_of_getElem? {s s' : MultiTopicProducer} {k : String}
    (h : s'.producers[k]? = s.producers[k]?) : k ∈ s'.topics ↔ k ∈ s.topics := by
  rw [mem_topics_iff, mem_topics_iff, h]

theorem closes_iff {s s' : MultiTopicProducer} {topic : String} {a : Answers}
    (h : s.closeProducer topic a = some s') : Closes s topic s' ↔ Closable s topic a := by
  obtain ⟨partitions, hlookup, hleft⟩ := getElem?_closeProducer h
  rcases lookupPartitionedTopic_some hlookup with ⟨hzero, rfl, -⟩ | ⟨n, hnumber, hpos, rfl⟩
  · -- the topic itself
    refine iff_of_true (closes_of_getElem? fun k => ?_) (Or.inl hzero)
    rw [hleft k]
    simp only [List.mem_singleton]
  · -- its partitions, none of which it is
    have hself : topic ∉ (List.range n.toNat).map (partitionName topic) := by
      rw [List.mem_map]
      rintro ⟨i, -, hi⟩
      exact partitionName_ne topic i hi
    constructor
    · rintro ⟨htopics, huntouched⟩
      refine Or.inr ⟨fun hopen => ?_, fun m i hm hi hopen => ?_⟩
      · have hkept : s'.producers[topic]? = s.producers[topic]? := by rw [hleft, if_neg hself]
        exact ((htopics topic).mp ((mem_topics_of_getElem? hkept).mpr hopen)).2 rfl
      · obtain rfl := Option.some.inj (hnumber.symm.trans hm)
        have hname : partitionName topic i ∈ (List.range n.toNat).map (partitionName topic) :=
          List.mem_map_of_mem (List.mem_range.mpr hi)
        have hremoved := huntouched _ (partitionName_ne topic i)
        rw [hleft, if_pos hname] at hremoved
        rw [mem_topics_iff, ← hremoved] at hopen
        cases hopen
    · rintro (hzero | ⟨hclosed, hnames⟩)
      · obtain rfl := Option.some.inj (hnumber.symm.trans hzero)
        exact absurd hpos (Nat.lt_irrefl 0)
      · apply closes_of_getElem?
        intro k
        rw [hleft k]
        by_cases hk : k ∈ (List.range n.toNat).map (partitionName topic)
        · obtain ⟨i, hi, rfl⟩ := List.mem_map.mp hk
          rw [if_pos hk, if_neg (partitionName_ne topic i),
            getElem?_eq_none (hnames n i hnumber (List.mem_range.mp hi))]
        · rw [if_neg hk]
          split
          · rename_i hself'
            rw [hself', getElem?_eq_none hclosed]
          · rfl

end MultiTopicProducer

open MultiTopicProducer

section

variable {lib : Batching.Libraries} {murmur3_32 : Murmur3}
  {serializeMessage : τ → Except (SendError ε) Batching.Message}

theorem keyed_reach {s : MultiTopicProducer}
    (h : (multiTopic φ lib murmur3_32 serializeMessage).Reach s) : s.Keyed := by
  refine Sys.ReachIf.inv Keyed ?_ ?_ h
  · rintro s ⟨producerOptions, rfl⟩ k inner hinner
    rw [buildMultiTopic, Std.TreeMap.getElem?_emptyc] at hinner
    cases hinner
  · intro s action s' hs _ hstep
    cases action with
    | send topic message sending =>
      obtain rfl := Option.some.inj hstep
      exact keyed_send lib murmur3_32 serializeMessage hs topic message sending
    | close topic a =>
      obtain rfl := Option.some.inj hstep
      cases hclose : s.closeProducer topic a with
      | none => exact hs
      | some closed => exact keyed_close hs hclose

end

/-- **What a close closes.**  After any sends and closes: `topics` are the topics of the producers, and
    a topic that a message has gone to is one of them.  A `close_producer` that returns `Ok` closes the
    topic, and leaves every other one with its producer, exactly if the topic has no partitions or there
    was nothing to close. -/
theorem close_producer_iff (lib : Batching.Libraries) (murmur3_32 : Murmur3)
    (serializeMessage : τ → Except (SendError ε) Batching.Message) (s : MultiTopicProducer)
    (hs : (multiTopic φ lib murmur3_32 serializeMessage).Reach s) :
    (∀ k (inner : ProducerInner), s.producers[k]? = some inner → inner.topic = k) ∧
    (∀ topic message (sending : Sending ε φ) producer serialized outcome,
      (s.sendNonBlocking lib murmur3_32 serializeMessage topic message sending).1 =
          .Handed producer serialized outcome →
        topic ∈
          (s.sendNonBlocking lib murmur3_32 serializeMessage topic message sending).2.topics) ∧
    ∀ topic a s', s.closeProducer topic a = some s' → (Closes s topic s' ↔ Closable s topic a) :=
  ⟨keyed_reach hs, fun _ _ _ _ _ _ => mem_topics_send, fun _ _ _ => closes_iff⟩

/-! ## "orders", with and without partitions -/

/-- A send while the broker counts `partitions` for every topic. -/
def asked (partitions : UInt32) : Sending Unit Unit where
  lookup := answering partitions
  built := 0
  genRange _ h := ⟨0, h⟩
  refresh := answering partitions
  now := 0
  outcome := .ok ()

/-- A producer of messages as they are. -/
abbrev plain : Sys MultiTopicProducer (MultiTopicProducer.Action Batching.Message Unit Unit) :=
  multiTopic Unit Batching.threeLibraries (fun _ _ => 0) .ok

/-- … to which one message for "orders" has been given. -/
def afterSend (partitions : UInt32) : MultiTopicProducer :=
  ((buildMultiTopic none).sendNonBlocking Batching.threeLibraries (fun _ _ => 0) .ok "orders" {}
    (asked partitions)).2

theorem reach_afterSend (partitions : UInt32) : plain.Reach (afterSend partitions) :=
  .step (.init ⟨none, rfl⟩) trivial
    (show plain.step (buildMultiTopic none) (.send "orders" {} (asked partitions)) = _ from rfl)

theorem mem_afterSend {partitions : UInt32} {names : List String}
    (hlookup : lookupPartitionedTopic (answering partitions) "orders" = some names)
    (hnames : names ≠ []) : "orders" ∈ (afterSend partitions).topics := by
  obtain ⟨inner, hbuild⟩ := build_ok {} (some defaultPartitionRefresh) 0 (fun _ h => ⟨0, h⟩) hlookup
    hnames (List.all_eq_true.mpr fun _ _ => rfl)
  have hentry : (buildMultiTopic none).entry "orders" (asked partitions) = .ok inner := by
    unfold entry
    rw [buildMultiTopic, Std.TreeMap.getElem?_emptyc]
    exact hbuild
  unfold afterSend sendNonBlocking
  rw [mem_topics]
  simp only [hentry]
  exact Std.TreeMap.mem_insert_self

/-- A topic of no partitions is closed. -/
theorem close_producer_iff_single : ∃ s', "orders" ∈ (afterSend 0).topics ∧
    (afterSend 0).closeProducer "orders" (answering 0) = some s' ∧
    Closes (afterSend 0) "orders" s' := by
  refine ⟨_, mem_afterSend (show _ = some ["orders"] from rfl) (by decide), rfl, ?_⟩
  exact ((close_producer_iff _ _ _ _ (reach_afterSend 0)).2.2 "orders" (answering 0) _ rfl).mpr
    (Or.inl rfl)

/-- A topic of two partitions is still listed after its close. -/
theorem partitioned_stays_open :
    ¬ ∀ s, plain.Reach s → ∀ topic a s', s.closeProducer topic a = some s' →
      Closes s topic s' := by
  intro hall
  have hopen : "orders" ∈ (afterSend 2).topics :=
    mem_afterSend (show _ = some ((List.range 2).map (partitionName "orders")) from rfl)
      (List.cons_ne_nil _ _)
  obtain ⟨s', hclose⟩ : ∃ s', (afterSend 2).closeProducer "orders" (answering 2) = some s' :=
    ⟨_, rfl⟩
  have hcloses := hall (afterSend 2) (reach_afterSend 2) "orders" (answering 2) s' hclose
  rcases (closes_iff hclose).mp hcloses with hzero | ⟨hclosed, -⟩
  · exact absurd (Option.some.inj hzero) (by decide)
  · exact hclosed hopen

end PulsarClient.Partitions
