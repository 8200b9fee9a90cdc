/-
  `MultiTopicConsumer`: the topics in rotation (`existing_topics`) beside the consumers held of them.

  Topics come from the builder, from the names a namespace lists that match a regex, and from the
  partitions a topic gains.  A refresh looks all of them up again in a future that works on a SNAPSHOT
  of `existing_topics`, and what that future creates is added by a later poll; topics leave when their
  consumer fails in the rotation.

  1. THE PROGRAM — `build`, `updateTopics` and the future it leaves (`Update.run`), `addConsumers`,
     `removeConsumers`, `pollNext`, `seek`.

  2. ROTATION — a turn of the loop over `existing_topics` moves one name to the back: it changes neither
     how often a topic is listed nor of which topics there are consumers.

  3. `addConsumers_replaced` — no consumer is overwritten exactly when the topics added are new and
     pairwise different.  New they always are (`Known`: what is listed is in the snapshot of the refresh
     under way).  Pairwise different they are not: the refresh leaves out what is listed already, and
     does not compare what it finds with what else it finds.

  4. `inStep_iff` — the exact condition, along every run.

  5. `seek` rebuilds the consumer from `topics`, which is what the builder found and no refresh updates,
     and with the default refresh interval: `seek_kept_iff`.
-/
import Mathlib.Data.List.Count
import PulsarClient.Lib.Runs
import PulsarClient.Producer.Partitions

namespace PulsarClient.MultiTopic

open Runs Partitions

/-! ## The program -/

/-- `TopicConsumer`, its name and its metrics. -/
structure TopicConsumer where
  topic : String
  messagesReceived : Nat
  lastMessageReceived : Option Nat
  deriving DecidableEq, Repr

/-- `TopicConsumer::new` -/
def TopicConsumer.new (topic : String) : TopicConsumer :=
  { topic, messagesReceived := 0, lastMessageReceived := none }

/-- `TopicConsumer::poll_next` with a message, `now`. -/
def TopicConsumer.received (c : TopicConsumer) (now : Nat) : TopicConsumer :=
  { c with lastMessageReceived := some now, messagesReceived := c.messagesReceived + 1 }

/-- `consumers.into_iter().map(|c| (c.topic(), Box::pin(c))).collect()` -/
def collect (consumers : List TopicConsumer) : Std.TreeMap String TopicConsumer :=
  Std.TreeMap.ofList (consumers.map fun c => (c.topic, c)) compare

/-- What the brokers answer to a round of lookups. -/
structure Answers where
  /-- `get_topics_of_namespace`, unless it fails -/
  getTopicsOfNamespace : String → Option (List String)
  /-- to the `i`-th `lookup_partitioned_topic` -/
  lookup : Nat → Partitions.Answers
  /-- the `i`-th `TopicConsumer::new` succeeds -/
  created : Nat → Bool

/-- `try_join_all` of `lookup_partitioned_topic`, then `flatten`. -/
def lookupAll (a : Answers) (topics : List String) : Option (List String) :=
  (topics.zipIdx.mapM fun (topic, i) => lookupPartitionedTopic (a.lookup i) topic).map List.flatten

/-- `try_join_all` of `TopicConsumer::new`. -/
def createAll (a : Answers) (topics : List String) : Option (List TopicConsumer) :=
  if (List.range topics.length).all a.created then some (topics.map TopicConsumer.new) else none

/-- The future of `update_topics`: what it captured. -/
structure Update where
  /-- `self.existing_topics.clone()` -/
  existingTopics : List String
  /-- `self.requested_topics.clone()` -/
  topics : List String
  topicRegex : Option (String → Bool)
  «namespace» : String

namespace Update

/-- 1. the topics of the builder and those that match the regex, 2. looked up. -/
def found (u : Update) (a : Answers) : Option (List String) :=
  match u.topicRegex with
  | none => lookupAll a u.topics
  | some isMatch =>
    match a.getTopicsOfNamespace u.namespace with
    | none => none
    | some allTopics => lookupAll a (u.topics ++ allTopics.filter isMatch)

/-- `filter(|(t, _)| !existing_topics.contains(t))` -/
def missing (u : Update) (found : List String) : List String :=
  found.filter fun t => !u.existingTopics.contains t

/-- The output of the future, unless it is an error. -/
def run (u : Update) (a : Answers) : Option (List TopicConsumer) :=
  match u.found a with
  | none => none
  | some found => createAll a (u.missing found)

end Update

/-- `MultiTopicConsumer` -/
structure MultiTopicConsumer where
  «namespace» : String
  /-- `Regex::is_match` -/
  topicRegex : Option (String → Bool)
  consumers : Std.TreeMap String TopicConsumer
  topics : List String
  requestedTopics : List String
  existingTopics : List String
  newConsumers : Option Update
  /-- the interval, in milliseconds -/
  refresh : Nat
  discMessagesReceived : Nat
  discLastMessageReceived : Option Nat
  /-- not a field of the source: the consumers `add_consumers` has overwritten -/
  replaced : List TopicConsumer

/-- What a topic's consumer answers in the rotation. -/
inductive Item (μ : Type) where
  | Pending
  /-- `Ready(Some(Ok(msg)))`, `now` -/
  | Message (now : Nat) (msg : μ)
  /-- `Ready(None)` -/
  | Ended
  /-- `Ready(Some(Err(_)))` -/
  | Failed

/-- What one `poll_next` meets. -/
structure Poll (μ : Type) where
  /-- of `new_consumers`; `none` is `Pending` -/
  update : Option Answers
  /-- of the `new_consumers` of every refresh that is due, one after another -/
  ticks : List (Option Answers)
  /-- of the consumers, in rotation -/
  items : Nat → Item μ

/-- The locals of the rotation, and the two fields it works on. -/
structure Rotation (μ : Type) where
  existingTopics : List String
  consumers : Std.TreeMap String TopicConsumer
  topicsToRemove : List String
  result : Option μ

namespace Rotation

variable {μ : Type}

/-- The topic's consumer is polled. -/
def polled (r : Rotation μ) (topic : String) (item : Item μ) : Rotation μ :=
  match r.consumers[topic]?, item with
  -- "BUG: Missing consumer for topic"
  | none, _ => r
  | some _, .Pending => r
  | some c, .Message now msg =>
    { r with consumers := r.consumers.insert topic (c.received now), result := some msg }
  | some _, .Ended => { r with topicsToRemove := r.topicsToRemove ++ [topic] }
  | some _, .Failed => { r with topicsToRemove := r.topicsToRemove ++ [topic] }

/-- One turn of the loop: `pop_front`, then `push_back`. -/
def turn (r : Rotation μ) (item : Item μ) : Rotation μ :=
  match r.existingTopics with
  | [] => r
  | topic :: rest => { r.polled topic item with existingTopics := rest ++ [topic] }

/-- `for _ in 0..n`, from the `i`-th item on. -/
def loop (items : Nat → Item μ) : Nat → Nat → Rotation μ → Rotation μ
  | 0, _, r => r
  | n + 1, i, r => if r.result.isSome then r else loop items n (i + 1) (r.turn (items i))

end Rotation

namespace MultiTopicConsumer

variable {μ : Type}

/-- The body of `add_consumers`. -/
def addConsumer (s : MultiTopicConsumer) (consumer : TopicConsumer) : MultiTopicConsumer :=
  { s with
    consumers := s.consumers.insert consumer.topic consumer
    existingTopics := s.existingTopics ++ [consumer.topic]
    replaced := s.replaced ++ s.consumers[consumer.topic]?.toList }

/-- `add_consumers` -/
def addConsumers (s : MultiTopicConsumer) (consumers : List TopicConsumer) : MultiTopicConsumer :=
  consumers.foldl addConsumer s

/-- The body of the loop of `remove_consumers`. -/
def removeConsumer (s : MultiTopicConsumer) (topic : String) : MultiTopicConsumer :=
  match s.consumers[topic]? with
  | none => s
  | some consumer =>
    { s with
      consumers := s.consumers.erase topic
      discMessagesReceived := s.discMessagesReceived + consumer.messagesReceived
      discLastMessageReceived :=
        (s.discLastMessageReceived.toList ++ consumer.lastMessageReceived.toList).max? }

/-- `remove_consumers` -/
def removeConsumers (s : MultiTopicConsumer) (topics : List String) : MultiTopicConsumer :=
  topics.foldl removeConsumer
    { s with existingTopics := s.existingTopics.filter fun t => !topics.contains t }

/-- `update_topics` -/
def updateTopics (s : MultiTopicConsumer) : MultiTopicConsumer :=
  { s with
    newConsumers := some
      { existingTopics := s.existingTopics
        topics := s.requestedTopics
        topicRegex := s.topicRegex
        «namespace» := s.namespace } }

/-- `new_consumers` taken and polled. -/
def pollNewConsumers (s : MultiTopicConsumer) (update : Option Answers) : MultiTopicConsumer :=
  match s.newConsumers, update with
  | some u, some a =>
    match u.run a with
    | some consumers => { s with newConsumers := none }.addConsumers consumers
    -- "could be intermittent connection failure and we want to retry"
    | none => { s with newConsumers := none }
  | _, _ => s

/-- `poll_next` up to the rotation: it starts over for every refresh that is due. -/
def refreshes : MultiTopicConsumer → Option Answers → List (Option Answers) → MultiTopicConsumer
  | s, update, [] => s.pollNewConsumers update
  | s, update, next :: ticks => refreshes (s.pollNewConsumers update).updateTopics next ticks

/-- The rotation over `existing_topics`. -/
def rotate (s : MultiTopicConsumer) (items : Nat → Item μ) : MultiTopicConsumer × Option μ :=
  let r := Rotation.loop items s.existingTopics.length 0
    { existingTopics := s.existingTopics, consumers := s.consumers, topicsToRemove := [],
      result := none }
  ({ s with existingTopics := r.existingTopics, consumers := r.consumers }.removeConsumers
      r.topicsToRemove,
    r.result)

/-- `poll_next` -/
def pollNext (s : MultiTopicConsumer) (p : Poll μ) : MultiTopicConsumer × Option μ :=
  (s.refreshes p.update p.ticks).rotate p.items

end MultiTopicConsumer

/-- `Duration::from_secs(30)` -/
def defaultRefresh : Nat := 30 * 1000

/-- `ConsumerBuilder`: what decides which topics are consumed. -/
structure ConsumerBuilder where
  topics : Option (List String)
  topicRegex : Option (String → Bool)
  «namespace» : Option String
  topicRefresh : Option Nat

/-- `InnerConsumer` -/
inductive InnerConsumer where
  | Single (consumer : TopicConsumer)
  | Multi (consumer : MultiTopicConsumer)

inductive BuildError where
  | Custom (text : String)
  /-- of a lookup -/
  | ServiceDiscovery
  /-- of `TopicConsumer::new` -/
  | Consumer
  /-- of the first update -/
  | Update
  deriving DecidableEq, Repr

namespace ConsumerBuilder

/-- `validate`: the topics of the builder, looked up. -/
def validate (b : ConsumerBuilder) (a : Answers) : Except BuildError (List String) :=
  if b.topics.isNone && b.topicRegex.isNone then
    .error (.Custom "Cannot create consumer with no topics and no topic regex")
  else
    match lookupAll a (b.topics.getD []) with
    | none => .error .ServiceDiscovery
    | some topics =>
      if topics.isEmpty && b.topicRegex.isNone then
        .error (.Custom "Unable to create consumer - topic not found")
      else .ok topics

/-- The topics can become more: `can_gain_partitions`. -/
def canGainPartitions (b : ConsumerBuilder) (consumers : List TopicConsumer) : Bool :=
  b.topicRegex.isSome ||
    !(match b.topics.getD [], consumers with
      | [only], [resolved] => resolved.topic == only
      | _, _ => false)

/-- The `MultiTopicConsumer` of `build`, before a regex adds to it. -/
def multi (b : ConsumerBuilder) (consumers : List TopicConsumer) : MultiTopicConsumer :=
  { «namespace» := b.namespace.getD "public/default"
    topicRegex := b.topicRegex
    consumers := collect consumers
    topics := (collect consumers).keys
    requestedTopics := b.topics.getD []
    existingTopics := (collect consumers).keys
    newConsumers := none
    refresh := b.topicRefresh.getD defaultRefresh
    discMessagesReceived := 0
    discLastMessageReceived := none
    replaced := [] }

/-- `build`: `a` is answered to the builder's topics, `initial` to the update for a regex. -/
def build (b : ConsumerBuilder) (a initial : Answers) : Except BuildError InnerConsumer :=
  match b.validate a with
  | .error e => .error e
  | .ok joinedTopics =>
    match createAll a joinedTopics with
    | none => .error .Consumer
    | some consumers =>
      match consumers, b.canGainPartitions consumers with
      | [consumer], false => .ok (.Single consumer)
      | consumers, _ =>
        if b.topicRegex.isSome then
          match (b.multi consumers).updateTopics.newConsumers.bind (·.run initial) with
          | none => .error .Update
          | some initialConsumers => .ok (.Multi ((b.multi consumers).addConsumers initialConsumers))
        else .ok (.Multi (b.multi consumers))

end ConsumerBuilder

/-- What one `seek` meets. -/
structure SeekAnswers where
  /-- `TopicConsumer::seek` of the topic succeeds -/
  seeked : String → Bool
  /-- `lookup_topic` succeeds -/
  found : String → Bool
  /-- `TopicConsumer::new` succeeds -/
  created : String → Bool

namespace MultiTopicConsumer

/-- `MultiTopicConsumer::seek` returns `Ok`. -/
def seekSelected (s : MultiTopicConsumer) (consumerIds : Option (List String)) (a : SeekAnswers) :
    Bool :=
  match consumerIds with
  | none => false
  | some ids => (s.consumers.keys.filter ids.contains).all a.seeked

/-- `Consumer::seek`; `none` is an error, and then `self.inner` is what it was. -/
def seek (s : MultiTopicConsumer) (consumerIds : Option (List String)) (a : SeekAnswers) :
    Option MultiTopicConsumer :=
  if s.seekSelected consumerIds a && s.topics.all a.found && s.topics.all a.created then
    let consumers := collect (s.topics.map TopicConsumer.new)
    some
      { «namespace» := s.namespace
        topicRegex := s.topicRegex
        consumers
        topics := consumers.keys
        requestedTopics := s.requestedTopics
        existingTopics := consumers.keys
        newConsumers := none
        refresh := defaultRefresh
        discMessagesReceived := 0
        discLastMessageReceived := none
        replaced := s.replaced }
  else none

end MultiTopicConsumer

/-! ## The system of one consumer -/

inductive Action (μ : Type) where
  /-- `new_consumers` is polled -/
  | update (answer : Option Answers)
  /-- the refresh is due -/
  | tick
  | rotate (items : Nat → Item μ)
  | seek (consumerIds : Option (List String)) (a : SeekAnswers)

/-- One step. -/
def MultiTopicConsumer.act {μ : Type} (s : MultiTopicConsumer) : Action μ → MultiTopicConsumer
  | .update answer => s.pollNewConsumers answer
  | .tick => s.updateTopics
  | .rotate items => (s.rotate items).1
  | .seek consumerIds a => (s.seek consumerIds a).getD s

/-- A multi-topic consumer of the builder `b`. -/
def consumer (μ : Type) (b : ConsumerBuilder) : Sys MultiTopicConsumer (Action μ) where
  init s := ∃ a initial, b.build a initial = .ok (.Multi s)
  step s action := some (s.act action)

/-- The steps of one `poll_next`. -/
def Poll.actions {μ : Type} (p : Poll μ) : List (Action μ) :=
  .update p.update :: p.ticks.flatMap (fun next => [.tick, .update next]) ++ [.rotate p.items]

/-- `poll_next` is a run of the system. -/
theorem exec_pollNext {μ : Type} (b : ConsumerBuilder) (s : MultiTopicConsumer) (p : Poll μ) :
    (consumer μ b).exec s p.actions = some (s.pollNext p).1 := by
  obtain ⟨update, ticks, items⟩ := p
  induction ticks generalizing s update with
  | nil => rfl
  | cons next ticks ih => exact ih (s.pollNewConsumers update).updateTopics next

/-! ## The rotation -/

namespace Rotation

variable {μ : Type} {items : Nat → Item μ}

/-- A turn moves the first name to the back. -/
theorem count_turn (r : Rotation μ) (item : Item μ) (t : String) :
    (r.turn item).existingTopics.count t = r.existingTopics.count t := by
  unfold turn
  cases hexisting : r.existingTopics with
  | nil =>
    show r.existingTopics.count t = _
    rw [hexisting]
  | cons topic rest =>
    exact (List.perm_append_singleton topic rest).count_eq t

/-- A consumer polled is put back where it was. -/
theorem mem_polled (r : Rotation μ) (topic : String) (item : Item μ) (t : String) :
    t ∈ (r.polled topic item).consumers ↔ t ∈ r.consumers := by
  unfold polled
  split
  · exact Iff.rfl
  · exact Iff.rfl
  · rename_i c now msg hc
    have htopic : topic ∈ r.consumers := by
      rw [← Std.TreeMap.isSome_getElem?_iff_mem, hc]
      rfl
    rw [Std.TreeMap.mem_insert, Std.LawfulEqCmp.compare_eq_iff_eq]
    constructor
    · rintro (rfl | ht)
      · exact htopic
      · exact ht
    · exact Or.inr
  · exact Iff.rfl
  · exact Iff.rfl

theorem mem_turn (r : Rotation μ) (item : Item μ) (t : String) :
    t ∈ (r.turn item).consumers ↔ t ∈ r.consumers := by
  unfold turn
  cases r.existingTopics with
  | nil => exact Iff.rfl
  | cons topic rest => exact mem_polled r topic item t

theorem count_loop (n i : Nat) (r : Rotation μ) (t : String) :
    (loop items n i r).existingTopics.count t = r.existingTopics.count t := by
  induction n generalizing i r with
  | zero => rfl
  | succ n ih =>
    unfold loop
    split
    · rfl
    · rw [ih, count_turn]

theorem mem_loop (n i : Nat) (r : Rotation μ) (t : String) :
    t ∈ (loop items n i r).consumers ↔ t ∈ r.consumers := by
  induction n generalizing i r with
  | zero => exact Iff.rfl
  | succ n ih =>
    unfold loop
    split
    · exact Iff.rfl
    · rw [ih, mem_turn]

end Rotation

/-! ## What the operations do -/

/-- What only `build` and `seek` decide. -/
structure Frame (s s' : MultiTopicConsumer) : Prop where
  topics : s'.topics = s.topics
  requestedTopics : s'.requestedTopics = s.requestedTopics
  topicRegex : s'.topicRegex = s.topicRegex
  refresh : s'.refresh = s.refresh

theorem Frame.refl (s : MultiTopicConsumer) : Frame s s := ⟨rfl, rfl, rfl, rfl⟩

theorem Frame.trans {s s' s'' : MultiTopicConsumer} (h : Frame s s') (h' : Frame s' s'') :
    Frame s s'' :=
  ⟨h'.topics.trans h.topics, h'.requestedTopics.trans h.requestedTopics,
    h'.topicRegex.trans h.topicRegex, h'.refresh.trans h.refresh⟩

theorem mem_collect (topics : List String) (t : String) :
    t ∈ collect (topics.map TopicConsumer.new) ↔ t ∈ topics := by
  unfold collect
  rw [Std.TreeMap.mem_ofList, List.contains_iff_mem, List.map_map, List.map_map]
  show t ∈ topics.map id ↔ _
  rw [List.map_id]

theorem count_keys (m : Std.TreeMap String TopicConsumer) (t : String) :
    m.keys.count t = if t ∈ m then 1 else 0 := by
  split
  · rename_i ht
    exact List.count_eq_one_of_mem Std.TreeMap.nodup_keys (Std.TreeMap.mem_keys.mpr ht)
  · rename_i ht
    exact List.count_eq_zero_of_not_mem fun hkeys => ht (Std.TreeMap.mem_keys.mp hkeys)

namespace MultiTopicConsumer

variable {μ : Type}

section Added

variable (consumers : List TopicConsumer) (s : MultiTopicConsumer)

theorem existingTopics_addConsumers :
    (s.addConsumers consumers).existingTopics =
      s.existingTopics ++ consumers.map TopicConsumer.topic := by
  induction consumers generalizing s with
  | nil => exact (List.append_nil _).symm
  | cons c cs ih =>
    show ((s.addConsumer c).addConsumers cs).existingTopics = _
    rw [ih, List.map_cons, List.append_cons]
    rfl

theorem mem_addConsumers (t : String) :
    t ∈ (s.addConsumers consumers).consumers ↔
      t ∈ s.consumers ∨ t ∈ consumers.map TopicConsumer.topic := by
  induction consumers generalizing s with
  | nil => exact ⟨Or.inl, fun h => h.resolve_right List.not_mem_nil⟩
  | cons c cs ih =>
    show t ∈ ((s.addConsumer c).addConsumers cs).consumers ↔ _
    have hc : t ∈ (s.addConsumer c).consumers ↔ c.topic = t ∨ t ∈ s.consumers := by
      show t ∈ s.consumers.insert c.topic c ↔ _
      rw [Std.TreeMap.mem_insert, Std.LawfulEqCmp.compare_eq_iff_eq]
    rw [ih, hc, List.map_cons, List.mem_cons]
    constructor
    · rintro ((rfl | hs) | hcs)
      · exact Or.inr (Or.inl rfl)
      · exact Or.inl hs
      · exact Or.inr (Or.inr hcs)
    · rintro (hs | rfl | hcs)
      · exact Or.inl (Or.inr hs)
      · exact Or.inl (Or.inl rfl)
      · exact Or.inr hcs

theorem frame_addConsumers :
    Frame s (s.addConsumers consumers) ∧
      (s.addConsumers consumers).newConsumers = s.newConsumers := by
  induction consumers generalizing s with
  | nil => exact ⟨.refl s, rfl⟩
  | cons c cs ih =>
    obtain ⟨hframe, hnew⟩ := ih (s.addConsumer c)
    have hfirst : Frame s (s.addConsumer c) := ⟨rfl, rfl, rfl, rfl⟩
    exact ⟨hfirst.trans hframe, hnew⟩

theorem prefix_replaced_addConsumers :
    s.replaced <+: (s.addConsumers consumers).replaced := by
  induction consumers generalizing s with
  | nil => exact List.prefix_refl _
  | cons c cs ih => exact (List.prefix_append _ _).trans (ih (s.addConsumer c))

/-- **No consumer is overwritten** exactly when the topics added are new and pairwise different. -/
theorem addConsumers_replaced :
    (s.addConsumers consumers).replaced = s.replaced ↔
      (consumers.map TopicConsumer.topic).Nodup ∧
        ∀ t ∈ consumers.map TopicConsumer.topic, t ∉ s.consumers := by
  induction consumers generalizing s with
  | nil =>
    refine ⟨fun _ => ⟨List.nodup_nil, ?_⟩, fun _ => rfl⟩
    intro t ht
    cases ht
  | cons c cs ih =>
    have hmem (t : String) : t ∈ (s.addConsumer c).consumers ↔ c.topic = t ∨ t ∈ s.consumers := by
      show t ∈ s.consumers.insert c.topic c ↔ _
      rw [Std.TreeMap.mem_insert, Std.LawfulEqCmp.compare_eq_iff_eq]
    show ((s.addConsumer c).addConsumers cs).replaced = _ ↔ _
    rw [List.map_cons, List.nodup_cons, List.forall_mem_cons]
    by_cases hc : c.topic ∈ s.consumers
    · -- it is overwritten, and stays recorded
      have hsome : s.consumers[c.topic]?.isSome := Std.TreeMap.isSome_getElem?_iff_mem.mpr hc
      have hlength := (prefix_replaced_addConsumers cs (s.addConsumer c)).length_le
      have hmore : (s.addConsumer c).replaced.length = s.replaced.length + 1 := by
        show (s.replaced ++ s.consumers[c.topic]?.toList).length = _
        obtain ⟨old, hold⟩ := Option.isSome_iff_exists.mp hsome
        rw [hold, List.length_append]
        rfl
      constructor
      · intro h
        rw [h] at hlength
        omega
      · intro h
        exact absurd hc h.2.1
    · have hsame : (s.addConsumer c).replaced = s.replaced := by
        show s.replaced ++ s.consumers[c.topic]?.toList = _
        rw [Std.TreeMap.getElem?_eq_none hc]
        exact List.append_nil _
      rw [← hsame, ih]
      constructor
      · rintro ⟨hnodup, hnew⟩
        refine ⟨⟨fun hmem' => ?_, hnodup⟩, hc, fun t ht hs => ?_⟩
        · exact hnew c.topic hmem' ((hmem c.topic).mpr (Or.inl rfl))
        · exact hnew t ht ((hmem t).mpr (Or.inr hs))
      · rintro ⟨⟨hfirst, hnodup⟩, -, hnew⟩
        refine ⟨hnodup, fun t ht hs => ?_⟩
        rcases (hmem t).mp hs with rfl | hs
        · exact hfirst ht
        · exact hnew t ht hs

end Added

section Removed

theorem removeConsumer_keeps (s : MultiTopicConsumer) (topic : String) :
    (s.removeConsumer topic).existingTopics = s.existingTopics ∧
      (s.removeConsumer topic).newConsumers = s.newConsumers ∧
      (s.removeConsumer topic).replaced = s.replaced ∧ Frame s (s.removeConsumer topic) := by
  unfold removeConsumer
  split
  · exact ⟨rfl, rfl, rfl, .refl s⟩
  · exact ⟨rfl, rfl, rfl, ⟨rfl, rfl, rfl, rfl⟩⟩

theorem mem_removeConsumer (s : MultiTopicConsumer) (topic t : String) :
    t ∈ (s.removeConsumer topic).consumers ↔ t ∈ s.consumers ∧ t ≠ topic := by
  unfold removeConsumer
  split
  · rename_i hnone
    refine ⟨fun ht => ⟨ht, ?_⟩, And.left⟩
    rintro rfl
    rw [← Std.TreeMap.isSome_getElem?_iff_mem, hnone] at ht
    cases ht
  · show t ∈ s.consumers.erase topic ↔ _
    rw [Std.TreeMap.mem_erase, Ne, Std.LawfulEqCmp.compare_eq_iff_eq]
    exact ⟨fun h => ⟨h.2, fun heq => h.1 heq.symm⟩, fun h => ⟨fun heq => h.2 heq.symm, h.1⟩⟩

theorem foldl_removeConsumer (topics : List String) (s : MultiTopicConsumer) :
    (topics.foldl removeConsumer s).existingTopics = s.existingTopics ∧
      (topics.foldl removeConsumer s).newConsumers = s.newConsumers ∧
      (topics.foldl removeConsumer s).replaced = s.replaced ∧
      Frame s (topics.foldl removeConsumer s) ∧
      ∀ t, t ∈ (topics.foldl removeConsumer s).consumers ↔ t ∈ s.consumers ∧ t ∉ topics := by
  induction topics generalizing s with
  | nil => exact ⟨rfl, rfl, rfl, .refl s, fun t => ⟨fun h => ⟨h, List.not_mem_nil⟩, And.left⟩⟩
  | cons topic topics ih =>
    obtain ⟨hexisting, hnew, hreplaced, hframe, hmem⟩ := ih (s.removeConsumer topic)
    obtain ⟨hexisting', hnew', hreplaced', hframe'⟩ := removeConsumer_keeps s topic
    refine ⟨hexisting.trans hexisting', hnew.trans hnew', hreplaced.trans hreplaced',
      hframe'.trans hframe, fun t => ?_⟩
    rw [List.foldl_cons, hmem, mem_removeConsumer, List.mem_cons, not_or, and_assoc]

/-- **The rotation** drops the topics whose consumers failed, from both. -/
theorem rotate_spec (s : MultiTopicConsumer) (items : Nat → Item μ) :
    (s.rotate items).1.newConsumers = s.newConsumers ∧
      (s.rotate items).1.replaced = s.replaced ∧ Frame s (s.rotate items).1 ∧
      ∃ failed : List String,
        (∀ t, (s.rotate items).1.existingTopics.count t =
          if t ∈ failed then 0 else s.existingTopics.count t) ∧
        ∀ t, t ∈ (s.rotate items).1.consumers ↔ t ∈ s.consumers ∧ t ∉ failed := by
  obtain ⟨r, hr⟩ : ∃ r, Rotation.loop items s.existingTopics.length 0
    { existingTopics := s.existingTopics, consumers := s.consumers, topicsToRemove := [],
      result := none } = r := ⟨_, rfl⟩
  have hcount (t : String) : r.existingTopics.count t = s.existingTopics.count t := by
    rw [← hr, Rotation.count_loop]
  have hmem (t : String) : t ∈ r.consumers ↔ t ∈ s.consumers := by
    rw [← hr, Rotation.mem_loop]
  obtain ⟨hexisting, hnew, hreplaced, hframe, hkept⟩ := foldl_removeConsumer r.topicsToRemove
    { s with
      consumers := r.consumers
      existingTopics := r.existingTopics.filter fun t => !r.topicsToRemove.contains t }
  have hrotate : (s.rotate items).1 =
      { s with existingTopics := r.existingTopics, consumers := r.consumers }.removeConsumers
        r.topicsToRemove := by
    unfold rotate
    rw [hr]
  rw [hrotate]
  refine ⟨hnew, hreplaced, ⟨hframe.topics, hframe.requestedTopics, hframe.topicRegex,
    hframe.refresh⟩, r.topicsToRemove, fun t => ?_, fun t => ?_⟩
  · show List.count t (List.foldl removeConsumer _ r.topicsToRemove).existingTopics = _
    rw [hexisting]
    split
    · rename_i hfailed
      apply List.count_eq_zero_of_not_mem
      intro ht
      have hnot := (List.mem_filter.mp ht).2
      rw [List.contains_iff_mem.mpr hfailed] at hnot
      cases hnot
    · rename_i hfailed
      rw [← hcount, List.count_filter]
      rw [Bool.not_eq_true', List.contains_eq_mem, decide_eq_false_iff_not]
      exact hfailed
  · show t ∈ (List.foldl removeConsumer _ r.topicsToRemove).consumers ↔ _
    rw [hkept, ← hmem]

end Removed

/-- The future of a refresh is not ready, or fails, or hands over its consumers. -/
theorem pollNewConsumers_cases (s : MultiTopicConsumer) (answer : Option Answers) :
    (s.pollNewConsumers answer = s ∧ (s.newConsumers = none ∨ answer = none)) ∨
    ∃ u a, s.newConsumers = some u ∧ answer = some a ∧
      ((u.run a = none ∧ s.pollNewConsumers answer = { s with newConsumers := none }) ∨
        ∃ consumers, u.run a = some consumers ∧
          s.pollNewConsumers answer = { s with newConsumers := none }.addConsumers consumers) := by
  unfold pollNewConsumers
  cases hu : s.newConsumers with
  | none => exact Or.inl ⟨rfl, Or.inl rfl⟩
  | some u =>
    cases answer with
    | none => exact Or.inl ⟨rfl, Or.inr rfl⟩
    | some a =>
      refine Or.inr ⟨u, a, rfl, rfl, ?_⟩
      cases hrun : u.run a with
      | none => exact Or.inl ⟨rfl, by simp only [hrun]⟩
      | some consumers => exact Or.inr ⟨consumers, rfl, by simp only [hrun]⟩

end MultiTopicConsumer

/-- What a refresh hands over. -/
theorem Update.run_some {u : Update} {a : Answers} {consumers : List TopicConsumer} :
    u.run a = some consumers ↔
      ∃ found, u.found a = some found ∧ (List.range (u.missing found).length).all a.created ∧
        consumers = (u.missing found).map TopicConsumer.new := by
  unfold Update.run
  cases u.found a with
  | none =>
    constructor
    · intro h
      cases h
    · rintro ⟨_, h, _⟩
      cases h
  | some found =>
    show createAll a (u.missing found) = _ ↔ _
    unfold createAll
    constructor
    · intro h
      split at h
      · rename_i hall
        exact ⟨found, rfl, hall, (Option.some.inj h).symm⟩
      · cases h
    · rintro ⟨found', hfound, hall, rfl⟩
      obtain rfl := Option.some.inj hfound
      rw [if_pos hall]

theorem map_topic_new (topics : List String) :
    (topics.map TopicConsumer.new).map TopicConsumer.topic = topics := by
  rw [List.map_map]
  exact List.map_id topics

/-! ## The list and the map -/

/-- Every topic there is a consumer of is listed once, and no other is. -/
def InStep (s : MultiTopicConsumer) : Prop :=
  ∀ t, s.existingTopics.count t = if t ∈ s.consumers then 1 else 0

/-- … and no consumer was overwritten. -/
def Good (s : MultiTopicConsumer) : Prop := InStep s ∧ s.replaced = []

/-- What holds of every consumer: the topics listed are those there are consumers of, and a refresh
    under way knows them. -/
structure Known (s : MultiTopicConsumer) : Prop where
  listed : ∀ t, t ∈ s.existingTopics ↔ t ∈ s.consumers
  snapshot : ∀ u, s.newConsumers = some u → ∀ t ∈ s.existingTopics, t ∈ u.existingTopics

/-- The refresh finds no topic twice that is not listed yet — or cannot consume all it finds. -/
def Update.FindsOnce (u : Update) (a : Answers) : Prop :=
  ∀ found, u.found a = some found → (List.range (u.missing found).length).all a.created →
    (u.missing found).Nodup

/-- The step does not complete a refresh that finds a topic twice. -/
def FindsOnce {μ : Type} (s : MultiTopicConsumer) : Action μ → Prop
  | .update answer => ∀ u a, s.newConsumers = some u → answer = some a → u.FindsOnce a
  | .tick => True
  | .rotate _ => True
  | .seek _ _ => True

/-- … and neither does `build`. -/
def ConsumerBuilder.FindsOnce (b : ConsumerBuilder) (a initial : Answers) : Prop :=
  ∀ joinedTopics u, b.topicRegex.isSome → b.validate a = .ok joinedTopics →
    (b.multi (joinedTopics.map TopicConsumer.new)).updateTopics.newConsumers = some u →
    u.FindsOnce initial

theorem inStep_keys {s : MultiTopicConsumer} (h : s.existingTopics = s.consumers.keys) :
    InStep s := by
  intro t
  rw [h, count_keys]

theorem InStep.listed {s : MultiTopicConsumer} (h : InStep s) (t : String) :
    t ∈ s.existingTopics ↔ t ∈ s.consumers := by
  have ht := h t
  rw [← List.count_pos_iff, ht]
  split
  · rename_i hmem
    exact ⟨fun _ => hmem, fun _ => Nat.one_pos⟩
  · rename_i hmem
    exact ⟨fun hpos => absurd hpos (Nat.lt_irrefl 0), fun hmem' => absurd hmem' hmem⟩

/-- What a refresh misses is new. -/
theorem Known.new {s : MultiTopicConsumer} (h : Known s) {u : Update} (hu : s.newConsumers = some u)
    (found : List String) : ∀ t ∈ u.missing found, t ∉ s.consumers := by
  intro t ht hmem
  have hnot := (List.mem_filter.mp ht).2
  have hsnapshot := h.snapshot u hu t ((h.listed t).mpr hmem)
  rw [List.contains_iff_mem.mpr hsnapshot] at hnot
  cases hnot

section Steps

variable {μ : Type} {s : MultiTopicConsumer}

theorem Known.addConsumers (h : Known s) (hnone : s.newConsumers = none)
    (consumers : List TopicConsumer) : Known (s.addConsumers consumers) := by
  constructor
  · intro t
    rw [MultiTopicConsumer.existingTopics_addConsumers, MultiTopicConsumer.mem_addConsumers,
      List.mem_append, h.listed]
  · intro u hu
    rw [(MultiTopicConsumer.frame_addConsumers consumers s).2, hnone] at hu
    cases hu

theorem Known.taken (h : Known s) : Known { s with newConsumers := none } := by
  refine ⟨h.listed, fun u hu => ?_⟩
  cases hu

theorem Known.pollNewConsumers (h : Known s) (answer : Option Answers) :
    Known (s.pollNewConsumers answer) := by
  rcases s.pollNewConsumers_cases answer with
    ⟨heq, -⟩ | ⟨u, a, -, -, ⟨-, heq⟩ | ⟨consumers, -, heq⟩⟩
  · rw [heq]
    exact h
  · rw [heq]
    exact h.taken
  · rw [heq]
    exact h.taken.addConsumers rfl consumers

theorem Known.updateTopics (h : Known s) : Known s.updateTopics := by
  refine ⟨h.listed, fun u hu t ht => ?_⟩
  obtain rfl := Option.some.inj hu
  exact ht

theorem Known.rotate (h : Known s) (items : Nat → Item μ) : Known (s.rotate items).1 := by
  obtain ⟨hnew, -, -, failed, hcount, hmem⟩ := s.rotate_spec items
  have hlisted (t : String) :
      t ∈ (s.rotate items).1.existingTopics ↔ t ∈ s.existingTopics ∧ t ∉ failed := by
    rw [← List.count_pos_iff, hcount, ← List.count_pos_iff (l := s.existingTopics)]
    split
    · rename_i hfailed
      exact ⟨fun hpos => absurd hpos (Nat.lt_irrefl 0), fun hnot => absurd hfailed hnot.2⟩
    · rename_i hfailed
      exact ⟨fun hpos => ⟨hpos, hfailed⟩, And.left⟩
  constructor
  · intro t
    rw [hlisted, hmem, h.listed]
  · intro u hu t ht
    exact h.snapshot u (hnew ▸ hu) t ((hlisted t).mp ht).1

/-- What `seek` makes. -/
theorem seek_some {s' : MultiTopicConsumer} {consumerIds : Option (List String)} {a : SeekAnswers}
    (h : s.seek consumerIds a = some s') :
    s'.consumers = collect (s.topics.map TopicConsumer.new) ∧
      s'.existingTopics = s'.consumers.keys ∧ s'.topics = s'.consumers.keys ∧
      s'.newConsumers = none ∧ s'.replaced = s.replaced ∧ s'.refresh = defaultRefresh ∧
      s'.requestedTopics = s.requestedTopics ∧ s'.topicRegex = s.topicRegex := by
  unfold MultiTopicConsumer.seek at h
  split at h
  · obtain rfl := Option.some.inj h
    exact ⟨rfl, rfl, rfl, rfl, rfl, rfl, rfl, rfl⟩
  · cases h

theorem known_seek {s' : MultiTopicConsumer} {consumerIds : Option (List String)} {a : SeekAnswers}
    (h : s.seek consumerIds a = some s') : Known s' := by
  obtain ⟨-, hexisting, -, hnone, -⟩ := seek_some h
  refine ⟨(inStep_keys hexisting).listed, fun u hu => ?_⟩
  rw [hnone] at hu
  cases hu

/-- **The step lemma** of what always holds. -/
theorem Known.step {b : ConsumerBuilder} {s' : MultiTopicConsumer} {action : Action μ} (h : Known s)
    (hs : (consumer μ b).step s action = some s') : Known s' := by
  obtain rfl : s.act action = s' := Option.some.inj hs
  cases action with
  | update answer => exact h.pollNewConsumers answer
  | tick => exact h.updateTopics
  | rotate items => exact h.rotate items
  | seek consumerIds a =>
    show Known ((s.seek consumerIds a).getD s)
    cases hseek : s.seek consumerIds a with
    | none => exact h
    | some s' => exact known_seek hseek

/-- Adding consumers keeps the two in step when, and only when, it overwrites none. -/
theorem good_addConsumers (hgood : Good s) (consumers : List TopicConsumer) :
    Good (s.addConsumers consumers) ↔
      (consumers.map TopicConsumer.topic).Nodup ∧
        ∀ t ∈ consumers.map TopicConsumer.topic, t ∉ s.consumers := by
  obtain ⟨hstep, hreplaced⟩ := hgood
  rw [← MultiTopicConsumer.addConsumers_replaced, hreplaced]
  refine ⟨And.right, fun h => ⟨fun t => ?_, h⟩⟩
  obtain ⟨hnodup, hnew⟩ :=
    (MultiTopicConsumer.addConsumers_replaced consumers s).mp (h.trans hreplaced.symm)
  rw [MultiTopicConsumer.existingTopics_addConsumers, List.count_append, hstep t]
  by_cases ht : t ∈ consumers.map TopicConsumer.topic
  · rw [List.count_eq_one_of_mem hnodup ht, if_neg (hnew t ht),
      if_pos ((MultiTopicConsumer.mem_addConsumers consumers s t).mpr (Or.inr ht))]
  · rw [List.count_eq_zero_of_not_mem ht, Nat.add_zero]
    congr 1
    rw [MultiTopicConsumer.mem_addConsumers, or_iff_left ht]

/-- One refresh that completes. -/
theorem good_update (h : Known s) (hgood : Good s) {u : Update} (hu : s.newConsumers = some u)
    (a : Answers) : Good (s.pollNewConsumers (some a)) ↔ u.FindsOnce a := by
  have hgood' : Good { s with newConsumers := none } := hgood
  rcases s.pollNewConsumers_cases (some a) with
    ⟨-, hnone | hnone⟩ | ⟨u', a', hu', ha', hcase⟩
  · rw [hu] at hnone
    cases hnone
  · cases hnone
  obtain rfl := Option.some.inj (hu.symm.trans hu')
  obtain rfl := Option.some.inj ha'
  rcases hcase with ⟨hrun, heq⟩ | ⟨consumers, hrun, heq⟩
  · rw [heq]
    refine ⟨fun _ found hfound hall => ?_, fun _ => hgood'⟩
    rw [Update.run_some.mpr ⟨found, hfound, hall, rfl⟩] at hrun
    cases hrun
  · obtain ⟨found, hfound, hall, rfl⟩ := Update.run_some.mp hrun
    rw [heq, good_addConsumers hgood', map_topic_new]
    constructor
    · rintro ⟨hnodup, -⟩ found' hfound' -
      obtain rfl := Option.some.inj (hfound.symm.trans hfound')
      exact hnodup
    · intro honce
      exact ⟨honce found hfound hall, h.new hu found⟩

theorem good_rotate (hgood : Good s) (items : Nat → Item μ) : Good (s.rotate items).1 := by
  obtain ⟨-, hreplaced, -, failed, hcount, hmem⟩ := s.rotate_spec items
  refine ⟨fun t => ?_, hreplaced.trans hgood.2⟩
  rw [hcount, hgood.1 t]
  by_cases hfailed : t ∈ failed
  · rw [if_pos hfailed, if_neg fun h => ((hmem t).mp h).2 hfailed]
  · rw [if_neg hfailed]
    congr 1
    rw [hmem, and_iff_left hfailed]

theorem good_seek {s' : MultiTopicConsumer} (hgood : Good s) {consumerIds : Option (List String)}
    {a : SeekAnswers} (h : s.seek consumerIds a = some s') : Good s' := by
  obtain ⟨-, hexisting, -, -, hreplaced, -⟩ := seek_some h
  exact ⟨inStep_keys hexisting, hreplaced.trans hgood.2⟩

/-- **The step lemma**: the two stay in step exactly when no topic is found twice. -/
theorem good_step {b : ConsumerBuilder} {s' : MultiTopicConsumer} {action : Action μ} (h : Known s)
    (hgood : Good s) (hs : (consumer μ b).step s action = some s') :
    Good s' ↔ FindsOnce s action := by
  obtain rfl : s.act action = s' := Option.some.inj hs
  cases action with
  | tick => exact ⟨fun _ => trivial, fun _ => hgood⟩
  | rotate items => exact ⟨fun _ => trivial, fun _ => good_rotate hgood items⟩
  | seek consumerIds a =>
    refine ⟨fun _ => trivial, fun _ => ?_⟩
    show Good ((s.seek consumerIds a).getD s)
    cases hseek : s.seek consumerIds a with
    | none => exact hgood
    | some s' => exact good_seek hgood hseek
  | update answer =>
    show Good (s.pollNewConsumers answer) ↔ _
    cases hu : s.newConsumers with
    | none =>
      have hsame : s.pollNewConsumers answer = s := by
        unfold MultiTopicConsumer.pollNewConsumers
        rw [hu]
      rw [hsame]
      refine ⟨fun _ u a hu' _ => ?_, fun _ => hgood⟩
      rw [hu] at hu'
      cases hu'
    | some u =>
      cases answer with
      | none =>
        have hsame : s.pollNewConsumers none = s := by
          unfold MultiTopicConsumer.pollNewConsumers
          rw [hu]
        rw [hsame]
        refine ⟨fun _ u a _ ha => ?_, fun _ => hgood⟩
        cases ha
      | some a =>
        rw [good_update h hgood hu a]
        constructor
        · rintro honce u' a' hu' ha'
          obtain rfl := Option.some.inj (hu.symm.trans hu')
          obtain rfl := Option.some.inj ha'
          exact honce
        · intro honce
          exact honce u a hu rfl

end Steps

/-! ## From `build` on -/

section Built

variable {b : ConsumerBuilder} {a initial : Answers} {s : MultiTopicConsumer}

theorem createAll_some {topics : List String} {consumers : List TopicConsumer}
    (h : createAll a topics = some consumers) : consumers = topics.map TopicConsumer.new := by
  unfold createAll at h
  split at h
  · exact (Option.some.inj h).symm
  · cases h

/-- `build` makes the consumer of the topics it was given and, for a regex, completes one update. -/
theorem build_multi (h : b.build a initial = .ok (.Multi s)) :
    ∃ joinedTopics, b.validate a = .ok joinedTopics ∧
      ((b.topicRegex = none ∧ s = b.multi (joinedTopics.map TopicConsumer.new)) ∨
        (b.topicRegex.isSome ∧
          s = (b.multi (joinedTopics.map TopicConsumer.new)).updateTopics.pollNewConsumers
            (some initial))) := by
  unfold ConsumerBuilder.build at h
  split at h
  · cases h
  rename_i joinedTopics hvalid
  split at h
  · cases h
  rename_i consumers hcreated
  obtain rfl := createAll_some hcreated
  refine ⟨joinedTopics, hvalid, ?_⟩
  split at h
  · cases h
  · split at h
    · rename_i hregex
      obtain ⟨u, hu⟩ : ∃ u, (b.multi (joinedTopics.map TopicConsumer.new)).updateTopics.newConsumers =
        some u := ⟨_, rfl⟩
      rw [hu] at h
      cases hrun : u.run initial with
      | none =>
        simp only [Option.bind_some, hrun] at h
        cases h
      | some initialConsumers =>
        simp only [Option.bind_some, hrun] at h
        refine Or.inr ⟨hregex, ?_⟩
        unfold MultiTopicConsumer.pollNewConsumers
        rw [hu]
        simp only [hrun]
        exact (InnerConsumer.Multi.inj (Except.ok.inj h)).symm
    · rename_i hregex
      refine Or.inl ⟨Option.not_isSome_iff_eq_none.mp hregex, ?_⟩
      exact (InnerConsumer.Multi.inj (Except.ok.inj h)).symm

theorem known_multi (b : ConsumerBuilder) (consumers : List TopicConsumer) : Known (b.multi consumers) := by
  refine ⟨(inStep_keys rfl).listed, fun u hu => ?_⟩
  cases hu

theorem good_multi (b : ConsumerBuilder) (consumers : List TopicConsumer) : Good (b.multi consumers) :=
  ⟨inStep_keys rfl, rfl⟩

theorem known_build (h : b.build a initial = .ok (.Multi s)) : Known s := by
  obtain ⟨joinedTopics, -, ⟨-, rfl⟩ | ⟨-, rfl⟩⟩ := build_multi h
  · exact known_multi b _
  · exact (known_multi b _).updateTopics.pollNewConsumers _

theorem good_build (h : b.build a initial = .ok (.Multi s)) :
    Good s ↔ b.FindsOnce a initial := by
  obtain ⟨joinedTopics, hvalid, ⟨hregex, rfl⟩ | ⟨hregex, rfl⟩⟩ := build_multi h
  · refine ⟨fun _ joinedTopics u hsome => ?_, fun _ => good_multi b _⟩
    rw [hregex] at hsome
    cases hsome
  · obtain ⟨u, hu⟩ : ∃ u, (b.multi (joinedTopics.map TopicConsumer.new)).updateTopics.newConsumers =
      some u := ⟨_, rfl⟩
    rw [good_update (known_multi b _).updateTopics (good_multi b _) hu]
    constructor
    · intro honce joinedTopics' u' _ hvalid' hu'
      obtain rfl := Except.ok.inj (hvalid.symm.trans hvalid')
      obtain rfl := Option.some.inj (hu.symm.trans hu')
      exact honce
    · intro honce
      exact honce joinedTopics u hregex hvalid hu

end Built

/-- **The list of topics and the map of consumers stay in step, and no consumer is overwritten,**
    exactly in the runs in which no refresh finds a topic twice that is not listed yet. -/
theorem inStep_iff {μ : Type} (b : ConsumerBuilder) (a initial : Answers) (s : MultiTopicConsumer)
    (h : b.build a initial = .ok (.Multi s)) (actions : List (Action μ)) :
    (consumer μ b).Along (fun s => InStep s ∧ s.replaced = []) s actions ↔
      b.FindsOnce a initial ∧ (consumer μ b).Guarded FindsOnce s actions := by
  have hrun (hgood : Good s) :
      (consumer μ b).Along Good s actions ↔ (consumer μ b).Guarded FindsOnce s actions :=
    Sys.along_iff_guarded (I := Known) (fun _ _ _ hknown hs => hknown.step hs)
      (fun _ _ _ hknown hgood hs => good_step hknown hgood hs) actions s (known_build h) hgood
  constructor
  · intro halong
    have hgood : Good s := halong.head
    exact ⟨(good_build h).mp hgood, (hrun hgood).mp halong⟩
  · rintro ⟨honce, hguarded⟩
    exact (hrun ((good_build h).mpr honce)).mpr hguarded

/-! ### A topic named and matched -/

/-- "persistent://public/default/orders" -/
def orders : String := "persistent://public/default/orders"

/-- The topic by its name, and everything of the namespace. -/
def overlap : ConsumerBuilder :=
  { topics := some [orders], topicRegex := some fun _ => true, «namespace» := none,
    topicRefresh := none }

/-- The brokers while the topic has `n` partitions: the first name looked up is that of the topic, the
    others are those of its partitions, as the namespace lists them. -/
def broker (n : UInt32) : Answers where
  getTopicsOfNamespace _ := some ((List.range n.toNat).map (partitionName orders))
  lookup i :=
    { number := some (if i = 0 then n else 0), found := fun _ => true, created := fun _ => true }
  created _ := true

/-- `build` gives a multi-topic consumer with `p`. -/
def ConsumerBuilder.builds (b : ConsumerBuilder) (a initial : Answers)
    (p : MultiTopicConsumer → Bool) : Bool :=
  match b.build a initial with
  | .ok (.Multi s) => p s
  | _ => false

theorem exists_of_builds (b : ConsumerBuilder) (a initial : Answers) (p : MultiTopicConsumer → Bool)
    (h : b.builds a initial p = true) :
    ∃ s, b.build a initial = .ok (.Multi s) ∧ p s = true := by
  unfold ConsumerBuilder.builds at h
  split at h
  · rename_i s hs
    exact ⟨s, hs, h⟩
  · cases h

theorem inStep_iff_overlap :
    ∃ s, overlap.build (broker 1) (broker 1) = .ok (.Multi s) ∧
      ((consumer Unit overlap).Along (fun s => InStep s ∧ s.replaced = []) s
          [.tick, .update (some (broker 1))] ↔
        overlap.FindsOnce (broker 1) (broker 1) ∧
          (consumer Unit overlap).Guarded FindsOnce s [.tick, .update (some (broker 1))]) := by
  obtain ⟨s, hs, -⟩ := exists_of_builds overlap (broker 1) (broker 1)
    (fun _ => true) (by decide +kernel)
  exact ⟨s, hs, inStep_iff overlap (broker 1) (broker 1) s hs _⟩

/-- The partition the topic gains is found under the topic's name and in the namespace: two consumers
    of it, one overwritten, and its name twice in the rotation. -/
theorem partition_found_twice :
    ∃ s s', overlap.build (broker 1) (broker 1) = .ok (.Multi s) ∧
      (consumer Unit overlap).exec s [.tick, .update (some (broker 2))] = some s' ∧
      s'.consumers.keys = [partitionName orders 0, partitionName orders 1] ∧
      s'.existingTopics =
        [partitionName orders 0, partitionName orders 1, partitionName orders 1] ∧
      s'.replaced = [.new (partitionName orders 1)] := by
  obtain ⟨s, hs, hrun⟩ := exists_of_builds overlap (broker 1) (broker 1)
    (fun s => ((consumer Unit overlap).exec s [.tick, .update (some (broker 2))]).any fun s' =>
      s'.consumers.keys = [partitionName orders 0, partitionName orders 1] ∧
      s'.existingTopics =
        [partitionName orders 0, partitionName orders 1, partitionName orders 1] ∧
      s'.replaced = [.new (partitionName orders 1)]) (by decide +kernel)
  obtain ⟨s', hs', hp⟩ := (Option.any_eq_true _ _).mp hrun
  exact ⟨s, s', hs, hs', of_decide_eq_true hp⟩

/-! ## `seek` -/

/-- After `seek` the same topics are consumed, and looked up as the builder was told. -/
structure Kept (b : ConsumerBuilder) (s s' : MultiTopicConsumer) : Prop where
  existingTopics : ∀ t, t ∈ s'.existingTopics ↔ t ∈ s.existingTopics
  consumers : ∀ t, t ∈ s'.consumers ↔ t ∈ s.consumers
  refresh : s'.refresh = b.topicRefresh.getD defaultRefresh
  requestedTopics : s'.requestedTopics = b.topics.getD []
  topicRegex : s'.topicRegex = b.topicRegex

/-- What a builder's consumer carries along. -/
structure Carries (b : ConsumerBuilder) (s : MultiTopicConsumer) : Prop where
  known : Known s
  requestedTopics : s.requestedTopics = b.topics.getD []
  topicRegex : s.topicRegex = b.topicRegex

theorem Carries.of_frame {b : ConsumerBuilder} {s s' : MultiTopicConsumer} (h : Carries b s)
    (hknown : Known s') (hframe : Frame s s') : Carries b s' :=
  ⟨hknown, hframe.requestedTopics.trans h.requestedTopics, hframe.topicRegex.trans h.topicRegex⟩

theorem frame_pollNewConsumers (s : MultiTopicConsumer) (answer : Option Answers) :
    Frame s (s.pollNewConsumers answer) := by
  rcases s.pollNewConsumers_cases answer with
    ⟨heq, -⟩ | ⟨u, a, -, -, ⟨-, heq⟩ | ⟨consumers, -, heq⟩⟩
  · rw [heq]
    exact .refl s
  · rw [heq]
    exact ⟨rfl, rfl, rfl, rfl⟩
  · rw [heq]
    have htaken : Frame s { s with newConsumers := none } := ⟨rfl, rfl, rfl, rfl⟩
    exact htaken.trans (MultiTopicConsumer.frame_addConsumers consumers _).1

theorem carries_build {b : ConsumerBuilder} {a initial : Answers} {s : MultiTopicConsumer}
    (h : b.build a initial = .ok (.Multi s)) : Carries b s := by
  have hmulti (consumers : List TopicConsumer) : Carries b (b.multi consumers) :=
    ⟨known_multi b consumers, rfl, rfl⟩
  obtain ⟨joinedTopics, -, ⟨-, rfl⟩ | ⟨-, rfl⟩⟩ := build_multi h
  · exact hmulti _
  · have hupdate (consumers : List TopicConsumer) :
        Frame (b.multi consumers) (b.multi consumers).updateTopics := ⟨rfl, rfl, rfl, rfl⟩
    exact (hmulti _).of_frame (known_build h) ((hupdate _).trans (frame_pollNewConsumers _ _))

theorem Carries.step {μ : Type} {b : ConsumerBuilder} {s s' : MultiTopicConsumer}
    {action : Action μ} (h : Carries b s) (hs : (consumer μ b).step s action = some s') :
    Carries b s' := by
  have hknown := h.known.step hs
  obtain rfl : s.act action = s' := Option.some.inj hs
  cases action with
  | update answer => exact h.of_frame hknown (frame_pollNewConsumers s answer)
  | tick => exact h.of_frame hknown ⟨rfl, rfl, rfl, rfl⟩
  | rotate items => exact h.of_frame hknown (s.rotate_spec items).2.2.1
  | seek consumerIds a =>
    show Carries b ((s.seek consumerIds a).getD s)
    cases hseek : s.seek consumerIds a with
    | none => exact h
    | some s' =>
      obtain ⟨-, -, -, -, -, -, hrequested, hregex⟩ := seek_some hseek
      exact ⟨known_seek hseek, hrequested.trans h.requestedTopics, hregex.trans h.topicRegex⟩

theorem carries_of_reach {μ : Type} {b : ConsumerBuilder} {s : MultiTopicConsumer}
    (h : (consumer μ b).Reach s) : Carries b s := by
  refine Sys.ReachIf.inv (Carries b) ?_ (fun _ _ _ hcarries _ hs => hcarries.step hs) h
  rintro s ⟨a, initial, hbuild⟩
  exact carries_build hbuild

/-- **`seek` keeps what is consumed** exactly when that is what the consumer was built with, and it
    was built with the default refresh interval. -/
theorem seek_kept_iff {μ : Type} (b : ConsumerBuilder) (s s' : MultiTopicConsumer)
    (hreach : (consumer μ b).Reach s) (consumerIds : Option (List String)) (a : SeekAnswers)
    (h : s.seek consumerIds a = some s') :
    Kept b s s' ↔
      (∀ t, t ∈ s.topics ↔ t ∈ s.existingTopics) ∧
        b.topicRefresh.getD defaultRefresh = defaultRefresh := by
  have hcarries := carries_of_reach hreach
  obtain ⟨hconsumers, hexisting, -, -, -, hrefresh, hrequested, hregex⟩ := seek_some h
  have hmem (t : String) : t ∈ s'.consumers ↔ t ∈ s.topics := by
    rw [hconsumers, mem_collect]
  have hlisted (t : String) : t ∈ s'.existingTopics ↔ t ∈ s.topics := by
    rw [hexisting, Std.TreeMap.mem_keys, hmem]
  constructor
  · intro hkept
    refine ⟨fun t => ?_, hkept.refresh.symm.trans hrefresh⟩
    rw [← hlisted, hkept.existingTopics]
  · rintro ⟨htopics, hdefault⟩
    refine ⟨fun t => ?_, fun t => ?_, hrefresh.trans hdefault.symm,
      hrequested.trans hcarries.requestedTopics, hregex.trans hcarries.topicRegex⟩
    · rw [hlisted, htopics]
    · rw [hmem, htopics, hcarries.known.listed]

/-- Everything succeeds. -/
def found : SeekAnswers := ⟨fun _ => true, fun _ => true, fun _ => true⟩

theorem seek_kept_iff_overlap :
    ∃ s s', (consumer Unit overlap).Reach s ∧ s.seek (some []) found = some s' ∧
      (Kept overlap s s' ↔ (∀ t, t ∈ s.topics ↔ t ∈ s.existingTopics) ∧
        overlap.topicRefresh.getD defaultRefresh = defaultRefresh) := by
  obtain ⟨s, hs, hseek⟩ := exists_of_builds overlap (broker 1) (broker 1)
    (fun s => (s.seek (some []) found).isSome) (by decide +kernel)
  have hreach : (consumer Unit overlap).Reach s := .init ⟨broker 1, broker 1, hs⟩
  obtain ⟨s', hs'⟩ := Option.isSome_iff_exists.mp hseek
  exact ⟨s, s', hreach, hs', seek_kept_iff overlap s s' hreach (some []) found hs'⟩

/-- Every minute. -/
def minutely : ConsumerBuilder :=
  { topics := some [orders], topicRegex := none, «namespace» := none,
    topicRefresh := some (60 * 1000) }

/-- The partition that a refresh has found is consumed no longer, and the interval is another. -/
theorem partition_lost_by_seek :
    ∃ s s', (consumer Unit minutely).Reach s ∧ s.seek (some []) found = some s' ∧
      s.existingTopics = [partitionName orders 0, partitionName orders 1] ∧
      s'.existingTopics = [partitionName orders 0] ∧
      s'.consumers.keys = [partitionName orders 0] ∧
      s.refresh = 60 * 1000 ∧ s'.refresh = 30 * 1000 := by
  obtain ⟨s₀, hs₀, hrun⟩ := exists_of_builds minutely (broker 1) (broker 1)
    (fun s => ((consumer Unit minutely).exec s [.tick, .update (some (broker 2))]).any fun s =>
      (s.seek (some []) found).any fun s' =>
        s.existingTopics = [partitionName orders 0, partitionName orders 1] ∧
        s'.existingTopics = [partitionName orders 0] ∧
        s'.consumers.keys = [partitionName orders 0] ∧
        s.refresh = 60 * 1000 ∧ s'.refresh = 30 * 1000) (by decide +kernel)
  obtain ⟨s, hs, hrun⟩ := (Option.any_eq_true _ _).mp hrun
  obtain ⟨s', hs', hp⟩ := (Option.any_eq_true _ _).mp hrun
  have hinit : (consumer Unit minutely).Reach s₀ := .init ⟨broker 1, broker 1, hs₀⟩
  exact ⟨s, s', hinit.exec _ (Sys.guarded_true _ _) hs, hs', of_decide_eq_true hp⟩

end PulsarClient.MultiTopic
