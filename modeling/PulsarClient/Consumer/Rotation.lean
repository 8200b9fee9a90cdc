/-
  ONE POLL OF A `MultiTopicConsumer`, in closed form (`src/consumer/multi.rs`).

  The rotation goes over `existing_topics` until a topic has a message: what it passes, and the topic it
  takes the message of, move to the back in their order.

  1. `scan` — the topics passed, the message taken, the topics not come to.

  2. `Rotation.loop_scan`, `MultiTopicConsumer.rotate_scan` — the loop leaves what the scan says, and only
     topics that were passed can have failed.

  3. `taken` — the messages of a run of polls, each with its topic and when it was received.
-/
import PulsarClient.Consumer.MultiTopic

namespace PulsarClient.MultiTopic

open Runs

variable {μ : Type}

/-! ## The scan -/

/-- `Ready(Some(Ok(msg)))` -/
def Item.message : Item μ → Option (Nat × μ)
  | .Pending => none
  | .Message now msg => some (now, msg)
  | .Ended => none
  | .Failed => none

/-- What the rotation over a list of topics comes to. -/
structure Scan (μ : Type) where
  passed : List String
  /-- the topic, when its message is received, the message -/
  message : Option (String × Nat × μ)
  rest : List String

namespace Scan

/-- The topic that the message is taken of. -/
def served (c : Scan μ) : List String := (c.message.map Prod.fst).toList

end Scan

/-- The topics from the `i`-th item on. -/
def scan (consumers : Std.TreeMap String TopicConsumer) (items : Nat → Item μ) :
    Nat → List String → Scan μ
  | _, [] => ⟨[], none, []⟩
  | i, topic :: rest =>
    match consumers[topic]?, (items i).message with
    | some _, some (now, msg) => ⟨[], some (topic, now, msg), rest⟩
    | _, _ => { scan consumers items (i + 1) rest with
        passed := topic :: (scan consumers items (i + 1) rest).passed }

section Scans

variable {consumers : Std.TreeMap String TopicConsumer} {items : Nat → Item μ}

/-- The topic has no message for the scan. -/
def Idle (consumers : Std.TreeMap String TopicConsumer) (topic : String) (item : Item μ) : Prop :=
  consumers[topic]? = none ∨ item.message = none

/-- A topic is taken a message of, or passed. -/
theorem scan_cons (consumers : Std.TreeMap String TopicConsumer) (items : Nat → Item μ) (i : Nat)
    (topic : String) (rest : List String) :
    (∃ c now msg, consumers[topic]? = some c ∧ items i = .Message now msg ∧
        scan consumers items i (topic :: rest) = ⟨[], some (topic, now, msg), rest⟩) ∨
      Idle consumers topic (items i) ∧
        scan consumers items i (topic :: rest) =
          { scan consumers items (i + 1) rest with
            passed := topic :: (scan consumers items (i + 1) rest).passed } := by
  cases hc : consumers[topic]? with
  | none => exact Or.inr ⟨Or.inl hc, by rw [scan, hc]⟩
  | some c =>
    cases hitem : items i with
    | Pending => exact Or.inr ⟨Or.inr rfl, by rw [scan, hc, hitem]; rfl⟩
    | Message now msg =>
      exact Or.inl ⟨c, now, msg, rfl, rfl, by rw [scan, hc, hitem]; rfl⟩
    | Ended => exact Or.inr ⟨Or.inr rfl, by rw [scan, hc, hitem]; rfl⟩
    | Failed => exact Or.inr ⟨Or.inr rfl, by rw [scan, hc, hitem]; rfl⟩

/-- **The scan ends at a topic that has a message**, if not before it. -/
theorem scan_front {u : String} {c : TopicConsumer} (hc : consumers[u]? = some c) (i : Nat)
    (ahead behind : List String) (hmessage : (items (i + ahead.length)).message.isSome) :
    ∃ v m, (scan consumers items i (ahead ++ u :: behind)).message = some (v, m) ∧
      (v = u ∨ ∃ ahead',
        ahead = (scan consumers items i (ahead ++ u :: behind)).passed ++ v :: ahead' ∧
          (scan consumers items i (ahead ++ u :: behind)).rest = ahead' ++ u :: behind) := by
  induction ahead generalizing i with
  | nil =>
    rcases scan_cons consumers items i u behind with ⟨c', now, msg, -, -, hscan⟩ | ⟨hidle, -⟩
    · refine ⟨u, (now, msg), ?_, Or.inl rfl⟩
      rw [List.nil_append, hscan]
    · rcases hidle with hnone | hnone
      · rw [hnone] at hc
        cases hc
      · rw [List.length_nil, Nat.add_zero, hnone] at hmessage
        cases hmessage
  | cons first ahead ih =>
    rcases scan_cons consumers items i first (ahead ++ u :: behind) with
      ⟨c', now, msg, -, -, hscan⟩ | ⟨-, hscan⟩
    · refine ⟨first, (now, msg), ?_, Or.inr ⟨ahead, ?_, ?_⟩⟩
      · rw [List.cons_append, hscan]
      · rw [List.cons_append, hscan]
        rfl
      · rw [List.cons_append, hscan]
    · rw [List.length_cons, show i + (ahead.length + 1) = i + 1 + ahead.length from by omega]
        at hmessage
      obtain ⟨v, m, hserved, hplace⟩ := ih (i + 1) hmessage
      rw [List.cons_append, hscan]
      refine ⟨v, m, hserved, hplace.imp_right ?_⟩
      rintro ⟨ahead', hahead, hrest⟩
      exact ⟨ahead', congrArg (first :: ·) hahead, hrest⟩

/-- A message is taken of a consumer there is. -/
theorem consumer_of_message {i : Nat} {topics : List String} {topic : String} {now : Nat} {msg : μ}
    (h : (scan consumers items i topics).message = some (topic, now, msg)) :
    ∃ c, consumers[topic]? = some c := by
  induction topics generalizing i with
  | nil => cases h
  | cons first rest ih =>
    rcases scan_cons consumers items i first rest with
      ⟨c, now', msg', hc, -, hscan⟩ | ⟨-, hscan⟩
    · rw [hscan] at h
      cases h
      exact ⟨c, hc⟩
    · rw [hscan] at h
      exact ih h

end Scans

/-- The consumer that is served counts its message. -/
def serve (consumers : Std.TreeMap String TopicConsumer) :
    Option (String × Nat × μ) → Std.TreeMap String TopicConsumer
  | none => consumers
  | some (topic, now, _) =>
    match consumers[topic]? with
    | none => consumers
    | some c => consumers.insert topic (c.received now)

/-! ## The loop -/

namespace Rotation

/-- With a result, the loop is over. -/
theorem loop_of_result {items : Nat → Item μ} {r : Rotation μ} (h : r.result.isSome) (n i : Nat) : loop items n i r = r := by
  cases n with
  | zero => rfl
  | succ n =>
    unfold loop
    rw [if_pos h]

theorem polled_message {r : Rotation μ} {topic : String} {c : TopicConsumer}
    (hc : r.consumers[topic]? = some c) (now : Nat) (msg : μ) :
    r.polled topic (.Message now msg) =
      { r with consumers := r.consumers.insert topic (c.received now), result := some msg } := by
  unfold polled
  rw [hc]

/-- A topic without a message is passed, and may have failed. -/
theorem polled_idle {r : Rotation μ} {topic : String} {item : Item μ}
    (h : Idle r.consumers topic item) :
    ∃ failed, (∀ t ∈ failed, t = topic) ∧
      r.polled topic item = { r with topicsToRemove := r.topicsToRemove ++ failed } := by
  unfold polled
  split
  next => exact ⟨[], nofun, by rw [List.append_nil]⟩
  next => exact ⟨[], nofun, by rw [List.append_nil]⟩
  next hc =>
    rcases h with h | h
    · rw [h] at hc
      cases hc
    · cases h
  next => exact ⟨[topic], fun t ht => List.mem_singleton.mp ht, rfl⟩
  next => exact ⟨[topic], fun t ht => List.mem_singleton.mp ht, rfl⟩

/-- **The loop is the scan**, over the topics that are still in front. -/
theorem loop_scan (items : Nat → Item μ) (front back : List String) (i : Nat) (r : Rotation μ)
    (hr : r.existingTopics = front ++ back) (hnone : r.result = none) :
    ∃ failed, (∀ t ∈ failed, t ∈ (scan r.consumers items i front).passed) ∧
      loop items front.length i r =
        { existingTopics := (scan r.consumers items i front).rest ++ (back ++
            ((scan r.consumers items i front).passed ++ (scan r.consumers items i front).served))
          consumers := serve r.consumers (scan r.consumers items i front).message
          topicsToRemove := r.topicsToRemove ++ failed
          result := (scan r.consumers items i front).message.map fun m => m.2.2 } := by
  induction front generalizing back i r with
  | nil =>
    refine ⟨[], nofun, ?_⟩
    obtain ⟨existingTopics, consumers, topicsToRemove, result⟩ := r
    obtain rfl : existingTopics = back := hr
    obtain rfl : result = none := hnone
    show (_ : Rotation μ) = ⟨existingTopics ++ [], consumers, topicsToRemove ++ [], none⟩
    rw [List.append_nil, List.append_nil]
    rfl
  | cons topic front ih =>
    have hturn (item : Item μ) :
        r.turn item = { r.polled topic item with existingTopics := front ++ (back ++ [topic]) } := by
      unfold turn
      rw [hr]
      show _ = { r.polled topic item with existingTopics := front ++ (back ++ [topic]) }
      rw [← List.append_assoc]
      rfl
    have hloop : loop items (front.length + 1) i r =
        loop items front.length (i + 1) (r.turn (items i)) := by
      rw [loop, if_neg]
      rw [hnone]
      exact nofun
    rw [List.length_cons, hloop, hturn]
    rcases scan_cons r.consumers items i topic front with
      ⟨c, now, msg, hc, hitem, hscan⟩ | ⟨hidle, hscan⟩
    · rw [hscan, hitem, polled_message hc, loop_of_result rfl]
      refine ⟨[], nofun, ?_⟩
      show (_ : Rotation μ) = ⟨_, serve r.consumers (some (topic, now, msg)), _ ++ [], _⟩
      rw [serve, hc, List.append_nil]
      rfl
    · obtain ⟨failed, hfailed, hpolled⟩ := polled_idle hidle
      rw [hpolled]
      obtain ⟨failed', hfailed', hrest⟩ := ih (back ++ [topic]) (i + 1)
        { r with
          topicsToRemove := r.topicsToRemove ++ failed
          existingTopics := front ++ (back ++ [topic]) } rfl hnone
      rw [hscan, hrest]
      refine ⟨failed ++ failed', fun t ht => ?_, ?_⟩
      · rcases List.mem_append.mp ht with ht | ht
        · rw [hfailed t ht]
          exact List.mem_cons_self
        · exact List.mem_cons_of_mem topic (hfailed' t ht)
      · show (_ : Rotation μ) = ⟨_ ++ (back ++ (topic :: _ ++ _)), _, _, _⟩
        rw [← List.append_assoc r.topicsToRemove]
        simp only [List.append_assoc, List.cons_append]
        rfl

end Rotation

namespace MultiTopicConsumer

/-- What the rotation comes to. -/
def scan (s : MultiTopicConsumer) (items : Nat → Item μ) : Scan μ :=
  MultiTopic.scan s.consumers items 0 s.existingTopics

/-- **The rotation is the scan**: the topics passed and the one served go to the back, and the consumers
that failed are removed. -/
theorem rotate_scan (s : MultiTopicConsumer) (items : Nat → Item μ) :
    ∃ failed, (∀ t ∈ failed, t ∈ (s.scan items).passed) ∧
      s.rotate items =
        ({ s with
            existingTopics :=
              (s.scan items).rest ++ ((s.scan items).passed ++ (s.scan items).served)
            consumers := serve s.consumers (s.scan items).message }.removeConsumers failed,
          (s.scan items).message.map fun m => m.2.2) := by
  obtain ⟨failed, hfailed, hloop⟩ := Rotation.loop_scan items s.existingTopics [] 0
    { existingTopics := s.existingTopics, consumers := s.consumers, topicsToRemove := [],
      result := none } (List.append_nil _).symm rfl
  refine ⟨failed, hfailed, ?_⟩
  unfold rotate
  rw [hloop]
  rfl

/-! ## Runs of polls -/

/-- The consumer as its refreshes leave it to the rotation. -/
def refreshed (s : MultiTopicConsumer) (p : Poll μ) : MultiTopicConsumer :=
  s.refreshes p.update p.ticks

/-- The message that a poll takes: its topic, and when it is received. -/
def took (s : MultiTopicConsumer) (p : Poll μ) : Option (String × Nat × μ) :=
  ((s.refreshed p).scan p.items).message

/-- The consumer after a run of polls. -/
def run (s : MultiTopicConsumer) (polls : List (Poll μ)) : MultiTopicConsumer :=
  polls.foldl (fun s p => (s.pollNext p).1) s

/-- The messages taken in a run of polls. -/
def taken : MultiTopicConsumer → List (Poll μ) → List (String × Nat × μ)
  | _, [] => []
  | s, p :: polls => (s.took p).toList ++ taken (s.pollNext p).1 polls

/-- What the stream yields in a run of polls. -/
def yielded : MultiTopicConsumer → List (Poll μ) → List μ
  | _, [] => []
  | s, p :: polls => (s.pollNext p).2.toList ++ yielded (s.pollNext p).1 polls

/-- A poll yields the message it takes. -/
theorem pollNext_snd (s : MultiTopicConsumer) (p : Poll μ) :
    (s.pollNext p).2 = (s.took p).map fun m => m.2.2 := by
  obtain ⟨failed, -, hrotate⟩ := (s.refreshed p).rotate_scan p.items
  show ((s.refreshed p).rotate p.items).2 = _
  rw [hrotate]
  rfl

/-- **What is taken is what is yielded.** -/
theorem yielded_eq (s : MultiTopicConsumer) (polls : List (Poll μ)) :
    s.yielded polls = (s.taken polls).map fun m => m.2.2 := by
  induction polls generalizing s with
  | nil => rfl
  | cons p polls ih =>
    rw [yielded, taken, List.map_append, ih, pollNext_snd]
    cases s.took p with
    | none => rfl
    | some m => rfl

theorem taken_append (s : MultiTopicConsumer) (before polls : List (Poll μ)) :
    s.taken (before ++ polls) = s.taken before ++ (s.run before).taken polls := by
  induction before generalizing s with
  | nil => rfl
  | cons p before ih =>
    rw [List.cons_append, taken, taken, ih, List.append_assoc]
    rfl

end MultiTopicConsumer

section Runs

variable {s : MultiTopicConsumer}

theorem Known.refreshes (h : Known s) (update : Option Answers) (ticks : List (Option Answers)) :
    Known (s.refreshes update ticks) := by
  induction ticks generalizing s update with
  | nil => exact h.pollNewConsumers update
  | cons next ticks ih => exact ih (h.pollNewConsumers update).updateTopics next

theorem Known.pollNext (h : Known s) (p : Poll μ) : Known (s.pollNext p).1 :=
  (h.refreshes p.update p.ticks).rotate p.items

theorem known_run (hknown : Known s) (polls : List (Poll μ)) : Known (s.run polls) := by
  induction polls generalizing s with
  | nil => exact hknown
  | cons p polls ih => exact ih (hknown.pollNext p)

end Runs

end PulsarClient.MultiTopic
