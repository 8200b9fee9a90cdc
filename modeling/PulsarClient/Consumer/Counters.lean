/-
  THE COUNTERS OF A `MultiTopicConsumer` (`src/consumer/multi.rs`, `src/consumer/topic.rs`).

  `messages_received` and `last_message_received` are kept by the consumers of the topics, which are
  removed and created again.  What a consumer counted is added to `disc_messages_received` when it is
  removed; a consumer that is overwritten has counted nothing, as it was created by the same refresh.

  1. `messagesReceived`, `lastMessageReceived`, and `Latest`: the times they are taken of.

  2. `Quiet` — what refreshes and removals leave of both: the sum, and for every time one as late.

  3. `Counts` — against the messages taken.  The sum is their number.  A consumer remembers its LAST
     message only, so that its clock must not go back for the latest time to be the greatest.

  4. `counters_run` — along every run of polls.
-/
import Mathlib.Algebra.GroupWithZero.Nat
import PulsarClient.Consumer.Rotation
import PulsarClient.Lib.Values

namespace PulsarClient.MultiTopic

open Values Partitions

variable {μ : Type}

/-! ## The counters -/

namespace MultiTopicConsumer

/-- `messages_received` -/
def messagesReceived (s : MultiTopicConsumer) : Nat :=
  ((values s.consumers).map TopicConsumer.messagesReceived).sum + s.discMessagesReceived

/-- `last_message_received` -/
def lastMessageReceived (s : MultiTopicConsumer) : Option Nat :=
  ((values s.consumers).filterMap TopicConsumer.lastMessageReceived ++
    s.discLastMessageReceived.toList).max?

/-- A time that the counters remember. -/
def Latest (s : MultiTopicConsumer) (x : Nat) : Prop :=
  (∃ t : String, ∃ c, s.consumers[t]? = some c ∧ c.lastMessageReceived = some x) ∨
    s.discLastMessageReceived = some x

theorem mem_latest {s : MultiTopicConsumer} {x : Nat} :
    x ∈ (values s.consumers).filterMap TopicConsumer.lastMessageReceived ++
        s.discLastMessageReceived.toList ↔ s.Latest x := by
  rw [List.mem_append, List.mem_filterMap, Option.mem_toList]
  refine or_congr ⟨?_, ?_⟩ Iff.rfl
  · rintro ⟨c, hc, hx⟩
    obtain ⟨t, ht⟩ := mem_values.mp hc
    exact ⟨t, c, ht, hx⟩
  · rintro ⟨t, c, ht, hx⟩
    exact ⟨c, mem_values.mpr ⟨t, ht⟩, hx⟩

/-- It is the greatest of the times remembered. -/
theorem lastMessageReceived_eq_some_iff {s : MultiTopicConsumer} {x : Nat} :
    s.lastMessageReceived = some x ↔ s.Latest x ∧ ∀ y, s.Latest y → y ≤ x := by
  unfold lastMessageReceived
  rw [List.max?_eq_some_iff]
  simp only [mem_latest]

theorem lastMessageReceived_eq_none_iff {s : MultiTopicConsumer} :
    s.lastMessageReceived = none ↔ ∀ x, ¬ s.Latest x := by
  unfold lastMessageReceived
  rw [List.max?_eq_none_iff, List.eq_nil_iff_forall_not_mem]
  simp only [mem_latest]

end MultiTopicConsumer

/-! ## What refreshes and removals keep -/

/-- A consumer that has not received anything. -/
def Fresh (c : TopicConsumer) : Prop := c.messagesReceived = 0 ∧ c.lastMessageReceived = none

theorem fresh_new (topic : String) : Fresh (.new topic) := ⟨rfl, rfl⟩

open MultiTopicConsumer

/-- Nothing is received between the two, and nothing forgotten. -/
structure Quiet (s s' : MultiTopicConsumer) : Prop where
  messagesReceived : s'.messagesReceived = s.messagesReceived
  consumers : ∀ t : String, ∀ c, s'.consumers[t]? = some c → Fresh c ∨ s.consumers[t]? = some c
  disc : ∀ x, s'.discLastMessageReceived = some x → s.Latest x
  latest : ∀ x, s.Latest x → ∃ y, s'.Latest y ∧ x ≤ y

namespace Quiet

variable {s s' s'' : MultiTopicConsumer}

/-- Of the same consumers. -/
theorem of_eq (hconsumers : s'.consumers = s.consumers)
    (hmessages : s'.discMessagesReceived = s.discMessagesReceived)
    (hlast : s'.discLastMessageReceived = s.discLastMessageReceived) : Quiet s s' := by
  have hlatest (x : Nat) : s'.Latest x ↔ s.Latest x := by
    unfold Latest
    rw [hconsumers, hlast]
  refine ⟨?_, fun t c hc => Or.inr (hconsumers ▸ hc), fun x hx => (hlatest x).mp (Or.inr hx),
    fun x hx => ⟨x, (hlatest x).mpr hx, Nat.le_refl x⟩⟩
  unfold MultiTopicConsumer.messagesReceived
  rw [hconsumers, hmessages]

/-- A time remembered after is remembered before. -/
theorem latest_of (h : Quiet s s') {x : Nat} (hx : s'.Latest x) : s.Latest x := by
  rcases hx with ⟨t, c, hc, hx⟩ | hx
  · rcases h.consumers t c hc with hfresh | hold
    · rw [hfresh.2] at hx
      cases hx
    · exact Or.inl ⟨t, c, hold, hx⟩
  · exact h.disc x hx

theorem trans (h : Quiet s s') (h' : Quiet s' s'') : Quiet s s'' := by
  refine ⟨h'.messagesReceived.trans h.messagesReceived, fun t c hc => ?_,
    fun x hx => h.latest_of (h'.disc x hx), fun x hx => ?_⟩
  · rcases h'.consumers t c hc with hfresh | hold
    · exact Or.inl hfresh
    · exact h.consumers t c hold
  · obtain ⟨y, hy, hle⟩ := h.latest x hx
    obtain ⟨z, hz, hle'⟩ := h'.latest y hy
    exact ⟨z, hz, Nat.le_trans hle hle'⟩

/-- **Adding** a consumer that has counted nothing, over none that has. -/
theorem addConsumer (s : MultiTopicConsumer) {c : TopicConsumer} (hc : Fresh c)
    (hold : ∀ old, s.consumers[c.topic]? = some old → Fresh old) : Quiet s (s.addConsumer c) := by
  have hinsert := ((values_insert s.consumers c.topic c).map TopicConsumer.messagesReceived).sum_nat
  rw [List.map_cons, List.sum_cons, hc.1, Nat.zero_add] at hinsert
  have hsum : ((values s.consumers).map TopicConsumer.messagesReceived).sum =
      ((values (s.consumers.erase c.topic)).map TopicConsumer.messagesReceived).sum := by
    cases hwas : s.consumers[c.topic]? with
    | none => exact ((values_of_none hwas).map TopicConsumer.messagesReceived).sum_nat
    | some old =>
      have hperm := ((values_of_some hwas).map TopicConsumer.messagesReceived).sum_nat
      rwa [List.map_cons, List.sum_cons, (hold old hwas).1, Nat.zero_add] at hperm
  refine ⟨?_, fun t c' hc' => ?_, fun x hx => Or.inr hx, fun x hx => ⟨x, ?_, Nat.le_refl x⟩⟩
  · show ((values (s.consumers.insert c.topic c)).map TopicConsumer.messagesReceived).sum + _ = _
    rw [hinsert, ← hsum]
    rfl
  · have hlook : (s.consumers.insert c.topic c)[t]? = some c' := hc'
    rw [Std.TreeMap.getElem?_insert] at hlook
    split at hlook
    next =>
      cases hlook
      exact Or.inl hc
    next => exact Or.inr hlook
  · rcases hx with ⟨t, old, ht, hx⟩ | hx
    · refine Or.inl ⟨t, old, ?_, hx⟩
      show (s.consumers.insert c.topic c)[t]? = some old
      rw [Std.TreeMap.getElem?_insert, if_neg, ht]
      intro heq
      obtain rfl := Std.LawfulEqCmp.eq_of_compare heq
      rw [(hold old ht).2] at hx
      cases hx
    · exact Or.inr hx

/-- Topics that no consumer has received anything of. -/
theorem addConsumers (topics : List String) (s : MultiTopicConsumer)
    (hold : ∀ t ∈ topics, ∀ old, s.consumers[t]? = some old → Fresh old) :
    Quiet s (s.addConsumers (topics.map TopicConsumer.new)) := by
  induction topics generalizing s with
  | nil => exact .of_eq rfl rfl rfl
  | cons topic topics ih =>
    have hfirst : Quiet s (s.addConsumer (.new topic)) :=
      addConsumer s (fresh_new topic) (hold topic List.mem_cons_self)
    refine hfirst.trans (ih (s.addConsumer (.new topic)) fun t ht old hlook => ?_)
    rcases hfirst.consumers t old hlook with hfresh | hwas
    · exact hfresh
    · exact hold t (List.mem_cons_of_mem topic ht) old hwas

/-- **Removing** a consumer adds what it has counted to what is kept of others. -/
theorem removeConsumer (s : MultiTopicConsumer) (topic : String) :
    Quiet s (s.removeConsumer topic) := by
  unfold MultiTopicConsumer.removeConsumer
  split
  next => exact .of_eq rfl rfl rfl
  next c hc =>
    refine ⟨?_, fun t c' hc' => ?_, fun x hx => ?_, fun x hx => ?_⟩
    · have hperm := ((values_of_some hc).map TopicConsumer.messagesReceived).sum_nat
      rw [List.map_cons, List.sum_cons] at hperm
      show ((values (s.consumers.erase topic)).map TopicConsumer.messagesReceived).sum +
        (s.discMessagesReceived + c.messagesReceived) = _
      unfold MultiTopicConsumer.messagesReceived
      omega
    · have hlook : (s.consumers.erase topic)[t]? = some c' := hc'
      rw [Std.TreeMap.getElem?_erase] at hlook
      split at hlook
      next => cases hlook
      next => exact Or.inr hlook
    · have hmem := List.max?_mem hx
      rw [List.mem_append, Option.mem_toList, Option.mem_toList] at hmem
      exact hmem.symm.imp_left fun hlast => ⟨topic, c, hc, hlast⟩
    · have hkept (hmem : x ∈ s.discLastMessageReceived.toList ++ c.lastMessageReceived.toList) :
          ∃ y, (s.discLastMessageReceived.toList ++ c.lastMessageReceived.toList).max? = some y ∧
            x ≤ y := by
        cases hmax : (s.discLastMessageReceived.toList ++ c.lastMessageReceived.toList).max? with
        | none =>
          rw [List.max?_eq_none_iff.mp hmax] at hmem
          cases hmem
        | some y => exact ⟨y, rfl, (List.max?_eq_some_iff.mp hmax).2 x hmem⟩
      rcases hx with ⟨t, c', ht, hx⟩ | hx
      · by_cases htopic : topic = t
        · -- its own time
          obtain rfl : c = c' := Option.some.inj (hc.symm.trans (htopic ▸ ht))
          obtain ⟨y, hy, hle⟩ := hkept (List.mem_append_right _ (Option.mem_toList.mpr hx))
          exact ⟨y, Or.inr hy, hle⟩
        · refine ⟨x, Or.inl ⟨t, c', ?_, hx⟩, Nat.le_refl x⟩
          show (s.consumers.erase topic)[t]? = some c'
          rw [Std.TreeMap.getElem?_erase, if_neg, ht]
          exact fun heq => htopic (Std.LawfulEqCmp.eq_of_compare heq)
      · obtain ⟨y, hy, hle⟩ := hkept (List.mem_append_left _ (Option.mem_toList.mpr hx))
        exact ⟨y, Or.inr hy, hle⟩

theorem removeConsumers (s : MultiTopicConsumer) (topics : List String) :
    Quiet s (s.removeConsumers topics) := by
  have hfold (topics : List String) (s : MultiTopicConsumer) :
      Quiet s (topics.foldl MultiTopicConsumer.removeConsumer s) := by
    induction topics generalizing s with
    | nil => exact .of_eq rfl rfl rfl
    | cons topic topics ih => exact (removeConsumer s topic).trans (ih (s.removeConsumer topic))
  have hlist : Quiet s { s with existingTopics := s.existingTopics.filter fun t => !topics.contains t } :=
    .of_eq rfl rfl rfl
  exact hlist.trans (hfold topics _)

/-- **A refresh** hands over consumers of topics that there is none of. -/
theorem pollNewConsumers (hknown : Known s) (answer : Option Answers) :
    Quiet s (s.pollNewConsumers answer) := by
  have htaken : Quiet s { s with newConsumers := none } := .of_eq rfl rfl rfl
  rcases s.pollNewConsumers_cases answer with
    ⟨heq, -⟩ | ⟨u, a, hu, -, ⟨-, heq⟩ | ⟨consumers, hrun, heq⟩⟩
  · rw [heq]
    exact .of_eq rfl rfl rfl
  · rw [heq]
    exact htaken
  · obtain ⟨found, -, -, rfl⟩ := Update.run_some.mp hrun
    rw [heq]
    refine htaken.trans (addConsumers _ _ fun t ht old hold => ?_)
    have hnone := Std.TreeMap.getElem?_eq_none (hknown.new hu found t ht)
    rw [show s.consumers[t]? = some old from hold] at hnone
    cases hnone

theorem refreshes (hknown : Known s) (update : Option Answers) (ticks : List (Option Answers)) :
    Quiet s (s.refreshes update ticks) := by
  induction ticks generalizing s update with
  | nil => exact pollNewConsumers hknown update
  | cons next ticks ih =>
    have htick : Quiet (s.pollNewConsumers update) (s.pollNewConsumers update).updateTopics :=
      .of_eq rfl rfl rfl
    exact (pollNewConsumers hknown update).trans
      (htick.trans (ih (hknown.pollNewConsumers update).updateTopics next))

end Quiet

/-! ## Against the messages taken -/

/-- No topic's messages are received at times that go back. -/
def Forward (log : List (String × Nat × μ)) : Prop :=
  log.Pairwise fun m m' => m.1 = m'.1 → m.2.1 ≤ m'.2.1

/-- What the counters say of the messages taken so far. -/
structure Counts (s : MultiTopicConsumer) (log : List (String × Nat × μ)) : Prop where
  count : s.messagesReceived = log.length
  own : ∀ t : String, ∀ c x, s.consumers[t]? = some c → c.lastMessageReceived = some x →
    ∃ msg, (t, x, msg) ∈ log
  disc : ∀ x, s.discLastMessageReceived = some x → ∃ t msg, (t, x, msg) ∈ log
  newest : ∀ m, log.getLast? = some m → ∃ y, s.Latest y ∧ m.2.1 ≤ y
  greatest : Forward log → ∀ m ∈ log, ∃ y, s.Latest y ∧ m.2.1 ≤ y

namespace Counts

variable {s s' : MultiTopicConsumer} {log : List (String × Nat × μ)}

theorem exists_of_latest (h : Counts s log) {x : Nat} (hx : s.Latest x) :
    ∃ t msg, (t, x, msg) ∈ log := by
  rcases hx with ⟨t, c, hc, hx⟩ | hx
  · exact ⟨t, h.own t c x hc hx⟩
  · exact h.disc x hx

theorem quiet (h : Counts s log) (hquiet : Quiet s s') : Counts s' log := by
  have hlater {m : String × Nat × μ} (hm : ∃ y, s.Latest y ∧ m.2.1 ≤ y) :
      ∃ y, s'.Latest y ∧ m.2.1 ≤ y := by
    obtain ⟨y, hy, hle⟩ := hm
    obtain ⟨z, hz, hle'⟩ := hquiet.latest y hy
    exact ⟨z, hz, Nat.le_trans hle hle'⟩
  refine ⟨hquiet.messagesReceived.trans h.count, fun t c x hc hx => ?_,
    fun x hx => h.exists_of_latest (hquiet.disc x hx), fun m hm => hlater (h.newest m hm),
    fun hforward m hm => hlater (h.greatest hforward m hm)⟩
  rcases hquiet.consumers t c hc with hfresh | hold
  · rw [hfresh.2] at hx
    cases hx
  · exact h.own t c x hold hx

/-- **A message**: its topic's consumer counts it, and remembers its time. -/
theorem received (h : Counts s log) {topic : String} {c : TopicConsumer}
    (hc : s.consumers[topic]? = some c) (now : Nat) (msg : μ)
    (hconsumers : s'.consumers = s.consumers.insert topic (c.received now))
    (hmessages : s'.discMessagesReceived = s.discMessagesReceived)
    (hlast : s'.discLastMessageReceived = s.discLastMessageReceived) :
    Counts s' (log ++ [(topic, now, msg)]) := by
  have hnow : s'.Latest now := by
    refine Or.inl ⟨topic, c.received now, ?_, rfl⟩
    rw [hconsumers, Std.TreeMap.getElem?_insert_self]
  refine ⟨?_, fun t c' x hc' hx => ?_, fun x hx => ?_, fun m hm => ?_, fun hforward m hm => ?_⟩
  · have hinsert := ((values_insert s.consumers topic (c.received now)).map
      TopicConsumer.messagesReceived).sum_nat
    have hwas := ((values_of_some hc).map TopicConsumer.messagesReceived).sum_nat
    have hcount := h.count
    rw [List.map_cons, List.sum_cons] at hinsert hwas
    unfold MultiTopicConsumer.messagesReceived at hcount ⊢
    rw [hconsumers, hinsert, hmessages, List.length_append, List.length_singleton, ← hcount, hwas]
    show c.messagesReceived + 1 + _ + _ = _
    omega
  · rw [hconsumers, Std.TreeMap.getElem?_insert] at hc'
    split at hc'
    next heq =>
      obtain rfl := Std.LawfulEqCmp.eq_of_compare heq
      cases hc'
      obtain rfl : now = x := Option.some.inj hx
      exact ⟨msg, List.mem_append_right _ (List.mem_singleton.mpr rfl)⟩
    next =>
      obtain ⟨msg', hmem⟩ := h.own t c' x hc' hx
      exact ⟨msg', List.mem_append_left _ hmem⟩
  · rw [hlast] at hx
    obtain ⟨t, msg', hmem⟩ := h.disc x hx
    exact ⟨t, msg', List.mem_append_left _ hmem⟩
  · rw [List.getLast?_concat] at hm
    cases hm
    exact ⟨now, hnow, Nat.le_refl now⟩
  · obtain ⟨hbefore, -, hcross⟩ := List.pairwise_append.mp hforward
    rcases List.mem_append.mp hm with hm | hm
    · obtain ⟨y, hy, hle⟩ := h.greatest hbefore m hm
      rcases hy with ⟨t, c', ht, hy⟩ | hy
      · by_cases htopic : topic = t
        · -- the time is forgotten, but was not later than this
          obtain ⟨msg', hmem⟩ := h.own t c' y ht hy
          have hnext := hcross _ hmem _ (List.mem_singleton.mpr rfl) htopic.symm
          exact ⟨now, hnow, Nat.le_trans hle hnext⟩
        · refine ⟨y, Or.inl ⟨t, c', ?_, hy⟩, hle⟩
          rw [hconsumers, Std.TreeMap.getElem?_insert, if_neg, ht]
          exact fun heq => htopic (Std.LawfulEqCmp.eq_of_compare heq)
      · exact ⟨y, Or.inr (hlast.trans hy), hle⟩
    · rw [List.mem_singleton.mp hm]
      exact ⟨now, hnow, Nat.le_refl now⟩

/-- **The step lemma.** -/
theorem pollNext (h : Counts s log) (hknown : Known s) (p : Poll μ) :
    Counts (s.pollNext p).1 (log ++ (s.took p).toList) := by
  have hrefreshed : Counts (s.refreshed p) log := h.quiet (.refreshes hknown p.update p.ticks)
  obtain ⟨failed, -, hrotate⟩ := (s.refreshed p).rotate_scan p.items
  have hpoll : (s.pollNext p).1 = ((s.refreshed p).rotate p.items).1 := rfl
  rw [hpoll, hrotate]
  refine Counts.quiet ?_ (.removeConsumers _ failed)
  show Counts _ (log ++ ((s.refreshed p).scan p.items).message.toList)
  cases hmessage : ((s.refreshed p).scan p.items).message with
  | none =>
    rw [Option.toList_none, List.append_nil]
    exact hrefreshed.quiet (.of_eq rfl rfl rfl)
  | some m =>
    obtain ⟨topic, now, msg⟩ := m
    obtain ⟨c, hc⟩ := consumer_of_message hmessage
    refine hrefreshed.received hc now msg ?_ rfl rfl
    show serve _ (some (topic, now, msg)) = _
    rw [serve, hc]

/-- **The run lemma.** -/
theorem run (h : Counts s log) (hknown : Known s) (polls : List (Poll μ)) :
    Counts (s.run polls) (log ++ s.taken polls) := by
  induction polls generalizing s log with
  | nil =>
    rw [taken, List.append_nil]
    exact h
  | cons p polls ih =>
    rw [taken, ← List.append_assoc]
    exact ih (h.pollNext hknown p) (hknown.pollNext p)

end Counts

/-! ## From `build` on -/

/-- The consumers that `build` collects are fresh. -/
theorem fresh_collect (topics : List String) {t : String} {c : TopicConsumer}
    (h : (collect (topics.map TopicConsumer.new))[t]? = some c) : Fresh c := by
  have hinsert (l : List (String × TopicConsumer)) (hl : ∀ entry ∈ l, Fresh entry.2)
      (m : Std.TreeMap String TopicConsumer) (hm : ∀ t : String, ∀ c, m[t]? = some c → Fresh c) :
      ∀ t : String, ∀ c, (m.insertMany l)[t]? = some c → Fresh c := by
    induction l generalizing m with
    | nil => exact hm
    | cons entry l ih =>
      rw [Std.TreeMap.insertMany_cons]
      refine ih (fun e he => hl e (List.mem_cons_of_mem entry he)) _ fun t c hc => ?_
      rw [Std.TreeMap.getElem?_insert] at hc
      split at hc
      next =>
        cases hc
        exact hl entry List.mem_cons_self
      next => exact hm t c hc
  unfold collect at h
  rw [Std.TreeMap.ofList_eq_insertMany_empty] at h
  refine hinsert _ (fun entry hentry => ?_) ∅ (fun t c hc => ?_) t c h
  · obtain ⟨c, hc, rfl⟩ := List.mem_map.mp hentry
    obtain ⟨topic, -, rfl⟩ := List.mem_map.mp hc
    exact fresh_new topic
  · rw [Std.TreeMap.getElem?_emptyc] at hc
    cases hc

theorem counts_multi (b : ConsumerBuilder) (topics : List String) :
    Counts (b.multi (topics.map TopicConsumer.new)) ([] : List (String × Nat × μ)) := by
  refine ⟨?_, fun t c x hc hx => ?_, nofun, nofun, fun _ m hm => absurd hm List.not_mem_nil⟩
  · show ((values (collect (topics.map TopicConsumer.new))).map
      TopicConsumer.messagesReceived).sum + 0 = 0
    rw [Nat.add_zero, List.sum_eq_zero_iff_forall_eq_nat]
    intro n hn
    obtain ⟨c, hc, rfl⟩ := List.mem_map.mp hn
    obtain ⟨t, ht⟩ := mem_values.mp hc
    exact (fresh_collect topics ht).1
  · rw [(fresh_collect topics hc).2] at hx
    cases hx

theorem counts_build {b : ConsumerBuilder} {a initial : Answers} {s : MultiTopicConsumer}
    (h : b.build a initial = .ok (.Multi s)) : Counts s ([] : List (String × Nat × μ)) := by
  obtain ⟨topics, -, ⟨-, rfl⟩ | ⟨-, rfl⟩⟩ := build_multi h
  · exact counts_multi b topics
  · have htick : Quiet (b.multi (topics.map TopicConsumer.new))
        (b.multi (topics.map TopicConsumer.new)).updateTopics := .of_eq rfl rfl rfl
    exact (counts_multi b topics).quiet
      (htick.trans (.pollNewConsumers (known_multi b _).updateTopics (some initial)))

/-- When the messages of a run were received. -/
def times (s : MultiTopicConsumer) (polls : List (Poll μ)) : List Nat :=
  (s.taken polls).map fun m => m.2.1

/-- A time remembered gives `last_message_received` one as late. -/
theorem exists_lastMessageReceived {s : MultiTopicConsumer} {x : Nat}
    (h : ∃ y, s.Latest y ∧ x ≤ y) : ∃ y, s.lastMessageReceived = some y ∧ x ≤ y := by
  obtain ⟨y, hy, hle⟩ := h
  cases hlast : s.lastMessageReceived with
  | none => exact absurd hy (lastMessageReceived_eq_none_iff.mp hlast y)
  | some z =>
    exact ⟨z, rfl, Nat.le_trans hle ((lastMessageReceived_eq_some_iff.mp hlast).2 y hy)⟩

/-- **The counters of every run.**  `messages_received` is the number of messages yielded, and never
decreases.  `last_message_received` is the time of one of them, not before that of the last, and the
greatest if no topic's clock goes back. -/
theorem counters_run (b : ConsumerBuilder) (a initial : Answers) (s : MultiTopicConsumer)
    (h : b.build a initial = .ok (.Multi s)) (polls : List (Poll μ)) :
    (s.run polls).messagesReceived = (s.yielded polls).length ∧
    (∀ more : List (Poll μ),
      (s.run polls).messagesReceived ≤ (s.run (polls ++ more)).messagesReceived) ∧
    ((s.run polls).lastMessageReceived = none ↔ s.yielded polls = []) ∧
    (∀ x, (s.run polls).lastMessageReceived = some x → x ∈ times s polls) ∧
    (∀ x, (times s polls).getLast? = some x →
      ∃ y, (s.run polls).lastMessageReceived = some y ∧ x ≤ y) ∧
    (Forward (s.taken polls) → (s.run polls).lastMessageReceived = (times s polls).max?) := by
  have hcounts (polls : List (Poll μ)) : Counts (s.run polls) (s.taken polls) :=
    (counts_build h).run (known_build h) polls
  have hmem (x : Nat) (hx : (s.run polls).Latest x) : x ∈ times s polls := by
    obtain ⟨t, msg, hmsg⟩ := (hcounts polls).exists_of_latest hx
    exact List.mem_map.mpr ⟨_, hmsg, rfl⟩
  have hlast (x : Nat) (hx : (times s polls).getLast? = some x) :
      ∃ y, (s.run polls).lastMessageReceived = some y ∧ x ≤ y := by
    unfold times at hx
    rw [List.getLast?_map, Option.map_eq_some_iff] at hx
    obtain ⟨m, hm, rfl⟩ := hx
    exact exists_lastMessageReceived ((hcounts polls).newest m hm)
  have hnone : (s.run polls).lastMessageReceived = none ↔ s.taken polls = [] := by
    constructor
    · intro hnone
      rw [← List.getLast?_eq_none_iff]
      cases hm : (s.taken polls).getLast? with
      | none => rfl
      | some m =>
        obtain ⟨y, hy, -⟩ := exists_lastMessageReceived ((hcounts polls).newest m hm)
        rw [hnone] at hy
        cases hy
    · intro hnil
      rw [lastMessageReceived_eq_none_iff]
      intro x hx
      have hin := hmem x hx
      unfold times at hin
      rw [hnil] at hin
      cases hin
  refine ⟨?_, fun more => ?_, ?_, ?_, hlast, fun hforward => ?_⟩
  · rw [(hcounts polls).count, yielded_eq, List.length_map]
  · rw [(hcounts polls).count, (hcounts (polls ++ more)).count, taken_append, List.length_append]
    omega
  · rw [yielded_eq, List.map_eq_nil_iff]
    exact hnone
  · intro x hx
    exact hmem x (lastMessageReceived_eq_some_iff.mp hx).1
  · cases hmax : (times s polls).max? with
    | none => exact hnone.mpr (List.map_eq_nil_iff.mp (List.max?_eq_none_iff.mp hmax))
    | some x =>
      obtain ⟨hx, hgreatest⟩ := List.max?_eq_some_iff.mp hmax
      obtain ⟨m, hm, rfl⟩ := List.mem_map.mp hx
      obtain ⟨y, hy, hle⟩ := exists_lastMessageReceived ((hcounts polls).greatest hforward m hm)
      have hback := hgreatest y (hmem y (lastMessageReceived_eq_some_iff.mp hy).1)
      rw [hy, Nat.le_antisymm hback hle]

/-- One message, at the time given. -/
def received (now : Nat) : Poll Unit :=
  { update := none, ticks := [], items := fun _ => .Message now () }

theorem counters_run_minutely :
    ∃ s, minutely.build (broker 1) (broker 1) = .ok (.Multi s) ∧
      (s.run [received 3, received 5]).messagesReceived = 2 := by
  obtain ⟨s, hs, hyielded⟩ := exists_of_builds minutely (broker 1) (broker 1)
    (fun s => (s.yielded [received 3, received 5]).length = 2) (by decide +kernel)
  have hcount := (counters_run minutely (broker 1) (broker 1) s hs [received 3, received 5]).1
  exact ⟨s, hs, hcount.trans (of_decide_eq_true hyielded)⟩

/-- The clock is set back between two messages of a topic: the time of the first, which is later, is
forgotten. -/
theorem last_not_greatest :
    ∃ s, minutely.build (broker 1) (broker 1) = .ok (.Multi s) ∧
      times s [received 5, received 3] = [5, 3] ∧
      (s.run [received 5, received 3]).lastMessageReceived = some 3 ∧
      (times s [received 5, received 3]).max? = some 5 := by
  obtain ⟨s, hs, hrun⟩ := exists_of_builds minutely (broker 1) (broker 1)
    (fun s => times s [received 5, received 3] = [5, 3] ∧
      (s.run [received 5, received 3]).lastMessageReceived = some 3 ∧
      (times s [received 5, received 3]).max? = some 5) (by decide +kernel)
  exact ⟨s, hs, of_decide_eq_true hrun⟩

end PulsarClient.MultiTopic
