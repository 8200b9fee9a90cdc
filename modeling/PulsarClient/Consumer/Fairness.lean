/-
  FAIRNESS OF THE ROTATION (`src/consumer/multi.rs`).

  A topic that has a message at every poll is served in its turn: the topics ahead of it in
  `existing_topics` only become fewer, since what a poll takes moves to the back and what a refresh finds
  is added there.

  1. `StaysReady` — the topic has its consumer and a message for it, at every poll of a run.

  2. `front_step` — a poll serves the topic, or one of those ahead of it, and then fewer are ahead.  This
     is all that fairness rests on, and it needs nothing of the state.

  3. `served_of_length_le` — so a ready topic is served within as many yielding polls as topics are listed.

  4. `served_between` — and between two messages of another topic, if that one is listed once: behind its
     message it is behind all others.  `rotation_fair`: a topic is listed once in the runs in which no
     refresh finds a topic twice.
-/
import PulsarClient.Consumer.Rotation

namespace PulsarClient.MultiTopic

open Runs Partitions

variable {μ : Type}

namespace MultiTopicConsumer

/-! ## What is claimed -/

/-- The topic has a message wherever the rotation of the poll comes to it. -/
def Ready (s : MultiTopicConsumer) (p : Poll μ) (topic : String) : Prop :=
  ∀ i, (s.refreshed p).existingTopics[i]? = some topic → (p.items i).message.isSome

/-- The topic stays in the map, and is ready at every poll. -/
def StaysReady (topic : String) : MultiTopicConsumer → List (Poll μ) → Prop
  | _, [] => True
  | s, p :: polls =>
    topic ∈ s.consumers ∧ s.Ready p topic ∧ StaysReady topic (s.pollNext p).1 polls

theorem StaysReady.mem {topic : String} {s : MultiTopicConsumer} {polls : List (Poll μ)}
    {q : Poll μ} (h : StaysReady topic s (polls ++ [q])) : topic ∈ s.consumers := by
  cases polls with
  | nil => exact h.1
  | cons p polls => exact h.1

/-- The topics served in a run of polls. -/
def served (s : MultiTopicConsumer) (polls : List (Poll μ)) : List String :=
  (s.taken polls).map Prod.fst

/-- The poll serves the topic. -/
def Serves (s : MultiTopicConsumer) (p : Poll μ) (topic : String) : Prop :=
  (s.took p).map Prod.fst = some topic

/-- Between two messages of a topic, every other topic that stays ready has one. -/
def Fair (s : MultiTopicConsumer) (polls : List (Poll μ)) : Prop :=
  ∀ before p between q after, polls = before ++ p :: (between ++ q :: after) →
    ∀ t u, u ≠ t → (s.run before).Serves p t → (s.run (before ++ p :: between)).Serves q t →
      StaysReady u (s.run (before ++ [p])) (between ++ [q]) →
      u ∈ (s.run (before ++ [p])).served between

/-- A topic that stays ready has a message within as many polls that yield one as topics are listed. -/
def Prompt (s : MultiTopicConsumer) (polls : List (Poll μ)) : Prop :=
  ∀ before between after, polls = before ++ (between ++ after) →
    ∀ u ∈ (s.run before).consumers, StaysReady u (s.run before) between →
      (s.run before).existingTopics.length ≤ ((s.run before).yielded between).length →
      u ∈ (s.run before).served between

end MultiTopicConsumer

/-! ## What a poll does to the list -/

namespace MultiTopicConsumer

/-- Refreshes add at the back, and drop nobody. -/
theorem pollNewConsumers_adds (s : MultiTopicConsumer) (answer : Option Answers) :
    s.existingTopics <+: (s.pollNewConsumers answer).existingTopics ∧
      ∀ t ∈ s.consumers, t ∈ (s.pollNewConsumers answer).consumers := by
  rcases s.pollNewConsumers_cases answer with
    ⟨heq, -⟩ | ⟨u, a, -, -, ⟨-, heq⟩ | ⟨consumers, -, heq⟩⟩
  · rw [heq]
    exact ⟨List.prefix_refl _, fun t ht => ht⟩
  · rw [heq]
    exact ⟨List.prefix_refl _, fun t ht => ht⟩
  · rw [heq, existingTopics_addConsumers]
    refine ⟨List.prefix_append _ _, fun t ht => ?_⟩
    rw [mem_addConsumers]
    exact Or.inl ht

theorem refreshes_adds (s : MultiTopicConsumer) (update : Option Answers)
    (ticks : List (Option Answers)) :
    s.existingTopics <+: (s.refreshes update ticks).existingTopics ∧
      ∀ t ∈ s.consumers, t ∈ (s.refreshes update ticks).consumers := by
  induction ticks generalizing s update with
  | nil => exact s.pollNewConsumers_adds update
  | cons next ticks ih =>
    obtain ⟨hlist, hmem⟩ := s.pollNewConsumers_adds update
    obtain ⟨hlist', hmem'⟩ := ih (s.pollNewConsumers update).updateTopics next
    exact ⟨hlist.trans hlist', fun t ht => hmem' t (hmem t ht)⟩

theorem refreshed_adds (s : MultiTopicConsumer) (p : Poll μ) :
    s.existingTopics <+: (s.refreshed p).existingTopics ∧
      ∀ t ∈ s.consumers, t ∈ (s.refreshed p).consumers :=
  s.refreshes_adds p.update p.ticks

theorem existingTopics_removeConsumers (s : MultiTopicConsumer) (topics : List String) :
    (s.removeConsumers topics).existingTopics =
      s.existingTopics.filter fun t => !topics.contains t :=
  (foldl_removeConsumer topics _).1

/-- The list after a poll: what was not come to, what was passed, and who was served, less who failed. -/
theorem existingTopics_pollNext (s : MultiTopicConsumer) (p : Poll μ) :
    ∃ failed : List String, (∀ t ∈ failed, t ∈ ((s.refreshed p).scan p.items).passed) ∧
      (s.pollNext p).1.existingTopics =
        (((s.refreshed p).scan p.items).rest ++
            (((s.refreshed p).scan p.items).passed ++ ((s.refreshed p).scan p.items).served)).filter
          fun t => !failed.contains t := by
  obtain ⟨failed, hfailed, hrotate⟩ := (s.refreshed p).rotate_scan p.items
  refine ⟨failed, hfailed, ?_⟩
  have hpoll : (s.pollNext p).1 = ((s.refreshed p).rotate p.items).1 := rfl
  rw [hpoll, hrotate, existingTopics_removeConsumers]

/-- The topics listed ahead of one. -/
def Front (s : MultiTopicConsumer) (topic : String) (ahead : List String) : Prop :=
  topic ∉ ahead ∧ ∃ behind, s.existingTopics = ahead ++ topic :: behind

theorem exists_front {s : MultiTopicConsumer} {topic : String} (h : topic ∈ s.existingTopics) :
    ∃ ahead, s.Front topic ahead := by
  obtain ⟨ahead, behind, heq, hnot⟩ := List.eq_append_cons_of_mem h
  exact ⟨ahead, hnot, behind, heq⟩

/-- **The step lemma**: a poll serves the ready topic, or one of those ahead of it, and then fewer are. -/
theorem front_step {s : MultiTopicConsumer} {p : Poll μ} {u : String} {ahead : List String}
    (hmem : u ∈ s.consumers) (hready : s.Ready p u) (hfront : s.Front u ahead) :
    s.Serves p u ∨ ∃ v ∈ ahead, s.Serves p v ∧
      ∃ ahead', (s.pollNext p).1.Front u ahead' ∧ ahead'.Sublist ahead ∧
        ahead'.length < ahead.length := by
  obtain ⟨hnot, behind, hlist⟩ := hfront
  obtain ⟨⟨added, hadded⟩, hkeeps⟩ := s.refreshed_adds p
  have hrefreshed : (s.refreshed p).existingTopics = ahead ++ u :: (behind ++ added) := by
    rw [← hadded, hlist, List.append_assoc, List.cons_append]
  have hmessage : (p.items (0 + ahead.length)).message.isSome := by
    refine hready _ ?_
    rw [hrefreshed, Nat.zero_add, List.getElem?_append_right (Nat.le_refl _), Nat.sub_self]
    rfl
  obtain ⟨c, hc⟩ := Option.isSome_iff_exists.mp
    (Std.TreeMap.isSome_getElem?_iff_mem.mpr (hkeeps u hmem))
  obtain ⟨v, m, hserved, hplace⟩ := scan_front hc 0 ahead (behind ++ added) hmessage
  obtain ⟨failed, hfailed, hafter⟩ := s.existingTopics_pollNext p
  have hscan : (s.refreshed p).scan p.items =
      MultiTopic.scan (s.refreshed p).consumers p.items 0 (ahead ++ u :: (behind ++ added)) := by
    rw [← hrefreshed]
    rfl
  rw [← hscan] at hserved hplace
  have hserves : s.Serves p v := congrArg (Option.map Prod.fst) hserved
  rcases hplace with rfl | ⟨ahead', hahead, hrest⟩
  · exact Or.inl hserves
  · have hpassed : ∀ t ∈ failed, t ∈ ahead := by
      intro t ht
      rw [hahead]
      exact List.mem_append_left _ (hfailed t ht)
    have hkept : (!failed.contains u) = true := by
      rw [Bool.not_eq_true', List.contains_eq_mem, decide_eq_false_iff_not]
      exact fun hu => hnot (hpassed u hu)
    have hv : v ∈ ahead := by
      rw [hahead]
      exact List.mem_append_right _ List.mem_cons_self
    have hsub : (ahead'.filter fun t => !failed.contains t).Sublist ahead := by
      have htail : ahead'.Sublist ahead := by
        rw [hahead]
        exact ((List.sublist_cons_self v ahead').trans (List.sublist_append_right _ _))
      exact List.filter_sublist.trans htail
    refine Or.inr ⟨v, hv, hserves, ahead'.filter fun t => !failed.contains t,
      ⟨fun hu => hnot (hsub.subset hu), ?_⟩, hsub, ?_⟩
    · rw [hafter, hrest, List.append_assoc, List.filter_append, List.cons_append,
        List.filter_cons_of_pos (p := fun t => !failed.contains t) hkept]
      exact ⟨_, rfl⟩
    · have hshorter := congrArg List.length hahead
      have hle := List.length_filter_le (fun t => !failed.contains t) ahead'
      rw [List.length_append, List.length_cons] at hshorter
      omega

/-! ## Runs -/

theorem served_cons (s : MultiTopicConsumer) (p : Poll μ) (polls : List (Poll μ)) :
    s.served (p :: polls) =
      ((s.took p).map Prod.fst).toList ++ (s.pollNext p).1.served polls := by
  unfold served
  rw [taken, List.map_append]
  cases s.took p with
  | none => rfl
  | some m => rfl

theorem served_of_serves {s : MultiTopicConsumer} {p : Poll μ} {v : String} (h : s.Serves p v)
    (polls : List (Poll μ)) : s.served (p :: polls) = v :: (s.pollNext p).1.served polls := by
  rw [served_cons, h]
  rfl

/-- **A topic that stays ready is served** before as many messages are as topics are ahead of it. -/
theorem served_of_front {u : String} (polls : List (Poll μ)) (s : MultiTopicConsumer)
    (ahead : List String) (hfront : s.Front u ahead) (hready : StaysReady u s polls)
    (hmany : ahead.length < (s.served polls).length) : u ∈ s.served polls := by
  induction polls generalizing s ahead with
  | nil => exact absurd hmany (Nat.not_lt_zero _)
  | cons p polls ih =>
    obtain ⟨hmem, hnow, hlater⟩ := hready
    rcases front_step hmem hnow hfront with hserves | ⟨v, -, hserves, ahead', hfront', -, hless⟩
    · rw [served_of_serves hserves]
      exact List.mem_cons_self
    · rw [served_of_serves hserves, List.length_cons] at hmany
      rw [served_of_serves hserves]
      exact List.mem_cons_of_mem v (ih _ ahead' hfront' hlater (by omega))

/-- **It is served before a topic behind it.** -/
theorem served_before {t u : String} (hne : u ≠ t) (between : List (Poll μ)) (q : Poll μ)
    (s : MultiTopicConsumer) (ahead : List String) (hfront : s.Front u ahead) (hbehind : t ∉ ahead)
    (hready : StaysReady u s (between ++ [q])) (hserves : (s.run between).Serves q t) :
    u ∈ s.served between := by
  induction between generalizing s ahead with
  | nil =>
    exfalso
    obtain ⟨hmem, hnow, -⟩ := hready
    have hserved : (s.took q).map Prod.fst = some t := hserves
    rcases front_step hmem hnow hfront with hu | ⟨v, hv, hserves', -⟩
    · exact hne (Option.some.inj (hu.symm.trans hserved))
    · obtain rfl : v = t := Option.some.inj (Eq.trans (Eq.symm hserves') hserved)
      exact hbehind hv
  | cons p between ih =>
    obtain ⟨hmem, hnow, hlater⟩ := hready
    rcases front_step hmem hnow hfront with hu | ⟨v, -, hserves', ahead', hfront', hsub, -⟩
    · rw [served_of_serves hu]
      exact List.mem_cons_self
    · rw [served_of_serves hserves']
      refine List.mem_cons_of_mem v ?_
      exact ih _ ahead' hfront' (fun ht => hbehind (hsub.subset ht)) hlater hserves

/-- **Behind its message a topic is behind all others**, if it is listed once. -/
theorem front_of_serves {s : MultiTopicConsumer} {p : Poll μ} {t u : String} (hserves : s.Serves p t)
    (honce : (s.pollNext p).1.existingTopics.count t ≤ 1) (hne : u ≠ t)
    (hu : u ∈ (s.pollNext p).1.existingTopics) :
    ∃ ahead, (s.pollNext p).1.Front u ahead ∧ t ∉ ahead := by
  obtain ⟨failed, -, hafter⟩ := s.existingTopics_pollNext p
  have hlast : ((s.refreshed p).scan p.items).served = [t] := by
    show (((s.refreshed p).scan p.items).message.map Prod.fst).toList = [t]
    rw [show ((s.refreshed p).scan p.items).message.map Prod.fst = some t from hserves]
    rfl
  rw [hlast, ← List.append_assoc, List.filter_append] at hafter
  obtain ⟨front, hfront⟩ : ∃ front, front =
    (((s.refreshed p).scan p.items).rest ++ ((s.refreshed p).scan p.items).passed).filter
      fun t => !failed.contains t := ⟨_, rfl⟩
  rw [← hfront] at hafter
  have hin : u ∈ front := by
    rw [hafter, List.mem_append] at hu
    rcases hu with hu | hu
    · exact hu
    · exact absurd (List.mem_singleton.mp (List.mem_filter.mp hu).1) hne
  have htfront : t ∉ front := by
    intro ht
    have hkept : (!failed.contains t) = true := by
      rw [hfront] at ht
      exact (List.mem_filter.mp ht).2
    have hpos := List.count_pos_iff.mpr ht
    rw [hafter, List.filter_cons_of_pos (p := fun t => !failed.contains t) hkept, List.filter_nil,
      List.count_append, List.count_singleton_self] at honce
    omega
  obtain ⟨ahead, behind, heq, hnot⟩ := List.eq_append_cons_of_mem hin
  refine ⟨ahead, ⟨hnot, ?_⟩, fun ht => htfront (heq ▸ List.mem_append_left _ ht)⟩
  rw [hafter, heq, List.append_assoc, List.cons_append]
  exact ⟨_, rfl⟩

theorem run_append (s : MultiTopicConsumer) (before polls : List (Poll μ)) :
    s.run (before ++ polls) = (s.run before).run polls := List.foldl_append

/-- **Every run is prompt.** -/
theorem prompt_of_listed {s : MultiTopicConsumer} {polls : List (Poll μ)}
    (hlisted : ∀ before after, polls = before ++ after →
      ∀ t ∈ (s.run before).consumers, t ∈ (s.run before).existingTopics) : s.Prompt polls := by
  intro before between after hpolls u hu hready hmany
  obtain ⟨ahead, hfront⟩ := exists_front (hlisted before _ hpolls u hu)
  refine served_of_front between (s.run before) ahead hfront hready ?_
  obtain ⟨-, behind, hlist⟩ := hfront
  rw [hlist, yielded_eq, List.length_map, List.length_append, List.length_cons] at hmany
  unfold served
  rw [List.length_map]
  omega

/-- **A run is fair** if the list stays in step with the map. -/
theorem fair_of_inStep {s : MultiTopicConsumer} {polls : List (Poll μ)}
    (hstep : ∀ before after, polls = before ++ after → InStep (s.run before)) : s.Fair polls := by
  intro before p between q after hpolls t u hne hp hq hready
  have hafter : s.run (before ++ [p]) = ((s.run before).pollNext p).1 := run_append s before [p]
  have hq' : ((s.run (before ++ [p])).run between).Serves q t := by
    rw [← run_append, List.append_assoc]
    exact hq
  have hin : InStep (s.run (before ++ [p])) := by
    refine hstep _ (between ++ q :: after) ?_
    rw [hpolls, List.append_assoc]
    rfl
  have honce : (s.run (before ++ [p])).existingTopics.count t ≤ 1 := by
    rw [hin t]
    split
    · exact Nat.le_refl 1
    · exact Nat.zero_le 1
  have hu : u ∈ (s.run (before ++ [p])).existingTopics := by
    rw [hin.listed]
    exact hready.mem
  rw [hafter] at honce hu hready hq' ⊢
  obtain ⟨ahead, hfront, hbehind⟩ := front_of_serves hp honce hne hu
  exact served_before hne between q _ ahead hfront hbehind hready hq'

end MultiTopicConsumer

/-! ## From `build` on -/

section Built

variable {b : ConsumerBuilder} {s : MultiTopicConsumer}

/-- A run of polls is a run of the system. -/
theorem exec_run (b : ConsumerBuilder) (s : MultiTopicConsumer) (polls : List (Poll μ)) :
    (consumer μ b).exec s (polls.flatMap Poll.actions) = some (s.run polls) := by
  induction polls generalizing s with
  | nil => rfl
  | cons p polls ih =>
    rw [List.flatMap_cons, Sys.exec_append, exec_pollNext, Option.bind_some, ih]
    rfl

theorem good_run (hknown : Known s) (hgood : Good s) {polls : List (Poll μ)}
    (hguarded : (consumer μ b).Guarded FindsOnce s (polls.flatMap Poll.actions)) :
    Good (s.run polls) := by
  have hrun : (consumer μ b).Along Good s (polls.flatMap Poll.actions) :=
    (Sys.along_iff_guarded (fun _ _ _ h hs => Known.step h hs)
      (fun _ _ _ h hg hs => good_step h hg hs) _ s hknown hgood).mpr hguarded
  exact hrun.last (exec_run b s polls)

end Built

/-- **No topic starves**: one that stays ready is served within as many yielding polls as topics are
listed; and between two messages of another topic, in the runs in which no refresh finds a topic twice
that is not listed yet. -/
theorem rotation_fair (b : ConsumerBuilder) (a initial : Answers) (s : MultiTopicConsumer)
    (h : b.build a initial = .ok (.Multi s)) (polls : List (Poll μ)) :
    s.Prompt polls ∧
      (b.FindsOnce a initial → (consumer μ b).Guarded FindsOnce s (polls.flatMap Poll.actions) →
        s.Fair polls) := by
  have hknown := known_build h
  refine ⟨MultiTopicConsumer.prompt_of_listed fun before after hpolls t ht => ?_,
    fun honce hguarded => MultiTopicConsumer.fair_of_inStep fun before after hpolls => ?_⟩
  · exact ((known_run hknown before).listed t).mpr ht
  · rw [hpolls, List.flatMap_append] at hguarded
    exact (good_run hknown ((good_build h).mpr honce) hguarded.prefix).1

/-! ### A topic that a refresh found twice -/

/-- A poll whose rotation finds a message at every topic. -/
def ready (ticks : List (Option Answers)) : Poll Unit :=
  { update := none, ticks, items := fun _ => .Message 0 () }

theorem rotation_fair_minutely :
    ∃ s, minutely.build (broker 2) (broker 2) = .ok (.Multi s) ∧ s.Prompt [ready [], ready []] ∧
      s.Fair [ready [], ready []] := by
  obtain ⟨s, hs, -⟩ := exists_of_builds minutely (broker 2) (broker 2)
    (fun _ => true) (by decide +kernel)
  obtain ⟨hprompt, hfair⟩ :=
    rotation_fair minutely (broker 2) (broker 2) s hs [ready [], ready []]
  refine ⟨s, hs, hprompt, hfair (fun _ _ hregex => nomatch hregex) ?_⟩
  -- nothing is due
  have hidle (s : MultiTopicConsumer) : FindsOnce s (.update none : Action Unit) :=
    fun _ _ _ hanswer => nomatch hanswer
  exact fun _ _ => ⟨hidle _, fun _ _ => ⟨trivial, fun _ _ => ⟨hidle _, fun _ _ => ⟨trivial, trivial⟩⟩⟩⟩

/-- The partition found twice is listed twice, and has two messages while the other waits. -/
theorem rotation_unfair :
    ∃ s, overlap.build (broker 1) (broker 1) = .ok (.Multi s) ∧
      ¬ s.Fair [ready [some (broker 2)], ready [], ready []] := by
  obtain ⟨s, hs, hrun⟩ := exists_of_builds overlap (broker 1) (broker 1)
    (fun s =>
      ((s.run [ready [some (broker 2)]]).took (ready [])).map Prod.fst =
        some (partitionName orders 1) ∧
      ((s.run [ready [some (broker 2)], ready []]).took (ready [])).map Prod.fst =
        some (partitionName orders 1) ∧
      partitionName orders 0 ∈ (s.run [ready [some (broker 2)], ready []]).consumers)
    (by decide +kernel)
  obtain ⟨hfirst, hsecond, hmem⟩ := of_decide_eq_true hrun
  refine ⟨s, hs, fun hfair => ?_⟩
  have hother : partitionName orders 0 ≠ partitionName orders 1 := by decide
  have hbetween := hfair [ready [some (broker 2)]] (ready []) [] (ready []) [] rfl
    (partitionName orders 1) (partitionName orders 0) hother hfirst hsecond
    ⟨hmem, fun _ _ => rfl, trivial⟩
  exact absurd hbetween List.not_mem_nil

end PulsarClient.MultiTopic
