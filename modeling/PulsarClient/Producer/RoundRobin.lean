/-
  UNKEYED MESSAGES — the cursor, while the vector under it grows.

  `last_used_producer_index` is an index into `producers`, and `refresh_partitions` appends to the vector
  and sorts it.  `RoundRobin` moves the cursor on; `Single` never does.

  1. **Safety** — the vector never gets shorter, so the cursor stays inside (`used_lt`, a field), and a
     key is hashed into it.

  2. **Fairness** (`choices_eq_rotate`) — while the vector does not grow, the choices for unkeyed messages
     are the vector read round from behind the cursor; a keyed message does not move it.

  3. `Single` keeps its INDEX, and so its partition as long as all that is sorted in comes behind it.
     Partitions do.  The topic's own producer, which a re-check answered "no partitions" starts, does
     not when `partition_index` reads a small number out of the topic's name: `…-partition-+0` is such
     a name (`single_moves`).
-/
import PulsarClient.Producer.Partitions
import Mathlib.Data.List.Rotate

namespace PulsarClient.Partitions

open Runs

variable (lib : Batching.Libraries) (murmur3_32 : Murmur3)

/-! ## Statement -/

/-- The producer that an unkeyed message is sent with. -/
def choice (p : PartitionedProducer) : Action → List TopicProducer
  | .refresh _ _ => []
  | .choose message =>
    if p.hashRoutedKey lib message = none then (p.choosePartition lib murmur3_32 message).1.toList
    else []

/-- … and those of a run. -/
def choices : PartitionedProducer → List Action → List TopicProducer
  | _, [] => []
  | p, action :: actions =>
    choice lib murmur3_32 p action ++
      match (partitioned lib murmur3_32).step p action with
      | some q => choices q actions
      | none => []

/-- The producer that `Single` selects. -/
def PartitionedProducer.selected (p : PartitionedProducer) : TopicProducer :=
  p.producers.get ⟨p.lastUsedProducerIndex, p.used_lt⟩

/-- No re-check sorts the topic's own producer in before the one that `Single` selects. -/
def KeepsSelection (p : PartitionedProducer) : Action → Prop
  | .refresh now a =>
    ¬ (p.options.routingPolicy = some .Single ∧ p.answersItself now a = true ∧
      sortKey { topic := p.topic } < sortKey p.selected)
  | .choose _ => True

variable {lib murmur3_32} {p q r : PartitionedProducer} {action : Action}

/-! ## One step -/

theorem refreshPartitions_cursor (p : PartitionedProducer) (now : Nat) (a : Answers) :
    (p.refreshPartitions now a).lastUsedProducerIndex = p.lastUsedProducerIndex ∧
      (p.refreshPartitions now a).options = p.options := by
  unfold PartitionedProducer.refreshPartitions
  split
  · split
    · exact ⟨rfl, rfl⟩
    · split
      · exact ⟨rfl, rfl⟩
      · split
        · exact ⟨rfl, rfl⟩
        · exact ⟨rfl, rfl⟩
  · exact ⟨rfl, rfl⟩

theorem choose_step {message : Batching.Message}
    (hs : (partitioned lib murmur3_32).step p (.choose message) = some q) :
    (p.choosePartition lib murmur3_32 message).1.isSome = true ∧
      q = (p.choosePartition lib murmur3_32 message).2 := by
  have hs' : (if (p.choosePartition lib murmur3_32 message).1.isSome = true then
      some (p.choosePartition lib murmur3_32 message).2 else none) = some q := hs
  rw [Option.ite_none_right_eq_some, Option.some.injEq] at hs'
  exact ⟨hs'.1, hs'.2.symm⟩

theorem choosePartition_options (m : Batching.Message) :
    (p.choosePartition lib murmur3_32 m).2.options = p.options := by
  unfold PartitionedProducer.choosePartition
  split
  · rfl
  · split
    · rfl
    · rfl
    · unfold PartitionedProducer.getNextRoundRobinProducer
      split
      · rfl
      · rfl
    · unfold PartitionedProducer.getNextRoundRobinProducer
      split
      · rfl
      · rfl

theorem options_step (hs : (partitioned lib murmur3_32).step p action = some q) :
    q.options = p.options := by
  cases action with
  | refresh now a =>
    obtain rfl := Option.some.inj hs
    exact (refreshPartitions_cursor p now a).2
  | choose message =>
    obtain ⟨-, rfl⟩ := choose_step hs
    exact choosePartition_options message

/-- A re-check that finds no new name leaves the vector. -/
theorem refreshPartitions_none {now : Nat} {a : Answers} {found : List String}
    (hlookup : lookupPartitionedTopic a p.topic = some found) (hadded : p.added found = []) :
    (p.refreshPartitions now a).producers = p.producers := by
  unfold PartitionedProducer.refreshPartitions
  simp only [hlookup, hadded, if_true]
  split
  · rfl
  · rfl

/-- **The vector stays, or gets longer.** -/
theorem grows_step (hs : (partitioned lib murmur3_32).step p action = some q) :
    q.producers = p.producers ∨ p.producers.length < q.producers.length := by
  cases action with
  | refresh now a =>
    obtain rfl := Option.some.inj hs
    rcases refreshPartitions_cases p now a with ⟨hsame, -⟩ | ⟨found, -, hlookup, -, hgrown⟩
    · exact Or.inl hsame
    · by_cases hadded : p.added found = []
      · exact Or.inl (refreshPartitions_none hlookup hadded)
      · have hpos := List.length_pos_of_ne_nil hadded
        right
        rw [hgrown, sortByPartition, List.length_mergeSort, List.length_append, List.length_map]
        omega
  | choose message =>
    obtain ⟨-, rfl⟩ := choose_step hs
    exact Or.inl (choosePartition_producers lib murmur3_32 p message).1

theorem length_exec {actions : List Action}
    (h : (partitioned lib murmur3_32).exec p actions = some r) :
    p.producers.length ≤ r.producers.length := by
  induction actions generalizing p with
  | nil =>
    obtain rfl := Option.some.inj h
    exact Nat.le_refl _
  | cons action actions ih =>
    obtain ⟨q, hs, hq⟩ := Option.bind_eq_some_iff.mp h
    have hle := ih hq
    rcases grows_step hs with hsame | hlt
    · rw [← hsame]
      exact hle
    · omega

/-! ## Fairness -/

/-- The cursor moves on by one, and comes round. -/
theorem getNextRoundRobinProducer_eq (p : PartitionedProducer) :
    some p.getNextRoundRobinProducer.1 =
        p.producers[(p.lastUsedProducerIndex + 1) % p.producers.length]? ∧
      p.getNextRoundRobinProducer.2.lastUsedProducerIndex =
        (p.lastUsedProducerIndex + 1) % p.producers.length := by
  have hlt := p.used_lt
  unfold PartitionedProducer.getNextRoundRobinProducer
  split
  · rename_i hnext
    rw [Nat.mod_eq_of_lt hnext]
    exact ⟨(List.getElem?_eq_getElem hnext).symm, rfl⟩
  · rename_i hnext
    have hend : p.lastUsedProducerIndex + 1 = p.producers.length := by omega
    rw [hend, Nat.mod_self]
    exact ⟨(List.getElem?_eq_getElem p.nonempty).symm, rfl⟩

/-- `RoundRobin`, or the default. -/
def PartitionedProducer.RoundRobin (p : PartitionedProducer) : Prop :=
  p.options.routingPolicy = none ∨ p.options.routingPolicy = some .RoundRobin

theorem choosePartition_roundRobin (hpolicy : p.RoundRobin) {message : Batching.Message}
    (hkey : p.hashRoutedKey lib message = none) :
    p.choosePartition lib murmur3_32 message =
      (some p.getNextRoundRobinProducer.1, p.getNextRoundRobinProducer.2) := by
  unfold PartitionedProducer.choosePartition
  rw [hkey]
  rcases hpolicy with hpolicy | hpolicy <;> rw [hpolicy]

/-- **The step lemma.**  A step makes a choice and moves the cursor on, or does neither. -/
theorem cursor_step (hpolicy : p.RoundRobin)
    (hs : (partitioned lib murmur3_32).step p action = some q) :
    (choice lib murmur3_32 p action = [] ∧ q.lastUsedProducerIndex = p.lastUsedProducerIndex) ∨
    ∃ producer, choice lib murmur3_32 p action = [producer] ∧
      some producer = p.producers[(p.lastUsedProducerIndex + 1) % p.producers.length]? ∧
      q.lastUsedProducerIndex = (p.lastUsedProducerIndex + 1) % p.producers.length := by
  cases action with
  | refresh now a =>
    obtain rfl := Option.some.inj hs
    exact Or.inl ⟨rfl, (refreshPartitions_cursor p now a).1⟩
  | choose message =>
    obtain ⟨-, rfl⟩ := choose_step hs
    cases hkey : p.hashRoutedKey lib message with
    | none =>
      have hchoice : choice lib murmur3_32 p (.choose message) =
          (p.choosePartition lib murmur3_32 message).1.toList := if_pos hkey
      rw [hchoice, choosePartition_roundRobin hpolicy hkey]
      obtain ⟨hproducer, hcursor⟩ := getNextRoundRobinProducer_eq p
      exact Or.inr ⟨_, rfl, hproducer, hcursor⟩
    | some key =>
      have hchoice : choice lib murmur3_32 p (.choose message) = [] :=
        if_neg (hkey ▸ Option.some_ne_none key)
      rw [hchoice, choosePartition_keyed murmur3_32 p message hkey]
      exact Or.inl ⟨rfl, rfl⟩

theorem choices_cons (hs : (partitioned lib murmur3_32).step p action = some q)
    (actions : List Action) :
    choices lib murmur3_32 p (action :: actions) =
      choice lib murmur3_32 p action ++ choices lib murmur3_32 q actions := by
  rw [choices, hs]

/-- **The run lemma.**  While the vector does not grow, the choices read it round. -/
theorem getElem?_choices {actions : List Action} (hpolicy : p.RoundRobin)
    (hexec : (partitioned lib murmur3_32).exec p actions = some r)
    (hlength : r.producers.length = p.producers.length) (k : Nat)
    (hk : k < (choices lib murmur3_32 p actions).length) :
    (choices lib murmur3_32 p actions)[k]? =
      p.producers[(p.lastUsedProducerIndex + 1 + k) % p.producers.length]? := by
  induction actions generalizing p k with
  | nil => exact absurd hk (Nat.not_lt_zero k)
  | cons action actions ih =>
    obtain ⟨q, hs, hq⟩ := Option.bind_eq_some_iff.mp hexec
    have hle := length_exec hq
    have hsame : q.producers = p.producers := by
      rcases grows_step hs with hsame | hlt
      · exact hsame
      · omega
    have hpolicy' : q.RoundRobin := by
      unfold PartitionedProducer.RoundRobin
      rw [options_step hs]
      exact hpolicy
    have hlength' : r.producers.length = q.producers.length := by rw [hsame, hlength]
    rw [choices_cons hs] at hk ⊢
    rcases cursor_step hpolicy hs with ⟨hnone, hcursor⟩ | ⟨producer, hone, hproducer, hcursor⟩
    · rw [hnone, List.nil_append] at hk ⊢
      rw [ih hpolicy' hq hlength' k hk, hcursor, hsame]
    · rw [hone, List.singleton_append] at hk ⊢
      cases k with
      | zero => exact hproducer
      | succ k =>
        rw [List.length_cons] at hk
        rw [List.getElem?_cons_succ, ih hpolicy' hq hlength' k (by omega), hcursor, hsame]
        congr 1
        -- the remainder may be taken at any time
        rw [Nat.add_assoc, Nat.mod_add_mod, Nat.add_right_comm]
        congr 1
        omega

/-- **As many choices as there are producers** are all of them, from behind the cursor on. -/
theorem choices_eq_rotate {actions : List Action} (hpolicy : p.RoundRobin)
    (hexec : (partitioned lib murmur3_32).exec p actions = some r)
    (hlength : r.producers.length = p.producers.length)
    (hmany : (choices lib murmur3_32 p actions).length = p.producers.length) :
    choices lib murmur3_32 p actions = p.producers.rotate (p.lastUsedProducerIndex + 1) := by
  apply List.ext_getElem?
  intro k
  by_cases hk : k < p.producers.length
  · rw [getElem?_choices hpolicy hexec hlength k (hmany ▸ hk), List.getElem?_rotate hk,
      Nat.add_comm k]
  · rw [List.getElem?_eq_none (by omega), List.getElem?_eq_none (by rw [List.length_rotate]; omega)]

/-! ## What `Single` selects -/

/-- What comes first stays first when what is sorted in comes behind it. -/
theorem sortByPartition_append {front rest : List TopicProducer}
    (hfront : front.Pairwise fun t u => sortKey t ≤ sortKey u)
    (hrest : ∀ t ∈ front, ∀ u ∈ rest, sortKey t ≤ sortKey u) :
    sortByPartition (front ++ rest) = front ++ sortByPartition rest := by
  induction front with
  | nil => rfl
  | cons t front ih =>
    obtain ⟨hleast, hfront⟩ := List.pairwise_cons.mp hfront
    have htail := ih hfront fun u hu => hrest u (List.mem_cons_of_mem t hu)
    have hle : ∀ u ∈ front ++ rest, sortKey t ≤ sortKey u := by
      intro u hu
      rcases List.mem_append.mp hu with hu | hu
      · exact hleast u hu
      · exact hrest t List.mem_cons_self u hu
    have htrans : ∀ a b c : TopicProducer, decide (sortKey a ≤ sortKey b) = true →
        decide (sortKey b ≤ sortKey c) = true → decide (sortKey a ≤ sortKey c) = true :=
      fun a b c hab hbc =>
        decide_eq_true (Nat.le_trans (of_decide_eq_true hab) (of_decide_eq_true hbc))
    have htotal : ∀ a b : TopicProducer,
        (decide (sortKey a ≤ sortKey b) || decide (sortKey b ≤ sortKey a)) = true := by
      intro a b
      rcases Nat.le_total (sortKey a) (sortKey b) with h | h
      · rw [decide_eq_true h, Bool.true_or]
      · rw [decide_eq_true h, Bool.or_true]
    obtain ⟨before, after, hsorted, hwithout, hbefore⟩ :=
      List.mergeSort_cons htrans htotal t (front ++ rest)
    -- nothing is before `t`
    have hnil : before = [] := by
      apply List.eq_nil_iff_forall_not_mem.mpr
      intro u hu
      have hmem : u ∈ front ++ rest := by
        rw [← List.mem_mergeSort, hwithout]
        exact List.mem_append_left _ hu
      have hlt := hbefore u hu
      rw [decide_eq_true (hle u hmem)] at hlt
      exact absurd hlt Bool.false_ne_true
    rw [hnil, List.nil_append] at hsorted hwithout
    show List.mergeSort (t :: (front ++ rest)) _ = _
    rw [hsorted, ← hwithout]
    exact congrArg (t :: ·) htail

/-- The partitions up to the one that `Single` selects are first, and the others behind. -/
structure Front (p q : PartitionedProducer) : Prop where
  topic : q.topic = p.topic
  options : q.options = p.options
  cursor : q.lastUsedProducerIndex = p.lastUsedProducerIndex
  front : ∃ rest, q.producers = producersOf p.topic (p.lastUsedProducerIndex + 1) ++ rest ∧
    ∀ t ∈ rest, sortKey { topic := partitionName p.topic p.lastUsedProducerIndex } ≤ sortKey t

theorem pairwise_producersOf (topic : String) (n : Nat) :
    (producersOf topic n).Pairwise fun t u => sortKey t ≤ sortKey u := by
  unfold producersOf
  rw [List.pairwise_map]
  exact List.pairwise_lt_range.imp fun hij => sortKey_name_le topic (Nat.le_of_lt hij)

theorem le_of_mem_producersOf {topic : String} {i : Nat} {t : TopicProducer}
    (ht : t ∈ producersOf topic (i + 1)) : sortKey t ≤ sortKey { topic := partitionName topic i } := by
  obtain ⟨j, hj, rfl⟩ := List.mem_map.mp ht
  exact sortKey_name_le topic (Nat.le_of_lt_succ (List.mem_range.mp hj))

theorem some_selected (p : PartitionedProducer) :
    some p.selected = p.producers[p.lastUsedProducerIndex]? :=
  (List.getElem?_eq_getElem p.used_lt).symm

theorem Front.selected (h : Front p q) :
    q.selected = { topic := partitionName p.topic p.lastUsedProducerIndex } := by
  obtain ⟨rest, hproducers, -⟩ := h.front
  apply Option.some.inj
  rw [some_selected, hproducers, h.cursor, List.getElem?_append_left, getElem?_producersOf]
  · exact Nat.lt_succ_self _
  · rw [length_producersOf]
    exact Nat.lt_succ_self _

/-- What a re-check sorts in comes behind. -/
theorem Front.created (h : Front p q) {now : Nat} {a : Answers} {found : List String}
    (hsingle : q.options.routingPolicy = some .Single) (hok : KeepsSelection q (.refresh now a))
    (hdue : q.due now = true) (hlookup : lookupPartitionedTopic a q.topic = some found)
    (hall : (q.added found).all a.created = true) :
    ∀ t ∈ (q.added found).map TopicProducer.mk,
      sortKey { topic := partitionName p.topic p.lastUsedProducerIndex } ≤ sortKey t := by
  intro t ht
  obtain ⟨name, hname, rfl⟩ := List.mem_map.mp ht
  obtain ⟨hmem, hnew⟩ := List.mem_filter.mp hname
  rcases lookupPartitionedTopic_some hlookup with ⟨hnumber, rfl, hfound⟩ | ⟨n, -, -, rfl⟩
  · -- its own name
    obtain rfl := List.mem_singleton.mp hmem
    have hcreated : a.created q.topic = true := List.all_eq_true.mp hall _ hname
    have hself := answersItself_iff.mpr ⟨hdue, hnumber, hfound, hcreated⟩
    have hge := Nat.le_of_not_lt fun hlt => hok ⟨hsingle, hself, hlt⟩
    rw [h.selected] at hge
    exact hge
  · obtain ⟨j, -, rfl⟩ := List.mem_map.mp hmem
    rw [h.topic] at hnew ⊢
    by_cases hj : j ≤ p.lastUsedProducerIndex
    · -- which is there already
      obtain ⟨rest, hproducers, -⟩ := h.front
      rw [Bool.not_eq_true', List.contains_eq_mem, decide_eq_false_iff_not, hproducers] at hnew
      have hthere : partitionName p.topic j ∈ (producersOf p.topic
          (p.lastUsedProducerIndex + 1) ++ rest).map TopicProducer.topic := by
        rw [List.map_append, topics_producersOf]
        exact List.mem_append_left _
          (List.mem_map.mpr ⟨j, List.mem_range.mpr (Nat.lt_succ_of_le hj), rfl⟩)
      exact absurd hthere hnew
    · exact sortKey_name_le p.topic (by omega)

theorem Front.grown (h : Front p q) {created : List TopicProducer}
    (hcreated : ∀ t ∈ created,
      sortKey { topic := partitionName p.topic p.lastUsedProducerIndex } ≤ sortKey t) :
    ∃ rest, sortByPartition (q.producers ++ created) =
        producersOf p.topic (p.lastUsedProducerIndex + 1) ++ rest ∧
      ∀ t ∈ rest, sortKey { topic := partitionName p.topic p.lastUsedProducerIndex } ≤ sortKey t := by
  obtain ⟨rest, hproducers, hrest⟩ := h.front
  have hbehind : ∀ t ∈ rest ++ created,
      sortKey { topic := partitionName p.topic p.lastUsedProducerIndex } ≤ sortKey t := by
    intro t ht
    rcases List.mem_append.mp ht with ht | ht
    · exact hrest t ht
    · exact hcreated t ht
  refine ⟨sortByPartition (rest ++ created), ?_, fun t ht => hbehind t (List.mem_mergeSort.mp ht)⟩
  rw [hproducers, List.append_assoc, sortByPartition_append (pairwise_producersOf _ _)]
  intro t ht u hu
  exact Nat.le_trans (le_of_mem_producersOf ht) (hbehind u hu)

/-- **The step lemma.** -/
theorem Front.step (h : Front p q) (hsingle : p.options.routingPolicy = some .Single)
    (hok : KeepsSelection q action) (hs : (partitioned lib murmur3_32).step q action = some r) :
    Front p r := by
  have hsingle' : q.options.routingPolicy = some .Single := by rw [h.options, hsingle]
  have hoptions := (options_step hs).trans h.options
  cases action with
  | refresh now a =>
    obtain rfl := Option.some.inj hs
    refine ⟨(refreshPartitions_topic q now a).trans h.topic, hoptions,
      (refreshPartitions_cursor q now a).1.trans h.cursor, ?_⟩
    rcases refreshPartitions_cases q now a with ⟨hsame, -⟩ | ⟨found, hdue, hlookup, hall, hgrown⟩
    · rw [hsame]
      exact h.front
    · rw [hgrown]
      exact h.grown (h.created hsingle' hok hdue hlookup hall)
  | choose message =>
    obtain ⟨-, rfl⟩ := choose_step hs
    obtain ⟨hproducers, htopic⟩ := choosePartition_producers lib murmur3_32 q message
    refine ⟨htopic.trans h.topic, hoptions, ?_, hproducers ▸ h.front⟩
    rw [← h.cursor]
    unfold PartitionedProducer.choosePartition
    rw [hsingle']
    split
    · rfl
    · rfl

theorem Front.exec {actions : List Action} (h : Front p q)
    (hsingle : p.options.routingPolicy = some .Single)
    (hok : (partitioned lib murmur3_32).Guarded KeepsSelection q actions)
    (hexec : (partitioned lib murmur3_32).exec q actions = some r) : Front p r := by
  induction actions generalizing q with
  | nil =>
    obtain rfl := Option.some.inj hexec
    exact h
  | cons action actions ih =>
    obtain ⟨q', hs, hq'⟩ := Option.bind_eq_some_iff.mp hexec
    obtain ⟨hkeeps, hok'⟩ := hok q' hs
    exact ih (h.step hsingle hkeeps hs) hok' hq'

theorem Front.init (hp : (partitioned lib murmur3_32).init p) : Front p p := by
  obtain ⟨topic, options, partitionRefresh, now, a, genRange, hbuild⟩ := hp
  obtain ⟨n, hn⟩ := build_producers hbuild
  have hlt := p.used_lt
  rw [hn, length_producersOf] at hlt
  obtain ⟨k, rfl⟩ := Nat.exists_eq_add_of_le (show p.lastUsedProducerIndex + 1 ≤ n from hlt)
  refine ⟨rfl, rfl, rfl, _, hn.trans (producersOf_add p.topic _ k).symm, ?_⟩
  intro t ht
  obtain ⟨name, hname, rfl⟩ := List.mem_map.mp ht
  obtain ⟨j, -, rfl⟩ := List.mem_map.mp hname
  exact sortKey_name_le p.topic (by omega)

theorem choosePartition_single (hsingle : p.options.routingPolicy = some .Single)
    {m : Batching.Message} (hkey : p.hashRoutedKey lib m = none) :
    (p.choosePartition lib murmur3_32 m).1 = some p.selected := by
  unfold PartitionedProducer.choosePartition
  rw [hkey, hsingle]
  rfl

/-! ## The vector has no producer twice -/

theorem nodup_step (h : (p.producers.map TopicProducer.topic).Nodup)
    (hs : (partitioned lib murmur3_32).step p action = some q) :
    (q.producers.map TopicProducer.topic).Nodup := by
  cases action with
  | refresh now a =>
    obtain rfl := Option.some.inj hs
    rcases refreshPartitions_cases p now a with ⟨hsame, -⟩ | ⟨found, -, hlookup, -, hgrown⟩
    · rw [hsame]
      exact h
    · have hfound : found.Nodup := by
        rcases lookupPartitionedTopic_some hlookup with ⟨-, rfl, -⟩ | ⟨n, -, -, rfl⟩
        · exact List.nodup_singleton _
        · exact List.nodup_range.map fun i j hij => partitionName_injective hij
      have hnames : (((p.added found).map TopicProducer.mk).map TopicProducer.topic) =
          p.added found := by
        rw [List.map_map]
        exact List.map_id _
      have hperm : (sortByPartition (p.producers ++ (p.added found).map TopicProducer.mk)).Perm
          (p.producers ++ (p.added found).map TopicProducer.mk) := List.mergeSort_perm _ _
      rw [hgrown, (hperm.map TopicProducer.topic).nodup_iff, List.map_append, hnames,
        List.nodup_append']
      refine ⟨h, hfound.filter _, fun t ht hadded => ?_⟩
      have hnew := (List.mem_filter.mp hadded).2
      rw [List.contains_eq_mem, decide_eq_true ht] at hnew
      exact absurd hnew Bool.false_ne_true
  | choose message =>
    obtain ⟨-, rfl⟩ := choose_step hs
    rw [(choosePartition_producers lib murmur3_32 p message).1]
    exact h

theorem nodup_exec {actions : List Action} (h : (p.producers.map TopicProducer.topic).Nodup)
    (hexec : (partitioned lib murmur3_32).exec p actions = some q) :
    (q.producers.map TopicProducer.topic).Nodup := by
  induction actions generalizing p with
  | nil =>
    obtain rfl := Option.some.inj hexec
    exact h
  | cons action actions ih =>
    obtain ⟨p', hs, hp'⟩ := Option.bind_eq_some_iff.mp hexec
    exact ih (nodup_step h hs) hp'

/-- Only a router of the application names an index out of the vector. -/
theorem choosePartition_isSome (m : Batching.Message)
    (hpolicy : ∀ route, p.options.routingPolicy ≠ some (.Custom route)) :
    (p.choosePartition lib murmur3_32 m).1.isSome = true := by
  unfold PartitionedProducer.choosePartition
  split
  · rfl
  · split
    · rfl
    · rename_i route hroute
      exact absurd hroute (hpolicy route)
    · rfl
    · rfl

/-! ## The main result -/

/-- **Headline.**  After any sends and re-checks since `build`: the cursor is inside the vector, and no
    policy but the application's own misses it; as many unkeyed choices as there are producers, while
    the vector does not grow, are each of them once; and `Single` selects what it selected at first, if
    no re-check has sorted the topic's own producer in before that. -/
theorem unkeyed_routing (lib : Batching.Libraries) (murmur3_32 : Murmur3) (p q : PartitionedProducer)
    (hp : (partitioned lib murmur3_32).init p) (actions : List Action)
    (hq : (partitioned lib murmur3_32).exec p actions = some q) :
    q.lastUsedProducerIndex < q.producers.length ∧
    ((∀ route, q.options.routingPolicy ≠ some (.Custom route)) → ∀ m,
      (q.choosePartition lib murmur3_32 m).1.isSome = true) ∧
    (q.RoundRobin → ∀ more r, (partitioned lib murmur3_32).exec q more = some r →
      r.producers.length = q.producers.length →
      (choices lib murmur3_32 q more).length = q.producers.length →
      (choices lib murmur3_32 q more).Perm q.producers ∧
        (q.producers.map TopicProducer.topic).Nodup) ∧
    ((partitioned lib murmur3_32).Guarded KeepsSelection p actions →
      p.options.routingPolicy = some .Single → ∀ m,
        p.hashRoutedKey lib m = none → q.hashRoutedKey lib m = none →
        (q.choosePartition lib murmur3_32 m).1 = (p.choosePartition lib murmur3_32 m).1) := by
  refine ⟨q.used_lt, fun hpolicy m => choosePartition_isSome m hpolicy, ?_, ?_⟩
  · intro hpolicy more r hmore hlength hmany
    rw [choices_eq_rotate hpolicy hmore hlength hmany]
    exact ⟨List.rotate_perm _ _, nodup_exec (serves_init hp).nodup hq⟩
  · intro hok hsingle m hm hm'
    have hfront : Front p q := (Front.init hp).exec hsingle hok hq
    rw [choosePartition_single (hfront.options ▸ hsingle) hm', choosePartition_single hsingle hm,
      hfront.selected, (Front.init hp).selected]

/-- "t" with two partitions, the second one in use. -/
def second (topic : String) : PartitionedProducer where
  producers := producersOf topic 2
  lastUsedProducerIndex := 1
  used_lt := by rw [length_producersOf]; decide
  topic
  options := { routingPolicy := some .Single }
  partitionRefresh := some 60
  lastPartitionCheck := 0

theorem build_second (topic : String) :
    build (some topic) { routingPolicy := some .Single } (some 60) 0 (answering 2)
      (fun n h => ⟨n - 1, by omega⟩) = .ok (.Partitioned (second topic)) :=
  build_answering topic { routingPolicy := some .Single } (some 60) 0 fun n h => ⟨n - 1, by omega⟩

/-- Two partitions more: an unkeyed message goes where it went. -/
theorem unkeyed_routing_growing : ∃ q,
    (partitioned Batching.threeLibraries fun _ _ => 0).exec (second "orders")
      [.refresh 60 (answering 4)] = some q ∧
    (q.choosePartition Batching.threeLibraries (fun _ _ => 0) {}).1 =
      some { topic := "orders-partition-1" } := by
  refine ⟨(second "orders").refreshPartitions 60 (answering 4), rfl, ?_⟩
  have hrouted := unkeyed_routing Batching.threeLibraries (fun _ _ => 0) (second "orders") _
    ⟨_, _, _, _, _, _, build_second "orders"⟩ [.refresh 60 (answering 4)] rfl
  refine (hrouted.2.2.2 ?_ rfl {} rfl rfl).trans (by decide +kernel)
  rintro q -
  refine ⟨fun hself => ?_, trivial⟩
  have hnumber := (answersItself_iff.mp hself.2.1).2.1
  exact absurd (Option.some.inj hnumber) (by decide)

theorem sortByPartition_pair {t u : TopicProducer} (h : sortKey u < sortKey t) :
    sortByPartition [t, u] = [u, t] := by
  have hnot : ¬ sortKey t ≤ sortKey u := Nat.not_le_of_lt h
  simp [sortByPartition, List.mergeSort, hnot]

/-- A topic without partitions, and a name that `partition_index` reads a 0 out of: its own producer
    takes the place of the second partition. -/
theorem single_moves :
    ¬ ∀ (lib : Batching.Libraries) (murmur3_32 : Murmur3) (p q : PartitionedProducer),
      (partitioned lib murmur3_32).init p → ∀ actions,
        (partitioned lib murmur3_32).exec p actions = some q →
        p.options.routingPolicy = some .Single → ∀ m,
        p.hashRoutedKey lib m = none → q.hashRoutedKey lib m = none →
        (q.choosePartition lib murmur3_32 m).1 = (p.choosePartition lib murmur3_32 m).1 := by
  intro hall
  have hkept := hall Batching.threeLibraries (fun _ _ => 0) (second "orders-partition-+0") _
    ⟨_, _, _, _, _, _, build_second "orders-partition-+0"⟩ [.refresh 60 (answering 0)] rfl rfl {} rfl rfl
  have hfront : sortByPartition (producersOf "orders-partition-+0" 1 ++
      [{ topic := "orders-partition-+0-partition-1" }, { topic := "orders-partition-+0" }]) =
      producersOf "orders-partition-+0" 1 ++
        sortByPartition
          [{ topic := "orders-partition-+0-partition-1" }, { topic := "orders-partition-+0" }] :=
    sortByPartition_append (pairwise_producersOf _ _) (by decide +kernel)
  rw [sortByPartition_pair (by decide +kernel)] at hfront
  have hproducers : ((second "orders-partition-+0").refreshPartitions 60 (answering 0)).producers =
      producersOf "orders-partition-+0" 1 ++
        [{ topic := "orders-partition-+0" }, { topic := "orders-partition-+0-partition-1" }] := hfront
  have hselected : (((second "orders-partition-+0").refreshPartitions 60
      (answering 0)).choosePartition Batching.threeLibraries (fun _ _ => 0) {}).1 =
      some { topic := "orders-partition-+0" } := by
    rw [choosePartition_single rfl rfl, some_selected, hproducers]
    rfl
  rw [hselected] at hkept
  exact absurd hkept (by decide +kernel)

end PulsarClient.Partitions
