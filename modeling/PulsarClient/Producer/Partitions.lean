/-
  `refresh_partitions`: does `producers[i]` keep serving partition `i`?

  Keyed routing indexes the vector of producers by partition number.  The vector is made by `build` and
  grown by `refresh_partitions`, which asks for the partitions again, starts a producer for every name
  it does not know, appends them and sorts.

  1. NAMES — `<topic>-partition-<n>`, and `partition_index`, which reads the number back.

  2. `build` and `refreshPartitions`, on the answers of the broker (`Answers`).

  3. The SYSTEM of one partitioned producer: re-checks and sends, in any order.

  4. `refresh_zero` — a topic without partitions is answered by its OWN name, which `build` keeps apart
     and a re-check does not: a producer of the topic joins those of its partitions.

  5. `serves_iff` — the exact condition: no re-check is answered so, and every other one, whatever the
     count and whatever fails, keeps the vector in partition order.
-/
import PulsarClient.Lib.Runs
import PulsarClient.Producer.Routing

namespace PulsarClient.Partitions

open Runs

/-! ## Names -/

/-- `format!("{}-partition-{}", &topic, n)` -/
def partitionName (topic : String) (n : Nat) : String := topic ++ "-partition-" ++ toString n

/-- `str::rsplit_once`: around the LAST occurrence of the separator. -/
def rsplitOnce (separator : List Char) : List Char → Option (List Char × List Char)
  | [] => if separator.isEmpty then some ([], []) else none
  | c :: cs =>
    match rsplitOnce separator cs with
    | some (before, after) => some (c :: before, after)
    | none =>
      if separator.isPrefixOf (c :: cs) then some ([], (c :: cs).drop separator.length) else none

/-- `str::parse::<usize>`: digits, after a sign perhaps, that do not overflow. -/
def parseUsize (s : List Char) : Option Nat :=
  let digits := if s.head? = some '+' then s.tail else s
  if digits ≠ [] ∧ digits.all Char.isDigit ∧ Nat.ofDigitChars 10 digits 0 < 2 ^ 64 then
    some (Nat.ofDigitChars 10 digits 0)
  else none

/-- "-partition-" -/
def separator : List Char := ['-', 'p', 'a', 'r', 't', 'i', 't', 'i', 'o', 'n', '-']

/-- `partition_index` -/
def partitionIndex (topic : String) : Option Nat :=
  match rsplitOnce separator topic.toList with
  | none => none
  | some (before, index) => if before.isEmpty then none else parseUsize index

theorem partitionName_injective {topic : String} {i j : Nat}
    (h : partitionName topic i = partitionName topic j) : i = j := by
  have hlist := congrArg String.toList h
  simp only [partitionName, String.toList_append] at hlist
  have hdigits := congrArg (fun ds => Nat.ofDigitChars 10 ds 0) (List.append_cancel_left hlist)
  simpa [Nat.toString_eq_ofList_toDigits, Nat.ofDigitChars_ten_toDigits] using hdigits

/-- The name of a partition is longer than that of the topic. -/
theorem partitionName_ne (topic : String) (n : Nat) : partitionName topic n ≠ topic := by
  intro h
  have hlength := congrArg String.length h
  simp only [partitionName, String.length_append] at hlength
  have hseparator : "-partition-".length = 11 := by decide +kernel
  omega

/-- No separator begins at a character that is not a hyphen. -/
theorem rsplitOnce_cons_ne {c : Char} {cs : List Char} (hc : c ≠ '-')
    (hnone : rsplitOnce separator cs = none) :
    rsplitOnce separator (c :: cs) = none := by
  unfold rsplitOnce
  rw [hnone]
  have hhead : separator.isPrefixOf (c :: cs) = false := by
    show (('-' == c) && _) = false
    rw [beq_false_of_ne (Ne.symm hc)]
    rfl
  simp only [hhead]
  rfl

theorem rsplitOnce_digits {ds : List Char} (hds : ∀ c ∈ ds, c.isDigit = true) :
    rsplitOnce separator ds = none := by
  induction ds with
  | nil => rfl
  | cons c cs ih =>
    apply rsplitOnce_cons_ne
    · rintro rfl
      exact absurd (hds '-' List.mem_cons_self) (by decide)
    · exact ih fun d hd => hds d (List.mem_cons_of_mem c hd)

/-- … and none at the hyphen before digits. -/
theorem rsplitOnce_hyphen {ds : List Char} (hds : ∀ c ∈ ds, c.isDigit = true) :
    rsplitOnce separator ('-' :: ds) = none := by
  unfold rsplitOnce
  rw [rsplitOnce_digits hds]
  have hnext : separator.isPrefixOf ('-' :: ds) = false := by
    cases ds with
    | nil => rfl
    | cons c cs =>
      have hc : ('p' == c) = false := by
        apply beq_false_of_ne
        rintro rfl
        exact absurd (hds 'p' List.mem_cons_self) (by decide)
      show (true && (('p' == c) && _)) = false
      rw [hc]
      rfl
  simp only [hnext]
  rfl

/-- The last separator of a name is the one before its number. -/
theorem rsplitOnce_name (t : List Char) {ds : List Char} (hds : ∀ c ∈ ds, c.isDigit = true) :
    rsplitOnce separator (t ++ (separator ++ ds)) = some (t, ds) := by
  induction t with
  | nil =>
    have htail : rsplitOnce separator (separator.tail ++ ds) = none := by
      iterate 9 refine rsplitOnce_cons_ne (by decide) ?_
      exact rsplitOnce_hyphen hds
    have hhere : separator.isPrefixOf (separator ++ ds) = true := by
      rw [List.isPrefixOf_iff_prefix]
      exact List.prefix_append separator ds
    show rsplitOnce separator ('-' :: (separator.tail ++ ds)) = _
    unfold rsplitOnce
    rw [htail]
    exact if_pos hhere
  | cons c cs ih =>
    rw [List.cons_append, rsplitOnce, ih]

theorem isDigit_toDigits (n : Nat) : ∀ c ∈ Nat.toDigits 10 n, c.isDigit = true := by
  intro c hc
  exact Nat.isDigit_of_mem_toDigits (by decide) (by decide) hc

theorem parseUsize_toDigits (n : Nat) :
    parseUsize (Nat.toDigits 10 n) = if n < 2 ^ 64 then some n else none := by
  have hsign : (Nat.toDigits 10 n).head? ≠ some '+' := by
    intro hhead
    exact absurd (isDigit_toDigits n '+' (List.mem_of_head? hhead)) (by decide)
  unfold parseUsize
  rw [if_neg hsign]
  simp only [Nat.ofDigitChars_ten_toDigits]
  by_cases hn : n < 2 ^ 64
  · rw [if_pos hn]
    exact if_pos ⟨Nat.toDigits_ne_nil, List.all_eq_true.mpr (isDigit_toDigits n), hn⟩
  · rw [if_neg hn]
    exact if_neg fun h => hn h.2.2

theorem partitionName_toList (topic : String) (n : Nat) :
    (partitionName topic n).toList = topic.toList ++ (separator ++ Nat.toDigits 10 n) := by
  have hseparator : "-partition-".toList = separator := rfl
  unfold partitionName
  rw [String.toList_append, String.toList_append, hseparator, Nat.toString_eq_ofList_toDigits,
    String.toList_ofList, List.append_assoc]

/-- **The number is read back** out of a name, unless there is nothing before it. -/
theorem partitionIndex_name {topic : String} (htopic : topic ≠ "") (n : Nat) :
    partitionIndex (partitionName topic n) = if n < 2 ^ 64 then some n else none := by
  have hsplit := rsplitOnce_name topic.toList (isDigit_toDigits n)
  have hbefore : topic.toList.isEmpty = false := by
    rw [List.isEmpty_eq_false_iff]
    exact fun h => htopic (String.toList_eq_nil_iff.mp h)
  unfold partitionIndex
  rw [partitionName_toList, hsplit]
  simp only [hbefore]
  exact parseUsize_toDigits n

theorem partitionIndex_name_empty (n : Nat) : partitionIndex (partitionName "" n) = none := by
  have hsplit := rsplitOnce_name [] (isDigit_toDigits n)
  unfold partitionIndex
  rw [partitionName_toList, show "".toList = [] from rfl, hsplit]
  rfl

/-! ## `build` and `refresh_partitions` -/

/-- What the broker answers while one of them runs. -/
structure Answers where
  /-- `lookup_partitioned_topic_number`, unless it fails -/
  number : Option UInt32
  /-- `lookup_topic` succeeds -/
  found : String → Bool
  /-- `TopicProducer::new` succeeds -/
  created : String → Bool

/-- `lookup_partitioned_topic`, one failure being the failure of all. -/
def lookupPartitionedTopic (a : Answers) (topic : String) : Option (List String) :=
  match a.number with
  | none => none
  | some partitions =>
    let topics :=
      if partitions = 0 then [topic]
      else (List.range partitions.toNat).map (partitionName topic)
    if topics.all a.found then some topics else none

/-- `TopicProducer::new` -/
def TopicProducer.new (a : Answers) (topic : String) : Option TopicProducer :=
  if a.created topic then some { topic } else none

/-- `partition_index(p.topic()).unwrap_or(usize::MAX)` -/
def sortKey (p : TopicProducer) : Nat := (partitionIndex p.topic).getD (2 ^ 64 - 1)

/-- `sort_by_key`, which is stable. -/
def sortByPartition (producers : List TopicProducer) : List TopicProducer :=
  producers.mergeSort fun p q => sortKey p ≤ sortKey q

inductive BuildError where
  | Custom (text : String)
  /-- of a lookup -/
  | ServiceDiscovery
  /-- of `TopicProducer::new` -/
  | Producer
  deriving DecidableEq, Repr

/-- `ProducerBuilder::build` at `now`.  `genRange` is the random number generator. -/
def build (topic : Option String) (options : ProducerOptions) (partitionRefresh : Option Nat)
    (now : Nat) (a : Answers) (genRange : ∀ n, 0 < n → Fin n) :
    Except BuildError ProducerInner :=
  match topic with
  | none => .error (.Custom "topic not set")
  | some topic =>
    match lookupPartitionedTopic a topic with
    | none => .error .ServiceDiscovery
    | some partitions =>
      let isPartitioned := partitions.head?.any fun first => first ≠ topic
      match partitions.mapM (TopicProducer.new a) with
      | none => .error .Producer
      | some producers =>
        match sortByPartition producers with
        | [] =>
          .error (.Custom
            ("Unexpected error: Partition lookup returned no topics for " ++ topic))
        | first :: rest =>
          if isPartitioned then
            .ok (.Partitioned
              { producers := first :: rest
                lastUsedProducerIndex := genRange (first :: rest).length (Nat.succ_pos _)
                used_lt := (genRange (first :: rest).length (Nat.succ_pos _)).isLt
                topic
                options
                partitionRefresh
                lastPartitionCheck := now })
          else .ok (.Single first options)

namespace PartitionedProducer

/-- A re-check is due. -/
def due (p : PartitionedProducer) (now : Nat) : Bool :=
  match p.partitionRefresh with
  | none => false
  | some interval => interval ≤ now - p.lastPartitionCheck

/-- The names that have no producer yet. -/
def added (p : PartitionedProducer) (found : List String) : List String :=
  found.filter fun topic => !(p.producers.map TopicProducer.topic).contains topic

/-- … get one: `append`, then `sort_by_key`. -/
def grow (p : PartitionedProducer) (created : List TopicProducer) : PartitionedProducer :=
  { p with
    producers := sortByPartition (p.producers ++ created)
    used_lt := by
      have hlt := p.used_lt
      unfold sortByPartition
      rw [List.length_mergeSort, List.length_append]
      omega }

/-- `self.last_partition_check = Instant::now()` -/
def checked (p : PartitionedProducer) (now : Nat) : PartitionedProducer :=
  { p with lastPartitionCheck := now }

@[simp] theorem checked_topic (p : PartitionedProducer) (now : Nat) :
    (p.checked now).topic = p.topic := rfl

@[simp] theorem checked_producers (p : PartitionedProducer) (now : Nat) :
    (p.checked now).producers = p.producers := rfl

@[simp] theorem checked_added (p : PartitionedProducer) (now : Nat) (found : List String) :
    (p.checked now).added found = p.added found := rfl

@[simp] theorem grow_topic (p : PartitionedProducer) (created : List TopicProducer) :
    (p.grow created).topic = p.topic := rfl

@[simp] theorem grow_producers (p : PartitionedProducer) (created : List TopicProducer) :
    (p.grow created).producers = sortByPartition (p.producers ++ created) := rfl

/-- `refresh_partitions` at `now`.  "Failures are logged and swallowed." -/
def refreshPartitions (p : PartitionedProducer) (now : Nat) (a : Answers) : PartitionedProducer :=
  if p.due now then
    match lookupPartitionedTopic a p.topic with
    | none => p.checked now
    | some found =>
      if p.added found = [] then p.checked now
      else
        match (p.added found).mapM (TopicProducer.new a) with
        | none => p.checked now
        | some created => (p.checked now).grow created
  else p

end PartitionedProducer

/-! ## Partition order -/

/-- The producers of the first `n` partitions, in order. -/
def producersOf (topic : String) (n : Nat) : List TopicProducer :=
  (List.range n).map fun i => { topic := partitionName topic i }

theorem topics_producersOf (topic : String) (n : Nat) :
    (producersOf topic n).map TopicProducer.topic = (List.range n).map (partitionName topic) := by
  unfold producersOf
  rw [List.map_map]
  rfl

theorem length_producersOf (topic : String) (n : Nat) : (producersOf topic n).length = n := by
  unfold producersOf
  rw [List.length_map, List.length_range]

theorem getElem?_producersOf (topic : String) {n i : Nat} (hi : i < n) :
    (producersOf topic n)[i]? = some { topic := partitionName topic i } := by
  unfold producersOf
  rw [List.getElem?_map, List.getElem?_range hi]
  rfl

theorem sortKey_name_le (topic : String) {i j : Nat} (hij : i ≤ j) :
    sortKey { topic := partitionName topic i } ≤ sortKey { topic := partitionName topic j } := by
  unfold sortKey
  by_cases htopic : topic = ""
  · subst htopic
    rw [partitionIndex_name_empty, partitionIndex_name_empty]
  · rw [partitionIndex_name htopic, partitionIndex_name htopic]
    split <;> split <;> simp only [Option.getD_some, Option.getD_none] <;> omega

/-- Sorting keeps the partition order, also of a topic whose names have no number to read. -/
theorem sortByPartition_producersOf (topic : String) (n : Nat) :
    sortByPartition (producersOf topic n) = producersOf topic n := by
  apply List.mergeSort_of_pairwise
  unfold producersOf
  rw [List.pairwise_map]
  apply List.pairwise_lt_range.imp
  intro i j hij
  exact decide_eq_true (sortKey_name_le topic (Nat.le_of_lt hij))

theorem mapM_new (a : Answers) (topics : List String) :
    topics.mapM (TopicProducer.new a) =
      if topics.all a.created then some (topics.map TopicProducer.mk) else none := by
  induction topics with
  | nil => rfl
  | cons t ts ih =>
    rw [List.mapM_cons, ih]
    unfold TopicProducer.new
    cases ht : a.created t <;> cases hts : ts.all a.created <;> simp [ht, hts]

/-- What a lookup finds: the partitions, or the topic itself. -/
theorem lookupPartitionedTopic_some {a : Answers} {topic : String} {found : List String}
    (h : lookupPartitionedTopic a topic = some found) :
    (a.number = some 0 ∧ found = [topic] ∧ a.found topic = true) ∨
      ∃ n, a.number = some n ∧ 0 < n.toNat ∧ found = (List.range n.toNat).map (partitionName topic) := by
  unfold lookupPartitionedTopic at h
  split at h
  · cases h
  · rename_i n hn
    by_cases hzero : n = 0
    · subst hzero
      simp only [if_true, List.all_cons, List.all_nil, Bool.and_true] at h
      split at h
      · rename_i hfound
        exact Or.inl ⟨hn, (Option.some.inj h).symm, hfound⟩
      · cases h
    · simp only [if_neg hzero] at h
      split at h
      · refine Or.inr ⟨n, hn, ?_, (Option.some.inj h).symm⟩
        apply Nat.pos_of_ne_zero
        exact fun hnat => hzero (UInt32.toNat_inj.mp hnat)
      · cases h

/-! ## One re-check -/

section

variable {p : PartitionedProducer} {now : Nat} {a : Answers}

/-- A re-check leaves the vector as it is, or starts a producer for every name that is not there. -/
theorem refreshPartitions_cases (p : PartitionedProducer) (now : Nat) (a : Answers) :
    ((p.refreshPartitions now a).producers = p.producers ∧
      (p.due now = true → ∀ found, lookupPartitionedTopic a p.topic = some found →
        (p.added found).all a.created = true → p.added found = [])) ∨
    ∃ found, p.due now = true ∧ lookupPartitionedTopic a p.topic = some found ∧
      (p.added found).all a.created = true ∧
      (p.refreshPartitions now a).producers =
        sortByPartition (p.producers ++ (p.added found).map TopicProducer.mk) := by
  obtain ⟨q, hq⟩ : ∃ q, p.refreshPartitions now a = q := ⟨_, rfl⟩
  rw [hq]
  unfold PartitionedProducer.refreshPartitions at hq
  by_cases hdue : p.due now = true
  · rw [if_pos hdue] at hq
    split at hq
    · rename_i hnone
      obtain rfl := hq
      refine Or.inl ⟨rfl, fun _ found h => ?_⟩
      rw [hnone] at h
      cases h
    · rename_i found hfound
      by_cases hadded : p.added found = []
      · obtain rfl := (if_pos hadded).symm.trans hq
        refine Or.inl ⟨rfl, fun _ found' h _ => ?_⟩
        rw [hfound] at h
        exact Option.some.inj h ▸ hadded
      · have hq' := (if_neg hadded).symm.trans hq
        rw [mapM_new] at hq'
        cases hall : (p.added found).all a.created with
        | true =>
          rw [if_pos hall] at hq'
          obtain rfl := hq'
          exact Or.inr ⟨found, hdue, hfound, hall, rfl⟩
        | false =>
          rw [if_neg (by rw [hall]; exact Bool.false_ne_true)] at hq'
          obtain rfl := hq'
          refine Or.inl ⟨rfl, fun _ found' h hall' => ?_⟩
          rw [hfound] at h
          obtain rfl := Option.some.inj h
          rw [hall] at hall'
          exact absurd hall' Bool.false_ne_true
  · rw [if_neg hdue] at hq
    obtain rfl := hq
    exact Or.inl ⟨rfl, fun h => absurd h hdue⟩

@[simp] theorem refreshPartitions_topic (p : PartitionedProducer) (now : Nat) (a : Answers) :
    (p.refreshPartitions now a).topic = p.topic := by
  unfold PartitionedProducer.refreshPartitions
  split
  · split
    · rfl
    · split
      · rfl
      · split <;> rfl
  · rfl

/-- Names in partition order: those that are new are the last ones. -/
theorem added_names {n : Nat} (hp : p.producers = producersOf p.topic n) (m : Nat) :
    p.added ((List.range m).map (partitionName p.topic)) =
      (List.range (m - n)).map fun k => partitionName p.topic (n + k) := by
  have hknown : ∀ i, (p.producers.map TopicProducer.topic).contains (partitionName p.topic i) =
      decide (i < n) := by
    intro i
    rw [hp, topics_producersOf, List.contains_eq_mem, decide_eq_decide, List.mem_map]
    constructor
    · rintro ⟨j, hj, hname⟩
      rw [← partitionName_injective hname]
      exact List.mem_range.mp hj
    · exact fun hi => ⟨i, List.mem_range.mpr hi, rfl⟩
  unfold PartitionedProducer.added
  rw [List.filter_map]
  have hsame : ((fun t => !(p.producers.map TopicProducer.topic).contains t) ∘
      partitionName p.topic) = fun i => decide (n ≤ i) := by
    funext i
    show (!(p.producers.map TopicProducer.topic).contains (partitionName p.topic i)) = _
    rw [hknown, ← decide_not]
    exact decide_eq_decide.mpr Nat.not_lt
  rw [hsame]
  rcases Nat.le_total m n with hmn | hnm
  · -- no more of them than before
    rw [Nat.sub_eq_zero_of_le hmn, List.filter_eq_nil_iff.mpr]
    · rfl
    · intro i hi hge
      have hlt := List.mem_range.mp hi
      have hle := of_decide_eq_true hge
      omega
  · obtain ⟨k, rfl⟩ := Nat.exists_eq_add_of_le hnm
    rw [List.range_add, List.filter_append, List.filter_eq_nil_iff.mpr, List.filter_eq_self.mpr,
      Nat.add_sub_cancel_left, List.nil_append, List.map_map]
    · rfl
    · intro i hi
      obtain ⟨j, -, rfl⟩ := List.mem_map.mp hi
      exact decide_eq_true (Nat.le_add_right n j)
    · intro i hi hge
      have hlt := List.mem_range.mp hi
      have hle := of_decide_eq_true hge
      omega

theorem producersOf_add (topic : String) (n k : Nat) :
    producersOf topic n ++
      ((List.range k).map fun i => partitionName topic (n + i)).map TopicProducer.mk =
      producersOf topic (n + k) := by
  unfold producersOf
  rw [List.range_add, List.map_append, List.map_map, List.map_map]
  rfl

/-- The topic is not the name of one of its partitions. -/
theorem added_topic {n : Nat} (hp : p.producers = producersOf p.topic n) :
    p.added [p.topic] = [p.topic] := by
  unfold PartitionedProducer.added
  rw [List.filter_eq_self]
  intro t ht
  obtain rfl := List.mem_singleton.mp ht
  rw [Bool.not_eq_true', List.contains_eq_mem, decide_eq_false_iff_not, hp, topics_producersOf]
  intro hmem
  obtain ⟨i, -, hname⟩ := List.mem_map.mp hmem
  exact partitionName_ne p.topic i hname

/-! ## The property -/

/-- Every producer serves the partition of its index. -/
structure Serves (p : PartitionedProducer) : Prop where
  nonempty : p.producers ≠ []
  nodup : (p.producers.map TopicProducer.topic).Nodup
  each : ∀ i (h : i < p.producers.length),
    (p.producers.get ⟨i, h⟩).topic = partitionName p.topic i

theorem serves_iff_producersOf :
    Serves p ↔ p.producers = producersOf p.topic p.producers.length := by
  constructor
  · intro h
    apply List.ext_getElem (length_producersOf _ _).symm
    intro i hi hi'
    have hname : p.producers[i].topic = partitionName p.topic i := h.each i hi
    apply Option.some.inj
    rw [← List.getElem?_eq_getElem hi', getElem?_producersOf p.topic hi, ← hname]
  · intro h
    refine ⟨List.ne_nil_of_length_pos p.nonempty, ?_, ?_⟩
    · rw [h, topics_producersOf]
      exact List.nodup_range.map fun i j hij => partitionName_injective hij
    · intro i hi
      have hget : p.producers[i]? = some { topic := partitionName p.topic i } := by
        rw [h]
        exact getElem?_producersOf p.topic hi
      rw [List.getElem?_eq_getElem hi] at hget
      exact congrArg TopicProducer.topic (Option.some.inj hget)

theorem serves_of_eq {q : PartitionedProducer} (hp : Serves p) (htopic : q.topic = p.topic)
    (hproducers : q.producers = p.producers) : Serves q := by
  rw [serves_iff_producersOf] at hp ⊢
  rw [hproducers, htopic]
  exact hp

/-- A re-check that is due is answered "no partitions", and both the lookup of the topic itself and a
    producer for it succeed. -/
def PartitionedProducer.answersItself (p : PartitionedProducer) (now : Nat) (a : Answers) : Bool :=
  p.due now && decide (a.number = some 0) && a.found p.topic && a.created p.topic

theorem answersItself_iff : p.answersItself now a = true ↔
    p.due now = true ∧ a.number = some 0 ∧ a.found p.topic = true ∧ a.created p.topic = true := by
  unfold PartitionedProducer.answersItself
  rw [Bool.and_eq_true, Bool.and_eq_true, Bool.and_eq_true, decide_eq_true_iff, and_assoc, and_assoc]

theorem lookupPartitionedTopic_zero {topic : String} (hnumber : a.number = some 0)
    (hfound : a.found topic = true) : lookupPartitionedTopic a topic = some [topic] := by
  unfold lookupPartitionedTopic
  rw [hnumber]
  simp [hfound]

/-- **The step lemma.**  A re-check keeps the partition order, unless it is answered by the topic. -/
theorem serves_refresh (hp : Serves p) :
    Serves (p.refreshPartitions now a) ↔ p.answersItself now a = false := by
  have hnames := serves_iff_producersOf.mp hp
  rcases refreshPartitions_cases p now a with ⟨hsame, hnothing⟩ | ⟨found, hdue, hlookup, hall, hgrown⟩
  · refine iff_of_true (serves_of_eq hp (refreshPartitions_topic p now a) hsame) ?_
    rw [Bool.eq_false_iff]
    intro hself
    obtain ⟨hdue, hnumber, hfound, hcreated⟩ := answersItself_iff.mp hself
    have hadded := hnothing hdue _ (lookupPartitionedTopic_zero hnumber hfound) (by
      rw [added_topic hnames]
      simp [hcreated])
    rw [added_topic hnames] at hadded
    exact List.cons_ne_nil _ _ hadded
  · rcases lookupPartitionedTopic_some hlookup with ⟨hnumber, rfl, hfound⟩ | ⟨m, hnumber, hpos, rfl⟩
    · rw [added_topic hnames] at hall hgrown
      have hcreated : a.created p.topic = true := List.all_eq_true.mp hall _ List.mem_cons_self
      rw [answersItself_iff.mpr ⟨hdue, hnumber, hfound, hcreated⟩]
      refine iff_of_false ?_ (by decide)
      -- a producer of the topic is in the vector, at whatever index
      intro hserves
      have hmem : { topic := p.topic } ∈ (p.refreshPartitions now a).producers := by
        rw [hgrown]
        exact List.mem_mergeSort.mpr (List.mem_append_right _ List.mem_cons_self)
      obtain ⟨i, hi, hget⟩ := List.getElem_of_mem hmem
      have hname := hserves.each i hi
      rw [refreshPartitions_topic, List.get_eq_getElem, hget] at hname
      exact partitionName_ne p.topic i hname.symm
    · have hzero : p.answersItself now a = false := by
        rw [Bool.eq_false_iff]
        intro hself
        have hn := (answersItself_iff.mp hself).2.1
        rw [hnumber] at hn
        rw [Option.some.inj hn] at hpos
        exact absurd hpos (Nat.lt_irrefl 0)
      refine iff_of_true ?_ hzero
      have happended : p.producers ++ ((List.range (m.toNat - p.producers.length)).map
          fun k => partitionName p.topic (p.producers.length + k)).map TopicProducer.mk =
            producersOf p.topic (p.producers.length + (m.toNat - p.producers.length)) :=
        (congrArg (· ++ _) hnames).trans (producersOf_add p.topic _ _)
      rw [added_names hnames, happended, sortByPartition_producersOf] at hgrown
      rw [serves_iff_producersOf, refreshPartitions_topic, hgrown, length_producersOf]

/-- The index a message is routed with is read off the vector only. -/
theorem choosePartition_producers (lib : Batching.Libraries) (murmur3_32 : Murmur3)
    (p : PartitionedProducer) (m : Batching.Message) :
    (p.choosePartition lib murmur3_32 m).2.producers = p.producers ∧
      (p.choosePartition lib murmur3_32 m).2.topic = p.topic := by
  unfold PartitionedProducer.choosePartition
  split
  · exact ⟨rfl, rfl⟩
  · split
    · exact ⟨rfl, rfl⟩
    · exact ⟨rfl, rfl⟩
    · unfold PartitionedProducer.getNextRoundRobinProducer
      split <;> exact ⟨rfl, rfl⟩
    · unfold PartitionedProducer.getNextRoundRobinProducer
      split <;> exact ⟨rfl, rfl⟩

/-! ## The system -/

inductive Action where
  /-- `refresh_partitions`, before every send -/
  | refresh (now : Nat) (a : Answers)
  /-- `choose_partition` -/
  | choose (message : Batching.Message)

variable (lib : Batching.Libraries) (murmur3_32 : Murmur3)

/-- One partitioned producer, from `build` on. -/
def partitioned : Sys PartitionedProducer Action where
  init p := ∃ topic options partitionRefresh now a genRange,
    build topic options partitionRefresh now a genRange = .ok (.Partitioned p)
  step p
    | .refresh now a => some (p.refreshPartitions now a)
    | .choose message =>
      -- without a producer the send has panicked
      if (p.choosePartition lib murmur3_32 message).1.isSome then
        some (p.choosePartition lib murmur3_32 message).2
      else none

/-- A step that keeps the partition order. -/
def Orderly (p : PartitionedProducer) : Action → Prop
  | .refresh now a => p.answersItself now a = false
  | .choose _ => True

variable {lib murmur3_32}

/-- `build` makes a `PartitionedProducer` of a topic that has partitions, of all of them, in order. -/
theorem build_producers {topic : Option String} {options : ProducerOptions}
    {partitionRefresh : Option Nat} {genRange : ∀ n, 0 < n → Fin n}
    (h : build topic options partitionRefresh now a genRange = .ok (.Partitioned p)) :
    ∃ n, p.producers = producersOf p.topic n := by
  unfold build at h
  split at h
  · cases h
  · rename_i topic
    split at h
    · cases h
    · rename_i partitions hlookup
      rw [mapM_new] at h
      by_cases hall : partitions.all a.created = true
      · rw [if_pos hall] at h
        rcases lookupPartitionedTopic_some hlookup with ⟨-, rfl, -⟩ | ⟨n, -, -, rfl⟩
        · -- its own name: not partitioned
          simp only [List.head?_cons, Option.any_some, ne_eq, not_true, decide_false] at h
          split at h
          · cases h
          · cases h
        · have hsorted : sortByPartition (((List.range n.toNat).map (partitionName topic)).map
              TopicProducer.mk) = producersOf topic n.toNat := by
            rw [List.map_map]
            exact sortByPartition_producersOf topic n.toNat
          simp only [hsorted] at h
          split at h
          · cases h
          · rename_i first rest hproducers
            split at h
            · obtain rfl := ProducerInner.Partitioned.inj (Except.ok.inj h)
              exact ⟨n.toNat, hproducers.symm⟩
            · cases h
      · rw [if_neg hall] at h
        cases h

theorem serves_init (h : (partitioned lib murmur3_32).init p) : Serves p := by
  obtain ⟨topic, options, partitionRefresh, now, a, genRange, hbuild⟩ := h
  obtain ⟨n, hn⟩ := build_producers hbuild
  rw [serves_iff_producersOf]
  have hlength := congrArg List.length hn
  rw [length_producersOf] at hlength
  rw [hlength]
  exact hn

theorem serves_step {q : PartitionedProducer} {action : Action} (hp : Serves p)
    (h : (partitioned lib murmur3_32).step p action = some q) : Serves q ↔ Orderly p action := by
  cases action with
  | refresh now a =>
    obtain rfl := Option.some.inj h
    exact serves_refresh hp
  | choose message =>
    refine iff_of_true ?_ trivial
    by_cases hsome : (p.choosePartition lib murmur3_32 message).1.isSome = true
    · obtain rfl := Option.some.inj ((if_pos hsome).symm.trans h)
      have hkept := choosePartition_producers lib murmur3_32 p message
      exact serves_of_eq hp hkept.2 hkept.1
    · have hnone := (if_neg hsome).symm.trans h
      cases hnone

/-- A re-check that fails: a lookup, or a producer. -/
def RefreshFails (p : PartitionedProducer) (a : Answers) : Prop :=
  lookupPartitionedTopic a p.topic = none ∨
    ∃ found, lookupPartitionedTopic a p.topic = some found ∧
      (p.added found).mapM (TopicProducer.new a) = none

/-- A failed re-check leaves the vector as it is. -/
theorem refreshPartitions_fails (h : RefreshFails p a) :
    (p.refreshPartitions now a).producers = p.producers := by
  rcases refreshPartitions_cases p now a with ⟨hsame, -⟩ | ⟨found, -, hlookup, hall, -⟩
  · exact hsame
  · rcases h with hnone | ⟨found', hlookup', hnone⟩
    · rw [hlookup] at hnone
      cases hnone
    · obtain rfl := Option.some.inj (hlookup.symm.trans hlookup')
      rw [mapM_new, if_pos hall] at hnone
      cases hnone

/-- No re-check takes a producer away. -/
theorem refreshPartitions_perm (p : PartitionedProducer) (now : Nat) (a : Answers) :
    ∃ created, (p.refreshPartitions now a).producers.Perm (p.producers ++ created) := by
  rcases refreshPartitions_cases p now a with ⟨hsame, -⟩ | ⟨found, -, -, -, hgrown⟩
  · refine ⟨[], ?_⟩
    rw [hsame, List.append_nil]
  · refine ⟨(p.added found).map TopicProducer.mk, ?_⟩
    rw [hgrown]
    exact List.mergeSort_perm _ _

end

/-- **Partition order, exactly.**  From `build` on, `producers[i]` serves partition `i` as long as no
    re-check is answered with the topic itself.  Every re-check keeps the producers there are, and one
    that fails changes nothing. -/
theorem serves_iff (lib : Batching.Libraries) (murmur3_32 : Murmur3) (p : PartitionedProducer)
    (hp : (partitioned lib murmur3_32).init p) (actions : List Action) :
    ((partitioned lib murmur3_32).Along Serves p actions ↔
      (partitioned lib murmur3_32).Guarded Orderly p actions) ∧
    ∀ q now a, (partitioned lib murmur3_32).Reach q →
      (∃ created, (q.refreshPartitions now a).producers.Perm (q.producers ++ created)) ∧
      (RefreshFails q a → (q.refreshPartitions now a).producers = q.producers) := by
  refine ⟨?_, fun q now a _ => ⟨refreshPartitions_perm q now a, refreshPartitions_fails⟩⟩
  exact Sys.along_iff_guarded (I := fun _ => True) (fun _ _ _ _ _ => trivial)
    (fun _ _ _ _ hserves h => serves_step hserves h) actions p trivial (serves_init hp)

/-! ## A topic without partitions -/

/-- Every lookup and every producer succeeds. -/
def answering (number : UInt32) : Answers where
  number := some number
  found _ := true
  created _ := true

/-- `build`, with two partitions. -/
theorem build_answering (topic : String) (options : ProducerOptions) (partitionRefresh : Option Nat)
    (now : Nat) (genRange : ∀ n, 0 < n → Fin n) :
    build (some topic) options partitionRefresh now (answering 2) genRange =
      .ok (.Partitioned
        { producers := producersOf topic 2
          lastUsedProducerIndex := genRange 2 Nat.two_pos
          used_lt := (genRange 2 Nat.two_pos).isLt
          topic
          options
          partitionRefresh
          lastPartitionCheck := now }) := by
  have hlookup : lookupPartitionedTopic (answering 2) topic =
      some ((List.range 2).map (partitionName topic)) := rfl
  have hnew : ((List.range 2).map (partitionName topic)).mapM (TopicProducer.new (answering 2)) =
      some (producersOf topic 2) := rfl
  have hfirst : (((List.range 2).map (partitionName topic)).head?.any
      fun first => decide (first ≠ topic)) = true := decide_eq_true (partitionName_ne topic 0)
  unfold build
  simp only [hlookup, hnew, hfirst, sortByPartition_producersOf]
  rfl

/-- "orders" with its two partitions. -/
def orders : PartitionedProducer where
  producers := producersOf "orders" 2
  lastUsedProducerIndex := 0
  used_lt := by decide
  topic := "orders"
  options := {}
  partitionRefresh := some 60
  lastPartitionCheck := 0

theorem build_orders :
    build (some "orders") {} (some 60) 0 (answering 2) (fun _ h => ⟨0, h⟩) =
      .ok (.Partitioned orders) :=
  build_answering "orders" {} (some 60) 0 fun _ h => ⟨0, h⟩

/-- Its re-check is answered "no partitions": the topic is served at index 2. -/
theorem refresh_zero :
    build (some "orders") {} (some 60) 0 (answering 2) (fun _ h => ⟨0, h⟩) =
      .ok (.Partitioned orders) ∧
    (orders.refreshPartitions 60 (answering 0)).producers.map TopicProducer.topic =
      ["orders-partition-0", "orders-partition-1", "orders"] ∧
    ¬ Serves (orders.refreshPartitions 60 (answering 0)) := by
  refine ⟨build_orders, ?_, ?_⟩
  · have hrefreshed : (orders.refreshPartitions 60 (answering 0)).producers =
        sortByPartition (producersOf "orders" 2 ++ [{ topic := "orders" }]) := rfl
    have hsorted : sortByPartition (producersOf "orders" 2 ++ [{ topic := "orders" }]) =
        producersOf "orders" 2 ++ [{ topic := "orders" }] := by
      apply List.mergeSort_of_pairwise
      decide +kernel
    rw [hrefreshed, hsorted]
    decide +kernel
  · intro hserves
    have horders : Serves orders := serves_iff_producersOf.mpr rfl
    have hself := (serves_refresh horders).mp hserves
    exact absurd hself (by decide +kernel)

/-- A third partition is noticed, and a smaller count afterwards is not. -/
theorem serves_iff_growing :
    (partitioned Batching.threeLibraries fun _ _ => 0).Along Serves orders
      [.refresh 60 (answering 3), .refresh 120 (answering 1)] := by
  refine (serves_iff _ _ orders ⟨_, _, _, _, _, _, build_orders⟩ _).1.mpr ?_
  intro q _
  refine ⟨rfl, ?_⟩
  intro r _
  have hnumber : decide ((answering 1).number = some 0) = false := by decide
  refine ⟨?_, trivial⟩
  show q.answersItself 120 (answering 1) = false
  unfold PartitionedProducer.answersItself
  rw [hnumber, Bool.and_false]
  rfl

end PulsarClient.Partitions
