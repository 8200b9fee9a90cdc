/-
  `has_message_available`, AGAINST THE ORDER OF POSITIONS.

  The ids of a ledger and of an entry are signed: the earliest position of a topic is -1:-1.  They travel
  in fields of type `u64`, and `has_message_available` compares them as they come, two numbers without a
  sign; only the entry of the last message is read as signed, for the empty topic.  Inside an entry a
  message has a batch index, which is not compared at all.

  1. `After`, `Available` — what the answer means: ledger, entry and batch index in this order, the first
     two signed.

  2. `hasMessageAvailable_ok` — what the code compares.

  3. `order_agrees_iff` — where the two orders agree: the ids that decide have the same sign.

  4. `available_iff_byPosition` — the exact condition.  A start position fails it when it is the earliest,
     or lies inside the last batch; a position that has been read from the topic meets it
     (`byPosition_of_read`).
-/
import PulsarClient.Consumer.Seek

namespace PulsarClient.Consumer.Position

open Proto Seek

/-! ## What is available -/

/-- The ids fit into their fields. -/
def Fits (messageId : MessageIdData) : Prop :=
  messageId.ledgerId < 2 ^ 64 ∧ messageId.entryId < 2 ^ 64

instance (messageId : MessageIdData) : Decidable (Fits messageId) :=
  inferInstanceAs (Decidable (_ ∧ _))

/-- Inside the entry of `position` there is a message after it, up to `last`.  A `last` without an index is
    the whole entry, and then the batch of `position` tells how far that goes; a `position` without an
    index leaves nothing of its entry. -/
def LaterInEntry (position last : MessageIdData) : Prop :=
  ∃ i ∈ position.batchIndex,
    match last.batchIndex with
    | some j => i < j
    | none => ∃ size ∈ position.batchSize, i + 1 < size

/-- The topic, which ends in `last`, holds a message strictly after the position. -/
def After (p last : MessageIdData) : Prop :=
  position p < position last ∨ position p = position last ∧ LaterInEntry p last

/-- What `has_message_available` stands for. -/
def Available (options : ConsumerOptions) (lastDequeuedMessageId : Option MessageIdData)
    (last : MessageIdData) : Prop :=
  0 ≤ asI64 last.entryId ∧
    match readPosition options lastDequeuedMessageId with
    | (none, _) => True
    | (some p, true) => AtOrAfter p last
    | (some p, false) => After p last

/-! ## What the code compares -/

theorem forall_some {p : MessageIdData} {P : MessageIdData → Prop} :
    (∀ p', some p = some p' → P p') ↔ P p :=
  ⟨fun h => h p rfl, fun h _ hp => Option.some.inj hp ▸ h⟩

section

variable {options : ConsumerOptions} {lastDequeuedMessageId : Option MessageIdData}
  {last : MessageIdData}

/-- The rest of a batch is available without a look at the topic. -/
theorem hasMessageAvailable_partly (hread : lastDequeuedMessageId.any partlyRead = true) :
    hasMessageAvailable options lastDequeuedMessageId (.ok last) = .ok true := by
  unfold hasMessageAvailable
  rw [if_pos hread]

theorem hasMessageAvailable_nothing (hread : lastDequeuedMessageId.any partlyRead = false)
    (hempty : asI64 last.entryId < 0) :
    hasMessageAvailable options lastDequeuedMessageId (.ok last) = .ok false := by
  unfold hasMessageAvailable
  rw [hread, if_neg Bool.false_ne_true]
  exact if_pos hempty

/-- Otherwise: the ids as they come, and `inclusive` for the same entry. -/
theorem hasMessageAvailable_ok (hread : lastDequeuedMessageId.any partlyRead = false)
    (hnonempty : 0 ≤ asI64 last.entryId) :
    hasMessageAvailable options lastDequeuedMessageId (.ok last) = .ok true ↔
      ∀ p, (readPosition options lastDequeuedMessageId).1 = some p →
        Seek.entry p < Seek.entry last ∨
          Seek.entry p = Seek.entry last ∧ (readPosition options lastDequeuedMessageId).2 = true := by
  have hsome : ¬ asI64 last.entryId < 0 := not_lt.mpr hnonempty
  unfold hasMessageAvailable
  rw [hread, if_neg Bool.false_ne_true]
  show (if asI64 last.entryId < 0 then Except.ok false else _) = _ ↔ _
  rw [if_neg hsome]
  rcases readPosition options lastDequeuedMessageId with ⟨_ | p, inclusive⟩
  · exact ⟨(fun _ p hp => by cases hp), fun _ => rfl⟩
  · dsimp only
    rw [forall_some]
    cases hcmp : cmp (toLex (last.ledgerId, last.entryId)) (toLex (p.ledgerId, p.entryId)) with
    | lt =>
      have hlt : Seek.entry last < Seek.entry p := (cmp_eq_lt_iff _ _).mp hcmp
      refine ⟨(fun h => by cases h), ?_⟩
      rintro (hgt | ⟨heq, -⟩)
      · exact absurd hgt (lt_asymm hlt)
      · exact absurd heq (ne_of_gt hlt)
    | eq =>
      have heq : Seek.entry last = Seek.entry p := (cmp_eq_eq_iff _ _).mp hcmp
      refine ⟨fun h => Or.inr ⟨heq.symm, Except.ok.inj h⟩, ?_⟩
      rintro (hlt | ⟨-, hinclusive⟩)
      · exact absurd heq.symm (ne_of_lt hlt)
      · exact congrArg Except.ok hinclusive
    | gt => exact ⟨fun _ => Or.inl ((cmp_eq_gt_iff _ _).mp hcmp), fun _ => rfl⟩

end

/-! ## Where the orders agree -/

theorem asI64_eq {n : Nat} (h : n < 2 ^ 64) :
    asI64 n = if n < 2 ^ 63 then (n : Int) else (n : Int) - 2 ^ 64 := by
  split
  next hlt => exact asI64_of_lt hlt
  next hge =>
    unfold asI64
    rw [Int.bmod_def]
    omega

/-- The signs are all that can make a difference. -/
theorem asI64_lt_iff {n m : Nat} (hn : n < 2 ^ 64) (hm : m < 2 ^ 64) :
    (n < m ↔ asI64 n < asI64 m) ↔ (n < 2 ^ 63 ↔ m < 2 ^ 63) := by
  rw [asI64_eq hn, asI64_eq hm]
  split <;> split <;> omega

theorem asI64_inj {n m : Nat} (hn : n < 2 ^ 64) (hm : m < 2 ^ 64) : asI64 n = asI64 m ↔ n = m := by
  rw [asI64_eq hn, asI64_eq hm]
  split <;> split <;> omega

/-- The ids that decide have the same sign. -/
def SameSign (p last : MessageIdData) : Prop :=
  if p.ledgerId = last.ledgerId then p.entryId < 2 ^ 63 ↔ last.entryId < 2 ^ 63
  else p.ledgerId < 2 ^ 63 ↔ last.ledgerId < 2 ^ 63

instance (p last : MessageIdData) : Decidable (SameSign p last) :=
  inferInstanceAs (Decidable (if p.ledgerId = last.ledgerId then _ else _))

section

variable {p last : MessageIdData} (hp : Fits p) (hlast : Fits last)
include hp hlast

theorem position_eq_iff : position p = position last ↔ Seek.entry p = Seek.entry last := by
  unfold position Seek.entry
  rw [toLex_inj, toLex_inj, Prod.mk.injEq, Prod.mk.injEq, asI64_inj hp.1 hlast.1,
    asI64_inj hp.2 hlast.2]

/-- **The order of the code is that of the positions** exactly between ids of the same sign. -/
theorem order_agrees_iff :
    (Seek.entry p < Seek.entry last ↔ position p < position last) ↔ SameSign p last := by
  unfold SameSign position Seek.entry
  rw [Prod.Lex.toLex_lt_toLex, Prod.Lex.toLex_lt_toLex]
  by_cases hledger : p.ledgerId = last.ledgerId
  · rw [if_pos hledger, hledger, ← asI64_lt_iff hp.2 hlast.2]
    simp only [lt_irrefl, true_and, false_or]
  · have hsigned : asI64 p.ledgerId ≠ asI64 last.ledgerId := fun heq =>
      hledger ((asI64_inj hp.1 hlast.1).mp heq)
    rw [if_neg hledger, ← asI64_lt_iff hp.1 hlast.1]
    simp only [hledger, hsigned, false_and, or_false]

end

/-! ## The condition -/

/-- A position that counts from inside the entry of `last`, where the code does not look. -/
def Inside (p last : MessageIdData) (inclusive : Bool) : Prop :=
  if inclusive then ∃ i ∈ p.batchIndex, ∃ j ∈ last.batchIndex, j < i else LaterInEntry p last

/-- The answer is by position.  With a batch partly read the topic has to hold the rest of it; otherwise
the position does not lie inside the last entry, and the ids that decide have the same sign. -/
def ByPosition (options : ConsumerOptions) (lastDequeuedMessageId : Option MessageIdData)
    (last : MessageIdData) : Prop :=
  if lastDequeuedMessageId.any partlyRead then
    0 ≤ asI64 last.entryId ∧ ∀ p ∈ lastDequeuedMessageId, After p last
  else
    0 ≤ asI64 last.entryId →
      ∀ p, (readPosition options lastDequeuedMessageId).1 = some p →
        if Seek.entry p = Seek.entry last then
          ¬ Inside p last (readPosition options lastDequeuedMessageId).2
        else SameSign p last

section

variable {options : ConsumerOptions} {lastDequeuedMessageId : Option MessageIdData}
  {p last : MessageIdData}

theorem atOrAfter_iff (heq : position p = position last) :
    AtOrAfter p last ↔ ¬ Inside p last true := by
  have hinside : ¬ Inside p last true ↔ ∀ i ∈ p.batchIndex, ∀ j ∈ last.batchIndex, i ≤ j := by
    show (¬ ∃ i ∈ p.batchIndex, ∃ j ∈ last.batchIndex, j < i) ↔ _
    simp only [not_exists, not_and, not_lt]
  rw [hinside]
  exact ⟨fun h => h.elim (fun hlt => absurd heq (ne_of_lt hlt)) And.right, fun h => Or.inr ⟨heq, h⟩⟩

theorem after_iff (heq : position p = position last) : After p last ↔ Inside p last false :=
  ⟨fun h => h.elim (fun hlt => absurd heq (ne_of_lt hlt)) And.right, fun h => Or.inr ⟨heq, h⟩⟩

/-- In another entry neither the index nor `inclusive` matters. -/
theorem available_of_ne (hne : position p ≠ position last) (inclusive : Bool) :
    (match (some p, inclusive) with
      | (none, _) => True
      | (some p, true) => AtOrAfter p last
      | (some p, false) => After p last) ↔ position p < position last := by
  cases inclusive with
  | true => exact ⟨fun h => h.elim id fun heq => absurd heq.1 hne, Or.inl⟩
  | false => exact ⟨fun h => h.elim id fun heq => absurd heq.1 hne, Or.inl⟩

/-- What the code compares is what is available, exactly if … -/
theorem compared_iff (hp : Fits p) (hlast : Fits last) (inclusive : Bool) :
    ((Seek.entry p < Seek.entry last ∨ Seek.entry p = Seek.entry last ∧ inclusive = true) ↔
      match (some p, inclusive) with
      | (none, _) => True
      | (some p, true) => AtOrAfter p last
      | (some p, false) => After p last) ↔
      if Seek.entry p = Seek.entry last then ¬ Inside p last inclusive else SameSign p last := by
  by_cases heq : Seek.entry p = Seek.entry last
  · have hposition := (position_eq_iff hp hlast).mpr heq
    rw [if_pos heq, heq]
    cases inclusive with
    | true =>
      show ((_ ∨ _) ↔ AtOrAfter p last) ↔ _
      rw [atOrAfter_iff hposition]
      simp only [lt_irrefl, true_and, or_true, true_iff]
    | false =>
      show ((_ ∨ _) ↔ After p last) ↔ _
      rw [after_iff hposition]
      simp only [lt_irrefl, Bool.false_eq_true, and_false, or_false, false_iff]
  · have hne : position p ≠ position last := fun h => heq ((position_eq_iff hp hlast).mp h)
    rw [if_neg heq, available_of_ne hne, ← order_agrees_iff hp hlast]
    simp only [heq, false_and, or_false]

/-- **Which answers are by position.** -/
theorem available_iff_byPosition (hlast : Fits last)
    (hposition : ∀ p, (readPosition options lastDequeuedMessageId).1 = some p → Fits p) :
    (hasMessageAvailable options lastDequeuedMessageId (.ok last) = .ok true ↔
      Available options lastDequeuedMessageId last) ↔
      ByPosition options lastDequeuedMessageId last := by
  unfold ByPosition
  cases hread : lastDequeuedMessageId.any partlyRead with
  | true =>
    rw [if_pos rfl, hasMessageAvailable_partly hread]
    cases lastDequeuedMessageId with
    | none => cases hread
    | some p =>
      have hforall : (∀ p' ∈ some p, After p' last) ↔ After p last := forall_some
      rw [hforall]
      exact ⟨fun h => h.mp rfl, fun h => ⟨fun _ => h, fun _ => rfl⟩⟩
  | false =>
    rw [if_neg Bool.false_ne_true]
    by_cases hempty : asI64 last.entryId < 0
    · rw [hasMessageAvailable_nothing hread hempty]
      refine ⟨fun _ hnonempty => absurd hempty (not_lt.mpr hnonempty), fun _ => ?_⟩
      constructor
      · intro h
        cases Except.ok.inj h
      · intro h
        exact absurd hempty (not_lt.mpr h.1)
    · have hnonempty := not_lt.mp hempty
      rw [hasMessageAvailable_ok hread hnonempty]
      unfold Available
      simp only [hnonempty, true_and, forall_true_left]
      rcases hread : readPosition options lastDequeuedMessageId with ⟨_ | p, inclusive⟩
      · exact ⟨(fun _ p hp => by cases hp), fun _ => ⟨fun _ => trivial, (fun _ p hp => by cases hp)⟩⟩
      · rw [forall_some, forall_some]
        exact compared_iff (hposition p (by rw [hread])) hlast inclusive

end

/-- Five messages of the entry 7:40 have been read, and the topic ends in 7:41. -/
theorem available_after_batch :
    let p : MessageIdData :=
      { ledgerId := 7, entryId := 40, batchIndex := some 4, batchSize := some 5 }
    let last : MessageIdData := { ledgerId := 7, entryId := 41 }
    hasMessageAvailable {} (some p) (.ok last) = .ok true ↔ Available {} (some p) last := by
  intro p last
  refine (available_iff_byPosition (by decide) ?_).mpr ?_
  · intro p' hp'
    rw [← Option.some.inj hp']
    decide
  · have hread : (some p).any partlyRead = false := by decide
    unfold ByPosition
    rw [hread, if_neg Bool.false_ne_true]
    intro _ p' hp'
    rw [← Option.some.inj hp', if_neg (by decide)]
    decide

/-- Nothing is available from the earliest position on, and nothing after the third of ten messages. -/
theorem available_missed :
    let earliest : MessageIdData := { ledgerId := 2 ^ 64 - 1, entryId := 2 ^ 64 - 1 }
    let third : MessageIdData := { ledgerId := 7, entryId := 41, batchIndex := some 2 }
    let last : MessageIdData := { ledgerId := 7, entryId := 41, batchIndex := some 9 }
    (hasMessageAvailable { startMessageId := some earliest, startMessageIdInclusive := true } none
        (.ok last) = .ok false ∧
      Available { startMessageId := some earliest, startMessageIdInclusive := true } none last) ∧
    hasMessageAvailable { startMessageId := some third } none (.ok last) = .ok false ∧
      Available { startMessageId := some third } none last := by
  refine ⟨⟨by decide +kernel, by decide, Or.inl ?_⟩, by decide +kernel, by decide, Or.inr ⟨rfl, ?_⟩⟩
  · exact Prod.Lex.toLex_lt_toLex.mpr (Or.inl (by decide))
  · exact ⟨2, rfl, by decide⟩

/-! ## Positions that have been read -/

/-- The position is that of a message of the topic, and the topic ends in `last`: in a later entry, or
at the end of the same batch. -/
structure ReadFrom (p last : MessageIdData) : Prop where
  read : InTopic p
  ends : InTopic last
  ordered : Seek.entry p ≤ Seek.entry last
  batch : ∀ i ∈ p.batchIndex, ∃ size ∈ p.batchSize, 0 ≤ i ∧ i < size ∧ size < 2 ^ 31
  same : Seek.entry p = Seek.entry last → ∀ j ∈ last.batchIndex, ∀ size ∈ p.batchSize, j + 1 = size

section

variable {p last : MessageIdData}

theorem fits_of_inTopic (h : InTopic p) : Fits p :=
  ⟨Nat.lt_of_lt_of_le h.1 (by decide), Nat.lt_of_lt_of_le h.2 (by decide)⟩

theorem sameSign_of_inTopic (hp : InTopic p) (hlast : InTopic last) : SameSign p last := by
  unfold SameSign
  split
  · exact ⟨fun _ => hlast.2, fun _ => hp.2⟩
  · exact ⟨fun _ => hlast.1, fun _ => hp.1⟩

/-- The shortcut looks at whether the batch goes on. -/
theorem laterInEntry_iff (h : ReadFrom p last) (heq : Seek.entry p = Seek.entry last) :
    LaterInEntry p last ↔ partlyRead p = true := by
  unfold LaterInEntry partlyRead
  cases hi : p.batchIndex with
  | none => simp
  | some i =>
    obtain ⟨size, hsize, hnonneg, hlt, hmax⟩ := h.batch i hi
    have hnext : Int.bmod (i + 1) (2 ^ 32) = i + 1 := Int.bmod_eq_of_le (by omega) (by omega)
    rw [show p.batchSize = some size from hsize]
    simp only [hnext, decide_eq_true_eq]
    cases hj : last.batchIndex with
    | none => simp
    | some j =>
      have hend := h.same heq j hj size hsize
      simp only [Option.mem_def, Option.some.injEq, exists_eq_left']
      omega

/-- **While reading, the answers are by position.** -/
theorem byPosition_of_read (options : ConsumerOptions) (h : ReadFrom p last) :
    ByPosition options (some p) last := by
  have hp := fits_of_inTopic h.read
  have hlast := fits_of_inTopic h.ends
  have hsign := sameSign_of_inTopic h.read h.ends
  have hnonempty : 0 ≤ asI64 last.entryId := by
    rw [asI64_of_lt h.ends.2]
    exact Int.natCast_nonneg _
  unfold ByPosition
  cases hread : (some p).any partlyRead with
  | true =>
    rw [if_pos rfl]
    refine ⟨hnonempty, fun p' hp' => ?_⟩
    obtain rfl := Option.some.inj hp'
    rcases lt_or_eq_of_le h.ordered with hlt | heq
    · exact Or.inl (((order_agrees_iff hp hlast).mpr hsign).mp hlt)
    · exact Or.inr ⟨(position_eq_iff hp hlast).mpr heq, (laterInEntry_iff h heq).mpr hread⟩
  | false =>
    rw [if_neg Bool.false_ne_true]
    intro _ p' hp'
    obtain rfl := Option.some.inj hp'
    split
    next heq =>
      intro hinside
      have hpartly : partlyRead p = true := (laterInEntry_iff h heq).mp hinside
      exact Bool.false_ne_true (hread.symm.trans hpartly)
    next => exact hsign

end

end PulsarClient.Consumer.Position
