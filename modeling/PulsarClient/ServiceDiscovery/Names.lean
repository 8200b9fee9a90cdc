/-
  TWO READINGS OF A PARTITION NAME — `<topic>-partition-<n>`.

  `is_topic_partition_name` decides whether a lookup answers 0 by itself; `partition_index` is what a
  producer sorts its partitions by.  Both take the text behind the last `-partition-`, with something
  before it, and call themselves "deliberately strict".  The first asks for ASCII digits, the second for
  what `usize::from_str` reads.

  1. `number` — the text that both look at, and the two as predicates of it.

  2. `agrees_iff` — they differ on two kinds of text: a `+` before a number, and digits of a number that
     is no `usize`.

  3. `names_agree_iff` — the names that `lookup_partitioned_topic` makes are of neither kind.
-/
import PulsarClient.Producer.Partitions

namespace PulsarClient.ServiceDiscovery

open Partitions

/-! ## The program -/

/-- `is_topic_partition_name` -/
def isTopicPartitionName (topic : String) : Bool :=
  match rsplitOnce separator topic.toList with
  | some (before, index) => !before.isEmpty && !index.isEmpty && index.all Char.isDigit
  | none => false

/-! ## The text behind the separator -/

/-- What both recognisers read. -/
def number (topic : String) : Option (List Char) :=
  match rsplitOnce separator topic.toList with
  | some (before, index) => if before.isEmpty then none else some index
  | none => none

theorem isTopicPartitionName_eq (topic : String) :
    isTopicPartitionName topic =
      (number topic).any fun index => !index.isEmpty && index.all Char.isDigit := by
  unfold isTopicPartitionName number
  cases rsplitOnce separator topic.toList with
  | none => rfl
  | some split =>
    obtain ⟨before, index⟩ := split
    cases before with
    | nil => rfl
    | cons c before => rfl

theorem partitionIndex_eq (topic : String) :
    partitionIndex topic = (number topic).bind parseUsize := by
  unfold partitionIndex number
  cases rsplitOnce separator topic.toList with
  | none => rfl
  | some split =>
    obtain ⟨before, index⟩ := split
    cases before with
    | nil => rfl
    | cons c before => rfl

/-! ## The two kinds -/

/-- A number that `usize::from_str` reads behind a sign. -/
def Signed (index : List Char) : Prop :=
  ∃ digits, index = '+' :: digits ∧ digits ≠ [] ∧ digits.all Char.isDigit = true ∧
    Nat.ofDigitChars 10 digits 0 < 2 ^ 64

/-- Digits, of a number that is no `usize`. -/
def TooLarge (index : List Char) : Prop :=
  index.all Char.isDigit = true ∧ 2 ^ 64 ≤ Nat.ofDigitChars 10 index 0

/-- A topic's name is of neither kind. -/
def Plain (topic : String) : Prop :=
  ∀ index, number topic = some index → ¬ Signed index ∧ ¬ TooLarge index

theorem parseUsize_signed (digits : List Char) :
    (parseUsize ('+' :: digits)).isSome = true ↔
      digits ≠ [] ∧ digits.all Char.isDigit = true ∧ Nat.ofDigitChars 10 digits 0 < 2 ^ 64 := by
  show (if digits ≠ [] ∧ digits.all Char.isDigit = true ∧ Nat.ofDigitChars 10 digits 0 < 2 ^ 64 then
    some (Nat.ofDigitChars 10 digits 0) else none).isSome = true ↔ _
  exact Option.isSome_ite

theorem parseUsize_unsigned {index : List Char} (h : index.head? ≠ some '+') :
    (parseUsize index).isSome = true ↔
      index ≠ [] ∧ index.all Char.isDigit = true ∧ Nat.ofDigitChars 10 index 0 < 2 ^ 64 := by
  unfold parseUsize
  rw [if_neg h]
  exact Option.isSome_ite

/-- A text with a sign is no text of digits. -/
theorem all_isDigit_signed (digits : List Char) : ('+' :: digits).all Char.isDigit = false := rfl

/-- **The two readings of one text**: they agree unless it is of one of the two kinds. -/
theorem readings_agree_iff (index : List Char) :
    (!index.isEmpty && index.all Char.isDigit) = (parseUsize index).isSome ↔
      ¬ Signed index ∧ ¬ TooLarge index := by
  have hdigits : (!index.isEmpty && index.all Char.isDigit) = true ↔
      index ≠ [] ∧ index.all Char.isDigit = true := by
    rw [Bool.and_eq_true, Bool.not_eq_true', List.isEmpty_eq_false_iff]
  rw [Bool.eq_iff_iff, hdigits]
  by_cases hsign : index.head? = some '+'
  · obtain ⟨digits, rfl⟩ : ∃ digits, index = '+' :: digits := by
      cases index with
      | nil => cases hsign
      | cons c digits =>
        obtain rfl := Option.some.inj hsign
        exact ⟨digits, rfl⟩
    rw [parseUsize_signed, all_isDigit_signed]
    constructor
    · intro h
      refine ⟨?_, fun hlarge => Bool.false_ne_true hlarge.1⟩
      rintro ⟨digits', heq, hread⟩
      obtain rfl := List.tail_eq_of_cons_eq heq
      exact Bool.false_ne_true (h.mpr hread).2
    · rintro ⟨hnot, -⟩
      refine ⟨fun h => absurd h.2 Bool.false_ne_true, fun h => ?_⟩
      exact absurd ⟨digits, rfl, h⟩ hnot
  · have hunsigned : ¬ Signed index := by
      rintro ⟨digits, rfl, -⟩
      exact hsign rfl
    rw [parseUsize_unsigned hsign]
    constructor
    · intro h
      refine ⟨hunsigned, fun ⟨hall, hlarge⟩ => ?_⟩
      have hne : index ≠ [] := by
        rintro rfl
        exact absurd hlarge (by decide)
      have hlt := (h.mp ⟨hne, hall⟩).2.2
      omega
    · rintro ⟨-, hnot⟩
      refine ⟨fun ⟨hne, hall⟩ => ⟨hne, hall, ?_⟩, fun h => ⟨h.1, h.2.1⟩⟩
      exact Nat.lt_of_not_le fun hle => hnot ⟨hall, hle⟩

/-- **Two recognisers.**  They agree on a topic exactly when it is plain. -/
theorem agrees_iff (topic : String) :
    isTopicPartitionName topic = (partitionIndex topic).isSome ↔ Plain topic := by
  rw [isTopicPartitionName_eq, partitionIndex_eq]
  unfold Plain
  cases number topic with
  | none =>
    refine iff_of_true rfl fun index h => ?_
    cases h
  | some index =>
    have hagree := readings_agree_iff index
    constructor
    · intro h index' heq
      obtain rfl := Option.some.inj heq
      exact hagree.mp h
    · intro h
      exact hagree.mpr (h index rfl)

/-! ## The names that are made -/

/-- The name of a partition is recognised, whatever the topic. -/
theorem isTopicPartitionName_name {topic : String} (htopic : topic ≠ "") (n : Nat) :
    isTopicPartitionName (partitionName topic n) = true := by
  have hsplit := rsplitOnce_name topic.toList (isDigit_toDigits n)
  have hbefore : topic.toList.isEmpty = false := by
    rw [List.isEmpty_eq_false_iff]
    exact fun h => htopic (String.toList_eq_nil_iff.mp h)
  have hindex : (Nat.toDigits 10 n).isEmpty = false := by
    rw [List.isEmpty_eq_false_iff]
    exact Nat.toDigits_ne_nil
  unfold isTopicPartitionName
  rw [partitionName_toList, hsplit]
  simp only [hbefore, hindex, List.all_eq_true.mpr (isDigit_toDigits n), Bool.not_false,
    Bool.and_self]

/-! ## The main result -/

/-- **Headline.**  The two recognisers agree on a topic exactly when the text behind its last separator
    is neither a signed number nor one that is no `usize`; and the names that `lookup_partitioned_topic`
    makes of a topic are recognised by both, with their number. -/
theorem names_agree_iff (topic : String) :
    ((isTopicPartitionName topic = true ↔ (partitionIndex topic).isSome = true) ↔ Plain topic) ∧
      (topic ≠ "" → ∀ n : UInt32,
        isTopicPartitionName (partitionName topic n.toNat) = true ∧
          partitionIndex (partitionName topic n.toNat) = some n.toNat) := by
  refine ⟨Bool.eq_iff_iff.symm.trans (agrees_iff topic), fun htopic n => ?_⟩
  refine ⟨isTopicPartitionName_name htopic _, ?_⟩
  have hlt := n.toNat_lt
  rw [partitionIndex_name htopic, if_pos (by omega)]

/-- A sign, and twenty digits. -/
theorem names_disagree :
    ¬ (isTopicPartitionName "orders-partition-+3" = true ↔
        (partitionIndex "orders-partition-+3").isSome = true) ∧
      ¬ (isTopicPartitionName "orders-partition-18446744073709551616" = true ↔
        (partitionIndex "orders-partition-18446744073709551616").isSome = true) := by
  decide +kernel

end PulsarClient.ServiceDiscovery
