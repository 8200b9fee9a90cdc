/-
  SEEK — does a reader know where it is afterwards?

  `TopicConsumer::seek` sends the command, waits for the answer, and does nothing else.  Two things still
  tell of the position before: `start_message_id`, by which the engine drops messages, and the last
  message that the application got, from which `has_message_available` counts.

  1. The SYSTEM (`seeking`): a reader with its engine, the broker, and the seeks that return `Ok`.

  2. `Resets` — what the broker delivers from the target on is returned, or still under way; and
     `has_message_available` counts from the target, until the next message is returned.

  3. CONSERVATION (`underWay_moves`): the engine loses no message that the start filter lets through.

  4. The condition (`spares`): the filter has nothing to drop from the target on (`passes_iff`), and the
     reader is where it seeks to (`answers_iff`).  It is exact right after the seek (`seek_exact`), and
     enough in every run (`seek_resets`).

  5. `seek_keeps_position` — otherwise the one or the other goes wrong.
-/
import Mathlib.Data.Prod.Lex
import Mathlib.Order.Compare
import PulsarClient.Consumer.EndOfTopic
import PulsarClient.Consumer.Delivery

namespace PulsarClient.Consumer.Seek

open Runs Proto EndOfTopic

/-! ## Positions -/

/-- `as i64`, of an `u64` -/
def asI64 (n : Nat) : Int := Int.bmod n (2 ^ 64)

/-- Where a message is, read as the broker means it: `earliest` is before every entry. -/
def position (messageId : MessageIdData) : ℤ ×ₗ ℤ :=
  toLex (asI64 messageId.ledgerId, asI64 messageId.entryId)

/-- An entry of a topic: its ids are not negative. -/
def InTopic (messageId : MessageIdData) : Prop :=
  messageId.ledgerId < 2 ^ 63 ∧ messageId.entryId < 2 ^ 63

instance (messageId : MessageIdData) : Decidable (InTopic messageId) :=
  inferInstanceAs (Decidable (_ ∧ _))

/-- A message of a topic, as the broker delivers it. -/
def Delivered (messageId : MessageIdData) : Prop :=
  InTopic messageId ∧ ∀ index ∈ messageId.batchIndex, 0 ≤ index

instance (messageId : MessageIdData) : Decidable (Delivered messageId) :=
  inferInstanceAs (Decidable (_ ∧ _))

/-- At or after the target of a seek.  Inside an entry the index decides, when there are two. -/
def AtOrAfter (target messageId : MessageIdData) : Prop :=
  position target < position messageId ∨
    position target = position messageId ∧
      ∀ i ∈ target.batchIndex, ∀ j ∈ messageId.batchIndex, i ≤ j

/-! ## `has_message_available` -/

/-- The rest of the batch is still queued.  `index + 1` wraps. -/
def partlyRead (dequeued : MessageIdData) : Bool :=
  match dequeued.batchIndex, dequeued.batchSize with
  | some index, some size => decide (Int.bmod (index + 1) (2 ^ 32) < size)
  | _, _ => false

/-- The position that the last message of the topic is compared with, and whether it counts. -/
def readPosition (options : ConsumerOptions) (lastDequeuedMessageId : Option MessageIdData) :
    Option MessageIdData × Bool :=
  match lastDequeuedMessageId with
  | some dequeued => (some dequeued, false)
  | none => (options.startMessageId, options.startMessageIdInclusive)

/-- `has_message_available`, with the answer to `get_last_message_id` -/
def hasMessageAvailable (options : ConsumerOptions) (lastDequeuedMessageId : Option MessageIdData)
    (getLastMessageId : Except Error MessageIdData) : Except Error Bool :=
  if lastDequeuedMessageId.any partlyRead then .ok true
  else
    match getLastMessageId with
    | .error e => .error e
    | .ok last =>
      -- an empty topic
      if asI64 last.entryId < 0 then .ok false
      else
        match readPosition options lastDequeuedMessageId with
        | (none, _) => .ok true
        | (some position, inclusive) =>
          match cmp (toLex (last.ledgerId, last.entryId))
            (toLex (position.ledgerId, position.entryId)) with
          | .gt => .ok true
          | .eq => .ok inclusive
          | .lt => .ok false

/-- What the broker answers: no entry, or the last one. -/
def Reported (last : MessageIdData) : Prop := asI64 last.entryId < 0 ∨ InTopic last

/-- The topic holds a message at or after the target. -/
def availableFrom (target last : MessageIdData) : Bool :=
  decide (0 ≤ asI64 last.entryId ∧ position target ≤ position last)

/-! ## The system -/

structure State where
  consumer : Consumer.State
  /-- `last_dequeued_message_id` -/
  lastDequeuedMessageId : Option MessageIdData := none
  /-- where the last seek went, by message id -/
  target : Option MessageIdData := none
  /-- since then a message was returned -/
  dequeued : Bool := false
  /-- since then: the messages that the broker delivered … -/
  delivered : List MessageIdData := []
  /-- … those that were returned … -/
  returned : List MessageIdData := []
  /-- … and those that the dead-letter policy took -/
  deadLetters : List MessageIdData := []

inductive Action where
  /-- `TopicConsumer::seek` returns `Ok` -/
  | seek (messageId : Option MessageIdData) (timestamp : Option Nat)
  /-- everything else -/
  | world (a : Consumer.Action)

/-- The messages of an event. -/
def idsOfEvent (c : Config) : Event → List MessageIdData
  | .Message (some m) =>
    if m.command.reachedEndOfTopic.isSome ∨ m.command.activeConsumerChange.isSome then []
    else idsOf c m
  | _ => []

/-- The messages that a step brings. -/
def brings (c : Config) : Consumer.Action → List MessageIdData
  | .arrive m => idsOfEvent c (.Message m)
  | _ => []

/-- The messages that a step leaves to the dead-letter policy: one, or the rest of the entry when
    publishing fails. -/
def diverts (c : Config) (s : Consumer.State) : Consumer.Action → List MessageIdData
  | .item =>
    match s.pc with
    | .payload redeliveryCount ((messageId, _) :: _) =>
      if isBeforeStartMessage c.topic c.options messageId = false ∧ c.deadLetters redeliveryCount
      then [messageId]
      else []
    | _ => []
  | .published (some _) =>
    match s.pc with
    | .publishing _ _ rest => rest.map Prod.fst
    | _ => []
  | _ => []

/-- The broker delivers messages of a topic. -/
def allows : Consumer.Action → Bool
  | .arrive (some m) => m.command.message.all fun message => decide (Delivered message.messageId)
  | _ => true

def step (c : Config) (s : State) : Action → Option State
  | .seek messageId timestamp =>
    if s.consumer.waiting = none ∧ s.consumer.dropped = false then
      some { s with
        target := if timestamp = none then messageId else none
        dequeued := false
        delivered := []
        returned := []
        deadLetters := [] }
    else none
  | .world a =>
    if allows a then
      (Consumer.step c s.consumer a).map fun consumer =>
        { s with
          consumer
          lastDequeuedMessageId := (reads s.consumer a).getLast?.or s.lastDequeuedMessageId
          dequeued := s.dequeued || !(reads s.consumer a).isEmpty
          delivered := s.delivered ++ brings c a
          returned := s.returned ++ reads s.consumer a
          deadLetters := s.deadLetters ++ diverts c s.consumer a }
    else none

/-- A reader, from the subscription on. -/
def seeking (c : Config) : Sys State Action where
  init s := s = { consumer := { remainingMessages := c.batchSize } }
  step := step c

def messageOf : Delivery → Option MessageIdData
  | .Ok messageId _ => some messageId
  | .Err _ => none

/-- What the application has not read, and what the engine has not handed out. -/
def underWay (c : Config) (s : Consumer.State) : List MessageIdData :=
  s.messages.filterMap messageOf ++ s.pc.held ++ s.events.flatMap (idsOfEvent c)

/-- The reader has moved to the target. -/
structure Resets (c : Config) (s : State) (target : MessageIdData) : Prop where
  /-- every delivery is accounted for, as long as the engine runs -/
  handed : ∀ messageId, AtOrAfter target messageId → s.consumer.pc ≠ .gone →
    s.delivered.count messageId ≤ s.returned.count messageId + s.deadLetters.count messageId +
      (underWay c s.consumer).count messageId
  answers : s.dequeued = false → ∀ last, Reported last →
    hasMessageAvailable c.options s.lastDequeuedMessageId (.ok last) =
      .ok (availableFrom target last)

/-! ## The condition -/

/-- The start filter drops nothing from the target on. -/
def startSpares (c : Config) (target : MessageIdData) : Bool :=
  !isPersistentTopic c.topic ||
    match c.options.startMessageId with
    | none => true
    | some start =>
      !decide (InTopic start) || decide (position start < position target) ||
        c.options.startMessageIdInclusive && start.batchIndex.all fun index =>
          decide (index ≤ 0) ||
            decide (position start = position target) && target.batchIndex.any (index ≤ ·)

/-- The position from which on a message is unread. -/
def firstUnread (options : ConsumerOptions) (lastDequeuedMessageId : Option MessageIdData) : Nat × Nat :=
  match readPosition options lastDequeuedMessageId with
  | (none, _) => (0, 0)
  | (some position, true) => (position.ledgerId, position.entryId)
  | (some position, false) => (position.ledgerId, position.entryId + 1)

/-- The first entry from a position on; a ledger has entries up to `i64::MAX`. -/
def firstEntry (p : Nat × Nat) : Nat × Nat := if p.2 < 2 ^ 63 then p else (p.1 + 1, 0)

/-- The first entry that a seek to the target leads to. -/
def entryOf (target : MessageIdData) : Nat × Nat :=
  if asI64 target.ledgerId < 0 then (0, 0)
  else ((asI64 target.ledgerId).toNat, (asI64 target.entryId).toNat)

/-- The reader is at the target already. -/
def isAt (options : ConsumerOptions) (lastDequeuedMessageId : Option MessageIdData)
    (target : MessageIdData) : Bool :=
  !lastDequeuedMessageId.any partlyRead &&
    decide (firstEntry (firstUnread options lastDequeuedMessageId) = entryOf target)

/-- The seek leads to where the reader is, and nothing is filtered there. -/
def spares (c : Config) (s : State) : Action → Bool
  | .seek (some target) none => startSpares c target && isAt c.options s.lastDequeuedMessageId target
  | _ => true

/-! ## The start filter -/

theorem asI64_of_lt {n : Nat} (h : n < 2 ^ 63) : asI64 n = n := by
  unfold asI64
  exact Int.bmod_eq_of_le (by omega) (by omega)

theorem asI64_lt (n : Nat) : asI64 n < 2 ^ 63 := by
  have h : Int.bmod n (2 ^ 64) < ((2 ^ 64 : Nat) + 1) / 2 := Int.bmod_lt (by omega)
  unfold asI64
  omega

/-- `is_before_start_message`, in words. -/
theorem isBeforeStartMessage_iff {topic : String} {options : ConsumerOptions} {messageId : MessageIdData} :
    isBeforeStartMessage topic options messageId = true ↔
      isPersistentTopic topic = true ∧ ∃ start, options.startMessageId = some start ∧
        messageId.ledgerId = start.ledgerId ∧ messageId.entryId = start.entryId ∧
        if options.startMessageIdInclusive then
          ∃ i ∈ messageId.batchIndex, ∃ j ∈ start.batchIndex, i < j
        else ∀ i ∈ messageId.batchIndex, ∀ j ∈ start.batchIndex, i ≤ j := by
  unfold isBeforeStartMessage
  cases isPersistentTopic topic with
  | false => simp
  | true =>
    cases options.startMessageId with
    | none => simp
    | some start =>
      by_cases hentry : messageId.ledgerId ≠ start.ledgerId ∨ messageId.entryId ≠ start.entryId
      · rw [if_pos rfl]
        show (if messageId.ledgerId ≠ start.ledgerId ∨ messageId.entryId ≠ start.entryId then false
          else _) = true ↔ _
        rw [if_pos hentry]
        refine ⟨(fun h => by cases h), ?_⟩
        rintro ⟨-, start', hstart, hledger, hentry', -⟩
        obtain rfl := Option.some.inj hstart
        exact (hentry.elim (· hledger) (· hentry')).elim
      · obtain ⟨hledger, hentry'⟩ := not_or.mp hentry
        have hledger := not_not.mp hledger
        have hentry' := not_not.mp hentry'
        cases hi : messageId.batchIndex with
        | none => cases options.startMessageIdInclusive <;> simp [hledger, hentry']
        | some i =>
          cases hj : start.batchIndex with
          | none => cases options.startMessageIdInclusive <;> simp [hledger, hentry', hj]
          | some j => cases options.startMessageIdInclusive <;> simp [hledger, hentry', hj]

/-- What the filter has left to drop. -/
theorem startSpares_eq_false {c : Config} {target : MessageIdData} :
    startSpares c target = false ↔
      isPersistentTopic c.topic = true ∧ ∃ start, c.options.startMessageId = some start ∧
        InTopic start ∧ ¬ position start < position target ∧
        (c.options.startMessageIdInclusive = true → ∃ j ∈ start.batchIndex, 0 < j ∧
          (position start = position target → ∀ k ∈ target.batchIndex, k < j)) := by
  unfold startSpares
  cases isPersistentTopic c.topic with
  | false => simp
  | true =>
    cases c.options.startMessageId with
    | none => simp
    | some start =>
      cases c.options.startMessageIdInclusive with
      | false => simp
      | true =>
        cases hj : start.batchIndex with
        | none => simp [hj]
        | some j =>
          cases target.batchIndex with
          | none => simp [hj, and_assoc]
          | some k => simp [hj, and_assoc]

/-- **The filter**: it drops no message from the target on exactly when the condition holds. -/
theorem passes_iff (c : Config) (target : MessageIdData) :
    (∀ messageId, Delivered messageId → AtOrAfter target messageId →
      isBeforeStartMessage c.topic c.options messageId = false) ↔ startSpares c target = true := by
  constructor
  · intro hpasses
    by_contra hspares
    obtain ⟨htopic, start, hstart, hin, hnot, hinclusive⟩ :=
      startSpares_eq_false.mp (Bool.eq_false_iff.mpr hspares)
    -- a message of the start entry, with the index that is dropped last
    obtain ⟨index, hdelivered, hafter, hdrops⟩ : ∃ index : Option Int,
        (∀ i ∈ index, 0 ≤ i) ∧ (position start = position target →
          ∀ k ∈ target.batchIndex, ∀ i ∈ index, k ≤ i) ∧
        if c.options.startMessageIdInclusive then ∃ i ∈ index, ∃ j ∈ start.batchIndex, i < j
        else ∀ i ∈ index, ∀ j ∈ start.batchIndex, i ≤ j := by
      cases hi : c.options.startMessageIdInclusive with
      | false => exact ⟨none, by simp, by simp, by simp⟩
      | true =>
        obtain ⟨j, hj, hpos, htarget⟩ := hinclusive hi
        refine ⟨some (j - 1), ?_, ?_, ?_⟩
        · intro i hi
          obtain rfl := Option.some.inj hi
          omega
        · intro heq k hk i hi
          obtain rfl := Option.some.inj hi
          have hlt := htarget heq k hk
          omega
        · exact ⟨j - 1, rfl, j, hj, by omega⟩
    have hpass := hpasses { start with batchIndex := index } ⟨hin, hdelivered⟩ ?_
    · have hdropped : isBeforeStartMessage c.topic c.options { start with batchIndex := index } = true :=
        isBeforeStartMessage_iff.mpr ⟨htopic, start, hstart, rfl, rfl, hdrops⟩
      rw [hpass] at hdropped
      cases hdropped
    · show position target < position start ∨ position target = position start ∧ _
      rcases lt_or_eq_of_le (not_lt.mp hnot) with hlt | heq
      · exact Or.inl hlt
      · exact Or.inr ⟨heq, hafter heq.symm⟩
  · intro hspares messageId hdelivered hafter
    by_contra hbefore
    obtain ⟨htopic, start, hstart, hledger, hentry, hdrops⟩ :=
      isBeforeStartMessage_iff.mp (Bool.of_not_eq_false hbefore)
    have hpos : position messageId = position start := by
      unfold position
      rw [hledger, hentry]
    have hin : InTopic start := by
      obtain ⟨⟨hl, he⟩, -⟩ := hdelivered
      exact ⟨hledger ▸ hl, hentry ▸ he⟩
    have hnot : ¬ position start < position target := by
      rw [← hpos]
      rcases hafter with hlt | ⟨heq, -⟩
      · exact lt_asymm hlt
      · rw [heq]
        exact lt_irrefl _
    have hfalse : startSpares c target = false := by
      refine startSpares_eq_false.mpr ⟨htopic, start, hstart, hin, hnot, fun hinclusive => ?_⟩
      rw [if_pos hinclusive] at hdrops
      obtain ⟨i, hi, j, hj, hij⟩ := hdrops
      have hnonneg := hdelivered.2 i hi
      refine ⟨j, hj, by omega, fun heq k hk => ?_⟩
      rcases hafter with hlt | ⟨-, hindex⟩
      · rw [hpos, heq] at hlt
        exact absurd hlt (lt_irrefl _)
      · have hki := hindex k hk i hi
        omega
    rw [hspares] at hfalse
    cases hfalse

/-! ## The answers -/

/-- Where an entry is. -/
def entry (messageId : MessageIdData) : ℕ ×ₗ ℕ := toLex (messageId.ledgerId, messageId.entryId)

section

variable {options : ConsumerOptions} {lastDequeuedMessageId : Option MessageIdData}
  {target last : MessageIdData}

theorem firstEntry_le_iff {p : Nat × Nat} (hlast : InTopic last) :
    toLex (firstEntry p) ≤ entry last ↔ toLex p ≤ entry last := by
  have hentry := hlast.2
  unfold firstEntry
  split
  · exact Iff.rfl
  · unfold entry
    rw [Prod.Lex.toLex_le_toLex, Prod.Lex.toLex_le_toLex]
    omega

/-- Strictly after an entry is from the next one on. -/
theorem succ_le_entry_iff {l e : Nat} : toLex (l, e + 1) ≤ entry last ↔ toLex (l, e) < entry last := by
  unfold entry
  rw [Prod.Lex.toLex_le_toLex, Prod.Lex.toLex_lt_toLex]
  rfl

theorem entryOf_le_iff (hlast : InTopic last) :
    toLex (entryOf target) ≤ entry last ↔ position target ≤ position last := by
  have hpos : position last = toLex ((last.ledgerId : Int), (last.entryId : Int)) := by
    unfold position
    rw [asI64_of_lt hlast.1, asI64_of_lt hlast.2]
  rw [hpos]
  unfold entryOf entry position
  split
  · rw [Prod.Lex.toLex_le_toLex, Prod.Lex.toLex_le_toLex]
    omega
  · rw [Prod.Lex.toLex_le_toLex, Prod.Lex.toLex_le_toLex]
    omega

/-- What is expected, of a topic that is not empty. -/
theorem availableFrom_iff (hlast : InTopic last) :
    availableFrom target last = true ↔ toLex (entryOf target) ≤ entry last := by
  unfold availableFrom
  rw [decide_eq_true_iff, entryOf_le_iff hlast, asI64_of_lt hlast.2]
  exact and_iff_right (Int.natCast_nonneg _)

/-- What `has_message_available` says of it. -/
theorem hasMessageAvailable_iff (options : ConsumerOptions) (hlast : InTopic last)
    (hread : lastDequeuedMessageId.any partlyRead = false) :
    ∃ answer, hasMessageAvailable options lastDequeuedMessageId (.ok last) = .ok answer ∧
      (answer = true ↔
        toLex (firstEntry (firstUnread options lastDequeuedMessageId)) ≤ entry last) := by
  have hnonneg : ¬ asI64 last.entryId < 0 := by
    rw [asI64_of_lt hlast.2]
    exact not_lt.mpr (Int.natCast_nonneg _)
  unfold hasMessageAvailable firstUnread
  rw [hread, firstEntry_le_iff hlast, if_neg Bool.false_ne_true]
  show ∃ answer, (if asI64 last.entryId < 0 then Except.ok false else _) = _ ∧ _
  rw [if_neg hnonneg]
  rcases readPosition options lastDequeuedMessageId with ⟨_ | position, inclusive⟩
  · refine ⟨true, rfl, fun _ => ?_, fun _ => rfl⟩
    show toLex ((0 : Nat), (0 : Nat)) ≤ toLex (last.ledgerId, last.entryId)
    rw [Prod.Lex.toLex_le_toLex]
    omega
  · show ∃ answer, (match cmp (entry last) (entry position) with
      | .gt => Except.ok true
      | .eq => Except.ok inclusive
      | .lt => Except.ok false) = Except.ok answer ∧ _
    have hfirst : toLex (match (some position, inclusive) with
        | (none, _) => (0, 0)
        | (some position, true) => (position.ledgerId, position.entryId)
        | (some position, false) => (position.ledgerId, position.entryId + 1)) ≤ entry last ↔
        if inclusive then entry position ≤ entry last else entry position < entry last := by
      cases inclusive with
      | true => exact Iff.rfl
      | false => exact succ_le_entry_iff
    rw [hfirst]
    cases hcmp : cmp (entry last) (entry position) with
    | lt =>
      have hlt := (cmp_eq_lt_iff _ _).mp hcmp
      refine ⟨false, rfl, (fun h => by cases h), fun h => ?_⟩
      cases inclusive with
      | true => exact absurd h (not_le.mpr hlt)
      | false => exact absurd h (lt_asymm hlt)
    | eq =>
      have heq := (cmp_eq_eq_iff _ _).mp hcmp
      refine ⟨inclusive, rfl, ?_⟩
      rw [heq]
      cases inclusive with
      | true => exact ⟨fun _ => le_refl _, fun _ => rfl⟩
      | false => exact ⟨(fun h => by cases h), fun h => absurd h (lt_irrefl _)⟩
    | gt =>
      have hgt := (cmp_eq_gt_iff _ _).mp hcmp
      refine ⟨true, rfl, fun _ => ?_, fun _ => rfl⟩
      cases inclusive with
      | true => exact le_of_lt hgt
      | false => exact hgt

/-- An empty topic. -/
theorem hasMessageAvailable_empty (hlast : asI64 last.entryId < 0)
    (hread : lastDequeuedMessageId.any partlyRead = false) :
    hasMessageAvailable options lastDequeuedMessageId (.ok last) = .ok (availableFrom target last) := by
  have hnone : availableFrom target last = false := by
    unfold availableFrom
    exact decide_eq_false fun h => absurd h.1 (not_le.mpr hlast)
  unfold hasMessageAvailable
  rw [hread, hnone, if_neg Bool.false_ne_true]
  exact if_pos hlast

theorem entryOf_lt (target : MessageIdData) : (entryOf target).1 < 2 ^ 63 ∧ (entryOf target).2 < 2 ^ 63 := by
  have hledger := asI64_lt target.ledgerId
  have hentry := asI64_lt target.entryId
  unfold entryOf
  split
  · exact ⟨by omega, by omega⟩
  · exact ⟨by omega, by omega⟩

theorem firstEntry_lt (p : Nat × Nat) : (firstEntry p).2 < 2 ^ 63 := by
  unfold firstEntry
  split
  · assumption
  · show 0 < 2 ^ 63
    omega

/-- Two positions that are before the same entries are one. -/
theorem eq_of_le_iff {p q : Nat × Nat} (hp : p.2 < 2 ^ 63) (hq : q.1 < 2 ^ 63 ∧ q.2 < 2 ^ 63)
    (h : ∀ last, InTopic last → (toLex p ≤ entry last ↔ toLex q ≤ entry last)) : p = q := by
  have hpq : toLex p ≤ toLex q := (h { ledgerId := q.1, entryId := q.2 } hq).mpr (le_refl _)
  have hledger : p.1 < 2 ^ 63 := by
    rw [Prod.Lex.toLex_le_toLex] at hpq
    omega
  have hqp : toLex q ≤ toLex p :=
    (h { ledgerId := p.1, entryId := p.2 } ⟨hledger, hp⟩).mp (le_refl _)
  exact toLex.injective (le_antisymm hpq hqp)

/-- **The answers**: they count from the target exactly when the reader is there already. -/
theorem answers_iff (options : ConsumerOptions) (lastDequeuedMessageId : Option MessageIdData)
    (target : MessageIdData) :
    (∀ last, Reported last →
      hasMessageAvailable options lastDequeuedMessageId (.ok last) = .ok (availableFrom target last)) ↔
      isAt options lastDequeuedMessageId target = true := by
  unfold isAt
  rw [Bool.and_eq_true, Bool.not_eq_true', decide_eq_true_iff]
  constructor
  · intro hanswers
    have hread : lastDequeuedMessageId.any partlyRead = false := by
      by_contra hpartly
      -- an empty topic: entry -1
      have hempty := hanswers { ledgerId := 0, entryId := 2 ^ 64 - 1 } (Or.inl (by decide))
      unfold hasMessageAvailable at hempty
      rw [Bool.of_not_eq_false hpartly, if_pos rfl] at hempty
      have havailable := (Except.ok.inj hempty).symm
      unfold availableFrom at havailable
      exact absurd (of_decide_eq_true havailable).1 (by decide)
    refine ⟨hread, eq_of_le_iff (firstEntry_lt _) (entryOf_lt target) fun last hlast => ?_⟩
    obtain ⟨answer, hanswer, hiff⟩ := hasMessageAvailable_iff options hlast hread
    have heq := Except.ok.inj (hanswer.symm.trans (hanswers last (Or.inr hlast)))
    rw [← hiff, heq, availableFrom_iff hlast]
  · rintro ⟨hread, heq⟩ last hlast
    rcases hlast with hempty | hlast
    · exact hasMessageAvailable_empty hempty hread
    · obtain ⟨answer, hanswer, hiff⟩ := hasMessageAvailable_iff options hlast hread
      rw [hanswer]
      rw [heq, ← availableFrom_iff hlast] at hiff
      exact congrArg Except.ok (Bool.eq_iff_iff.mpr hiff)

end

/-- **Exactly then**: right after a seek nothing from the target on is dropped, and the answers count from
    the target, if and only if the seek meets the condition. -/
theorem seek_exact {c : Config} {s s' : State} {target : MessageIdData}
    (hs : step c s (.seek (some target) none) = some s') :
    ((∀ messageId, Delivered messageId → AtOrAfter target messageId →
        isBeforeStartMessage c.topic c.options messageId = false) ∧
      ∀ last, Reported last →
        hasMessageAvailable c.options s'.lastDequeuedMessageId (.ok last) =
          .ok (availableFrom target last)) ↔
      spares c s (.seek (some target) none) = true := by
  have hlast : s'.lastDequeuedMessageId = s.lastDequeuedMessageId := by
    simp only [step] at hs
    split at hs
    · obtain rfl := Option.some.inj hs
      rfl
    · cases hs
  rw [hlast, passes_iff, answers_iff]
  exact Bool.and_eq_true_iff.symm

/-! ## Conservation -/

section

variable {c : Config} {s s' : Consumer.State}

/-- A step that only moves the engine, or brings a request. -/
theorem underWay_same (hmessages : s'.messages = s.messages) (hheld : s'.pc.held = s.pc.held)
    (hevents : s'.events = s.events ∨ ∃ r, s'.events = s.events ++ [.EngineMessage r]) :
    underWay c s' = underWay c s := by
  have hids : s'.events.flatMap (idsOfEvent c) = s.events.flatMap (idsOfEvent c) := by
    rcases hevents with hevents | ⟨r, hevents⟩
    · rw [hevents]
    · rw [hevents, List.flatMap_append]
      exact List.append_nil _
  unfold underWay
  rw [hmessages, hheld, hids]

/-- What is pushed is in the channel. -/
theorem underWay_push (d : Delivery) (resume : Resume) (hpc : (s.push c d resume).pc ≠ .gone) :
    underWay c (s.push c d resume) =
      (s.messages ++ [d]).filterMap messageOf ++ resume.held ++ s.events.flatMap (idsOfEvent c) := by
  unfold Consumer.State.push at hpc ⊢
  split at hpc
  · exact absurd rfl hpc
  · rename_i hdropped
    rw [if_neg hdropped]
    split
    · rfl
    · show _ ++ resume.pc.held ++ _ = _
      rw [Resume.held_pc]
      rfl

/-- What the engine takes is in its hands. -/
theorem underWay_handle {e : Event} (h : Handles c s e s') (hpc : s'.pc ≠ .gone) :
    underWay c s' =
      s.messages.filterMap messageOf ++ idsOfEvent c e ++ s.events.flatMap (idsOfEvent c) := by
  have hholds : ∀ {t : Consumer.State}, t.messages = s.messages → t.events = s.events →
      t.pc.held = idsOfEvent c e → underWay c t =
        s.messages.filterMap messageOf ++ idsOfEvent c e ++ s.events.flatMap (idsOfEvent c) := by
    intro t hmessages hevents hheld
    unfold underWay
    rw [hmessages, hevents, hheld]
  cases h with
  | endOfTopic | requestsEnd => exact absurd rfl hpc
  | change hend hchange =>
    refine hholds rfl rfl ?_
    simp [Pc.held, idsOfEvent, hchange]
  | entry hend hchange hmessage hpayload hunpack =>
    refine hholds rfl rfl ?_
    simp [Pc.held, idsOfEvent, hend, hchange, idsOf_of_unpack hmessage hpayload hunpack]
  | broken hend hchange hmessage hpayload hunpack =>
    rw [underWay_push _ _ hpc]
    simp [Consumer.State.spend, messageOf, Resume.held, idsOfEvent, idsOf, hend, hchange, hmessage,
      hpayload, hunpack]
  | empty hend hchange hmessage hpayload =>
    refine hholds rfl rfl ?_
    simp [Pc.held, idsOfEvent, idsOf, hend, hchange, hmessage, hpayload]
  | closed hend hchange hmessage | ignored hend hchange hmessage =>
    refine hholds rfl rfl ?_
    simp [Pc.held, idsOfEvent, idsOf, hend, hchange, hmessage]
  | source | ack | nack | settled | ticked | getConnection => exact hholds rfl rfl rfl

end

section

variable {c : Config} {s s' : Consumer.State} {messageId : MessageIdData}

/-- One round of the loop over an entry: a message that the filter lets through is pushed, or is for
    the dead letters. -/
theorem count_item {redeliveryCount : Option Nat} {items : List (MessageIdData × Payload)}
    (hpasses : isBeforeStartMessage c.topic c.options messageId = false)
    (hpc : s.pc = .payload redeliveryCount items)
    (hgone : (s.item c redeliveryCount items).pc ≠ .gone) :
    (underWay c s).count messageId =
      (diverts c s .item).count messageId +
        (underWay c (s.item c redeliveryCount items)).count messageId := by
  have hheld : underWay c s = s.messages.filterMap messageOf ++ items.map Prod.fst ++
      s.events.flatMap (idsOfEvent c) := by
    unfold underWay
    rw [hpc]
    rfl
  cases items with
  | nil =>
    have hdiverts : diverts c s .item = [] := by
      unfold diverts
      rw [hpc]
    rw [hheld, hdiverts, List.count_nil, Nat.zero_add]
    rfl
  | cons i rest =>
    obtain ⟨id, payload⟩ := i
    have hdiverts : diverts c s .item =
        if isBeforeStartMessage c.topic c.options id = false ∧ c.deadLetters redeliveryCount then [id]
        else [] := by
      unfold diverts
      rw [hpc]
    rw [hheld, hdiverts]
    rw [item_cons] at hgone ⊢
    by_cases hbefore : isBeforeStartMessage c.topic c.options id = true
    · have hne : messageId ≠ id := by
        rintro rfl
        exact absurd (hpasses.symm.trans hbefore) Bool.false_ne_true
      have hnot : ¬ (isBeforeStartMessage c.topic c.options id = false ∧
          c.deadLetters redeliveryCount = true) := fun h => by
        rw [hbefore] at h
        exact absurd h.1.symm Bool.false_ne_true
      rw [if_pos hbefore, if_neg hnot, List.count_nil, Nat.zero_add]
      show _ = (s.messages.filterMap messageOf ++ rest.map Prod.fst ++
        s.events.flatMap (idsOfEvent c)).count messageId
      simp only [List.count_append, List.map_cons, List.count_cons_of_ne hne.symm]
    · have hbefore' := Bool.eq_false_iff.mpr hbefore
      rw [if_neg hbefore] at hgone ⊢
      by_cases hdead : c.deadLetters redeliveryCount = true
      · rw [if_pos hdead, if_pos ⟨hbefore', hdead⟩]
        show _ = _ + (s.messages.filterMap messageOf ++ rest.map Prod.fst ++
          s.events.flatMap (idsOfEvent c)).count messageId
        simp only [List.count_append, List.map_cons, List.count_cons, List.count_nil]
        omega
      · rw [if_neg hdead] at hgone ⊢
        rw [if_neg (fun h => hdead h.2), List.count_nil, Nat.zero_add, underWay_push _ _ hgone]
        show _ = ((s.messages ++ [Delivery.Ok id payload]).filterMap messageOf ++ rest.map Prod.fst ++
          s.events.flatMap (idsOfEvent c)).count messageId
        simp only [List.filterMap_append, List.filterMap_cons, List.filterMap_nil, messageOf,
          List.count_append, List.map_cons, List.count_cons, List.count_nil]
        omega

/-- A read takes the first of the channel. -/
theorem count_read {d : Delivery} {rest : List Delivery} (hmessages : s.messages = d :: rest)
    (hmessages' : s'.messages = rest) (hheld : s'.pc.held = s.pc.held) (hevents : s'.events = s.events) :
    (underWay c s).count messageId =
      (reads s .read).count messageId + (underWay c s').count messageId := by
  have hreads : reads s .read = (messageOf d).toList := by
    unfold reads
    rw [hmessages]
    cases d with
    | Ok id payload => rfl
    | Err e => rfl
  unfold underWay
  rw [hreads, hmessages, hmessages', hheld, hevents]
  cases hd : messageOf d with
  | none =>
    rw [List.filterMap_cons_none hd]
    exact (Nat.zero_add _).symm
  | some id =>
    rw [List.filterMap_cons_some hd]
    simp only [Option.toList_some, List.count_append, List.count_cons, List.count_nil]
    omega

/-- **The step lemma.**  A message that the filter lets through comes in, is returned or goes to the dead
    letters, and otherwise stays under way. -/
theorem underWay_moves {a : Consumer.Action} (hm : Moves c s a s')
    (hpasses : isBeforeStartMessage c.topic c.options messageId = false) (hgone : s'.pc ≠ .gone) :
    (brings c a).count messageId + (underWay c s).count messageId =
      (reads s a).count messageId + (diverts c s a).count messageId +
        (underWay c s').count messageId := by
  -- nothing comes in or goes out
  have hstill : brings c a = [] → reads s a = [] → diverts c s a = [] →
      underWay c s' = underWay c s → (brings c a).count messageId + (underWay c s).count messageId =
        (reads s a).count messageId + (diverts c s a).count messageId +
          (underWay c s').count messageId := by
    intro hbrings hreads hdiverts hsame
    rw [hbrings, hreads, hdiverts, hsame, List.count_nil]
  have hidle : s.pc.held = [] → s'.pc.held = [] → s'.pc.held = s.pc.held := fun h h' => h'.trans h.symm
  cases hm with
  | arrive =>
    rename_i m
    show (idsOfEvent c (.Message m)).count messageId + _ = 0 + 0 + _
    unfold underWay
    rw [List.flatMap_append, List.flatMap_singleton]
    simp only [List.count_append]
    omega
  | forward | forwardEnd => exact hstill rfl rfl rfl (underWay_same rfl rfl (Or.inr ⟨_, rfl⟩))
  | top hpc =>
    rename_i lost
    refine hstill rfl rfl rfl (underWay_same rfl (hidle (by rw [hpc]; rfl) ?_) (Or.inl rfl))
    cases lost with
    | true => rfl
    | false => rfl
  | reconnected hpc =>
    rename_i closed
    refine hstill rfl rfl rfl (underWay_same rfl (hidle (by rw [hpc]; rfl) ?_) (Or.inl rfl))
    cases closed with
    | true => rfl
    | false => rfl
  | stopped => exact absurd rfl hgone
  | reported hpc =>
    refine hstill rfl rfl rfl ?_
    rw [underWay_push _ _ hgone]
    unfold underWay
    rw [hpc, List.filterMap_append]
    exact congrArg (· ++ _) (congrArg (· ++ _) (List.append_nil _))
  | refused hpc hwants hpc' =>
    refine hstill rfl rfl rfl (underWay_same rfl (hidle (by rw [hpc]; rfl) ?_) (Or.inl rfl))
    rcases hpc' with rfl | rfl
    · rfl
    · rfl
  | granted hpc | enough hpc | timeout hpc =>
    exact hstill rfl rfl rfl (underWay_same rfl (hidle (by rw [hpc]; rfl) rfl) (Or.inl rfl))
  | next hpc hev =>
    rename_i e rest
    show 0 + _ = 0 + 0 + _
    rw [underWay_handle (handle_cases c _ e) hgone]
    unfold underWay
    rw [hpc, hev, List.flatMap_cons]
    simp only [List.count_append, Pc.held, List.count_nil]
    omega
  | item hpc =>
    show 0 + _ = 0 + _ + _
    rw [Nat.zero_add, Nat.zero_add]
    exact count_item hpasses hpc hgone
  | published hpc =>
    exact hstill rfl rfl rfl (underWay_same rfl (by rw [hpc]; rfl) (Or.inl rfl))
  | unpublished hpc =>
    rename_i id redeliveryCount rest err
    have hdiverts : diverts c s (.published (some err)) = rest.map Prod.fst := by
      unfold diverts
      rw [hpc]
    show 0 + _ = 0 + _ + _
    rw [hdiverts, underWay_push _ _ hgone]
    unfold underWay
    rw [hpc, List.filterMap_append]
    simp only [List.count_append, Pc.held, Resume.held, List.count_nil, List.filterMap_cons,
      List.filterMap_nil, messageOf]
    omega
  | acked hpc =>
    refine hstill rfl rfl rfl (underWay_same rfl ?_ (Or.inl rfl))
    rw [hpc]
    exact Resume.held_pc _
  | asked hpc => exact hstill rfl rfl rfl (underWay_same rfl (hidle (by rw [hpc]; rfl) rfl) (Or.inl rfl))
  | unparked hwaiting hdropped hmessages hpc =>
    show 0 + _ = _ + 0 + _
    rw [Nat.zero_add, Nat.add_zero]
    refine count_read hmessages rfl ?_ rfl
    rw [hpc]
    exact Resume.held_pc _
  | read hwaiting hdropped hmessages hpc =>
    show 0 + _ = _ + 0 + _
    rw [Nat.zero_add, Nat.add_zero]
    exact count_read hmessages rfl rfl rfl
  | released hwaiting hdropped hpc =>
    refine hstill rfl rfl rfl (underWay_same rfl ?_ (Or.inl rfl))
    rw [hpc]
    exact Resume.held_pc _
  | ack | nack | getConnection | dropRequest | dropConsumer | tick | clock =>
    exact hstill rfl rfl rfl (underWay_same rfl rfl (Or.inl rfl))

end

/-! ## Runs -/

structure Inv (c : Config) (s : State) : Prop where
  condition : ∀ target, s.target = some target → startSpares c target = true ∧
    (s.dequeued = false → isAt c.options s.lastDequeuedMessageId target = true)
  delivered : ∀ messageId ∈ s.delivered, Delivered messageId
  conserved : ∀ messageId, isBeforeStartMessage c.topic c.options messageId = false →
    s.consumer.pc ≠ .gone →
    s.delivered.count messageId ≤ s.returned.count messageId + s.deadLetters.count messageId +
      (underWay c s.consumer).count messageId

section

variable {c : Config} {s s' : State}

/-- The messages of an entry are where the entry is. -/
theorem delivered_of_allows {a : Consumer.Action} (ha : allows a = true) {messageId : MessageIdData}
    (hid : messageId ∈ brings c a) : Delivered messageId := by
  cases a with
  | arrive m =>
    cases m with
    | none => cases hid
    | some m =>
      have hmem : messageId ∈ idsOf c m := by
        have hevent : messageId ∈ if m.command.reachedEndOfTopic.isSome = true ∨
            m.command.activeConsumerChange.isSome = true then [] else idsOf c m := hid
        by_cases hskip : m.command.reachedEndOfTopic.isSome = true ∨
          m.command.activeConsumerChange.isSome = true
        · rw [if_pos hskip] at hevent
          cases hevent
        · rw [if_neg hskip] at hevent
          exact hevent
      unfold idsOf at hmem
      cases hmessage : m.command.message with
      | none =>
        rw [hmessage] at hmem
        cases hmem
      | some message =>
        have hentry : Delivered message.messageId := by
          simp only [allows, hmessage] at ha
          exact of_decide_eq_true ha
        cases hpayload : m.payload with
        | none =>
          rw [hmessage, hpayload] at hmem
          cases hmem
        | some payload =>
          simp only [hmessage, hpayload] at hmem
          split at hmem
          · rename_i items hitems
            obtain ⟨hledger, hentry'⟩ := (ids_unpack hitems).2 messageId hmem
            refine ⟨⟨hledger ▸ hentry.1.1, hentry' ▸ hentry.1.2⟩, ?_⟩
            rcases batchIndex_unpack hitems hmem with ⟨k, hk⟩ | rfl
            · intro index hindex
              rw [hk] at hindex
              obtain rfl := Option.some.inj hindex
              exact Int.natCast_nonneg k
            · exact hentry.2
          · cases hmem
  | _ => cases hid

theorem Inv.init : Inv c { consumer := { remainingMessages := c.batchSize } } where
  condition := fun _ htarget => by cases htarget
  delivered := fun _ hid => by cases hid
  conserved := fun _ _ _ => Nat.zero_le _

/-- **A seek** that is spared leads to where the reader is. -/
theorem inv_seek {messageId : Option MessageIdData} {timestamp : Option Nat}
    (hok : spares c s (.seek messageId timestamp) = true)
    (hs : step c s (.seek messageId timestamp) = some s') : Inv c s' := by
  simp only [step] at hs
  split at hs
  · obtain rfl := Option.some.inj hs
    refine ⟨?_, (fun _ hid => by cases hid), fun _ _ _ => Nat.zero_le _⟩
    intro target htarget
    cases timestamp with
    | some t => cases htarget
    | none =>
      obtain rfl : messageId = some target := htarget
      obtain ⟨hstart, hat⟩ := Bool.and_eq_true_iff.mp hok
      exact ⟨hstart, fun _ => hat⟩
  · cases hs

/-- Everything else leaves the reader where it is, until a message is returned. -/
theorem Inv.world (h : Inv c s) {a : Consumer.Action} (hs : step c s (.world a) = some s') :
    Inv c s' := by
  simp only [step] at hs
  split at hs
  · rename_i ha
    obtain ⟨consumer, hconsumer, rfl⟩ := Option.map_eq_some_iff.mp hs
    have hm := step_moves hconsumer
    refine ⟨?_, ?_, ?_⟩
    · intro target htarget
      obtain ⟨hstart, hat⟩ := h.condition target htarget
      refine ⟨hstart, fun hdequeued => ?_⟩
      obtain ⟨hold, hreads⟩ := Bool.or_eq_false_iff.mp hdequeued
      have hnil : reads s.consumer a = [] := List.isEmpty_iff.mp (by simpa using hreads)
      show isAt c.options ((reads s.consumer a).getLast?.or s.lastDequeuedMessageId) target = true
      rw [hnil]
      exact hat hold
    · intro messageId hid
      rcases List.mem_append.mp hid with hold | hnew
      · exact h.delivered messageId hold
      · exact delivered_of_allows ha hnew
    · intro messageId hpasses hgone
      have hrunning : s.consumer.pc ≠ .gone := fun hpc => hgone (gone_moves hm hpc).1
      have hbefore := h.conserved messageId hpasses hrunning
      have hstep := underWay_moves hm hpasses hgone
      simp only [List.count_append]
      omega
  · cases hs

theorem inv_of_reachIf (h : (seeking c).ReachIf (fun s a => spares c s a = true) s) : Inv c s := by
  refine h.inv (Inv c) ?_ ?_
  · rintro _ rfl
    exact Inv.init
  · intro s a s' hI hok hs
    cases a with
    | seek messageId timestamp => exact inv_seek hok hs
    | world a => exact hI.world hs

end

/-- **A seek to where the reader is moves it there**: in every run whose seeks meet the condition, what
    is delivered from the target on is returned or under way, and `has_message_available` counts from
    the target. -/
theorem seek_resets (c : Config) {s : State}
    (h : (seeking c).ReachIf (fun s a => spares c s a = true) s) (target : MessageIdData)
    (htarget : s.target = some target) : Resets c s target := by
  have hinv := inv_of_reachIf h
  obtain ⟨hstart, hat⟩ := hinv.condition target htarget
  refine ⟨?_, ?_⟩
  · intro messageId hafter hgone
    by_cases hmem : messageId ∈ s.delivered
    · have hpasses := (passes_iff c target).mpr hstart messageId (hinv.delivered messageId hmem) hafter
      exact hinv.conserved messageId hpasses hgone
    · rw [List.count_eq_zero_of_not_mem hmem]
      exact Nat.zero_le _
  · intro hdequeued
    exact (answers_iff c.options s.lastDequeuedMessageId target).mpr (hat hdequeued)

/-- An entry with one message. -/
def entryAt (ledgerId entryId : Nat) : PulsarClient.Message where
  command := { message := some { consumerId := 0, messageId := { ledgerId, entryId } } }
  payload := some { metadata := {}, data := [1] }

/-- The broker delivers an entry, and the engine takes it. -/
def takes (ledgerId entryId : Nat) : List Action :=
  [.world (.arrive (some (entryAt ledgerId entryId))), .world (.top false), .world (.flow none),
    .world .next, .world .item]

/-- The reader has read an entry, seeks to the next one, and gets it. -/
theorem seek_resets_next :
    ∃ s, (seeking (plain 1)).ReachIf (fun s a => spares (plain 1) s a = true) s ∧
      s.target = some { ledgerId := 1, entryId := 5 } ∧
      s.delivered = [{ ledgerId := 1, entryId := 5 }] ∧ s.returned = s.delivered ∧
      Resets (plain 1) s { ledgerId := 1, entryId := 5 } := by
  obtain ⟨s, hreach, h⟩ := Sys.exists_reachIf_of_execIf (S := seeking (plain 1)) (spares (plain 1))
    (p := fun s => decide (s.target = some { ledgerId := 1, entryId := 5 } ∧
      s.delivered = [{ ledgerId := 1, entryId := 5 }] ∧ s.returned = s.delivered))
    (s := { consumer := { remainingMessages := 1000 } }) rfl
    (takes 1 4 ++ [.world .item, .world .read, .seek (some { ledgerId := 1, entryId := 5 }) none] ++
      takes 1 5 ++ [.world .read])
    (by decide +kernel)
  obtain ⟨htarget, hdelivered, hreturned⟩ := of_decide_eq_true h
  exact ⟨s, hreach, htarget, hdelivered, hreturned, seek_resets (plain 1) hreach _ htarget⟩

/-! ## What goes wrong -/

/-- A reader with a start message, which is left out. -/
def resuming : Config where
  options := { startMessageId := some { ledgerId := 1, entryId := 4 }, receiverQueueSize := some 1 }
  codecs := { decodeSingleMessageMetadata := fun _ => none, decompress := fun _ _ b => .ok b }

/-- A reader seeks to its start message: the broker delivers it, and the engine drops it.  Another one
    has read entry 5, and seeks back to entry 2: with entry 5 the last of the topic, it says that there
    is nothing left. -/
theorem seek_keeps_position :
    (∃ s, (seeking resuming).Reach s ∧ s.target = some { ledgerId := 1, entryId := 4 } ∧
      s.delivered = [{ ledgerId := 1, entryId := 4 }] ∧ s.returned = [] ∧
      ¬ Resets resuming s { ledgerId := 1, entryId := 4 }) ∧
    ∃ s, (seeking (plain 1)).Reach s ∧ s.target = some { ledgerId := 1, entryId := 2 } ∧
      s.dequeued = false ∧
      ¬ Resets (plain 1) s { ledgerId := 1, entryId := 2 } := by
  constructor
  · obtain ⟨s, hreach, h⟩ := Sys.exists_reach_of_exec (S := seeking resuming)
      (p := fun s => decide (s.target = some { ledgerId := 1, entryId := 4 } ∧
        s.delivered = [{ ledgerId := 1, entryId := 4 }] ∧ s.returned = [] ∧ s.deadLetters = [] ∧
        s.consumer.pc ≠ .gone ∧ underWay resuming s.consumer = []))
      (s := { consumer := { remainingMessages := 1000 } }) rfl
      (.seek (some { ledgerId := 1, entryId := 4 }) none :: takes 1 4)
      (by decide +kernel)
    obtain ⟨htarget, hdelivered, hreturned, hdead, hgone, hnone⟩ := of_decide_eq_true h
    refine ⟨s, hreach, htarget, hdelivered, hreturned, fun hresets => ?_⟩
    have hcount := hresets.handed { ledgerId := 1, entryId := 4 }
      (Or.inr ⟨rfl, fun _ hi => by cases hi⟩) hgone
    rw [hdelivered, hreturned, hdead, hnone] at hcount
    exact absurd hcount (by decide)
  · obtain ⟨s, hreach, h⟩ := Sys.exists_reach_of_exec (S := seeking (plain 1))
      (p := fun s => decide (s.target = some { ledgerId := 1, entryId := 2 } ∧ s.dequeued = false ∧
        s.lastDequeuedMessageId = some { ledgerId := 1, entryId := 5 }))
      (s := { consumer := { remainingMessages := 1000 } }) rfl
      (takes 1 5 ++ [.world .read, .seek (some { ledgerId := 1, entryId := 2 }) none])
      (by decide +kernel)
    obtain ⟨htarget, hdequeued, hlast⟩ := of_decide_eq_true h
    refine ⟨s, hreach, htarget, hdequeued, fun hresets => ?_⟩
    have hanswer := hresets.answers hdequeued { ledgerId := 1, entryId := 5 } (Or.inr (by decide))
    rw [hlast] at hanswer
    exact absurd hanswer (by decide +kernel)

end PulsarClient.Consumer.Seek
