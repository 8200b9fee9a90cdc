/-
  THE LIMITS OF A BATCH — what `batch_process_loop` may hold, and when its timer runs.

  A batch is flushed when it has `max_size` messages, when its payloads have `max_byte_size` bytes, when
  a `Flush` says so, or when the delay is over that was started with its first message.  The bytes are
  not counted from the payloads but added up in `BatchStorage::size`, and the timer is a future that
  each turn of the loop keeps, replaces or drops.

  1. `timed` — the batching producer, with the push that started the delay in `timer_future`.

  2. `Limits` — at the top of the loop: the sum is right, both limits leave room, and the delay was
     started by the push of the oldest message that is stored (`received.drop push = storage`).

  3. **The wire field** — the sum is made of `payload_size`, which is an `i32` (`payload.len() as i32`).
     A payload of `2 ^ 32` bytes counts as none (`endless_payload_is_free`); up to `i32::MAX` bytes each,
     the limits hold (`limits_kept`).
-/
import Mathlib.Algebra.GroupWithZero.Nat
import PulsarClient.Batching.Queue

namespace PulsarClient.Batching

open Runs

/-! ## Statement -/

/-- The sizes of the payloads of the messages among the items. -/
def payloadSizes (items : List BatchItem) : List Nat :=
  items.filterMap fun
    | .SingleMessage _ message => some message.payload.length
    | .Flush _ => none

/-- Less than each limit that is set and positive. -/
structure Room (b : BatchStorage) (items : List BatchItem) : Prop where
  messages : ∀ maxSize, b.maxSize = some maxSize → 0 < maxSize → items.length < maxSize
  bytes : ∀ maxByteSize, b.maxByteSize = some maxByteSize → 0 < maxByteSize →
    (payloadSizes items).sum < maxByteSize

/-- At most the first limit; and less than the second one, but for the last message. -/
structure Limited (b : BatchStorage) (batch : List BatchItem) : Prop where
  messages : ∀ maxSize, b.maxSize = some maxSize → 0 < maxSize → batch.length ≤ maxSize
  bytes : ∀ maxByteSize, b.maxByteSize = some maxByteSize → 0 < maxByteSize →
    (payloadSizes batch).dropLast.sum < maxByteSize

/-! ## Which push has started the delay -/

/-- A batching producer, and the number of the push that started the delay in `timer_future`. -/
structure Timed where
  producer : State
  armedBy : Option Nat := none

/-- The assignments of `timer_future`. -/
def Timed.rearmed (t : Timed) : Action → Option Nat
  | .recv =>
    match t.producer.msgs with
    | item :: _ =>
      if (t.producer.batchStorage.pushBack item).readyToFlush then none
      else if (t.producer.batchStorage.pushBack item).timeout.isSome ∧
          (t.producer.batchStorage.pushBack item).storage.length = 1 then
        some t.producer.received.length
      else t.armedBy
    | [] => t.armedBy
  | .timer => none
  | _ => t.armedBy

/-- The batching producer with its delay. -/
def timed (lib : Libraries) : Sys Timed Action where
  init t := (batching lib).init t.producer ∧ t.armedBy = none
  step t a := (step lib t.producer a).map fun producer => { producer, armedBy := t.rearmed a }

/-! ## The condition -/

/-- A payload that its `i32` can count. -/
def counted (message : BatchedMessage) : Bool :=
  decide (message.metadata.payloadSize = message.payload.length) &&
    decide (message.payload.length < 2 ^ 31)

/-- … is what `send_raw` makes of a payload of at most `i32::MAX` bytes. -/
theorem counted_batched {m : ProducerMessage} (h : m.payload.length < 2 ^ 31) :
    counted m.batched = true := by
  rw [counted, m.batched_payloadSize, m.batched_payload, asI32_of_lt h, decide_eq_true rfl,
    decide_eq_true h]
  rfl

/-- Each payload is one that its `i32` can count, and what is stored fits the address space. -/
def fits (t : Timed) : Action → Bool
  | .sendRaw message => counted message
  | .recv =>
    decide ((payloadSizes (t.producer.batchStorage.storage ++ t.producer.msgs.take 1)).sum < 2 ^ 64)
  | _ => true

/-! ## The invariant -/

/-- What `batch_process_loop` keeps. -/
structure Limits (t : Timed) : Prop where
  queued : ∀ tx message, .SingleMessage tx message ∈ t.producer.msgs → counted message = true
  size : t.producer.batchStorage.size = (payloadSizes t.producer.batchStorage.storage).sum
  emitted : ∀ batch ∈ t.producer.emitted, Limited t.producer.batchStorage batch
  timer : t.producer.timer = t.armedBy.isSome
  room : t.producer.loop.running = true →
    Room t.producer.batchStorage t.producer.batchStorage.storage
  armed : t.producer.loop.running = true → t.armedBy =
    if t.producer.batchStorage.timeout.isSome ∧ t.producer.batchStorage.storage ≠ [] then
      some (t.producer.received.length - t.producer.batchStorage.storage.length)
    else none

section

variable {lib : Libraries} {s s' : State} {t t' : Timed} {a : Action}

theorem payloadSizes_append (items more : List BatchItem) :
    payloadSizes (items ++ more) = payloadSizes items ++ payloadSizes more :=
  List.filterMap_append

theorem sum_dropLast_le (sizes : List Nat) : sizes.dropLast.sum ≤ sizes.sum := by
  rcases List.eq_nil_or_concat sizes with rfl | ⟨init, last, rfl⟩
  · exact Nat.le_refl _
  · rw [List.concat_eq_append, List.dropLast_concat, List.sum_append]
    exact Nat.le_add_right _ _

theorem room_nil (b : BatchStorage) : Room b [] :=
  ⟨fun _ _ hpos => hpos, fun _ _ hpos => hpos⟩

/-- What is stored may be emitted as it is, … -/
theorem Room.limited {b : BatchStorage} {items : List BatchItem} (h : Room b items) :
    Limited b items := by
  constructor
  · intro maxSize hmax hpos
    exact Nat.le_of_lt (h.messages maxSize hmax hpos)
  · intro maxByteSize hmax hpos
    exact Nat.lt_of_le_of_lt (sum_dropLast_le _) (h.bytes maxByteSize hmax hpos)

/-- … or with one more item. -/
theorem Room.limited_concat {b : BatchStorage} {items : List BatchItem} (h : Room b items)
    (item : BatchItem) : Limited b (items ++ [item]) := by
  constructor
  · intro maxSize hmax hpos
    have hlt := h.messages maxSize hmax hpos
    rw [List.length_append, List.length_singleton]
    omega
  · intro maxByteSize hmax hpos
    have hlt := h.bytes maxByteSize hmax hpos
    rw [payloadSizes_append]
    cases item with
    | SingleMessage tx message =>
      show (payloadSizes items ++ [message.payload.length]).dropLast.sum < maxByteSize
      rw [List.dropLast_concat]
      exact hlt
    | Flush tx =>
      show (payloadSizes items ++ []).dropLast.sum < maxByteSize
      rw [List.append_nil]
      exact Nat.lt_of_le_of_lt (sum_dropLast_le _) hlt

/-! ## The sum -/

/-- A message that its `i32` counts is counted; the sum does not wrap if what is stored then fits. -/
theorem size_pushBack {b : BatchStorage} {item : BatchItem}
    (hsize : b.size = (payloadSizes b.storage).sum)
    (hcounted : ∀ tx message, item = .SingleMessage tx message → counted message = true)
    (hfits : (payloadSizes (b.storage ++ [item])).sum < 2 ^ 64) :
    (b.pushBack item).size = (payloadSizes (b.pushBack item).storage).sum := by
  rw [BatchStorage.storage_pushBack]
  rw [payloadSizes_append, List.sum_append] at hfits ⊢
  cases item with
  | SingleMessage tx message =>
    obtain ⟨hpayload, -⟩ := Bool.and_eq_true_iff.mp (hcounted tx message rfl)
    have hpayload := of_decide_eq_true hpayload
    show (b.size + (message.metadata.payloadSize % 2 ^ 64).toNat) % 2 ^ 64 =
      (payloadSizes b.storage).sum + (message.payload.length + 0)
    have hfits' : (payloadSizes b.storage).sum + (message.payload.length + 0) < 2 ^ 64 := hfits
    rw [hpayload, hsize]
    omega
  | Flush tx => exact hsize

/-- A storage that is not ready has room. -/
theorem room_of_not_ready {b : BatchStorage} (hsize : b.size = (payloadSizes b.storage).sum)
    (hready : b.readyToFlush = false) : Room b b.storage := by
  unfold BatchStorage.readyToFlush at hready
  rw [Bool.or_eq_false_iff, Bool.or_eq_false_iff] at hready
  obtain ⟨⟨hmessages, hbytes⟩, -⟩ := hready
  constructor
  · intro maxSize hmax _
    rw [hmax] at hmessages
    exact Nat.lt_of_not_le (of_decide_eq_false hmessages)
  · intro maxByteSize hmax _
    rw [hmax] at hbytes
    rw [← hsize]
    exact Nat.lt_of_not_le (of_decide_eq_false hbytes)

/-! ## One turn of the loop -/

/-- Receiving an item. -/
theorem recv_step (hs : step lib s .recv = some s') :
    ∃ item rest, s.loop = .receiving ∧ s.msgs = item :: rest ∧
      s' = (s.store item rest).flushIfReady := by
  simp only [step] at hs
  split at hs
  · rename_i item rest hloop hmsgs
    exact ⟨item, rest, hloop, hmsgs, (Option.some.inj hs).symm⟩
  · cases hs

/-- The timer. -/
theorem timer_step (hs : step lib s .timer = some s') :
    s.loop = .receiving ∧ s.timer = true ∧
      s' = if s.batchStorage.timeout.isSome then s.flush else { s with timer := false } := by
  simp only [step, Option.ite_none_right_eq_some, Option.some.injEq] at hs
  obtain ⟨⟨hloop, htimer⟩, rfl⟩ := hs
  exact ⟨hloop, htimer, rfl⟩

/-- The limits are those of the configuration. -/
theorem Limited.of_eq {b b' : BatchStorage} {batch : List BatchItem} (h : Limited b batch)
    (hmax : b'.maxSize = b.maxSize) (hbytes : b'.maxByteSize = b.maxByteSize) :
    Limited b' batch := by
  constructor
  · rw [hmax]
    exact h.messages
  · rw [hbytes]
    exact h.bytes

/-- What is stored becomes a batch, and no delay runs. -/
theorem Limits.emit (h : Limits t)
    (hlimited : Limited s.batchStorage s.batchStorage.storage)
    (hmsgs : ∀ item ∈ s.msgs, item ∈ t.producer.msgs)
    (hemitted : s.emitted = t.producer.emitted)
    (hmax : s.batchStorage.maxSize = t.producer.batchStorage.maxSize)
    (hbytes : s.batchStorage.maxByteSize = t.producer.batchStorage.maxByteSize) :
    Limits { producer := s.emit } where
  queued tx message hm := h.queued tx message (hmsgs _ hm)
  size := rfl
  emitted batch hbatch := by
    rw [show s.emit.emitted = s.emitted ++ [s.batchStorage.storage] from rfl, List.mem_append,
      List.mem_singleton, hemitted] at hbatch
    rcases hbatch with hbatch | rfl
    · exact (h.emitted batch hbatch).of_eq hmax hbytes
    · exact hlimited.of_eq rfl rfl
  timer := rfl
  room _ := room_nil _
  armed _ := by
    rw [if_neg fun hstored => hstored.2 rfl]

/-- The first message starts the delay, and no other does. -/
theorem armed_push
    (h : t.armedBy =
      if t.producer.batchStorage.timeout.isSome ∧ t.producer.batchStorage.storage ≠ [] then
        some (t.producer.received.length - t.producer.batchStorage.storage.length)
      else none) (item : BatchItem) :
    (if t.producer.batchStorage.timeout.isSome ∧
        (t.producer.batchStorage.storage ++ [item]).length = 1 then some t.producer.received.length
      else t.armedBy) =
      if t.producer.batchStorage.timeout.isSome ∧ t.producer.batchStorage.storage ++ [item] ≠ [] then
        some ((t.producer.received ++ [item]).length -
          (t.producer.batchStorage.storage ++ [item]).length)
      else none := by
  have hne : t.producer.batchStorage.storage ++ [item] ≠ [] :=
    List.append_ne_nil_of_right_ne_nil _ (List.cons_ne_nil item [])
  have hindex : (t.producer.received ++ [item]).length -
      (t.producer.batchStorage.storage ++ [item]).length =
        t.producer.received.length - t.producer.batchStorage.storage.length := by
    rw [List.length_append, List.length_append, List.length_singleton]
    omega
  rw [hindex, h]
  by_cases htimeout : t.producer.batchStorage.timeout.isSome = true
  · rw [if_pos (c := _ ∧ t.producer.batchStorage.storage ++ [item] ≠ []) ⟨htimeout, hne⟩]
    by_cases hnil : t.producer.batchStorage.storage = []
    · rw [hnil, if_pos ⟨htimeout, rfl⟩]
      rfl
    · have hlen : (t.producer.batchStorage.storage ++ [item]).length ≠ 1 := by
        rw [List.length_append, List.length_singleton]
        have := List.length_pos_of_ne_nil hnil
        omega
      rw [if_neg fun hc => hlen hc.2, if_pos ⟨htimeout, hnil⟩]
  · rw [if_neg fun hc => htimeout hc.1, if_neg fun hc => htimeout hc.1,
      if_neg fun hc => htimeout hc.1]

/-- **A push**: it fills a batch, or leaves room and starts a delay if it is the first one. -/
theorem Limits.recv (h : Limits t) (hok : fits t .recv = true)
    (hs : step lib t.producer .recv = some s) : Limits { producer := s, armedBy := t.rearmed .recv } := by
  obtain ⟨item, rest, hloop, hmsgs, rfl⟩ := recv_step hs
  have hrunning : t.producer.loop.running = true := by rw [hloop]; rfl
  have hroom := h.room hrunning
  have harmed := h.armed hrunning
  have hfits : (payloadSizes (t.producer.batchStorage.storage ++ [item])).sum < 2 ^ 64 := by
    have hok' := of_decide_eq_true hok
    rw [hmsgs] at hok'
    exact hok'
  have hsize := size_pushBack h.size
    (fun tx message heq => h.queued tx message (hmsgs ▸ heq ▸ List.mem_cons_self)) hfits
  have hmem : ∀ i ∈ rest, i ∈ t.producer.msgs := fun i hi => hmsgs ▸ List.mem_cons_of_mem _ hi
  have hrearmed : t.rearmed .recv =
      if (t.producer.batchStorage.pushBack item).readyToFlush then none
      else if (t.producer.batchStorage.pushBack item).timeout.isSome ∧
          (t.producer.batchStorage.pushBack item).storage.length = 1 then
        some t.producer.received.length
      else t.armedBy := by
    simp only [Timed.rearmed, hmsgs]
  cases hready : (t.producer.batchStorage.pushBack item).readyToFlush with
  | true =>
    have hflush : (t.producer.store item rest).flushIfReady = (t.producer.store item rest).emit := by
      have hflush : (t.producer.store item rest).flushIfReady = (t.producer.store item rest).flush :=
        if_pos hready
      rcases flush_cases (t.producer.store item rest) with ⟨hnil, -⟩ | ⟨-, hemit⟩
      · exact absurd hnil (List.append_ne_nil_of_right_ne_nil _ (List.cons_ne_nil item []))
      · exact hflush.trans hemit
    rw [hrearmed, hflush, if_pos hready]
    exact h.emit ((hroom.limited_concat item).of_eq rfl rfl) hmem rfl rfl rfl
  | false =>
    have hstored : (t.producer.store item rest).flushIfReady =
        { t.producer.store item rest with
          timer :=
            if (t.producer.batchStorage.pushBack item).timeout.isSome ∧
                (t.producer.batchStorage.pushBack item).storage.length = 1 then true
            else t.producer.timer } :=
      if_neg (Bool.eq_false_iff.mp hready)
    rw [hrearmed, hstored, if_neg (Bool.eq_false_iff.mp hready)]
    exact
      { queued := fun tx message hm => h.queued tx message (hmem _ hm)
        size := hsize
        emitted := fun batch hbatch => (h.emitted batch hbatch).of_eq rfl rfl
        timer := by
          split
          · rfl
          · exact h.timer
        room := fun _ => room_of_not_ready hsize hready
        armed := fun _ => armed_push harmed item }

/-- **The delay is over**: it was started with what is stored, so there is something to flush. -/
theorem Limits.expire (h : Limits t) (hs : step lib t.producer .timer = some s) :
    Limits { producer := s } := by
  obtain ⟨hloop, htimer, rfl⟩ := timer_step hs
  have hrunning : t.producer.loop.running = true := by rw [hloop]; rfl
  have harmed := h.armed hrunning
  by_cases hstored : t.producer.batchStorage.timeout.isSome ∧ t.producer.batchStorage.storage ≠ []
  · rw [if_pos hstored.1]
    rcases flush_cases t.producer with ⟨hnil, -⟩ | ⟨-, hemit⟩
    · exact absurd hnil hstored.2
    · rw [hemit]
      exact h.emit (h.room hrunning).limited (fun _ hi => hi) rfl rfl rfl
  · rw [if_neg hstored] at harmed
    rw [h.timer, harmed] at htimer
    exact absurd htimer Bool.false_ne_true

/-- Nothing moves that the limits depend on. -/
theorem Limits.of_eq (h : Limits t)
    (hmsgs : ∀ tx message, .SingleMessage tx message ∈ s.msgs → counted message = true)
    (hstorage : s.batchStorage = t.producer.batchStorage)
    (hreceived : s.received = t.producer.received) (hemitted : s.emitted = t.producer.emitted)
    (htimer : s.timer = t.producer.timer)
    (hrunning : s.loop.running = true → t.producer.loop.running = true) :
    Limits { t with producer := s } := by
  refine ⟨hmsgs, ?_, ?_, ?_, fun hrun => ?_, fun hrun => ?_⟩
  · rw [hstorage]
    exact h.size
  · rw [hstorage, hemitted]
    exact h.emitted
  · rw [htimer]
    exact h.timer
  · rw [hstorage]
    exact h.room (hrunning hrun)
  · rw [hstorage, hreceived]
    exact h.armed (hrunning hrun)

/-- **The step lemma.** -/
theorem Limits.step (h : Limits t) (hok : fits t a = true) (hs : (timed lib).step t a = some t') :
    Limits t' := by
  obtain ⟨s, hstep, rfl⟩ := Option.map_eq_some_iff.mp hs
  -- the loop pushes, or the delay is over
  by_cases hrecv : a = .recv
  · subst hrecv
    exact h.recv hok hstep
  by_cases htimer : a = .timer
  · subst htimer
    exact h.expire hstep
  have hkept : t.rearmed a = t.armedBy := by
    cases a with
    | recv => exact absurd rfl hrecv
    | timer => exact absurd rfl htimer
    | _ => rfl
  rw [hkept]
  cases step_moves hstep with
  | sendRaw hopen =>
    refine h.of_eq ?_ rfl rfl rfl rfl id
    intro tx message hm
    rcases List.mem_append.mp hm with hm | hm
    · exact h.queued tx message hm
    · obtain ⟨-, rfl⟩ := BatchItem.SingleMessage.inj (List.mem_singleton.mp hm)
      exact hok
  | sendBatch hopen =>
    refine h.of_eq ?_ rfl rfl rfl rfl id
    intro tx message hm
    rcases List.mem_append.mp hm with hm | hm
    · exact h.queued tx message hm
    · cases List.mem_singleton.mp hm
  | recvNone hloop hmsgs hclosed =>
    exact
      { queued := h.queued
        size := rfl
        emitted := fun batch hbatch => (h.emitted batch hbatch).of_eq rfl rfl
        timer := h.timer
        room := fun hrun => Bool.noConfusion hrun
        armed := fun hrun => Bool.noConfusion hrun }
  | resume hloop hroom => exact h.of_eq h.queued rfl rfl rfl rfl fun _ => by rw [hloop]; rfl
  | abandonMessage | abandonFlush | exit =>
    exact h.of_eq h.queued rfl rfl rfl rfl fun hrun => Bool.noConfusion hrun
  | stored | filled => exact absurd rfl hrecv
  | expired | idle => exact absurd rfl htimer
  | _ => exact h.of_eq h.queued rfl rfl rfl rfl id

theorem Limits.init (h : (timed lib).init t) : Limits t := by
  obtain ⟨producer, armedBy⟩ := t
  obtain ⟨⟨maxSize, maxByteSize, timeout, rfl⟩, rfl⟩ := h
  refine ⟨fun _ _ hm => absurd hm List.not_mem_nil, rfl, fun _ hb => absurd hb List.not_mem_nil, rfl,
    fun _ => room_nil _, fun _ => ?_⟩
  rw [if_neg fun hstored => hstored.2 rfl]

/-! ## The two systems -/

/-- The delay is a log: it does not change what the producer does. -/
theorem batching_of_timed {ok : Timed → Action → Prop} (h : (timed lib).ReachIf ok t) :
    (batching lib).Reach t.producer := by
  induction h with
  | init h => exact .init h.1
  | step _ _ hs ih =>
    obtain ⟨s, hstep, rfl⟩ := Option.map_eq_some_iff.mp hs
    exact ih.step trivial hstep

theorem timed_of_batching (h : (batching lib).Reach s) : ∃ t, (timed lib).Reach t ∧ t.producer = s := by
  induction h with
  | init h => exact ⟨{ producer := _ }, .init ⟨h, rfl⟩, rfl⟩
  | step _ _ hs ih =>
    obtain ⟨t, ht, rfl⟩ := ih
    exact ⟨_, ht.step trivial (Option.map_eq_some_iff.mpr ⟨_, hs, rfl⟩), rfl⟩

/-- What is stored is the end of what was received. -/
theorem drop_received (h : (batching lib).Reach s) (hrunning : s.loop.running = true) :
    s.received.drop (s.received.length - s.batchStorage.storage.length) = s.batchStorage.storage := by
  have hinv := queueInv_of_reach h
  have hreceived : s.received = s.emitted.flatten ++ s.batchStorage.storage := by
    rw [hinv.received, hinv.running hrunning, List.append_nil]
  have hindex : s.received.length - s.batchStorage.storage.length = s.emitted.flatten.length := by
    rw [hreceived, List.length_append]
    omega
  rw [hindex, hreceived, List.drop_left]

end

/-! ## The main results -/

/-- What is held at the top of the loop: the sum, the room, and the delay, which was started by the push
    of the oldest message, and is there just when there is one. -/
structure Held (t : Timed) : Prop where
  size : t.producer.batchStorage.size = (payloadSizes t.producer.batchStorage.storage).sum
  room : Room t.producer.batchStorage t.producer.batchStorage.storage
  armed : t.producer.batchStorage.timeout.isSome = true → t.producer.batchStorage.storage ≠ [] →
    t.producer.timer = true ∧ ∃ push, t.armedBy = some push ∧
      t.producer.received.drop push = t.producer.batchStorage.storage
  idle : t.producer.batchStorage.storage = [] → t.producer.timer = false

/-- **Headline.**  Whatever the limits and the timeout, and in whatever order items are pushed, flushed
    and timed out: with payloads that their `i32` can count, the top of the loop holds what it should, and
    no batch that was emitted is over the limits. -/
theorem limits_kept (lib : Libraries) (t : Timed)
    (ht : (timed lib).ReachIf (fun t a => fits t a = true) t) :
    (t.producer.loop = .receiving → Held t) ∧
      ∀ batch ∈ t.producer.emitted, Limited t.producer.batchStorage batch := by
  have h : Limits t :=
    ht.inv Limits (fun _ h0 => .init h0) fun _ _ _ h hok hstep => h.step hok hstep
  refine ⟨fun hloop => ?_, h.emitted⟩
  have hrunning : t.producer.loop.running = true := by rw [hloop]; rfl
  have harmed := h.armed hrunning
  refine ⟨h.size, h.room hrunning, fun htimeout hsome => ?_, fun hnil => ?_⟩
  · rw [if_pos ⟨htimeout, hsome⟩] at harmed
    refine ⟨?_, _, harmed, drop_received (batching_of_timed ht) hrunning⟩
    rw [h.timer, harmed]
    rfl
  · rw [if_neg fun hstored => hstored.2 hnil] at harmed
    rw [h.timer, harmed]
    rfl

/-- Two messages and a timeout: the delay of the first one emits both. -/
theorem limits_kept_expired : ∃ t : Timed, t.producer.emitted.map List.length = [2] ∧
    ∀ batch ∈ t.producer.emitted, Limited t.producer.batchStorage batch := by
  obtain ⟨t, ht, hp⟩ := Sys.exists_reachIf_of_execIf (S := timed threeLibraries) fits
    (p := fun t => decide (t.producer.emitted.map List.length = [2]))
    (s := { producer := initial (some 3) (some 10) (some 100) }) ⟨⟨_, _, _, rfl⟩, rfl⟩
    [.sendRaw hi.batched, .sendRaw empty.batched, .recv, .recv, .timer] (by decide +kernel)
  exact ⟨t, of_decide_eq_true hp, (limits_kept threeLibraries t ht).2⟩

/-- The messages are those that `send_raw` makes. -/
def Made (_ : Timed) (a : Action) : Prop :=
  ∀ message, a = .sendRaw message → ∃ m : ProducerMessage, message = m.batched

/-- **A payload of `2 ^ 32` bytes counts as none.**  It is stored, and 1000 bytes are the limit. -/
theorem endless_payload_is_free :
    ¬ ∀ (lib : Libraries) (t : Timed), (timed lib).ReachIf Made t →
      (t.producer.loop = .receiving → Held t) ∧
        ∀ batch ∈ t.producer.emitted, Limited t.producer.batchStorage batch := by
  intro hall
  obtain ⟨m, hlength⟩ : ∃ m : ProducerMessage, m.payload.length = 2 ^ 32 :=
    ⟨{ payload := List.replicate (2 ^ 32) 0 }, List.length_replicate⟩
  have hzero : m.batched.metadata.payloadSize = 0 := by
    rw [m.batched_payloadSize, hlength]
    decide
  let s : State := (initial none (some 1000) none).enqueue (.SingleMessage 0 m.batched)
  let item : BatchItem := .SingleMessage 0 m.batched
  have hready : (s.store item []).batchStorage.readyToFlush = false := by
    show (false || decide (1000 ≤ (0 + (m.batched.metadata.payloadSize % 2 ^ 64).toNat) % 2 ^ 64) ||
      false) = false
    rw [hzero]
    decide
  have hstart : (timed threeLibraries).ReachIf Made { producer := initial none (some 1000) none } :=
    .init ⟨⟨_, _, _, rfl⟩, rfl⟩
  have hsent : (timed threeLibraries).ReachIf Made { producer := s } := by
    refine Sys.ReachIf.step (a := .sendRaw m.batched) hstart ?_ rfl
    intro message heq
    exact ⟨m, (Action.sendRaw.inj heq).symm⟩
  have hreceived : (timed threeLibraries).step { producer := s } .recv =
      some ⟨(s.store item []).flushIfReady, Timed.rearmed { producer := s } .recv⟩ := rfl
  have hreach := hsent.step (fun _ heq => by cases heq) hreceived
  have hstored : (s.store item []).flushIfReady =
      { s.store item [] with
        timer := if (s.store item []).batchStorage.timeout.isSome ∧
          (s.store item []).batchStorage.storage.length = 1 then true else false } :=
    if_neg (Bool.eq_false_iff.mp hready)
  rw [hstored] at hreach
  have hbytes := ((hall threeLibraries _ hreach).1 rfl).room.bytes 1000 rfl (by decide)
  have hsum : m.payload.length + 0 < 1000 := hbytes
  omega

end PulsarClient.Batching
