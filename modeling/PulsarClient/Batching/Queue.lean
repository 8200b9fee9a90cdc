/-
  THE BATCHING PRODUCER — two tasks and two channels between `send` and the broker.

  `send_raw` and `send_batch` put items into one channel; `batch_process_loop` stores them and emits
  batches into the next when a size, a byte size, a `Flush` or a timer says so; `message_send_loop` sends
  a batch, waits for its receipt and settles the messages.  Every `await` is a place where the others may
  move.

  * A `futures` channel takes an item whenever its sender is not parked, and parks it when the buffer is
    exceeded by that: `send(..).await` is over only when the receiver has taken an item since.

  * The broker, and all of `send_message` with its reconnects, is one answer: a receipt or an error.

  1. The SYSTEM (`batching`) and its steps (`Moves`).

  2. `QueueInv` — what has been received is, in this order, in the batches emitted, in the storage, or
     among what was left over when the channel closed; a `Flush` is only ever at the end of a batch.

  3. `queue_in_order` — the same, with what `message_send_loop` makes of every batch.
-/
import PulsarClient.Batching.Format
import PulsarClient.Lib.Runs

namespace PulsarClient.Batching

open Runs Proto

/-! ## The storage -/

structure BatchStorage where
  maxSize : Option Nat
  maxByteSize : Option Nat
  timeout : Option Nat
  size : Nat := 0
  storage : List BatchItem := []
  deriving DecidableEq, Repr

namespace BatchStorage

/-- `push_back`; `payload_size as usize` of a negative size is huge, and the sum wraps. -/
def pushBack (b : BatchStorage) (item : BatchItem) : BatchStorage :=
  { b with
    size :=
      match item with
      | .SingleMessage _ message => (b.size + (message.metadata.payloadSize % 2 ^ 64).toNat) % 2 ^ 64
      | .Flush _ => b.size
    storage := b.storage ++ [item] }

/-- What `get_messages` leaves behind. -/
def cleared (b : BatchStorage) : BatchStorage := { b with size := 0, storage := [] }

/-- `ready_to_flush` -/
def readyToFlush (b : BatchStorage) : Bool :=
  (match b.maxSize with
    | some maxSize => decide (maxSize ≤ b.storage.length)
    | none => false)
  || (match b.maxByteSize with
    | some maxByteSize => decide (maxByteSize ≤ b.size)
    | none => false)
  || (match b.storage.getLast? with
    | some (.Flush _) => true
    | _ => false)

@[simp] theorem storage_pushBack (b : BatchStorage) (item : BatchItem) :
    (b.pushBack item).storage = b.storage ++ [item] := rfl

@[simp] theorem storage_cleared (b : BatchStorage) : b.cleared.storage = [] := rfl

/-- A storage that is not flushed does not end with a `Flush`. -/
theorem flush?_of_not_ready {b : BatchStorage} {item : BatchItem}
    (h : (b.pushBack item).readyToFlush = false) : item.flush? = none := by
  unfold readyToFlush at h
  rw [storage_pushBack, List.getLast?_concat, Bool.or_eq_false_iff] at h
  cases item with
  | SingleMessage tx message => rfl
  | Flush tx => exact Bool.noConfusion h.2

end BatchStorage

/-! ## The system -/

abbrev Outcome := Except ProducerError CommandSendReceipt

/-- Where `batch_process_loop` is. -/
inductive LoopPc where
  /-- `select(recv_future, timer_future).await` -/
  | receiving
  /-- `batch_sender.send(messages).await`, the batch being in the channel -/
  | flushing
  /-- the channel is closed: what was stored, and is not resolved yet -/
  | closing (items : List BatchItem)
  | exited
  deriving DecidableEq, Repr

/-- Where `message_send_loop` is. -/
inductive SenderPc where
  /-- `msg_receiver.next().await` -/
  | receiving
  /-- `send().await`, of a batch -/
  | sending (batch : List BatchItem)
  /-- the answer is there: who has not been told yet, and the `Flush` behind them -/
  | settling (batch : List BatchItem) (todo : List (Nat × Outcome)) (flushTx : Option Nat)
  /-- `close_producer(..).await` -/
  | closing
  | exited
  deriving DecidableEq

structure State where
  batchStorage : BatchStorage
  /-- the message channel is closed: `TopicProducer` is closed or dropped -/
  closed : Bool := false
  /-- the next oneshot channel -/
  next : Nat := 0
  /-- the message channel, with a buffer of 10 -/
  msgs : List BatchItem := []
  loop : LoopPc := .receiving
  /-- `timer_future` is a delay, not `pending()` -/
  timer : Bool := false
  /-- the batch channel, with a buffer of 1 -/
  batches : List (List BatchItem) := []
  sender : SenderPc := .receiving
  /-- everything that was put into the message channel -/
  queued : List BatchItem := []
  /-- everything that `batch_process_loop` has received -/
  received : List BatchItem := []
  /-- everything that it has emitted -/
  emitted : List (List BatchItem) := []
  /-- what it still had when the channel closed -/
  unsent : List BatchItem := []
  /-- the batches that `message_send_loop` is done with, item by item -/
  finished : List BatchItem := []
  /-- the batches that were answered, with the answer -/
  outcomes : List (List BatchItem × Outcome) := []
  /-- what the `SendFuture`s were told -/
  settled : List (Nat × Outcome) := []
  /-- the `Flush`es that were notified or dropped: `rx.await` of `send_batch` returns -/
  resolved : List Nat := []

inductive Action where
  /-- `send_raw` has made a message of a batch -/
  | sendRaw (message : BatchedMessage)
  | sendBatch
  /-- `close`, or `drop` -/
  | close
  /-- `batch_process_loop` receives an item -/
  | recv
  /-- … or finds its channel closed and empty -/
  | recvNone
  | timer
  /-- the batch sender is not parked any more -/
  | resume
  /-- what was stored is resolved, item by item -/
  | abandon
  /-- `message_send_loop` receives a batch -/
  | recvBatch
  /-- `send().await` is over -/
  | sent (res : Outcome)
  | settle
  | closeProducer
  | producerClosed
  deriving DecidableEq

namespace State

def enqueue (s : State) (item : BatchItem) : State :=
  { s with next := s.next + 1, msgs := s.msgs ++ [item], queued := s.queued ++ [item] }

/-- `batch_storage.push_back(batch_item)` -/
def store (s : State) (item : BatchItem) (rest : List BatchItem) : State :=
  { s with
    msgs := rest
    received := s.received ++ [item]
    batchStorage := s.batchStorage.pushBack item }

/-- `batch_sender.send(messages).await`, of all that is stored. -/
def emit (s : State) : State :=
  { s with
    batchStorage := s.batchStorage.cleared
    timer := false
    batches := s.batches ++ [s.batchStorage.storage]
    emitted := s.emitted ++ [s.batchStorage.storage]
    loop := if 1 < s.batches.length + 1 then .flushing else s.loop }

/-- `flush(&mut batch_sender, batch_storage.get_messages())`, and no timer afterwards. -/
def flush (s : State) : State :=
  if s.batchStorage.storage.isEmpty then
    { s with batchStorage := s.batchStorage.cleared, timer := false }
  else s.emit

/-- What follows `push_back`. -/
def flushIfReady (s : State) : State :=
  if s.batchStorage.readyToFlush then s.flush
  else
    { s with
      timer :=
        if s.batchStorage.timeout.isSome ∧ s.batchStorage.storage.length = 1 then true else s.timer }

end State

/-- The answer for each message of a batch. -/
def Assembled.answers (a : Assembled) : Outcome → List (Nat × Outcome)
  | .ok receipt => (a.settled receipt).map fun r => (r.1, .ok r.2)
  | .error e => a.receipts.map fun tx => (tx, .error (.Batch e))

/-- One step of one of the parties. -/
def step (lib : Libraries) (s : State) : Action → Option State
  | .sendRaw message =>
    if s.closed = false ∧ s.msgs.length ≤ 10 then
      some (s.enqueue (.SingleMessage s.next message))
    else none
  | .sendBatch =>
    if s.closed = false ∧ s.msgs.length ≤ 10 then some (s.enqueue (.Flush s.next)) else none
  | .close => if s.closed = false then some { s with closed := true } else none
  | .recv =>
    match s.loop, s.msgs with
    | .receiving, item :: rest => some (s.store item rest).flushIfReady
    | _, _ => none
  | .recvNone =>
    if s.loop = .receiving ∧ s.msgs = [] ∧ s.closed then
      some { s with
        loop := .closing s.batchStorage.storage
        unsent := s.batchStorage.storage
        batchStorage := s.batchStorage.cleared }
    else none
  | .timer =>
    if s.loop = .receiving ∧ s.timer then
      some (if s.batchStorage.timeout.isSome then s.flush else { s with timer := false })
    else none
  | .resume =>
    if s.loop = .flushing ∧ s.batches.length ≤ 1 then some { s with loop := .receiving } else none
  | .abandon =>
    match s.loop with
    | .closing (.SingleMessage tx _ :: rest) =>
      some { s with loop := .closing rest, settled := s.settled ++ [(tx, .error .Closed)] }
    | .closing (.Flush tx :: rest) =>
      some { s with loop := .closing rest, resolved := s.resolved ++ [tx] }
    | .closing [] => some { s with loop := .exited }
    | _ => none
  | .recvBatch =>
    match s.sender, s.batches with
    | .receiving, batch :: rest =>
      if batch = [] then some { s with batches := rest }
      else if (assemble lib batch).counter = 0 then
        some { s with
          batches := rest
          finished := s.finished ++ batch
          resolved := s.resolved ++ (assemble lib batch).dropped ++ (assemble lib batch).flushTx.toList }
      else
        some { s with
          batches := rest
          sender := .sending batch
          resolved := s.resolved ++ (assemble lib batch).dropped }
    | _, _ => none
  | .sent res =>
    match s.sender with
    | .sending batch =>
      some { s with
        sender := .settling batch ((assemble lib batch).answers res) (assemble lib batch).flushTx
        outcomes := s.outcomes ++ [(batch, res)] }
    | _ => none
  | .settle =>
    match s.sender with
    | .settling batch (answer :: todo) flushTx =>
      some { s with sender := .settling batch todo flushTx, settled := s.settled ++ [answer] }
    | .settling batch [] flushTx =>
      some { s with
        sender := .receiving
        finished := s.finished ++ batch
        resolved := s.resolved ++ flushTx.toList }
    | _ => none
  | .closeProducer =>
    if s.sender = .receiving ∧ s.batches = [] ∧ s.loop = .exited then some { s with sender := .closing }
    else none
  | .producerClosed => if s.sender = .closing then some { s with sender := .exited } else none

/-- The producer as it is built: nothing stored, nothing in flight. -/
def initial (maxSize maxByteSize timeout : Option Nat) : State :=
  { batchStorage := { maxSize, maxByteSize, timeout } }

def batching (lib : Libraries) : Sys State Action where
  init s := ∃ maxSize maxByteSize timeout, s = initial maxSize maxByteSize timeout
  step := step lib

/-! ## What a step can do -/

/-- The oneshot channel of an item. -/
def BatchItem.tx : BatchItem → Nat
  | SingleMessage tx _ => tx
  | Flush tx => tx

/-- `batch_process_loop` has not found its channel closed. -/
def LoopPc.running : LoopPc → Bool
  | receiving => true
  | flushing => true
  | _ => false

/-- What is still to be resolved. -/
def LoopPc.left : LoopPc → List BatchItem
  | closing items => items
  | _ => []

/-- The batch that `message_send_loop` is busy with. -/
def SenderPc.batch : SenderPc → List BatchItem
  | sending batch => batch
  | settling batch _ _ => batch
  | _ => []

/-- The steps, by their branches. -/
inductive Moves (lib : Libraries) (s : State) : Action → State → Prop where
  | sendRaw {message} (hopen : s.closed = false) :
    Moves lib s (.sendRaw message) (s.enqueue (.SingleMessage s.next message))
  | sendBatch (hopen : s.closed = false) : Moves lib s .sendBatch (s.enqueue (.Flush s.next))
  | close (hopen : s.closed = false) : Moves lib s .close { s with closed := true }
  | stored {item rest timer} (hloop : s.loop = .receiving) (hmsgs : s.msgs = item :: rest)
    (hflush : item.flush? = none) : Moves lib s .recv { s.store item rest with timer }
  | filled {item rest} (hloop : s.loop = .receiving) (hmsgs : s.msgs = item :: rest) :
    Moves lib s .recv (s.store item rest).emit
  | recvNone (hloop : s.loop = .receiving) (hmsgs : s.msgs = []) (hclosed : s.closed = true) :
    Moves lib s .recvNone { s with
      loop := .closing s.batchStorage.storage
      unsent := s.batchStorage.storage
      batchStorage := s.batchStorage.cleared }
  | expired (hloop : s.loop = .receiving) (htimer : s.timer = true)
    (hsome : s.batchStorage.storage ≠ []) : Moves lib s .timer s.emit
  | idle {batchStorage} (hloop : s.loop = .receiving) (htimer : s.timer = true)
    (hstorage : batchStorage.storage = s.batchStorage.storage) :
    Moves lib s .timer { s with batchStorage, timer := false }
  | resume (hloop : s.loop = .flushing) (hroom : s.batches.length ≤ 1) :
    Moves lib s .resume { s with loop := .receiving }
  | abandonMessage {tx message rest} (hloop : s.loop = .closing (.SingleMessage tx message :: rest)) :
    Moves lib s .abandon
      { s with loop := .closing rest, settled := s.settled ++ [(tx, .error .Closed)] }
  | abandonFlush {tx rest} (hloop : s.loop = .closing (.Flush tx :: rest)) :
    Moves lib s .abandon { s with loop := .closing rest, resolved := s.resolved ++ [tx] }
  | exit (hloop : s.loop = .closing []) : Moves lib s .abandon { s with loop := .exited }
  | recvEmpty {rest} (hsender : s.sender = .receiving) (hbatches : s.batches = [] :: rest) :
    Moves lib s .recvBatch { s with batches := rest }
  | recvFlush {batch rest} (hsender : s.sender = .receiving) (hbatches : s.batches = batch :: rest)
    (hcounter : (assemble lib batch).counter = 0) :
    Moves lib s .recvBatch { s with
      batches := rest
      finished := s.finished ++ batch
      resolved := s.resolved ++ (assemble lib batch).dropped ++ (assemble lib batch).flushTx.toList }
  | recvBatch {batch rest} (hsender : s.sender = .receiving) (hbatches : s.batches = batch :: rest)
    (hsome : batch ≠ []) :
    Moves lib s .recvBatch { s with
      batches := rest
      sender := .sending batch
      resolved := s.resolved ++ (assemble lib batch).dropped }
  | sent {batch res} (hsender : s.sender = .sending batch) :
    Moves lib s (.sent res) { s with
      sender := .settling batch ((assemble lib batch).answers res) (assemble lib batch).flushTx
      outcomes := s.outcomes ++ [(batch, res)] }
  | settle {batch answer todo flushTx} (hsender : s.sender = .settling batch (answer :: todo) flushTx) :
    Moves lib s .settle
      { s with sender := .settling batch todo flushTx, settled := s.settled ++ [answer] }
  | settled {batch flushTx} (hsender : s.sender = .settling batch [] flushTx) :
    Moves lib s .settle { s with
      sender := .receiving
      finished := s.finished ++ batch
      resolved := s.resolved ++ flushTx.toList }
  | closeProducer (hsender : s.sender = .receiving) (hbatches : s.batches = [])
    (hloop : s.loop = .exited) : Moves lib s .closeProducer { s with sender := .closing }
  | producerClosed (hsender : s.sender = .closing) :
    Moves lib s .producerClosed { s with sender := .exited }

section

variable {lib : Libraries} {s s' : State} {a : Action}

theorem flush_cases (s : State) :
    (s.batchStorage.storage = [] ∧
      s.flush = { s with batchStorage := s.batchStorage.cleared, timer := false }) ∨
    (s.batchStorage.storage ≠ [] ∧ s.flush = s.emit) := by
  unfold State.flush
  split
  · rename_i hempty
    exact Or.inl ⟨List.isEmpty_iff.mp hempty, rfl⟩
  · rename_i hsome
    exact Or.inr ⟨fun hc => hsome (List.isEmpty_iff.mpr hc), rfl⟩

theorem step_moves (h : step lib s a = some s') : Moves lib s a s' := by
  cases a with
  | sendRaw message =>
    simp only [step, Option.ite_none_right_eq_some, Option.some.injEq] at h
    obtain ⟨⟨hopen, -⟩, rfl⟩ := h
    exact .sendRaw hopen
  | sendBatch =>
    simp only [step, Option.ite_none_right_eq_some, Option.some.injEq] at h
    obtain ⟨⟨hopen, -⟩, rfl⟩ := h
    exact .sendBatch hopen
  | close =>
    simp only [step, Option.ite_none_right_eq_some, Option.some.injEq] at h
    obtain ⟨hopen, rfl⟩ := h
    exact .close hopen
  | recv =>
    simp only [step] at h
    split at h
    · rename_i item rest hloop hmsgs
      obtain rfl := Option.some.inj h
      unfold State.flushIfReady
      split
      · -- the item is in the storage, so there is something to flush
        rcases flush_cases (s.store item rest) with ⟨hnil, -⟩ | ⟨-, hemit⟩
        · exact absurd hnil (List.append_ne_nil_of_right_ne_nil _ (List.cons_ne_nil item []))
        · rw [hemit]
          exact .filled hloop hmsgs
      · rename_i hready
        exact .stored hloop hmsgs (BatchStorage.flush?_of_not_ready (Bool.not_eq_true _ ▸ hready))
    · simp at h
  | recvNone =>
    simp only [step, Option.ite_none_right_eq_some, Option.some.injEq] at h
    obtain ⟨⟨hloop, hmsgs, hclosed⟩, rfl⟩ := h
    exact .recvNone hloop hmsgs hclosed
  | timer =>
    simp only [step, Option.ite_none_right_eq_some, Option.some.injEq] at h
    obtain ⟨⟨hloop, htimer⟩, rfl⟩ := h
    split
    · -- the timer of a storage that was emptied meanwhile emits nothing
      rcases flush_cases s with ⟨hnil, hflush⟩ | ⟨hsome, hflush⟩ <;> rw [hflush]
      · exact .idle hloop htimer hnil.symm
      · exact .expired hloop htimer hsome
    · exact .idle hloop htimer rfl
  | resume =>
    simp only [step, Option.ite_none_right_eq_some, Option.some.injEq] at h
    obtain ⟨⟨hloop, hroom⟩, rfl⟩ := h
    exact .resume hloop hroom
  | abandon =>
    simp only [step] at h
    split at h
    · rename_i hloop
      obtain rfl := Option.some.inj h
      exact .abandonMessage hloop
    · rename_i hloop
      obtain rfl := Option.some.inj h
      exact .abandonFlush hloop
    · rename_i hloop
      obtain rfl := Option.some.inj h
      exact .exit hloop
    · simp at h
  | recvBatch =>
    simp only [step] at h
    split at h
    · rename_i batch rest hsender hbatches
      split at h
      · rename_i hempty
        obtain rfl := Option.some.inj h
        exact .recvEmpty hsender (hempty ▸ hbatches)
      · rename_i hsome
        split at h
        · rename_i hcounter
          obtain rfl := Option.some.inj h
          exact .recvFlush hsender hbatches hcounter
        · obtain rfl := Option.some.inj h
          exact .recvBatch hsender hbatches hsome
    · simp at h
  | sent res =>
    simp only [step] at h
    split at h
    · rename_i hsender
      obtain rfl := Option.some.inj h
      exact .sent hsender
    · simp at h
  | settle =>
    simp only [step] at h
    split at h
    · rename_i hsender
      obtain rfl := Option.some.inj h
      exact .settle hsender
    · rename_i hsender
      obtain rfl := Option.some.inj h
      exact .settled hsender
    · simp at h
  | closeProducer =>
    simp only [step, Option.ite_none_right_eq_some, Option.some.injEq] at h
    obtain ⟨⟨hsender, hbatches, hloop⟩, rfl⟩ := h
    exact .closeProducer hsender hbatches hloop
  | producerClosed =>
    simp only [step, Option.ite_none_right_eq_some, Option.some.injEq] at h
    obtain ⟨hsender, rfl⟩ := h
    exact .producerClosed hsender

/-! ## The invariant -/

/-- Something, and a `Flush` at most at the end. -/
structure IsBatch (batch : List BatchItem) : Prop where
  some : batch ≠ []
  flush : ∀ item ∈ batch.dropLast, item.flush? = none

theorem IsBatch.concat {items : List BatchItem} (h : ∀ item ∈ items, item.flush? = none)
    (item : BatchItem) : IsBatch (items ++ [item]) where
  some := List.append_ne_nil_of_right_ne_nil _ (List.cons_ne_nil item [])
  flush i hi := by
    rw [List.dropLast_concat] at hi
    exact h i hi

theorem IsBatch.of_no_flush {items : List BatchItem} (h : ∀ item ∈ items, item.flush? = none)
    (hsome : items ≠ []) : IsBatch items where
  some := hsome
  flush i hi := h i (List.dropLast_subset _ hi)

/-- The queue, in order. -/
structure QueueInv (s : State) : Prop where
  queued : s.queued = s.received ++ s.msgs
  received : s.received = s.emitted.flatten ++ (s.batchStorage.storage ++ s.unsent)
  emitted : s.emitted.flatten = s.finished ++ (s.sender.batch ++ s.batches.flatten)
  stored : ∀ item ∈ s.batchStorage.storage ++ s.unsent, item.flush? = none
  shaped : ∀ batch ∈ s.emitted, IsBatch batch
  batches : ∀ batch ∈ s.batches, batch ∈ s.emitted
  sender : s.sender.batch ≠ [] → s.sender.batch ∈ s.emitted
  running : s.loop.running = true → s.unsent = []
  /-- after the channel has closed: nothing is stored, and who is not left has been told -/
  closed : s.loop.running = false → s.closed = true ∧ s.msgs = [] ∧ s.batchStorage.storage = [] ∧
    ∃ told, s.unsent = told ++ s.loop.left ∧
      ∀ tx message, BatchItem.SingleMessage tx message ∈ told → (tx, .error .Closed) ∈ s.settled

theorem QueueInv.init (maxSize maxByteSize timeout : Option Nat) :
    QueueInv (initial maxSize maxByteSize timeout) where
  queued := rfl
  received := rfl
  emitted := rfl
  stored := fun _ h => absurd h List.not_mem_nil
  shaped := fun _ h => absurd h List.not_mem_nil
  batches := fun _ h => absurd h List.not_mem_nil
  sender := fun h => absurd rfl h
  running := fun _ => rfl
  closed := fun h => Bool.noConfusion h

/-- `batch_sender.send`, of a storage that makes a batch. -/
theorem QueueInv.emit (hqueued : s.queued = s.received ++ s.msgs)
    (hreceived : s.received = s.emitted.flatten ++ s.batchStorage.storage)
    (hemitted : s.emitted.flatten = s.finished ++ (s.sender.batch ++ s.batches.flatten))
    (hshaped : ∀ batch ∈ s.emitted, IsBatch batch) (hbatch : IsBatch s.batchStorage.storage)
    (hbatches : ∀ batch ∈ s.batches, batch ∈ s.emitted)
    (hsender : s.sender.batch ≠ [] → s.sender.batch ∈ s.emitted) (hunsent : s.unsent = [])
    (hloop : s.loop = .receiving) : QueueInv s.emit where
  queued := hqueued
  received := by
    show s.received = (s.emitted ++ [s.batchStorage.storage]).flatten ++ ([] ++ s.unsent)
    rw [hunsent, List.flatten_append, List.flatten_singleton, List.append_nil, hreceived]
    simp
  emitted := by
    show (s.emitted ++ [s.batchStorage.storage]).flatten =
      s.finished ++ (s.sender.batch ++ (s.batches ++ [s.batchStorage.storage]).flatten)
    rw [List.flatten_append, List.flatten_append, hemitted]
    simp only [List.append_assoc]
  stored item h := by
    have hnone : item ∈ [] ++ s.unsent := h
    rw [hunsent] at hnone
    exact absurd hnone List.not_mem_nil
  shaped batch h := by
    rcases List.mem_append.mp h with h | h
    · exact hshaped batch h
    · exact List.mem_singleton.mp h ▸ hbatch
  batches batch h := by
    rcases List.mem_append.mp h with h | h
    · exact List.mem_append_left _ (hbatches batch h)
    · exact List.mem_append_right _ h
  sender h := List.mem_append_left _ (hsender h)
  running _ := hunsent
  closed h := by
    have hstill : s.emit.loop.running = true := by
      show (if 1 < s.batches.length + 1 then LoopPc.flushing else s.loop).running = true
      split
      · rfl
      · rw [hloop]
        rfl
    rw [hstill] at h
    exact Bool.noConfusion h

theorem QueueInv.enqueue (hinv : QueueInv s) (hopen : s.closed = false) (item : BatchItem) :
    QueueInv (s.enqueue item) where
  queued := by
    show s.queued ++ [item] = s.received ++ (s.msgs ++ [item])
    rw [hinv.queued, List.append_assoc]
  received := hinv.received
  emitted := hinv.emitted
  stored := hinv.stored
  shaped := hinv.shaped
  batches := hinv.batches
  sender := hinv.sender
  running := hinv.running
  closed h := by
    have hclosed := (hinv.closed h).1
    rw [hopen] at hclosed
    exact Bool.noConfusion hclosed

/-- What `message_send_loop` does to the queue: batches move on, in order. -/
theorem QueueInv.advance (hinv : QueueInv s) {finished : List BatchItem} {sender : SenderPc}
    {batches : List (List BatchItem)} {outcomes : List (List BatchItem × Outcome)}
    {settled : List (Nat × Outcome)} {resolved : List Nat}
    (hflatten : s.finished ++ (s.sender.batch ++ s.batches.flatten) =
      finished ++ (sender.batch ++ batches.flatten))
    (hbatches : ∀ batch ∈ batches, batch ∈ s.batches)
    (hsender : sender.batch ≠ [] → sender.batch ∈ s.emitted) (hsettled : s.settled ⊆ settled) :
    QueueInv { s with finished, sender, batches, outcomes, settled, resolved } where
  queued := hinv.queued
  received := hinv.received
  emitted := hinv.emitted.trans hflatten
  stored := hinv.stored
  shaped := hinv.shaped
  batches batch h := hinv.batches batch (hbatches batch h)
  sender := hsender
  running := hinv.running
  closed h := by
    obtain ⟨hclosed, hmsgs, hstorage, told, hunsent, htold⟩ := hinv.closed h
    exact ⟨hclosed, hmsgs, hstorage, told, hunsent, fun tx m hm => hsettled (htold tx m hm)⟩

/-- `batch_process_loop` is done with an item that was left over. -/
theorem QueueInv.abandon (hinv : QueueInv s) {item : BatchItem} {rest : List BatchItem}
    (hloop : s.loop = .closing (item :: rest)) {settled : List (Nat × Outcome)} {resolved : List Nat}
    (hsettled : s.settled ⊆ settled)
    (hitem : ∀ tx message, item = .SingleMessage tx message → (tx, .error .Closed) ∈ settled) :
    QueueInv { s with loop := .closing rest, settled, resolved } := by
  obtain ⟨hclosed, hmsgs, hstorage, told, hunsent, htold⟩ := hinv.closed (by rw [hloop]; rfl)
  refine { hinv with running := fun hrun => Bool.noConfusion hrun, closed := fun _ => ?_ }
  refine ⟨hclosed, hmsgs, hstorage, told ++ [item], ?_, ?_⟩
  · rw [hunsent, hloop, List.append_assoc]
    rfl
  · intro tx message hmem
    rcases List.mem_append.mp hmem with hmem | hmem
    · exact hsettled (htold tx message hmem)
    · exact hitem tx message (List.mem_singleton.mp hmem).symm

theorem QueueInv.move (hinv : QueueInv s) (h : Moves lib s a s') : QueueInv s' := by
  cases h with
  | sendRaw hopen => exact hinv.enqueue hopen _
  | sendBatch hopen => exact hinv.enqueue hopen _
  | close hopen =>
    exact
      { hinv with
        closed := fun hrun => by
          have hclosed := (hinv.closed hrun).1
          rw [hopen] at hclosed
          exact Bool.noConfusion hclosed }
  | stored hloop hmsgs hflush =>
    rename_i item rest timer
    have hrunning : s.loop.running = true := by rw [hloop]; rfl
    have hunsent : s.unsent = [] := hinv.running hrunning
    exact
      { queued := by
          show s.queued = (s.received ++ [item]) ++ rest
          rw [hinv.queued, hmsgs, List.append_assoc]
          rfl
        received := by
          show s.received ++ [item] = s.emitted.flatten ++ ((s.batchStorage.storage ++ [item]) ++ s.unsent)
          rw [hinv.received, hunsent, List.append_nil, List.append_nil, List.append_assoc]
        emitted := hinv.emitted
        stored := fun i hi => by
          have hi' : i ∈ (s.batchStorage.storage ++ [item]) ++ s.unsent := hi
          rw [hunsent, List.append_nil] at hi'
          rcases List.mem_append.mp hi' with hi' | hi'
          · exact hinv.stored i (List.mem_append_left _ hi')
          · exact List.mem_singleton.mp hi' ▸ hflush
        shaped := hinv.shaped
        batches := hinv.batches
        sender := hinv.sender
        running := hinv.running
        closed := fun hrun => by
          have hstill : s.loop.running = false := hrun
          rw [hrunning] at hstill
          exact Bool.noConfusion hstill }
  | filled hloop hmsgs =>
    -- whatever the item is, those before it are messages
    rename_i item rest
    have hunsent : s.unsent = [] := hinv.running (by rw [hloop]; rfl)
    have hstored : ∀ i ∈ s.batchStorage.storage, i.flush? = none :=
      fun i hi => hinv.stored i (List.mem_append_left _ hi)
    refine QueueInv.emit (s := s.store item rest) ?_ ?_ hinv.emitted hinv.shaped
      (IsBatch.concat hstored item) hinv.batches hinv.sender hunsent hloop
    · show s.queued = (s.received ++ [item]) ++ rest
      rw [hinv.queued, hmsgs, List.append_assoc]
      rfl
    · show s.received ++ [item] = s.emitted.flatten ++ (s.batchStorage.storage ++ [item])
      rw [hinv.received, hunsent, List.append_nil, List.append_assoc]
  | recvNone hloop hmsgs hclosed =>
    -- what was stored is left over from now on
    have hunsent : s.unsent = [] := hinv.running (by rw [hloop]; rfl)
    exact
      { queued := hinv.queued
        received := by
          show s.received = s.emitted.flatten ++ ([] ++ s.batchStorage.storage)
          rw [hinv.received, hunsent, List.append_nil, List.nil_append]
        emitted := hinv.emitted
        stored := fun item hi => hinv.stored item (List.mem_append_left _ hi)
        shaped := hinv.shaped
        batches := hinv.batches
        sender := hinv.sender
        running := fun hrun => Bool.noConfusion hrun
        closed := fun _ => ⟨hclosed, hmsgs, rfl, [], rfl, fun _ _ hm => absurd hm List.not_mem_nil⟩ }
  | expired hloop htimer hsome =>
    have hunsent : s.unsent = [] := hinv.running (by rw [hloop]; rfl)
    have hstored : ∀ i ∈ s.batchStorage.storage, i.flush? = none :=
      fun i hi => hinv.stored i (List.mem_append_left _ hi)
    have hreceived : s.received = s.emitted.flatten ++ s.batchStorage.storage := by
      rw [hinv.received, hunsent, List.append_nil]
    exact QueueInv.emit hinv.queued hreceived hinv.emitted hinv.shaped
      (IsBatch.of_no_flush hstored hsome) hinv.batches hinv.sender hunsent hloop
  | idle hloop htimer hstorage =>
    rename_i batchStorage
    exact
      { hinv with
        received := by
          show s.received = s.emitted.flatten ++ (batchStorage.storage ++ s.unsent)
          rw [hstorage]
          exact hinv.received
        stored := by
          show ∀ item ∈ batchStorage.storage ++ s.unsent, item.flush? = none
          rw [hstorage]
          exact hinv.stored
        closed := by
          show s.loop.running = false → s.closed = true ∧ s.msgs = [] ∧ batchStorage.storage = [] ∧ _
          rw [hstorage]
          exact hinv.closed }
  | resume hloop hroom =>
    exact
      { hinv with
        running := fun _ => hinv.running (by rw [hloop]; rfl)
        closed := fun hrun => Bool.noConfusion hrun }
  | abandonMessage hloop =>
    refine hinv.abandon hloop (List.subset_append_left _ _) fun tx' message' h => ?_
    obtain ⟨rfl, rfl⟩ := BatchItem.SingleMessage.inj h
    exact List.mem_append_right _ (List.mem_singleton.mpr rfl)
  | abandonFlush hloop =>
    refine hinv.abandon hloop (List.Subset.refl _) fun tx' message' h => ?_
    cases h
  | exit hloop =>
    obtain ⟨hclosed, hmsgs, hstorage, told, hunsent, htold⟩ := hinv.closed (by rw [hloop]; rfl)
    refine { hinv with running := fun hrun => Bool.noConfusion hrun, closed := fun _ => ?_ }
    refine ⟨hclosed, hmsgs, hstorage, told, ?_, htold⟩
    rw [hunsent, hloop]
    rfl
  | recvEmpty hsender hbatches =>
    refine hinv.advance ?_ ?_ hinv.sender (List.Subset.refl _)
    · rw [hbatches]
      rfl
    · exact fun batch hb => hbatches ▸ List.mem_cons_of_mem _ hb
  | recvFlush hsender hbatches hcounter =>
    refine hinv.advance ?_ ?_ hinv.sender (List.Subset.refl _)
    · rw [hbatches, hsender, List.flatten_cons, List.append_assoc]
      rfl
    · exact fun batch hb => hbatches ▸ List.mem_cons_of_mem _ hb
  | recvBatch hsender hbatches hsome =>
    rename_i batch rest
    refine hinv.advance ?_ ?_ (fun _ => hinv.batches batch ?_) (List.Subset.refl _)
    · rw [hbatches, hsender, List.flatten_cons]
      rfl
    · exact fun batch hb => hbatches ▸ List.mem_cons_of_mem _ hb
    · exact hbatches ▸ List.mem_cons_self
  | sent hsender =>
    refine hinv.advance ?_ (fun _ hb => hb) (fun hne => ?_) (List.Subset.refl _)
    · rw [hsender]
      rfl
    · have hmem := hinv.sender
      rw [hsender] at hmem
      exact hmem hne
  | settle hsender =>
    refine hinv.advance ?_ (fun _ hb => hb) (fun hne => ?_) (List.subset_append_left _ _)
    · rw [hsender]
      rfl
    · have hmem := hinv.sender
      rw [hsender] at hmem
      exact hmem hne
  | settled hsender =>
    refine hinv.advance ?_ (fun _ hb => hb) (fun hne => absurd rfl hne) (List.Subset.refl _)
    rw [hsender, List.append_assoc]
    rfl
  | closeProducer hsender hbatches hloop =>
    refine hinv.advance ?_ (fun _ hb => hb) (fun hne => absurd rfl hne) (List.Subset.refl _)
    rw [hsender]
    rfl
  | producerClosed hsender =>
    refine hinv.advance ?_ (fun _ hb => hb) (fun hne => absurd rfl hne) (List.Subset.refl _)
    rw [hsender]
    rfl

theorem queueInv_of_reach (h : (batching lib).Reach s) : QueueInv s := by
  refine Sys.ReachIf.inv QueueInv ?_ ?_ h
  · rintro s ⟨maxSize, maxByteSize, timeout, rfl⟩
    exact QueueInv.init maxSize maxByteSize timeout
  · intro s a s' hinv _ hs
    exact hinv.move (step_moves hs)

/-! ## What is made of a batch -/

/-- A `Flush` waits for no receipt, so popping it loses none. -/
theorem receipts_assemble (lib : Libraries) (batch : List BatchItem) :
    (assemble lib batch).receipts = batch.filterMap BatchItem.receipt? := by
  unfold assemble
  rcases List.eq_nil_or_concat batch with rfl | ⟨items, last, rfl⟩
  · rfl
  · rw [List.concat_eq_append, List.getLast?_concat]
    cases last with
    | SingleMessage tx message => rfl
    | Flush tx =>
      show (items ++ [BatchItem.Flush tx]).dropLast.filterMap BatchItem.receipt? = _
      rw [List.dropLast_concat, List.filterMap_append]
      exact (List.append_nil _).symm

theorem length_receipts_of_no_flush {items : List BatchItem}
    (h : ∀ item ∈ items, item.flush? = none) :
    items.length = (items.filterMap BatchItem.receipt?).length := by
  induction items with
  | nil => rfl
  | cons item items ih =>
    have ih' := ih fun i hi => h i (List.mem_cons_of_mem _ hi)
    cases item with
    | SingleMessage tx message =>
      show items.length + 1 = (tx :: items.filterMap BatchItem.receipt?).length
      rw [List.length_cons, ih']
    | Flush tx => exact absurd (h _ List.mem_cons_self) (Option.some_ne_none tx)

theorem dropped_of_no_flush {items : List BatchItem} (h : ∀ item ∈ items, item.flush? = none) :
    items.filterMap BatchItem.flush? = [] :=
  List.filterMap_eq_nil_iff.mpr h

/-- Of a batch, every item but a trailing `Flush` is serialised and waits for a receipt. -/
theorem assemble_of_isBatch (lib : Libraries) {batch : List BatchItem} (h : IsBatch batch) :
    (assemble lib batch).dropped = [] ∧
      (assemble lib batch).counter = (batch.filterMap BatchItem.receipt?).length := by
  obtain ⟨hsome, hflush⟩ := h
  rcases List.eq_nil_or_concat batch with rfl | ⟨items, last, rfl⟩
  · exact absurd rfl hsome
  · rw [List.concat_eq_append] at hflush ⊢
    rw [List.dropLast_concat] at hflush
    unfold assemble
    rw [List.getLast?_concat]
    cases last with
    | SingleMessage tx message =>
      have hall : ∀ item ∈ items ++ [BatchItem.SingleMessage tx message], item.flush? = none := by
        intro item hi
        rcases List.mem_append.mp hi with hi | hi
        · exact hflush item hi
        · exact List.mem_singleton.mp hi ▸ rfl
      exact ⟨dropped_of_no_flush hall, length_receipts_of_no_flush hall⟩
    | Flush tx =>
      show ((items ++ [BatchItem.Flush tx]).dropLast.filterMap BatchItem.flush?) = [] ∧
        (items ++ [BatchItem.Flush tx]).dropLast.length =
          ((items ++ [BatchItem.Flush tx]).filterMap BatchItem.receipt?).length
      rw [List.dropLast_concat, List.filterMap_append]
      refine ⟨dropped_of_no_flush hflush, ?_⟩
      rw [length_receipts_of_no_flush hflush]
      show _ = (items.filterMap BatchItem.receipt? ++ []).length
      rw [List.append_nil]

/-! ## The main result -/

/-- **The batching queue keeps everything, once and in order.**  The batches emitted, what is stored and
    what was left over when the channel closed are exactly what was received; nothing is left over
    before, and whoever is left over is told `Closed`.  No batch is empty, a `Flush` ends one, and what
    `message_send_loop` makes of a batch that it receives drops no `Flush` and counts the messages. -/
theorem queue_in_order (lib : Libraries) (s : State) (h : (batching lib).Reach s) :
    s.emitted.flatten ++ (s.batchStorage.storage ++ s.unsent) = s.received ∧
    (s.loop.running = true → s.unsent = []) ∧
    (s.loop = .exited → s.batchStorage.storage = [] ∧ ∀ item ∈ s.unsent, ∃ tx message,
      item = .SingleMessage tx message ∧ (tx, .error .Closed) ∈ s.settled) ∧
    (∀ batch ∈ s.emitted, batch ≠ [] ∧ ∀ item ∈ batch.dropLast, item.flush? = none) ∧
    (∀ batch ∈ s.batches, batch ∈ s.emitted) ∧
    ∀ batch ∈ s.emitted, (assemble lib batch).dropped = [] ∧
      ∀ schemaVersion, ((assemble lib batch).message schemaVersion).numMessagesInBatch =
        some (asI32 (batch.filterMap BatchItem.receipt?).length) := by
  have hinv := queueInv_of_reach h
  refine ⟨hinv.received.symm, hinv.running, ?_, fun batch hb => ?_, hinv.batches, fun batch hb => ?_⟩
  · intro hloop
    obtain ⟨-, -, hstorage, told, hunsent, htold⟩ := hinv.closed (by rw [hloop]; rfl)
    refine ⟨hstorage, fun item hi => ?_⟩
    have hnone : item.flush? = none := hinv.stored item (List.mem_append_right _ hi)
    cases item with
    | SingleMessage tx message =>
      refine ⟨tx, message, rfl, htold tx message ?_⟩
      rw [hunsent, hloop] at hi
      exact (List.append_nil told) ▸ hi
    | Flush tx => exact absurd hnone (Option.some_ne_none tx)
  · exact ⟨(hinv.shaped batch hb).some, (hinv.shaped batch hb).flush⟩
  · obtain ⟨hdropped, hcounter⟩ := assemble_of_isBatch lib (hinv.shaped batch hb)
    refine ⟨hdropped, fun schemaVersion => ?_⟩
    rw [Assembled.message_numMessagesInBatch, hcounter]

/-- Two messages and a flush: one batch. -/
theorem queue_in_order_flushed : ∃ s : State, s.emitted.length = 1 ∧ s.received.length = 3 ∧
    s.emitted.flatten ++ (s.batchStorage.storage ++ s.unsent) = s.received := by
  obtain ⟨s, hreach, hs⟩ : ∃ s, (batching threeLibraries).Reach s ∧
      decide (s.emitted.length = 1 ∧ s.received.length = 3) = true :=
    Sys.exists_reach_of_exec (S := batching threeLibraries) ⟨none, none, none, rfl⟩
      [.sendRaw hi.batched, .sendRaw empty.batched, .sendBatch, .recv, .recv, .recv]
      (by decide +kernel)
  obtain ⟨hemitted, hreceived⟩ := of_decide_eq_true hs
  exact ⟨s, hemitted, hreceived, (queue_in_order threeLibraries s hreach).1⟩

end

end PulsarClient.Batching
