/-
  SETTLEMENT — every accepted message is told once what became of it, and a flush waits for all of them.

  1. Conservation: the messages accepted are those settled and those under way (`State.pending`), each
     in exactly one place.

  2. The barrier: when a `Flush` is resolved, the batches before it are finished, and the one it ends
     has just been settled.  Oneshot channels are numbered in the order of the queue, so "before" is "has
     a smaller number".

  3. `Work` — what the two tasks still have to do shrinks with each of their steps; a closed producer
     comes to rest, with nothing under way.

  4. `flush_is_a_barrier` — the main result.
-/
import Mathlib.Algebra.GroupWithZero.Nat
import PulsarClient.Batching.Queue

namespace PulsarClient.Batching

open Runs Proto

/-- The senders that wait for a receipt. -/
def receipts (items : List BatchItem) : List Nat := items.filterMap BatchItem.receipt?

@[simp] theorem receipts_nil : receipts [] = [] := rfl

@[simp] theorem receipts_append (items items' : List BatchItem) :
    receipts (items ++ items') = receipts items ++ receipts items' := List.filterMap_append ..

@[simp] theorem receipts_message (tx : Nat) (message : BatchedMessage) (items : List BatchItem) :
    receipts (.SingleMessage tx message :: items) = tx :: receipts items := rfl

@[simp] theorem receipts_flush (tx : Nat) (items : List BatchItem) :
    receipts (.Flush tx :: items) = receipts items := rfl

theorem receipts_cons (item : BatchItem) (items : List BatchItem) :
    receipts (item :: items) = receipts [item] ++ receipts items := receipts_append [item] items

theorem mem_receipts {items : List BatchItem} {tx : Nat} :
    tx ∈ receipts items ↔ ∃ message, BatchItem.SingleMessage tx message ∈ items := by
  unfold receipts
  rw [List.mem_filterMap]
  constructor
  · rintro ⟨item, hmem, htx⟩
    cases item with
    | SingleMessage tx' message => exact ⟨message, Option.some.inj htx ▸ hmem⟩
    | Flush tx' => exact absurd htx.symm (Option.some_ne_none tx)
  · rintro ⟨message, hmem⟩
    exact ⟨_, hmem, rfl⟩

/-- What is still to be told of the batch that `message_send_loop` is busy with. -/
def SenderPc.pending : SenderPc → List Nat
  | sending batch => receipts batch
  | settling _ todo _ => todo.map Prod.fst
  | _ => []

/-- … and by which answer, when there is one. -/
def SenderPc.todo : SenderPc → List (Nat × Outcome)
  | settling _ todo _ => todo
  | _ => []

/-- The messages under way: in one of the channels, stored, to be resolved, or being sent. -/
def State.pending (s : State) : List Nat :=
  receipts s.msgs ++ receipts s.batchStorage.storage ++ receipts s.loop.left ++
    receipts s.batches.flatten ++ s.sender.pending

/-- The messages that have been told. -/
def State.told (s : State) : List Nat := s.settled.map Prod.fst

/-! ## The invariant -/

/-- A receipt for `tx` comes from the answer to the batch that `tx` was in, with its position there. -/
def ReceiptOf (lib : Libraries) (s : State) (tx : Nat) (receipt : CommandSendReceipt) : Prop :=
  ∃ batch answer i, (batch, Except.ok answer) ∈ s.outcomes ∧ batch ∈ s.emitted ∧
    (receipts batch)[i]? = some tx ∧ receipt = (assemble lib batch).receiptAt answer i

structure SettleInv (lib : Libraries) (s : State) : Prop where
  numbered : s.queued.map BatchItem.tx = List.range s.next
  conserved : ∀ tx, s.told.count tx + s.pending.count tx = (receipts s.queued).count tx
  finished : receipts s.finished ⊆ s.told
  current : ∀ batch todo flushTx, s.sender = .settling batch todo flushTx →
    receipts batch ⊆ s.told ++ todo.map Prod.fst ∧ flushTx = (assemble lib batch).flushTx
  ok : ∀ tx receipt, (tx, .ok receipt) ∈ s.settled ++ s.sender.todo → ReceiptOf lib s tx receipt
  resolved : ∀ f ∈ s.resolved, f < s.next
  barrier : ∀ f ∈ s.resolved, ∀ tx ∈ receipts s.queued, tx < f → tx ∈ s.told
  ended : s.sender = .closing ∨ s.sender = .exited → s.loop = .exited ∧ s.batches = []

section

variable {lib : Libraries} {s s' : State} {a : Action}

/-- In a queue with ascending numbers, a smaller number stands further ahead. -/
theorem mem_of_tx_lt {before after : List BatchItem} {item x : BatchItem} {n : Nat}
    (hnumbered : (before ++ item :: after).map BatchItem.tx = List.range n)
    (hx : x ∈ before ++ item :: after) (hlt : x.tx < item.tx) : x ∈ before := by
  have hsorted : ((before ++ item :: after).map BatchItem.tx).Pairwise (· < ·) :=
    hnumbered ▸ List.pairwise_lt_range
  rw [List.map_append, List.map_cons] at hsorted
  rcases List.mem_append.mp hx with hx | hx
  · exact hx
  · have hafter := (List.pairwise_append.mp hsorted).2.1
    rcases List.mem_cons.mp hx with rfl | hx
    · exact absurd hlt (Nat.lt_irrefl _)
    · have hgt := (List.pairwise_cons.mp hafter).1 x.tx (List.mem_map_of_mem hx)
      omega

theorem flushTx_assemble {batch : List BatchItem} {f : Nat}
    (h : (assemble lib batch).flushTx = some f) : ∃ items, batch = items ++ [.Flush f] := by
  unfold assemble at h
  rcases List.eq_nil_or_concat batch with rfl | ⟨items, last, rfl⟩
  · exact absurd h.symm (Option.some_ne_none f)
  · rw [List.concat_eq_append, List.getLast?_concat] at h
    cases last with
    | SingleMessage tx message => exact absurd h.symm (Option.some_ne_none f)
    | Flush tx =>
      obtain rfl := Option.some.inj h
      exact ⟨items, List.concat_eq_append⟩

/-- **The barrier.**  When everything up to and including a batch has been told, so has everything
    before the `Flush` that ends the batch. -/
theorem told_before_flush {batch rest : List BatchItem} {f : Nat} (hqueue : QueueInv s)
    (hnumbered : s.queued.map BatchItem.tx = List.range s.next)
    (hemitted : s.emitted.flatten = s.finished ++ (batch ++ rest))
    (hfinished : receipts s.finished ⊆ s.told) (hbatch : receipts batch ⊆ s.told)
    (hf : (assemble lib batch).flushTx = some f) :
    f < s.next ∧ ∀ tx ∈ receipts s.queued, tx < f → tx ∈ s.told := by
  obtain ⟨items, rfl⟩ := flushTx_assemble hf
  obtain ⟨after, hafter⟩ : ∃ after, s.queued = (s.finished ++ items) ++ .Flush f :: after := by
    refine ⟨rest ++ (s.batchStorage.storage ++ s.unsent) ++ s.msgs, ?_⟩
    rw [hqueue.queued, hqueue.received, hemitted]
    simp
  constructor
  · -- it is one of the items queued so far, and they are numbered
    have hmem : BatchItem.Flush f ∈ s.queued := by
      rw [hafter]
      exact List.mem_append_right _ List.mem_cons_self
    have hrange : f ∈ List.range s.next := hnumbered ▸ List.mem_map_of_mem hmem
    exact List.mem_range.mp hrange
  · intro tx htx hlt
    obtain ⟨message, hmem⟩ := mem_receipts.mp htx
    rw [hafter] at hmem hnumbered
    -- a smaller number is further in front: in a finished batch, or in this one
    have hbefore := mem_of_tx_lt hnumbered hmem hlt
    rcases List.mem_append.mp hbefore with hx | hx
    · exact hfinished (mem_receipts.mpr ⟨message, hx⟩)
    · exact hbatch (mem_receipts.mpr ⟨message, List.mem_append_left _ hx⟩)

/-! ## Its preservation -/

theorem ReceiptOf.mono {tx : Nat} {receipt : CommandSendReceipt} (houtcomes : s.outcomes ⊆ s'.outcomes)
    (hemitted : s.emitted ⊆ s'.emitted) (h : ReceiptOf lib s tx receipt) :
    ReceiptOf lib s' tx receipt := by
  obtain ⟨batch, answer, i, hanswer, hbatch, hi, hreceipt⟩ := h
  exact ⟨batch, answer, i, houtcomes hanswer, hemitted hbatch, hi, hreceipt⟩

theorem SettleInv.init (maxSize maxByteSize timeout : Option Nat) :
    SettleInv lib (initial maxSize maxByteSize timeout) where
  numbered := rfl
  conserved := fun _ => rfl
  finished := fun _ h => absurd h List.not_mem_nil
  current := fun _ _ _ h => by cases h
  ok := fun _ _ h => absurd h List.not_mem_nil
  resolved := fun _ h => absurd h List.not_mem_nil
  barrier := fun _ h => absurd h List.not_mem_nil
  ended := by rintro (h | h) <;> cases h

/-- The sender is not done while the loop is not. -/
theorem SettleInv.not_ended (hinv : SettleInv lib s) (hloop : s.loop ≠ .exited) {P : Prop}
    (h : s.sender = .closing ∨ s.sender = .exited) : P :=
  absurd (hinv.ended h).1 hloop

/-- One more item. -/
theorem SettleInv.enqueue (hinv : SettleInv lib s) {item : BatchItem} (htx : item.tx = s.next) :
    SettleInv lib (s.enqueue item) where
  numbered := by
    show (s.queued ++ [item]).map BatchItem.tx = List.range (s.next + 1)
    rw [List.map_append, hinv.numbered, List.range_succ, ← htx]
    rfl
  conserved tx := by
    have hcount := hinv.conserved tx
    have hpending : (s.enqueue item).pending = receipts (s.msgs ++ [item]) ++
      receipts s.batchStorage.storage ++ receipts s.loop.left ++ receipts s.batches.flatten ++
        s.sender.pending := rfl
    have hqueued : (s.enqueue item).queued = s.queued ++ [item] := rfl
    have htold : (s.enqueue item).told = s.told := rfl
    rw [hpending, hqueued, htold]
    simp only [State.pending, receipts_append, List.count_append] at hcount ⊢
    omega
  finished := hinv.finished
  current := hinv.current
  ok := hinv.ok
  resolved f hf := by
    have hlt := hinv.resolved f hf
    show f < s.next + 1
    omega
  barrier f hf tx htx' hlt := by
    have hnext := hinv.resolved f hf
    have hmem : tx ∈ receipts (s.queued ++ [item]) := htx'
    rw [receipts_append] at hmem
    rcases List.mem_append.mp hmem with hmem | hmem
    · exact hinv.barrier f hf tx hmem hlt
    · -- the new message is behind every flush so far
      obtain ⟨message, hitem⟩ := mem_receipts.mp hmem
      have htx'' : tx = s.next := by
        rw [← htx, ← List.mem_singleton.mp hitem]
        rfl
      omega
  ended := hinv.ended

/-- Items that only change their place. -/
theorem SettleInv.rearrange (hinv : SettleInv lib s) (hnext : s'.next = s.next)
    (hqueued : s'.queued = s.queued) (hsettled : s'.settled = s.settled)
    (hresolved : s'.resolved = s.resolved) (hfinished : s'.finished = s.finished)
    (hsender : s'.sender = s.sender) (houtcomes : s'.outcomes = s.outcomes)
    (hemitted : s.emitted ⊆ s'.emitted) (hpending : ∀ tx, s'.pending.count tx = s.pending.count tx)
    (hended : s.sender = .closing ∨ s.sender = .exited → s'.loop = .exited ∧ s'.batches = []) :
    SettleInv lib s' := by
  have htold : s'.told = s.told := congrArg (List.map Prod.fst) hsettled
  constructor
  · rw [hqueued, hnext]
    exact hinv.numbered
  · intro tx
    rw [htold, hpending tx, hqueued]
    exact hinv.conserved tx
  · rw [htold, hfinished]
    exact hinv.finished
  · intro batch todo flushTx h
    rw [htold]
    exact hinv.current batch todo flushTx (hsender ▸ h)
  · intro tx receipt h
    rw [hsettled, hsender] at h
    exact (hinv.ok tx receipt h).mono (houtcomes ▸ List.Subset.refl _) hemitted
  · intro f hf
    rw [hnext]
    exact hinv.resolved f (hresolved ▸ hf)
  · intro f hf tx htx hlt
    rw [htold]
    exact hinv.barrier f (hresolved ▸ hf) tx (hqueued ▸ htx) hlt
  · exact fun h => hended (hsender ▸ h)

/-- Every message of the batch gets an answer. -/
theorem map_answers (batch : List BatchItem) (res : Outcome) :
    ((assemble lib batch).answers res).map Prod.fst = receipts batch := by
  cases res with
  | ok receipt =>
    show (((assemble lib batch).receipts.zipIdx.map _).map _).map Prod.fst = _
    rw [List.map_map, List.map_map]
    show (assemble lib batch).receipts.zipIdx.map Prod.fst = _
    rw [List.zipIdx_map_fst]
    exact receipts_assemble lib batch
  | error e =>
    show ((assemble lib batch).receipts.map _).map Prod.fst = _
    rw [List.map_map]
    show (assemble lib batch).receipts.map id = _
    rw [List.map_id]
    exact receipts_assemble lib batch

/-- … and a receipt only when there is one. -/
theorem mem_answers {batch : List BatchItem} {res : Outcome} {tx : Nat} {receipt : CommandSendReceipt}
    (h : (tx, .ok receipt) ∈ (assemble lib batch).answers res) :
    ∃ answer i, res = .ok answer ∧ (receipts batch)[i]? = some tx ∧
      receipt = (assemble lib batch).receiptAt answer i := by
  cases res with
  | ok answer =>
    obtain ⟨r, hr, heq⟩ := List.mem_map.mp h
    obtain ⟨⟨tx', i⟩, hi, rfl⟩ := List.mem_map.mp hr
    obtain ⟨rfl, hreceipt⟩ := Prod.mk.inj heq
    refine ⟨answer, i, rfl, ?_, (Except.ok.inj hreceipt).symm⟩
    have hreceipts : (assemble lib batch).receipts = receipts batch := receipts_assemble lib batch
    rw [← hreceipts]
    exact List.mem_zipIdx_iff_getElem?.mp hi
  | error e =>
    obtain ⟨tx', -, heq⟩ := List.mem_map.mp h
    cases (Prod.mk.inj heq).2

/-- A batch that is emitted is still under way. -/
theorem count_pending_emit (hloop : s.loop = .receiving) (tx : Nat) :
    s.emit.pending.count tx = s.pending.count tx := by
  have hleft : s.emit.loop.left = [] := by
    show (if 1 < s.batches.length + 1 then LoopPc.flushing else s.loop).left = []
    split
    · rfl
    · rw [hloop]
      rfl
  have hpending : s.emit.pending = receipts s.msgs ++ receipts [] ++ receipts s.emit.loop.left ++
    receipts (s.batches ++ [s.batchStorage.storage]).flatten ++ s.sender.pending := rfl
  rw [hpending, hleft]
  unfold State.pending
  rw [hloop]
  simp only [LoopPc.left, List.flatten_append, List.flatten_singleton, receipts_append, receipts_nil,
    List.count_append, List.count_nil]
  omega

/-- An item that is stored is still under way. -/
theorem count_pending_store {item : BatchItem} {rest : List BatchItem} (hmsgs : s.msgs = item :: rest)
    (tx : Nat) : (s.store item rest).pending.count tx = s.pending.count tx := by
  have hpending : (s.store item rest).pending = receipts rest ++
    receipts (s.batchStorage.storage ++ [item]) ++ receipts s.loop.left ++
      receipts s.batches.flatten ++ s.sender.pending := rfl
  rw [hpending]
  unfold State.pending
  rw [hmsgs, receipts_cons]
  simp only [receipts_append, List.count_append]
  omega

/-- One more message is told. -/
theorem SettleInv.tell (hinv : SettleInv lib s) {loop : LoopPc} {sender : SenderPc} {tx : Nat}
    {res : Outcome}
    (hpending : ∀ tx', s.pending.count tx' =
      [tx].count tx' + { s with loop, sender, settled := s.settled ++ [(tx, res)] }.pending.count tx')
    (hcurrent : ∀ batch todo flushTx, sender = .settling batch todo flushTx →
      receipts batch ⊆ s.told ++ tx :: todo.map Prod.fst ∧ flushTx = (assemble lib batch).flushTx)
    (hok : ∀ tx' receipt, (tx', .ok receipt) ∈ (tx, res) :: sender.todo →
      (tx', .ok receipt) ∈ s.sender.todo)
    (hended : ¬ (sender = .closing ∨ sender = .exited)) :
    SettleInv lib { s with loop, sender, settled := s.settled ++ [(tx, res)] } := by
  have htold : { s with loop, sender, settled := s.settled ++ [(tx, res)] }.told = s.told ++ [tx] :=
    List.map_append
  have hsub : s.told ⊆ s.told ++ [tx] := List.subset_append_left _ _
  refine
    { numbered := hinv.numbered
      conserved := fun tx' => ?_
      finished := ?_
      current := fun batch todo flushTx h => ?_
      ok := fun tx' receipt h => ?_
      resolved := hinv.resolved
      barrier := fun f hf tx' htx' hlt => ?_
      ended := fun h => absurd h hended }
  · have hcount := hinv.conserved tx'
    rw [htold, List.count_append]
    have hrest := hpending tx'
    show _ = (receipts s.queued).count tx'
    omega
  · rw [htold]
    exact fun tx' htx' => hsub (hinv.finished htx')
  · rw [htold, List.append_assoc]
    exact hcurrent batch todo flushTx h
  · have hmem : (tx', Except.ok receipt) ∈ s.settled ++ s.sender.todo := by
      rw [List.append_assoc] at h
      rcases List.mem_append.mp h with h | h
      · exact List.mem_append_left _ h
      · exact List.mem_append_right _ (hok tx' receipt h)
    exact (hinv.ok tx' receipt hmem).mono (List.Subset.refl _) (List.Subset.refl _)
  · rw [htold]
    exact hsub (hinv.barrier f hf tx' htx' hlt)

/-- The batch that everyone has been told of is finished, and the `Flush` behind it resolved. -/
theorem SettleInv.finish (hqueue : QueueInv s) (hinv : SettleInv lib s) {batch : List BatchItem}
    {batches : List (List BatchItem)}
    (hemitted : s.emitted.flatten = s.finished ++ (batch ++ batches.flatten))
    (htold : receipts batch ⊆ s.told) (hpending : s.sender.pending = [])
    (hrest : receipts s.batches.flatten = receipts batches.flatten)
    {resolved : List Nat} (hresolved : resolved = s.resolved ++ (assemble lib batch).flushTx.toList) :
    SettleInv lib { s with batches, finished := s.finished ++ batch, sender := .receiving, resolved } := by
  have hbarrier : ∀ f ∈ resolved, f < s.next ∧ ∀ tx ∈ receipts s.queued, tx < f → tx ∈ s.told := by
    intro f hf
    rw [hresolved] at hf
    rcases List.mem_append.mp hf with hf | hf
    · exact ⟨hinv.resolved f hf, hinv.barrier f hf⟩
    · exact told_before_flush hqueue hinv.numbered hemitted hinv.finished htold
        (Option.mem_toList.mp hf)
  refine
    { numbered := hinv.numbered
      conserved := fun tx => ?_
      finished := ?_
      current := fun _ _ _ h => by cases h
      ok := fun tx receipt h => ?_
      resolved := fun f hf => (hbarrier f hf).1
      barrier := fun f hf => (hbarrier f hf).2
      ended := by rintro (h | h) <;> cases h }
  · have hcount := hinv.conserved tx
    unfold State.pending at hcount ⊢
    rw [hpending, hrest] at hcount
    exact hcount
  · show receipts (s.finished ++ batch) ⊆ s.told
    rw [receipts_append]
    exact List.append_subset.mpr ⟨hinv.finished, htold⟩
  · have hmem : (tx, Except.ok receipt) ∈ s.settled ++ [] := h
    rw [List.append_nil] at hmem
    exact (hinv.ok tx receipt (List.mem_append_left _ hmem)).mono (List.Subset.refl _)
      (List.Subset.refl _)

/-- `message_send_loop` moves on with the messages it had, or takes some, and tells nobody. -/
theorem SettleInv.advance (hinv : SettleInv lib s) {sender : SenderPc}
    {batches : List (List BatchItem)} {outcomes : List (List BatchItem × Outcome)}
    (houtcomes : s.outcomes ⊆ outcomes)
    (hpending : ∀ tx, (receipts batches.flatten ++ sender.pending).count tx =
      (receipts s.batches.flatten ++ s.sender.pending).count tx)
    (hcurrent : ∀ batch todo flushTx, sender = .settling batch todo flushTx →
      receipts batch ⊆ s.told ++ todo.map Prod.fst ∧ flushTx = (assemble lib batch).flushTx)
    (htodo : ∀ tx receipt, (tx, .ok receipt) ∈ sender.todo →
      ReceiptOf lib { s with sender, batches, outcomes } tx receipt)
    (hended : sender = .closing ∨ sender = .exited → s.loop = .exited ∧ batches = []) :
    SettleInv lib { s with sender, batches, outcomes } := by
  refine
    { hinv with
      conserved := fun tx => ?_
      current := hcurrent
      ok := fun tx receipt h => ?_
      ended := hended }
  · have hcount := hinv.conserved tx
    have hsame := hpending tx
    unfold State.pending at hcount ⊢
    simp only [List.count_append] at hcount hsame ⊢
    show s.told.count tx + _ = (receipts s.queued).count tx
    omega
  · rcases List.mem_append.mp h with h | h
    · exact (hinv.ok tx receipt (List.mem_append_left _ h)).mono houtcomes (List.Subset.refl _)
    · exact htodo tx receipt h

theorem SettleInv.move (hqueue : QueueInv s) (hinv : SettleInv lib s) (h : Moves lib s a s') :
    SettleInv lib s' := by
  cases h with
  | sendRaw hopen => exact hinv.enqueue rfl
  | sendBatch hopen => exact hinv.enqueue rfl
  | close hopen =>
    exact hinv.rearrange rfl rfl rfl rfl rfl rfl rfl (List.Subset.refl _) (fun _ => rfl) hinv.ended
  | stored hloop hmsgs hflush =>
    rename_i item rest timer
    refine hinv.rearrange rfl rfl rfl rfl rfl rfl rfl (List.Subset.refl _) (fun tx => ?_)
      (hinv.not_ended (by simp [hloop]))
    exact count_pending_store hmsgs tx
  | filled hloop hmsgs =>
    rename_i item rest
    refine hinv.rearrange rfl rfl rfl rfl rfl rfl rfl (List.subset_append_left _ _) (fun tx => ?_)
      (hinv.not_ended (by simp [hloop]))
    exact (count_pending_emit (s := s.store item rest) hloop tx).trans (count_pending_store hmsgs tx)
  | recvNone hloop hmsgs hclosed =>
    refine hinv.rearrange rfl rfl rfl rfl rfl rfl rfl (List.Subset.refl _) (fun tx => ?_)
      (hinv.not_ended (by simp [hloop]))
    show (receipts s.msgs ++ receipts [] ++ receipts s.batchStorage.storage ++
      receipts s.batches.flatten ++ s.sender.pending).count tx = s.pending.count tx
    unfold State.pending
    rw [hloop]
    simp only [LoopPc.left, receipts_nil, List.append_nil]
  | expired hloop htimer hsome =>
    exact hinv.rearrange rfl rfl rfl rfl rfl rfl rfl (List.subset_append_left _ _)
      (count_pending_emit hloop) (hinv.not_ended (by simp [hloop]))
  | idle hloop htimer hstorage =>
    rename_i batchStorage
    refine hinv.rearrange rfl rfl rfl rfl rfl rfl rfl (List.Subset.refl _) (fun tx => ?_)
      (hinv.not_ended (by simp [hloop]))
    show (receipts s.msgs ++ receipts batchStorage.storage ++ receipts s.loop.left ++
      receipts s.batches.flatten ++ s.sender.pending).count tx = s.pending.count tx
    rw [hstorage]
    rfl
  | resume hloop hroom =>
    refine hinv.rearrange rfl rfl rfl rfl rfl rfl rfl (List.Subset.refl _) (fun tx => ?_)
      (hinv.not_ended (by simp [hloop]))
    unfold State.pending
    rw [hloop]
    rfl
  | abandonMessage hloop =>
    rename_i tx message rest
    show SettleInv lib { s with
      loop := .closing rest
      sender := s.sender
      settled := s.settled ++ [(tx, .error .Closed)] }
    refine hinv.tell (fun tx' => ?_) (fun batch todo flushTx h => ?_) (fun tx' receipt h => ?_)
      (fun h => hinv.not_ended (by simp [hloop]) h)
    · unfold State.pending
      rw [hloop]
      show (_ ++ (tx :: receipts rest) ++ _ ++ _).count tx' = _ + (_ ++ receipts rest ++ _ ++ _).count tx'
      rw [← List.singleton_append]
      simp only [List.count_append]
      omega
    · obtain ⟨hsub, hflush⟩ := hinv.current batch todo flushTx h
      refine ⟨fun tx' htx' => ?_, hflush⟩
      rcases List.mem_append.mp (hsub htx') with hmem | hmem
      · exact List.mem_append_left _ hmem
      · exact List.mem_append_right _ (List.mem_cons_of_mem _ hmem)
    · rcases List.mem_cons.mp h with h | h
      · cases (Prod.mk.inj h).2
      · exact h
  | abandonFlush hloop =>
    -- a `Flush` is never left over
    rename_i tx rest
    obtain ⟨-, -, -, told, hunsent, -⟩ := hqueue.closed (by rw [hloop]; rfl)
    have hmem : BatchItem.Flush tx ∈ s.unsent := by
      rw [hunsent, hloop]
      exact List.mem_append_right _ List.mem_cons_self
    exact absurd (hqueue.stored _ (List.mem_append_right _ hmem)) (Option.some_ne_none tx)
  | exit hloop =>
    refine hinv.rearrange rfl rfl rfl rfl rfl rfl rfl (List.Subset.refl _) (fun tx => ?_)
      (hinv.not_ended (by simp [hloop]))
    unfold State.pending
    rw [hloop]
    rfl
  | recvEmpty hsender hbatches =>
    refine hinv.rearrange rfl rfl rfl rfl rfl rfl rfl (List.Subset.refl _) (fun tx => ?_) ?_
    · unfold State.pending
      rw [hbatches]
      rfl
    · simp [hsender]
  | recvFlush hsender hbatches hcounter =>
    rename_i batch rest
    have hbatch : IsBatch batch :=
      hqueue.shaped batch (hqueue.batches batch (hbatches ▸ List.mem_cons_self))
    -- the batch is a `Flush` alone: nobody is to be told
    obtain ⟨hdropped, hlength⟩ := assemble_of_isBatch lib hbatch
    have hnone : receipts batch = [] := List.length_eq_zero_iff.mp (hlength.symm.trans hcounter)
    have hemitted : s.emitted.flatten = s.finished ++ (batch ++ rest.flatten) := by
      rw [hqueue.emitted, hsender, hbatches]
      rfl
    have hfinish := SettleInv.finish hqueue hinv hemitted (hnone ▸ List.nil_subset _)
      (by rw [hsender]; rfl) (by rw [hbatches, List.flatten_cons, receipts_append, hnone]; rfl) rfl
    rw [← hsender] at hfinish
    rw [hdropped, List.append_nil]
    exact hfinish
  | recvBatch hsender hbatches hsome =>
    rename_i batch rest
    have hbatch : IsBatch batch :=
      hqueue.shaped batch (hqueue.batches batch (hbatches ▸ List.mem_cons_self))
    rw [(assemble_of_isBatch lib hbatch).1, List.append_nil]
    refine hinv.advance (List.Subset.refl _) (fun tx => ?_) (fun _ _ _ h => by cases h)
      (fun tx receipt h => absurd h List.not_mem_nil) (by rintro (h | h) <;> cases h)
    rw [hsender, hbatches, List.flatten_cons]
    simp only [receipts_append, List.count_append, SenderPc.pending, List.count_nil]
    omega
  | sent hsender =>
    rename_i batch res
    refine hinv.advance (List.subset_append_left _ _) (fun tx => ?_) (fun batch' todo flushTx h => ?_)
      (fun tx receipt h => ?_) (by rintro (h | h) <;> cases h)
    · rw [hsender]
      show (_ ++ ((assemble lib batch).answers res).map Prod.fst).count tx = _
      rw [map_answers]
      rfl
    · obtain ⟨rfl, rfl, rfl⟩ := SenderPc.settling.inj h
      rw [map_answers]
      exact ⟨List.subset_append_right _ _, rfl⟩
    · -- an `Ok` is the broker's answer to this batch
      obtain ⟨answer, i, rfl, hi, hreceipt⟩ := mem_answers h
      refine ⟨batch, answer, i, List.mem_append_right _ (List.mem_singleton.mpr rfl), ?_, hi,
        hreceipt⟩
      have hsome : batch ≠ [] := by
        rintro rfl
        exact absurd hi.symm (Option.some_ne_none tx)
      have hmem := hqueue.sender
      rw [hsender] at hmem
      exact hmem hsome
  | settle hsender =>
    rename_i batch answer todo flushTx
    obtain ⟨tx, res⟩ := answer
    show SettleInv lib { s with
      loop := s.loop
      sender := .settling batch todo flushTx
      settled := s.settled ++ [(tx, res)] }
    refine hinv.tell (fun tx' => ?_) (fun batch' todo' flushTx' h => ?_) (fun tx' receipt h => ?_)
      (by rintro (h | h) <;> cases h)
    · unfold State.pending
      rw [hsender]
      show (_ ++ (tx :: todo.map Prod.fst)).count tx' = _ + (_ ++ todo.map Prod.fst).count tx'
      rw [← List.singleton_append]
      simp only [List.count_append]
      omega
    · obtain ⟨rfl, rfl, rfl⟩ := SenderPc.settling.inj h
      exact hinv.current batch ((tx, res) :: todo) flushTx hsender
    · rw [hsender]
      exact h
  | settled hsender =>
    rename_i batch flushTx
    obtain ⟨hsub, hflush⟩ := hinv.current batch [] flushTx hsender
    have htold : receipts batch ⊆ s.told := by
      rw [List.map_nil, List.append_nil] at hsub
      exact hsub
    have hemitted : s.emitted.flatten = s.finished ++ (batch ++ s.batches.flatten) := by
      rw [hqueue.emitted, hsender]
      rfl
    exact SettleInv.finish hqueue hinv hemitted htold (by rw [hsender]; rfl) rfl (by rw [hflush])
  | closeProducer hsender hbatches hloop =>
    refine hinv.advance (List.Subset.refl _) (fun tx => ?_) (fun _ _ _ h => by cases h)
      (fun tx receipt h => absurd h List.not_mem_nil) fun _ => ⟨hloop, hbatches⟩
    rw [hsender]
    rfl
  | producerClosed hsender =>
    refine hinv.advance (List.Subset.refl _) (fun tx => ?_) (fun _ _ _ h => by cases h)
      (fun tx receipt h => absurd h List.not_mem_nil) fun _ => hinv.ended (Or.inl hsender)
    rw [hsender]
    rfl

theorem settleInv_of_reach (h : (batching lib).Reach s) : QueueInv s ∧ SettleInv lib s := by
  refine Sys.ReachIf.inv (fun s => QueueInv s ∧ SettleInv lib s) ?_ ?_ h
  · rintro s ⟨maxSize, maxByteSize, timeout, rfl⟩
    exact ⟨QueueInv.init maxSize maxByteSize timeout, SettleInv.init maxSize maxByteSize timeout⟩
  · rintro s a s' ⟨hqueue, hinv⟩ - hs
    exact ⟨hqueue.move (step_moves hs), SettleInv.move hqueue hinv (step_moves hs)⟩

/-! ## Coming to rest -/

/-- A step of one of the two tasks, or an answer of the broker. -/
def Action.internal : Action → Bool
  | sendRaw _ => false
  | sendBatch => false
  | close => false
  | _ => true

/-- A bound for the steps that each task takes on its own. -/
def LoopPc.work : LoopPc → Nat
  | receiving => 3
  | flushing => 4
  | closing items => 2 * items.length + 2
  | exited => 0

def SenderPc.work : SenderPc → Nat
  | receiving => 2
  | sending batch => 2 * batch.length + 4
  | settling _ todo _ => todo.length + 3
  | closing => 1
  | exited => 0

def State.work (s : State) : Nat :=
  9 * s.msgs.length + 6 * s.batchStorage.storage.length + s.timer.toNat + s.loop.work +
    (s.batches.map fun batch => 2 * batch.length + 3).sum + s.sender.work

theorem length_answers_le (batch : List BatchItem) (res : Outcome) :
    ((assemble lib batch).answers res).length ≤ batch.length := by
  have hlength : ((assemble lib batch).answers res).length = (receipts batch).length := by
    rw [← map_answers batch res, List.length_map]
  rw [hlength]
  exact List.length_filterMap_le _ _

theorem work_emit_le (hloop : s.loop = .receiving) :
    s.emit.work + 4 * s.batchStorage.storage.length + s.timer.toNat ≤ s.work + 4 := by
  have hemit : s.emit.loop.work ≤ 4 := by
    show (if 1 < s.batches.length + 1 then LoopPc.flushing else s.loop).work ≤ 4
    split
    · exact Nat.le_refl 4
    · rw [hloop]
      decide
  have hwork : s.emit.work = 9 * s.msgs.length + 6 * 0 + 0 + s.emit.loop.work +
    ((s.batches ++ [s.batchStorage.storage]).map fun batch => 2 * batch.length + 3).sum +
      s.sender.work := rfl
  have hthree : s.loop.work = 3 := by
    rw [hloop]
    rfl
  rw [hwork, List.map_append, List.sum_append]
  unfold State.work
  simp only [List.map_cons, List.map_nil, List.sum_cons, List.sum_nil]
  omega

/-- Every step of a task leaves it less to do. -/
theorem work_lt (h : Moves lib s a s') (ha : a.internal = true) : s'.work < s.work := by
  cases h with
  | sendRaw hopen => exact Bool.noConfusion ha
  | sendBatch hopen => exact Bool.noConfusion ha
  | close hopen => exact Bool.noConfusion ha
  | stored hloop hmsgs hflush =>
    rename_i item rest timer
    have hwork : { s.store item rest with timer }.work = 9 * rest.length +
      6 * (s.batchStorage.storage ++ [item]).length + timer.toNat + s.loop.work +
        (s.batches.map fun batch => 2 * batch.length + 3).sum + s.sender.work := rfl
    have htimer := Bool.toNat_le timer
    rw [hwork]
    unfold State.work
    rw [hmsgs, List.length_append]
    simp only [List.length_cons, List.length_nil]
    omega
  | filled hloop hmsgs =>
    rename_i item rest
    have hemit := work_emit_le (s := s.store item rest) hloop
    have hwork : (s.store item rest).work = 9 * rest.length +
      6 * (s.batchStorage.storage ++ [item]).length + s.timer.toNat + s.loop.work +
        (s.batches.map fun batch => 2 * batch.length + 3).sum + s.sender.work := rfl
    have hstorage : (s.store item rest).batchStorage.storage.length =
        s.batchStorage.storage.length + 1 := List.length_append
    have hlength : (s.batchStorage.storage ++ [item]).length = s.batchStorage.storage.length + 1 :=
      List.length_append
    rw [hwork, hstorage, hlength] at hemit
    unfold State.work at hemit ⊢
    rw [hmsgs, List.length_cons]
    omega
  | recvNone hloop hmsgs hclosed =>
    unfold State.work
    rw [hloop]
    simp only [LoopPc.work, BatchStorage.storage_cleared, List.length_nil]
    omega
  | expired hloop htimer hsome =>
    have hemit := work_emit_le hloop
    have hpos := List.length_pos_iff.mpr hsome
    rw [htimer] at hemit
    have htrue : true.toNat = 1 := rfl
    omega
  | idle hloop htimer hstorage =>
    rename_i batchStorage
    have hwork : { s with batchStorage, timer := false }.work = 9 * s.msgs.length +
      6 * batchStorage.storage.length + 0 + s.loop.work +
        (s.batches.map fun batch => 2 * batch.length + 3).sum + s.sender.work := rfl
    have htrue : true.toNat = 1 := rfl
    rw [hwork, hstorage]
    unfold State.work
    rw [htimer]
    omega
  | resume hloop hroom =>
    unfold State.work
    rw [hloop]
    simp only [LoopPc.work]
    omega
  | abandonMessage hloop =>
    unfold State.work
    rw [hloop]
    simp only [LoopPc.work, List.length_cons]
    omega
  | abandonFlush hloop =>
    unfold State.work
    rw [hloop]
    simp only [LoopPc.work, List.length_cons]
    omega
  | exit hloop =>
    unfold State.work
    rw [hloop]
    simp only [LoopPc.work, List.length_nil]
    omega
  | recvEmpty hsender hbatches =>
    unfold State.work
    rw [hbatches]
    simp only [List.map_cons, List.sum_cons]
    omega
  | recvFlush hsender hbatches hcounter =>
    unfold State.work
    rw [hbatches]
    simp only [List.map_cons, List.sum_cons]
    omega
  | recvBatch hsender hbatches hsome =>
    unfold State.work
    rw [hbatches, hsender]
    simp only [List.map_cons, List.sum_cons, SenderPc.work]
    omega
  | sent hsender =>
    rename_i batch res
    have hanswers : ((assemble lib batch).answers res).length ≤ batch.length :=
      length_answers_le batch res
    unfold State.work
    rw [hsender]
    simp only [SenderPc.work]
    omega
  | settle hsender =>
    unfold State.work
    rw [hsender]
    simp only [SenderPc.work, List.length_cons]
    omega
  | settled hsender =>
    unfold State.work
    rw [hsender]
    simp only [SenderPc.work, List.length_nil]
    omega
  | closeProducer hsender hbatches hloop =>
    unfold State.work
    rw [hsender]
    simp only [SenderPc.work]
    omega
  | producerClosed hsender =>
    unfold State.work
    rw [hsender]
    simp only [SenderPc.work]
    omega

/-- The tasks cannot run on forever by themselves. -/
theorem length_le_work (as : List Action) (hinternal : ∀ a ∈ as, a.internal = true)
    (h : (batching lib).exec s as = some s') : as.length ≤ s.work := by
  induction as generalizing s with
  | nil => exact Nat.zero_le _
  | cons a as ih =>
    rw [Sys.exec_cons, Option.bind_eq_some_iff] at h
    obtain ⟨t, ht, hrest⟩ := h
    have hlt := work_lt (step_moves ht) (hinternal a List.mem_cons_self)
    have hle := ih (fun a' ha' => hinternal a' (List.mem_cons_of_mem _ ha')) hrest
    rw [List.length_cons]
    omega

/-- When both tasks are gone, nothing is under way. -/
theorem pending_of_exited (hqueue : QueueInv s) (hinv : SettleInv lib s) (hsender : s.sender = .exited) :
    s.pending = [] := by
  obtain ⟨hloop, hbatches⟩ := hinv.ended (Or.inr hsender)
  obtain ⟨-, hmsgs, hstorage, -⟩ := hqueue.closed (by rw [hloop]; rfl)
  unfold State.pending
  rw [hmsgs, hstorage, hloop, hbatches, hsender]
  rfl

/-- When neither task of a closed producer can move, nothing is under way. -/
theorem pending_of_rest (hqueue : QueueInv s) (hinv : SettleInv lib s) (hclosed : s.closed = true)
    (hrest : ∀ a, a.internal = true → step lib s a = none) : s.pending = [] := by
  -- the sender waits for a batch, or is gone
  have hsender : s.sender = .receiving ∨ s.sender = .exited := by
    cases hpc : s.sender with
    | receiving => exact Or.inl rfl
    | sending batch =>
      have hnone := hrest (.sent (.error .Closed)) rfl
      simp [step, hpc] at hnone
    | settling batch todo flushTx =>
      have hnone := hrest .settle rfl
      cases todo <;> simp [step, hpc] at hnone
    | closing =>
      have hnone := hrest .producerClosed rfl
      simp [step, hpc] at hnone
    | exited => exact Or.inr rfl
  -- so the batch channel is empty, and the loop is not held up by it
  have hbatches : s.batches = [] := by
    rcases hsender with hpc | hpc
    · have hnone := hrest .recvBatch rfl
      cases hb : s.batches with
      | nil => rfl
      | cons batch rest =>
        simp only [step, hpc, hb] at hnone
        split at hnone
        · simp at hnone
        · split at hnone <;> simp at hnone
    · exact (hinv.ended (Or.inr hpc)).2
  have hloop : s.loop = .exited := by
    cases hpc : s.loop with
    | receiving =>
      have hrecv := hrest .recv rfl
      have hrecvNone := hrest .recvNone rfl
      cases hmsgs : s.msgs with
      | nil => simp [step, hpc, hmsgs, hclosed] at hrecvNone
      | cons item rest => simp [step, hpc, hmsgs] at hrecv
    | flushing =>
      have hnone := hrest .resume rfl
      simp [step, hpc, hbatches] at hnone
    | closing items =>
      have hnone := hrest .abandon rfl
      cases items with
      | nil => simp [step, hpc] at hnone
      | cons item rest =>
        cases item with
        | SingleMessage tx message => simp [step, hpc] at hnone
        | Flush tx => simp [step, hpc] at hnone
    | exited => rfl
  obtain ⟨-, hmsgs, hstorage, -⟩ := hqueue.closed (by rw [hloop]; rfl)
  have hsending : s.sender.pending = [] := by
    rcases hsender with hpc | hpc <;> rw [hpc] <;> rfl
  unfold State.pending
  rw [hmsgs, hstorage, hloop, hbatches, hsending]
  rfl

theorem nodup_receipts {items : List BatchItem} {n : Nat}
    (hnumbered : items.map BatchItem.tx = List.range n) : (receipts items).Nodup := by
  have hsub : ∀ items : List BatchItem, (receipts items).Sublist (items.map BatchItem.tx) := by
    intro items
    induction items with
    | nil => exact .slnil
    | cons item items ih =>
      cases item with
      | SingleMessage tx message => exact ih.cons_cons tx
      | Flush tx => exact ih.cons tx
  exact (hnumbered ▸ hsub items).nodup List.nodup_range

end

/-! ## The main result -/

/-- **Every accepted message is settled once, and a flush is a barrier.**

    The messages accepted are those told and those under way, each once; who is told `Ok` is told the
    receipt of the batch it was in, with its own position.  A closed producer comes to rest after so many
    steps of its tasks, and then nothing is under way; nor is it when `close` returns.  And when a
    `Flush` is resolved, which is when `send_batch` returns, every message before it has been told. -/
theorem flush_is_a_barrier (lib : Libraries) (s : State) (h : (batching lib).Reach s) :
    ((s.told ++ s.pending).Perm (receipts s.queued) ∧ (receipts s.queued).Nodup) ∧
    (∀ tx receipt, (tx, .ok receipt) ∈ s.settled → ReceiptOf lib s tx receipt) ∧
    (∀ as s', (∀ a ∈ as, a.internal = true) → (batching lib).exec s as = some s' →
      as.length ≤ s.work) ∧
    (s.closed = true → (∀ a, a.internal = true → step lib s a = none) → s.pending = []) ∧
    (s.sender = .exited → s.pending = []) ∧
    ∀ before f after, s.queued = before ++ .Flush f :: after → f ∈ s.resolved →
      ∀ tx ∈ receipts before, tx ∈ s.told := by
  obtain ⟨hqueue, hinv⟩ := settleInv_of_reach h
  refine ⟨⟨?_, nodup_receipts hinv.numbered⟩, fun tx receipt hmem => ?_,
    fun as s' => length_le_work as, pending_of_rest hqueue hinv, pending_of_exited hqueue hinv, ?_⟩
  · rw [List.perm_iff_count]
    intro tx
    rw [List.count_append]
    exact hinv.conserved tx
  · exact hinv.ok tx receipt (List.mem_append_left _ hmem)
  · intro before f after hbefore hf tx htx
    have hmem : tx ∈ receipts s.queued := by
      rw [hbefore, receipts_append]
      exact List.mem_append_left _ htx
    have hsorted : ((before ++ .Flush f :: after).map BatchItem.tx).Pairwise (· < ·) :=
      hbefore ▸ hinv.numbered ▸ List.pairwise_lt_range
    rw [List.map_append, List.map_cons] at hsorted
    obtain ⟨message, hin⟩ := mem_receipts.mp htx
    have hlt : tx < f :=
      (List.pairwise_append.mp hsorted).2.2 _ (List.mem_map_of_mem hin) _ List.mem_cons_self
    exact hinv.barrier f hf tx hmem hlt

/-- Two messages and a flush, the second message behind it: the flush returns when the first is
    settled, with its receipt, and the second is still queued. -/
theorem flush_is_a_barrier_between : ∃ s : State, s.resolved = [1] ∧ s.told = [0] ∧
    s.pending = [2] ∧ (s.told ++ s.pending).Perm (receipts s.queued) := by
  obtain ⟨s, hreach, hs⟩ : ∃ s, (batching threeLibraries).Reach s ∧
      decide (s.resolved = [1] ∧ s.told = [0] ∧ s.pending = [2]) = true :=
    Sys.exists_reach_of_exec (S := batching threeLibraries) ⟨some 10, none, none, rfl⟩
      [.sendRaw hi.batched, .sendBatch, .sendRaw empty.batched, .recv, .recv, .recvBatch,
        .sent (.ok { producerId := 0, sequenceId := 8 }), .settle, .settle]
      (by decide +kernel)
  obtain ⟨hresolved, htold, hpending⟩ := of_decide_eq_true hs
  exact ⟨s, hresolved, htold, hpending, (flush_is_a_barrier threeLibraries s hreach).1.1⟩

end PulsarClient.Batching
