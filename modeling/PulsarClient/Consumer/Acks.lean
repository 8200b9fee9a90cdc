/-
  WHAT THE BROKER TAKES AS ACKNOWLEDGED, and what the application acknowledged.

  An entry may hold many messages; their ids differ in `batch_index` only.  An ack that carries an
  `ack_set` spares the messages whose bits are set; an ack without one is for the WHOLE entry.  The
  engine sends the id as the application gave it — the iterator fills in `batch_index` and
  `batch_size`, never an `ack_set` — so the ack of one message of a batch is the ack of all of them.

  1. `acknowledges` is the broker's reading of a sent ack, `asksFor` the application's of the id it
     acknowledged; both for one message of the topic (`Position`).

  2. `Pending` — every ack on its way to the connection was asked for, or follows a dead-letter
     receipt.  So an ack can only do harm WITHIN its entry: entries before a cumulative ack were asked
     for too.

  3. `acked_justified_iff` — a run stays sound exactly when each ack, at the moment it goes out,
     finds every other message of its entry that it covers acknowledged or dead-lettered already.

  4. `sibling_acknowledged` — a batch of two of which the application read and acknowledged the first.
-/
import PulsarClient.Consumer.Engine

namespace PulsarClient.Consumer

open Runs Proto

/-! ## Messages of the topic -/

/-- A message of the topic: its entry, and its place in the entry. -/
structure Position where
  ledgerId : Nat
  entryId : Nat
  index : Nat
  deriving DecidableEq, Repr

/-- The `batch_index` of an id; a negative one is the same as none. -/
def indexOf (id : MessageIdData) : Option Nat :=
  match id.batchIndex with
  | some (.ofNat i) => some i
  | _ => none

/-- The id is one of the message's entry. -/
def sameEntry (id : MessageIdData) (p : Position) : Bool :=
  id.ledgerId == p.ledgerId && id.entryId == p.entryId

/-- The message is in an entry before the id's. -/
def earlierEntry (id : MessageIdData) (p : Position) : Bool :=
  decide (p.ledgerId < id.ledgerId) || (p.ledgerId == id.ledgerId && decide (p.entryId < id.entryId))

/-- What an application asks for that acknowledges this id: the message with its index (all of the
    entry if it has none), and, cumulatively, all before it. -/
def asksFor (id : MessageIdData) (cumulative : Bool) (p : Position) : Bool :=
  sameEntry id p &&
    (match indexOf id with
      | none => true
      | some i => p.index == i || cumulative && decide (p.index < i)) ||
  cumulative && earlierEntry id p

/-! ## The broker -/

/-- A bit of an `ack_set`, a bit set in words of 64; a set bit is a message to keep. -/
def keeps (ackSet : List Int) (i : Nat) : Bool :=
  decide ((ackSet.getD (i / 64) 0 / 2 ^ (i % 64)) % 2 = 1)

/-- An ack with this `ack_set` is for the message at `i` of its entry. -/
def covers (ackSet : List Int) (i : Nat) : Bool := ackSet.isEmpty || !keeps ackSet i

/-- What the broker takes as acknowledged because of a `CommandAck`. -/
def acknowledges (id : MessageIdData) (cumulative : Bool) (p : Position) : Bool :=
  sameEntry id p && covers id.ackSet p.index || cumulative && earlierEntry id p

def Command.acknowledges (p : Position) : Command → Bool
  | .ack messageId cumulative => Consumer.acknowledges messageId cumulative p
  | _ => false

/-- The broker considers the message acknowledged. -/
def brokerAcked (s : State) (p : Position) : Bool := s.sent.any (Command.acknowledges p)

/-! ## What may be acknowledged -/

/-- The application acknowledged the message, or its dead-letter publish returned a receipt. -/
def justified (s : State) (p : Position) : Bool :=
  (s.acked.any fun a => asksFor a.1 a.2 p) || s.deadLettered.any fun id => asksFor id false p

/-- Of a topic whose entries have the given sizes, the broker considers no message acknowledged
    without a reason. -/
def OnlyJustified (size : Nat → Nat → Nat) (s : State) : Prop :=
  ∀ p : Position, p.index < size p.ledgerId p.entryId → brokerAcked s p = true →
    justified s p = true

/-- The messages of an id's entry. -/
def entryOf (size : Nat → Nat → Nat) (id : MessageIdData) : List Position :=
  (List.range (size id.ledgerId id.entryId)).map fun index =>
    { ledgerId := id.ledgerId, entryId := id.entryId, index }

/-- When an ack goes out, each message of its entry that it covers is asked for by this id, or is
    acknowledged or dead-lettered already. -/
def siblingsSettled (size : Nat → Nat → Nat) (s : State) : Action → Bool
  | .sent true =>
    match s.pc with
    | .acking messageId cumulative _ =>
      (entryOf size messageId).all fun p =>
        !covers messageId.ackSet p.index || asksFor messageId cumulative p || justified s p
    | _ => true
  | _ => true

/-! ## Acks on their way -/

/-- Every ack that has not been sent yet was asked for, or follows a dead-letter receipt. -/
structure Pending (s : State) : Prop where
  queued : ∀ id cumulative, .Ack id cumulative ∈ s.requests → (id, cumulative) ∈ s.acked
  forwarded : ∀ id cumulative, .EngineMessage (some (.Ack id cumulative)) ∈ s.events →
    (id, cumulative) ∈ s.acked
  sending : ∀ id cumulative resume, s.pc = .acking id cumulative resume →
    (id, cumulative) ∈ s.acked ∨ cumulative = false ∧ id ∈ s.deadLettered

/-- A step that starts no ack, sends none and logs none.  It may forward one. -/
structure Quiet (s s' : State) : Prop where
  queued : ∀ id cumulative, .Ack id cumulative ∈ s'.requests → .Ack id cumulative ∈ s.requests
  forwarded : ∀ id cumulative, .EngineMessage (some (.Ack id cumulative)) ∈ s'.events →
    .EngineMessage (some (.Ack id cumulative)) ∈ s.events ∨ .Ack id cumulative ∈ s.requests
  sending : ∀ id cumulative resume, s'.pc = .acking id cumulative resume →
    s.pc = .acking id cumulative resume
  acked : s'.acked = s.acked
  deadLettered : s'.deadLettered = s.deadLettered
  brokerAcked : ∀ p, brokerAcked s' p = brokerAcked s p

section

variable {c : Config} {s s' : State}

theorem brokerAcked_concat {p : Position} {cmd : Command} (h : s'.sent = s.sent ++ [cmd]) :
    brokerAcked s' p = (brokerAcked s p || cmd.acknowledges p) := by
  simp only [brokerAcked, h, List.any_append, List.any_cons, List.any_nil, Bool.or_false]

theorem brokerAcked_congr (h : s'.sent = s.sent) (p : Position) :
    brokerAcked s' p = brokerAcked s p := by
  rw [brokerAcked, h, brokerAcked]

theorem justified_congr (hacked : s'.acked = s.acked) (hdl : s'.deadLettered = s.deadLettered)
    (p : Position) : justified s' p = justified s p := by
  rw [justified, hacked, hdl, justified]

/-- Reasons do not go away. -/
theorem justified_mono (hacked : s.acked ⊆ s'.acked) (hdl : s.deadLettered ⊆ s'.deadLettered)
    {p : Position} (h : justified s p = true) : justified s' p = true := by
  simp only [justified, Bool.or_eq_true, List.any_eq_true] at h ⊢
  rcases h with ⟨a, ha, hp⟩ | ⟨id, hid, hp⟩
  · exact Or.inl ⟨a, hacked ha, hp⟩
  · exact Or.inr ⟨id, hdl hid, hp⟩

theorem Quiet.same (hreq : s'.requests = s.requests) (hev : s'.events = s.events)
    (hsent : s'.sent = s.sent) (hacked : s'.acked = s.acked)
    (hdl : s'.deadLettered = s.deadLettered)
    (hpc : ∀ id cumulative resume, s'.pc = .acking id cumulative resume →
      s.pc = .acking id cumulative resume) : Quiet s s' := by
  refine ⟨fun id cumulative hmem => ?_, fun id cumulative hmem => Or.inl ?_, hpc, hacked, hdl,
    brokerAcked_congr hsent⟩
  · rw [hreq] at hmem
    exact hmem
  · rw [hev] at hmem
    exact hmem

theorem Quiet.of_local (h : Local s s') : Quiet s s' :=
  .same h.requests h.events h.sent h.acked h.deadLettered
    fun id cumulative resume hpc => absurd hpc (h.noAck id cumulative resume)

/-- The application asks for something that is no ack. -/
theorem Quiet.request {r : EngineMessage} (hr : ∀ id cumulative, .Ack id cumulative ≠ r)
    (hreq : s'.requests = s.requests ++ [r]) (hev : s'.events = s.events) (hsent : s'.sent = s.sent)
    (hacked : s'.acked = s.acked) (hdl : s'.deadLettered = s.deadLettered) (hpc : s'.pc = s.pc) :
    Quiet s s' := by
  refine ⟨fun id cumulative hmem => ?_, fun id cumulative hmem => Or.inl ?_,
    fun id cumulative resume hack => hpc.symm.trans hack, hacked, hdl, brokerAcked_congr hsent⟩
  · rw [hreq] at hmem
    rcases List.mem_append.mp hmem with hold | hnew
    · exact hold
    · exact absurd (List.mem_singleton.mp hnew) (hr id cumulative)
  · rw [hev] at hmem
    exact hmem

/-- The engine takes an event, and that is quiet. -/
theorem Quiet.tail {e : Event} {rest : List Event} (hev : s.events = e :: rest)
    (h : Quiet { s with events := rest } s') : Quiet s s' := by
  refine ⟨h.queued, fun id cumulative hmem => ?_, h.sending, h.acked, h.deadLettered, h.brokerAcked⟩
  rcases h.forwarded id cumulative hmem with hrest | hreq
  · rw [hev]
    exact Or.inl (List.mem_cons_of_mem e hrest)
  · exact Or.inr hreq

end

/-- What a step does to the acks. -/
inductive AckStep (s : State) : Action → State → Prop where
  | quiet {a s'} (h : Quiet s s') (ha : ∀ size, siblingsSettled size s a = true) : AckStep s a s'
  | asked {id cumulative} :
    AckStep s (.ack id cumulative)
      { s with
        requests := s.requests ++ [.Ack id cumulative]
        acked := s.acked ++ [(id, cumulative)] }
  | taken {id cumulative rest unackedMessages}
    (hev : s.events = .EngineMessage (some (.Ack id cumulative)) :: rest) :
    AckStep s .next
      { s with events := rest, unackedMessages, pc := .acking id cumulative .top }
  | published {id redeliveryCount rest unackedMessages} :
    AckStep s (.published none)
      { s with
        deadLettered := s.deadLettered ++ [id]
        unackedMessages
        pc := .acking id false (.payload redeliveryCount rest) }
  | sent {id cumulative resume} (hpc : s.pc = .acking id cumulative resume) :
    AckStep s (.sent true)
      { s with sent := s.sent ++ [.ack id cumulative], pc := resume.pc }

/-- Taking an event. -/
theorem ackStep_next {c : Config} {s s' : State} {e : Event} {rest : List Event}
    (hev : s.events = e :: rest) (h : Handles c { s with events := rest } e s') :
    AckStep s .next s' := by
  cases e with
  | Message m => exact .quiet (.tail hev (.of_local (local_handle h))) fun _ => rfl
  | EngineMessage m =>
    cases h with
    | ack => exact .taken hev
    | _ =>
      refine .quiet (.tail hev (.same rfl rfl rfl rfl rfl ?_)) fun _ => rfl
      exact fun _ _ _ hpc => Pc.noConfusion hpc

/-- **The step inversion.** -/
theorem ackStep {c : Config} {s s' : State} {a : Action} (hs : step c s a = some s') :
    AckStep s a s' := by
  -- the engine goes on where no ack is being sent
  have hmove : ∀ {p : Pc} {s' : State}, s'.requests = s.requests → s'.events = s.events →
      s'.sent = s.sent → s'.acked = s.acked → s'.deadLettered = s.deadLettered → s'.pc = p →
      (∀ id cumulative resume, p ≠ .acking id cumulative resume) → Quiet s s' := by
    intro p s' hreq hev hsent hacked hdl hpc hne
    refine .same hreq hev hsent hacked hdl fun id cumulative resume hack => ?_
    exact absurd (hpc.symm.trans hack) (hne id cumulative resume)
  cases step_moves hs with
  | arrive =>
    refine .quiet ⟨fun _ _ h => h, fun id cumulative h => Or.inl ?_, fun _ _ _ h => h, rfl, rfl,
      fun _ => rfl⟩ fun _ => rfl
    rcases List.mem_append.mp h with h | h
    · exact h
    · exact absurd (List.mem_singleton.mp h) Event.noConfusion
  | forward hreq =>
    rename_i r rest
    refine .quiet ⟨fun id cumulative h => ?_, fun id cumulative h => ?_, fun _ _ _ h => h, rfl, rfl,
      fun _ => rfl⟩ fun _ => rfl
    · rw [hreq]
      exact List.mem_cons_of_mem r h
    · rcases List.mem_append.mp h with h | h
      · exact Or.inl h
      · right
        have hr : EngineMessage.Ack id cumulative = r := by
          simpa only [List.mem_singleton, Event.EngineMessage.injEq, Option.some.injEq] using h
        rw [hreq, hr]
        exact List.mem_cons_self
  | forwardEnd =>
    refine .quiet ⟨fun _ _ h => h, fun id cumulative h => Or.inl ?_, fun _ _ _ h => h, rfl, rfl,
      fun _ => rfl⟩ fun _ => rfl
    rcases List.mem_append.mp h with h | h
    · exact h
    · simp only [List.mem_singleton, Event.EngineMessage.injEq, reduceCtorEq] at h
  | top hpc =>
    rename_i lost
    refine .quiet (hmove rfl rfl rfl rfl rfl rfl ?_) fun _ => rfl
    cases lost with
    | true => exact fun _ _ _ => Pc.noConfusion
    | false => exact fun _ _ _ => Pc.noConfusion
  | reconnected hpc =>
    rename_i closed
    refine .quiet (hmove rfl rfl rfl rfl rfl rfl ?_) fun _ => rfl
    cases closed with
    | true => exact fun _ _ _ => Pc.noConfusion
    | false => exact fun _ _ _ => Pc.noConfusion
  | stopped =>
    exact .quiet (hmove rfl rfl rfl rfl rfl rfl fun _ _ _ => Pc.noConfusion) fun _ => rfl
  | reported => exact .quiet (.of_local (local_push s _ _)) fun _ => rfl
  | granted =>
    -- permits acknowledge nothing
    refine .quiet ⟨fun _ _ h => h, fun _ _ h => Or.inl h, fun _ _ _ h => Pc.noConfusion h, rfl,
      rfl, fun p => ?_⟩ fun _ => rfl
    rw [brokerAcked_concat rfl]
    exact Bool.or_false _
  | refused hpc hwants hpc' =>
    refine .quiet (hmove rfl rfl rfl rfl rfl rfl fun id cumulative resume => ?_) fun _ => rfl
    rcases hpc' with rfl | rfl
    · exact Pc.noConfusion
    · exact Pc.noConfusion
  | enough =>
    exact .quiet (hmove rfl rfl rfl rfl rfl rfl fun _ _ _ => Pc.noConfusion) fun _ => rfl
  | timeout =>
    exact .quiet (hmove rfl rfl rfl rfl rfl rfl fun _ _ _ => Pc.noConfusion) fun _ => rfl
  | next hpc hev => exact ackStep_next hev (handle_cases _ _ _)
  | item => exact .quiet (.of_local (local_item s _ _)) fun _ => rfl
  | published => exact .published
  | unpublished => exact .quiet (.of_local (local_push s _ _)) fun _ => rfl
  | acked hpc =>
    rename_i resume ok
    cases ok with
    | true => exact .sent hpc
    | false => exact .quiet (hmove rfl rfl rfl rfl rfl rfl resume.pc_ne_acking) fun _ => rfl
  | asked hpc =>
    rename_i ok
    cases ok with
    | true =>
      refine .quiet ⟨fun _ _ h => h, fun _ _ h => Or.inl h, fun _ _ _ h => Pc.noConfusion h, rfl,
        rfl, fun p => ?_⟩ fun size => ?_
      · rw [brokerAcked_concat rfl]
        exact Bool.or_false _
      · simp only [siblingsSettled, hpc]
    | false =>
      exact .quiet (hmove rfl rfl rfl rfl rfl rfl fun _ _ _ => Pc.noConfusion) fun _ => rfl
  | unparked hwaiting hdropped hmessages hpc =>
    rename_i resume
    exact .quiet (hmove rfl rfl rfl rfl rfl rfl resume.pc_ne_acking) fun _ => rfl
  | read => exact .quiet (.same rfl rfl rfl rfl rfl fun _ _ _ h => h) fun _ => rfl
  | ack => exact .asked
  | nack =>
    exact .quiet (.request (fun _ _ => EngineMessage.noConfusion) rfl rfl rfl rfl rfl rfl) fun _ => rfl
  | getConnection =>
    exact .quiet (.request (fun _ _ => EngineMessage.noConfusion) rfl rfl rfl rfl rfl rfl) fun _ => rfl
  | dropRequest => exact .quiet (.same rfl rfl rfl rfl rfl fun _ _ _ h => h) fun _ => rfl
  | released hwaiting hdropped hpc =>
    rename_i resume
    exact .quiet (hmove rfl rfl rfl rfl rfl rfl resume.pc_ne_acking) fun _ => rfl
  | dropConsumer => exact .quiet (.same rfl rfl rfl rfl rfl fun _ _ _ h => h) fun _ => rfl
  | tick =>
    exact .quiet (.request (fun _ _ => EngineMessage.noConfusion) rfl rfl rfl rfl rfl rfl) fun _ => rfl
  | clock => exact .quiet (.same rfl rfl rfl rfl rfl fun _ _ _ h => h) fun _ => rfl

/-! ## One step -/

/-- Nothing is under way at first. -/
theorem pending_init (n : Int) : Pending { remainingMessages := n } := by
  refine ⟨fun id cumulative hmem => ?_, fun id cumulative hmem => ?_, fun id cumulative resume hpc => ?_⟩
  · exact absurd hmem List.not_mem_nil
  · exact absurd hmem List.not_mem_nil
  · exact Pc.noConfusion hpc

theorem Pending.quiet {s s' : State} (h : Pending s) (hq : Quiet s s') : Pending s' := by
  constructor
  · intro id cumulative hmem
    rw [hq.acked]
    exact h.queued id cumulative (hq.queued id cumulative hmem)
  · intro id cumulative hmem
    rw [hq.acked]
    rcases hq.forwarded id cumulative hmem with hev | hreq
    · exact h.forwarded id cumulative hev
    · exact h.queued id cumulative hreq
  · intro id cumulative resume hpc
    rw [hq.acked, hq.deadLettered]
    exact h.sending id cumulative resume (hq.sending id cumulative resume hpc)

theorem Pending.step {c : Config} {s s' : State} {a : Action} (h : Pending s)
    (hs : Consumer.step c s a = some s') : Pending s' := by
  cases ackStep hs with
  | quiet hq _ => exact h.quiet hq
  | asked =>
    constructor
    · intro id cumulative hmem
      rcases List.mem_append.mp hmem with hold | hnew
      · exact List.mem_append_left _ (h.queued id cumulative hold)
      · simp only [List.mem_singleton, EngineMessage.Ack.injEq] at hnew
        obtain ⟨rfl, rfl⟩ := hnew
        exact List.mem_append_right _ (List.mem_singleton_self _)
    · intro id cumulative hmem
      exact List.mem_append_left _ (h.forwarded id cumulative hmem)
    · intro id cumulative resume hpc
      rcases h.sending id cumulative resume hpc with hacked | hdl
      · exact Or.inl (List.mem_append_left _ hacked)
      · exact Or.inr hdl
  | taken hev =>
    constructor
    · exact h.queued
    · intro id cumulative hmem
      apply h.forwarded
      rw [hev]
      exact List.mem_cons_of_mem _ hmem
    · intro id cumulative resume hpc
      simp only [Pc.acking.injEq] at hpc
      obtain ⟨rfl, rfl, -⟩ := hpc
      left
      apply h.forwarded
      rw [hev]
      exact List.mem_cons_self
  | published =>
    constructor
    · exact h.queued
    · exact h.forwarded
    · intro id cumulative resume hpc
      simp only [Pc.acking.injEq] at hpc
      obtain ⟨rfl, rfl, -⟩ := hpc
      exact Or.inr ⟨rfl, List.mem_append_right _ (List.mem_singleton_self _)⟩
  | sent hpc =>
    constructor
    · exact h.queued
    · exact h.forwarded
    · intro id cumulative resume hack
      exact absurd hack (Resume.pc_ne_acking _ id cumulative resume)

/-- What the ack that goes out asks for has its reason. -/
theorem Pending.justified {s : State} (h : Pending s) {id : MessageIdData} {cumulative : Bool}
    {resume : Resume} (hpc : s.pc = .acking id cumulative resume) {p : Position}
    (hp : asksFor id cumulative p = true) : justified s p = true := by
  rw [Consumer.justified, Bool.or_eq_true, List.any_eq_true, List.any_eq_true]
  rcases h.sending id cumulative resume hpc with hacked | ⟨rfl, hdl⟩
  · exact Or.inl ⟨(id, cumulative), hacked, hp⟩
  · exact Or.inr ⟨id, hdl, hp⟩

/-- An ack asks for all of the entries before its own that it acknowledges. -/
theorem asksFor_of_earlier {id : MessageIdData} {cumulative : Bool} {p : Position}
    (h : (cumulative && earlierEntry id p) = true) : asksFor id cumulative p = true := by
  rw [asksFor, h, Bool.or_true]

theorem mem_entryOf {size : Nat → Nat → Nat} {id : MessageIdData} {p : Position} :
    p ∈ entryOf size id ↔ sameEntry id p = true ∧ p.index < size p.ledgerId p.entryId := by
  obtain ⟨ledgerId, entryId, index⟩ := p
  simp only [entryOf, sameEntry, List.mem_map, List.mem_range, Position.mk.injEq, Bool.and_eq_true,
    beq_iff_eq]
  constructor
  · rintro ⟨i, hi, rfl, rfl, rfl⟩
    exact ⟨⟨rfl, rfl⟩, hi⟩
  · rintro ⟨⟨rfl, rfl⟩, hi⟩
    exact ⟨index, hi, rfl, rfl, rfl⟩

/-- An ack goes out: what it covers in its own entry decides. -/
theorem siblingsSettled_iff {size : Nat → Nat → Nat} {s : State} (h : Pending s)
    {id : MessageIdData} {cumulative : Bool} {resume : Resume}
    (hpc : s.pc = .acking id cumulative resume) :
    siblingsSettled size s (.sent true) = true ↔
      ∀ p : Position, p.index < size p.ledgerId p.entryId → acknowledges id cumulative p = true →
        justified s p = true := by
  simp only [siblingsSettled, hpc, List.all_eq_true, Bool.or_eq_true, Bool.not_eq_true']
  constructor
  · intro hall p hindex hack
    rw [acknowledges, Bool.or_eq_true, Bool.and_eq_true] at hack
    rcases hack with ⟨hsame, hcovers⟩ | hearlier
    · rcases hall p (mem_entryOf.mpr ⟨hsame, hindex⟩) with (hnot | hasks) | hj
      · rw [hnot] at hcovers
        exact absurd hcovers Bool.false_ne_true
      · exact h.justified hpc hasks
      · exact hj
    · exact h.justified hpc (asksFor_of_earlier hearlier)
  · intro hall p hmem
    obtain ⟨hsame, hindex⟩ := mem_entryOf.mp hmem
    cases hcovers : covers id.ackSet p.index with
    | false => exact Or.inl (Or.inl rfl)
    | true =>
      refine Or.inr (hall p hindex ?_)
      rw [acknowledges, hsame, hcovers, Bool.and_true, Bool.true_or]

/-- **The step lemma.**  A step keeps the acknowledgements justified exactly when the siblings of the
    ack that goes out are settled. -/
theorem onlyJustified_step_iff {c : Config} {size : Nat → Nat → Nat} {s s' : State} {a : Action}
    (hpending : Pending s) (hj : OnlyJustified size s) (hs : step c s a = some s') :
    OnlyJustified size s' ↔ siblingsSettled size s a = true := by
  -- more reasons, and the same acks
  have hkeep : s.acked ⊆ s'.acked → s.deadLettered ⊆ s'.deadLettered →
      (∀ p, brokerAcked s' p = brokerAcked s p) → OnlyJustified size s' := by
    intro hacked hdl hbroker p hindex hack
    rw [hbroker] at hack
    exact justified_mono hacked hdl (hj p hindex hack)
  cases ackStep hs with
  | quiet hq ha =>
    refine iff_of_true ?_ (ha size)
    intro p hindex hack
    rw [hq.brokerAcked] at hack
    rw [justified_congr hq.acked hq.deadLettered]
    exact hj p hindex hack
  | asked =>
    exact iff_of_true (hkeep (List.subset_append_left _ _) (List.Subset.refl _) fun _ => rfl) rfl
  | taken hev =>
    exact iff_of_true (hkeep (List.Subset.refl _) (List.Subset.refl _) fun _ => rfl) rfl
  | published =>
    exact iff_of_true (hkeep (List.Subset.refl _) (List.subset_append_left _ _) fun _ => rfl) rfl
  | sent hpc =>
    rename_i id cumulative resume
    rw [siblingsSettled_iff hpending hpc]
    have hsame : ∀ p, justified { s with
        sent := s.sent ++ [.ack id cumulative], pc := resume.pc } p = justified s p :=
      fun p => rfl
    constructor
    · intro hj' p hindex hack
      rw [← hsame p]
      apply hj' p hindex
      rw [brokerAcked_concat rfl, Bool.or_eq_true]
      exact Or.inr hack
    · intro hall p hindex hack
      rw [brokerAcked_concat rfl, Bool.or_eq_true] at hack
      rw [hsame p]
      rcases hack with hold | hnew
      · exact hj p hindex hold
      · exact hall p hindex hnew

/-! ## The main result -/

/-- **Headline.**  A run of a consumer — over entries of any size, with any mix of acks, cumulative
    acks and dead-letterings — keeps what the broker considers acknowledged within what the
    application acknowledged or dead-lettered exactly when every ack that goes out finds the other
    messages of its entry settled. -/
theorem acked_justified_iff (c : Config) (size : Nat → Nat → Nat) (as : List Action) :
    (consumer c).Along (OnlyJustified size) { remainingMessages := c.batchSize } as ↔
      (consumer c).Guarded (fun s a => siblingsSettled size s a = true)
        { remainingMessages := c.batchSize } as := by
  apply Sys.along_iff_guarded (I := Pending)
  · exact fun _ _ _ hp hs => hp.step hs
  · exact fun _ _ _ hp hj hs => onlyJustified_step_iff hp hj hs
  · exact pending_init c.batchSize
  · intro p _ hack
    exact absurd hack Bool.false_ne_true

/-- An entry of two messages of one byte each, as the broker delivers it. -/
def pair : PulsarClient.Message where
  command := { message := some { consumerId := 0, messageId := { ledgerId := 1, entryId := 0 } } }
  payload := some
    { metadata := { numMessagesInBatch := some 2 }
      data := [0, 0, 0, 2, 24, 1, 7, 0, 0, 0, 2, 24, 1, 8] }

/-- The metadata that say nothing but the size of a payload: field 3, and a varint of one byte. -/
def decodePayloadSize : Bytes → Option SingleMessageMetadata
  | [24, size] => if size < 128 then some { payloadSize := size.toNat } else none
  | _ => none

/-- A consumer of entries whose messages have such metadata. -/
def bytewise : Config where
  codecs :=
    { decodeSingleMessageMetadata := decodePayloadSize
      decompress := fun _ _ b => .ok b }

/-- The application reads the first message of a batch of two and acknowledges it; the second, still
    in the channel, is acknowledged with it. -/
theorem sibling_acknowledged :
    ¬ ∀ (c : Config) (size : Nat → Nat → Nat) (s : State), (consumer c).Reach s →
      OnlyJustified size s := by
  intro hall
  obtain ⟨s, hs, hp⟩ := Sys.exists_reach_of_exec (S := consumer bytewise)
    (p := fun s => brokerAcked s { ledgerId := 1, entryId := 0, index := 1 } &&
      !justified s { ledgerId := 1, entryId := 0, index := 1 }) (s := { remainingMessages := 1000 }) rfl
    [.arrive (some pair), .top false, .flow none, .next, .item, .item, .item, .read,
      .ack { ledgerId := 1, entryId := 0, batchIndex := some 0, batchSize := some 2 } false, .forward,
      .top false, .flow none, .next, .sent true] (by decide +kernel)
  simp only [Bool.and_eq_true, Bool.not_eq_true'] at hp
  have hj := hall bytewise (fun _ _ => 2) s hs { ledgerId := 1, entryId := 0, index := 1 }
    (by decide) hp.1
  rw [hp.2] at hj
  exact absurd hj Bool.false_ne_true

end PulsarClient.Consumer
