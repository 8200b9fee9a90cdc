/-
  The `Send` commands of one producer on the outbound channels: their SEQUENCE IDS.

  `send_message` draws a new id for every attempt, and an attempt can fail before or while it waits for
  the channel.  The broker drops what is not greater than the last id it has seen.

  1. THE CHANNELS — `send_message_non_blocking` registers for the receipt, then enqueues.  What fails
     fails before the channel has taken anything.

  2. The SYSTEM (`wire`): the sending task of `producer`, step by step, and the channels.  It keeps the
     list of what the channels took, in order, with the number of the call of `send_message` it was for.

  3. `sequence_ids_increase` — as long as `SerialId` does not wrap around, the ids increase, on every
     channel and across them; and a call gets at most one `Send` onto any channel, in any case.

  4. `ids_start_over` — `SerialId` is an `AtomicUsize`: after 2^usize::BITS draws it is 0 again.
-/
import Mathlib.Algebra.Group.Nat.Defs
import PulsarClient.Producer.SendMessage

namespace PulsarClient.Producer

open Runs

/-! ## The channels -/

/-- `SerialId::get`, drawn `drawn` times before: `fetch_add` wraps around on overflow. -/
def SerialId.get (bits drawn : Nat) : Nat := drawn % 2 ^ bits

/-- The outbound side of a connection, apart from whether the data channel is closed
    (`State.down`). -/
structure Outbound where
  registrationsClosed : Bool := false
  /-- the data channel, which all producers of the connection share, has no room -/
  full : Bool := false
  deriving DecidableEq, Repr

/-- What becomes of a message handed to the data channel. -/
inductive Enqueued where
  | accepted
  /-- `send(msg).await` is pending -/
  | waits
  | refused (e : ConnectionError)
  deriving DecidableEq, Repr

/-- `SendChannel::DataBlocking`, and `DataTrySend`. -/
def enqueue (o : Outbound) (dataClosed blockIfQueueFull : Bool) : Enqueued :=
  if dataClosed then .refused .Disconnected
  else if o.full then
    if blockIfQueueFull then .waits else .refused .SlowDown
  else .accepted

/-- A `CommandSend` that a data channel took. -/
structure Sent where
  conn : Nat
  sequenceId : Nat
  message : ProducerMessage
  /-- not in the command: the number of the call of `send_message` -/
  call : Nat
  deriving DecidableEq, Repr

/-! ## The system -/

/-- The producer, and what is on the wire of it. -/
structure Wire where
  producer : State := {}
  outbound : Nat → Outbound := fun _ => {}
  /-- `Register::Request` is sent -/
  registered : Bool := false
  /-- the messages `send_message` was called with -/
  calls : List ProducerMessage := []
  /-- what the data channels took, in order -/
  sent : List Sent := []

/-- What the channel of one connection took, in order. -/
def Wire.channel (w : Wire) (conn : Nat) : List Sent := w.sent.filter fun e => e.conn = conn

inductive WireAction where
  /-- a step of the task or of the handle that is not a send -/
  | task (a : Action)
  /-- `registrations.unbounded_send` -/
  | register
  /-- `data_tx.send(msg).await`, `data_tx.try_send(msg)` -/
  | enqueue
  | endReceiver (conn : Nat)
  | fill (conn : Nat) (full : Bool)

/-- `send_message` was called by this step, with a message that compresses. -/
def calledWith (a : Action) (s' : State) : List ProducerMessage :=
  match a, s'.pc with
  | .sendRaw _, .check message => [message]
  | .batch _ _, .check message => [message]
  | _, _ => []

/-- `send_message_non_blocking` and what is around it.  `bits` is `usize::BITS`. -/
def wireStep (bits : Nat) (c : Config) (w : Wire) : WireAction → Option Wire
  | .task (.sent _) => none
  | .task a =>
    (step c w.producer a).map fun s' =>
      { w with
        producer := s'
        registered := !decide (a matches .check) && w.registered
        calls := w.calls ++ calledWith a s' }
  | .register =>
    match w.producer.pc with
    | .sending _ _ =>
      if w.registered then none
      else if (w.outbound w.producer.connection).registrationsClosed then
        (step c w.producer (.sent (some .Disconnected))).map fun s' => { w with producer := s' }
      else some { w with registered := true }
    | _ => none
  | .enqueue =>
    match w.producer.pc with
    | .sending drawn message =>
      if w.registered then
        match enqueue (w.outbound w.producer.connection) (w.producer.down w.producer.connection)
            c.options.blockQueueIfFull with
        | .waits => none
        | .refused e =>
          (step c w.producer (.sent (some e))).map fun s' => { w with producer := s' }
        | .accepted =>
          (step c w.producer (.sent none)).map fun s' =>
            { w with
              producer := s'
              sent := w.sent ++
                [{ conn := w.producer.connection, sequenceId := SerialId.get bits drawn, message,
                   call := w.calls.length - 1 }] }
      else none
    | _ => none
  | .endReceiver conn =>
    some { w with
      outbound := Function.update w.outbound conn
        { w.outbound conn with registrationsClosed := true } }
  | .fill conn full =>
    some { w with
      outbound := Function.update w.outbound conn { w.outbound conn with full } }

/-- A producer, from the call of `TopicProducer::new`, with its channels. -/
def wire (bits : Nat) (c : Config) : Sys Wire WireAction where
  init w := w = {}
  step := wireStep bits c

/-- What the producer does on its wire is what it does without one. -/
theorem producer_of_reach {bits : Nat} {c : Config} {w : Wire} (h : (wire bits c).Reach w) :
    (producer c).Reach w.producer := by
  refine Sys.ReachIf.inv (fun w => (producer c).Reach w.producer) ?_ ?_ h
  · rintro w rfl
    exact .init rfl
  · intro w a w' hreach _ hs
    have hstep {a : Action} {s' : State} (hs' : step c w.producer a = some s') :
        (producer c).Reach s' := hreach.step trivial hs'
    change wireStep bits c w a = some w' at hs
    unfold wireStep at hs
    split at hs
    · cases hs
    · obtain ⟨s', hs', rfl⟩ := Option.map_eq_some_iff.mp hs
      exact hstep hs'
    · split at hs
      · split at hs
        · cases hs
        · split at hs
          · obtain ⟨s', hs', rfl⟩ := Option.map_eq_some_iff.mp hs
            exact hstep hs'
          · obtain rfl := Option.some.inj hs
            exact hreach
      · cases hs
    · split at hs
      · split at hs
        · split at hs
          · cases hs
          · obtain ⟨s', hs', rfl⟩ := Option.map_eq_some_iff.mp hs
            exact hstep hs'
          · obtain ⟨s', hs', rfl⟩ := Option.map_eq_some_iff.mp hs
            exact hstep hs'
        · cases hs
      · cases hs
    · obtain rfl := Option.some.inj hs
      exact hreach
    · obtain rfl := Option.some.inj hs
      exact hreach

/-! ## What the task is doing -/

def Job.message : Job → Option ProducerMessage
  | .build => none
  | .send message => some message

/-- The message of the call of `send_message` that is under way. -/
def Pc.message : Pc → Option ProducerMessage
  | .opening => none
  | .idle => none
  | .check message => some message
  | .sending _ message => some message
  | .disconnected message => some message
  | .closing message => some message
  | .lookup message => some message
  | .getConnection job => job.message
  | .create job _ => job.message
  | .creating job _ => job.message
  | .exclusive job _ => job.message
  | .delay job _ => job.message
  | .retryLookup job _ => job.message
  | .retryGetConnection job _ => job.message
  | .gone => none

/-- A step inside a call, or outside of all: no id is drawn, no other message is sent. -/
structure Stays (s s' : State) : Prop where
  sequenceId : s'.sequenceId = s.sequenceId
  message : ∀ message, s'.pc.message = some message → s.pc.message = some message
  sending : ∀ drawn message, s'.pc = .sending drawn message → s.pc = .sending drawn message

namespace Stays

variable {c : Config} {s s' : State} {job : Job}

/-- … on to the next `await` of the call. -/
theorem onward {pc : Pc} (hpc : s.pc = pc) (hid : s'.sequenceId = s.sequenceId)
    (hmessage : s'.pc.message = pc.message)
    (hsending : ∀ drawn message, s'.pc ≠ .sending drawn message) : Stays s s' := by
  refine ⟨hid, fun message h => ?_, fun drawn message h => absurd h (hsending drawn message)⟩
  rw [hpc, ← hmessage]
  exact h

/-- … or out of it. -/
theorem leave (hid : s'.sequenceId = s.sequenceId) (hmessage : s'.pc.message = none)
    (hsending : ∀ drawn message, s'.pc ≠ .sending drawn message) : Stays s s' := by
  refine ⟨hid, fun message h => ?_, fun drawn message h => absurd h (hsending drawn message)⟩
  rw [hmessage] at h
  cases h

/-- … without moving. -/
theorem same (hid : s'.sequenceId = s.sequenceId) (hpc : s'.pc = s.pc) : Stays s s' :=
  ⟨hid, fun _ h => hpc ▸ h, fun _ _ h => hpc ▸ h⟩

theorem fail (s : State) (job : Job) : Stays s (s.fail job) := by
  cases job with
  | build => exact leave rfl rfl fun _ _ h => by cases h
  | send message => exact leave rfl rfl fun _ _ h => by cases h

theorem handleRetryError {pc : Pc} {retries : Nat} {e : ConnectionError} (hpc : s.pc = pc)
    (hjob : pc.message = job.message) : Stays s (s.handleRetryError c job retries e) := by
  unfold State.handleRetryError
  split
  · split
    · exact onward hpc rfl hjob.symm fun _ _ h => by cases h
    · exact fail s job
  · exact fail s job

theorem ready {pc : Pc} {schemaVersion : Option Bytes} (hpc : s.pc = pc)
    (hjob : pc.message = job.message) : Stays s (s.ready job schemaVersion) := by
  cases job with
  | build => exact leave rfl rfl fun _ _ h => by cases h
  | send message => exact onward hpc rfl hjob.symm fun _ _ h => by cases h

theorem closeHandle (s : State) : Stays s (s.closeHandle c) := by
  unfold State.closeHandle
  simp only
  split
  · exact same rfl rfl
  · exact same rfl rfl

end Stays

/-- What a step of the task is for the call under way. -/
inductive Kind (a : Action) (s s' : State) : Prop where
  | stays (hcalled : calledWith a s' = []) (h : Stays s s')
  /-- `send_message` is called -/
  | calls (message : ProducerMessage) (hcalled : calledWith a s' = [message])
    (hpc : s'.pc = .check message) (hid : s'.sequenceId = s.sequenceId)
  /-- an id is drawn for an attempt -/
  | draws (message : ProducerMessage) (hcalled : calledWith a s' = [])
    (hpc : s.pc = .check message)
    (heq : s' = { s with pc := .sending s.sequenceId message, sequenceId := s.sequenceId + 1 })
  | sent (err : Option ConnectionError) (ha : a = .sent err)

/-- **The steps of the task**, by kind. -/
theorem moves_kind {c : Config} {s s' : State} {a : Action} (h : Moves c s a s') : Kind a s s' := by
  have hcall (a : Action) (hpc : s.pc = .idle) (message : ProducerMessage)
      (ha : ∀ compressed s', s'.pc = .check compressed → calledWith a s' = [compressed])
      (hidle : ∀ s', s'.pc = .idle → calledWith a s' = []) :
      Kind a s (s.call c message) := by
    unfold State.call
    split
    · rename_i compressed hcompress
      exact .calls compressed (ha _ _ rfl) rfl rfl
    · exact .stays (hidle s hpc) (.same rfl rfl)
  cases h with
  | sendRaw hbatch hheld hpc =>
    refine hcall _ hpc _ (fun compressed s' h => ?_) fun s' h => ?_
    · unfold calledWith
      rw [h]
    · unfold calledWith
      rw [h]
  | batch hbatch hpc =>
    refine hcall _ hpc _ (fun compressed s' h => ?_) fun s' h => ?_
    · unfold calledWith
      rw [h]
    · unfold calledWith
      rw [h]
  | check hpc hvalid => exact .draws _ rfl hpc rfl
  | invalid hpc hvalid => exact .stays rfl (.onward hpc rfl rfl fun _ _ h => by cases h)
  | sent hpc hup => exact .sent _ rfl
  | lost hpc he => exact .sent _ rfl
  | refused hpc hlost htimeout => exact .sent _ rfl
  | unreachable hpc hdown => exact .stays rfl (.onward hpc rfl rfl fun _ _ h => by cases h)
  | closeProducer hpc hup => exact .stays rfl (.onward hpc rfl rfl fun _ _ h => by cases h)
  | closeReturned hpc => exact .stays rfl (.onward hpc rfl rfl fun _ _ h => by cases h)
  | lookedUp hpc => exact .stays rfl (.onward hpc rfl rfl fun _ _ h => by cases h)
  | notFound hpc => exact .stays rfl (.fail s _)
  | lookedUpAgain hpc => exact .stays rfl (.onward hpc rfl rfl fun _ _ h => by cases h)
  | notFoundAgain hpc => exact .stays rfl (.fail s _)
  | opened hpc => exact .stays rfl (.onward hpc rfl rfl fun _ _ h => by cases h)
  | notOpened hpc => exact .stays rfl (.fail s _)
  | gotConnection hpc => exact .stays rfl (.onward hpc rfl rfl fun _ _ h => by cases h)
  | noConnection hpc => exact .stays rfl (.fail s _)
  | gotConnectionAgain hpc => exact .stays rfl (.onward hpc rfl rfl fun _ _ h => by cases h)
  | noConnectionAgain hpc => exact .stays rfl (.fail s _)
  | uncreated hpc hdown => exact .stays rfl (.handleRetryError hpc rfl)
  | createProducer hpc hup => exact .stays rfl (.onward hpc rfl rfl fun _ _ h => by cases h)
  | partly hpc hready => exact .stays rfl (.onward hpc rfl rfl fun _ _ h => by cases h)
  | created hpc hready => exact .stays rfl (.ready hpc rfl)
  | notCreated hpc => exact .stays rfl (.handleRetryError hpc rfl)
  | exclusive hpc => exact .stays rfl (.ready hpc rfl)
  | noExclusive hpc => exact .stays rfl (.fail s _)
  | delayed hpc => exact .stays rfl (.onward hpc rfl rfl fun _ _ h => by cases h)
  | dropped hjob hbatch => exact .stays rfl (.fail s _)
  | droppedSend hjob hbatch => exact .stays rfl (.leave rfl rfl fun _ _ h => by cases h)
  | close hbatch hheld => exact .stays rfl (.same rfl rfl)
  | closeHandle hopen => exact .stays rfl (.closeHandle s)
  | batchesEnd hbatch hpc hheld hlog => exact .stays rfl (.leave rfl rfl fun _ _ h => by cases h)
  | dropHandle hheld hfree => exact .stays rfl (.same rfl rfl)
  | dropTask hdropping =>
    have hstays := Stays.closeHandle (c := c) s
    exact .stays rfl ⟨hstays.sequenceId, hstays.message, hstays.sending⟩
  | setError => exact .stays rfl (.same rfl rfl)
  | takeError => exact .stays rfl (.same rfl rfl)
  | goDown => exact .stays rfl (.same rfl rfl)

/-! ## The order on the wire -/

/-- What is on the wire, and what the call under way has to do with it. -/
structure Ordered (bits : Nat) (w : Wire) : Prop where
  /-- every `Send` is for a later call than the one before -/
  calls : w.sent.Pairwise fun e e' => e.call < e'.call
  /-- … and carries the message of its call -/
  made : ∀ e ∈ w.sent, w.calls[e.call]? = some e.message
  /-- the call under way has put nothing on the wire -/
  current : ∀ message, w.producer.pc.message = some message →
    w.calls.getLast? = some message ∧ ∀ e ∈ w.sent, e.call + 1 < w.calls.length
  drawn : ∀ drawn message, w.producer.pc = .sending drawn message →
    drawn + 1 = w.producer.sequenceId
  ids : w.producer.sequenceId ≤ 2 ^ bits →
    w.sent.Pairwise fun e e' => e.sequenceId < e'.sequenceId
  below : w.producer.sequenceId ≤ 2 ^ bits → ∀ e ∈ w.sent, e.sequenceId < w.producer.sequenceId
  /-- the id of the attempt under way is greater still -/
  next : w.producer.sequenceId ≤ 2 ^ bits → ∀ drawn message,
    w.producer.pc = .sending drawn message → ∀ e ∈ w.sent, e.sequenceId < drawn

namespace Ordered

variable {bits : Nat} {c : Config} {w w' : Wire}

theorem init : Ordered bits {} where
  calls := List.Pairwise.nil
  made _ h := by cases h
  current _ h := by cases h
  drawn _ _ h := by cases h
  ids _ := List.Pairwise.nil
  below _ _ h := by cases h
  next _ _ _ h := by cases h

/-- A step that stays in the call and puts nothing on the wire. -/
theorem stays (h : Ordered bits w) (hstays : Stays w.producer w'.producer)
    (hcalls : w'.calls = w.calls) (hsent : w'.sent = w.sent) : Ordered bits w' where
  calls := by
    rw [hsent]
    exact h.calls
  made := by
    rw [hsent, hcalls]
    exact h.made
  current message hmessage := by
    rw [hsent, hcalls]
    exact h.current message (hstays.message message hmessage)
  drawn drawn message hpc := by
    rw [hstays.sequenceId]
    exact h.drawn drawn message (hstays.sending drawn message hpc)
  ids hle := by
    rw [hsent]
    exact h.ids (hstays.sequenceId ▸ hle)
  below hle := by
    rw [hsent, hstays.sequenceId]
    exact h.below (hstays.sequenceId ▸ hle)
  next hle drawn message hpc := by
    rw [hsent]
    exact h.next (hstays.sequenceId ▸ hle) drawn message (hstays.sending drawn message hpc)

/-- `send_message` is called. -/
theorem called (h : Ordered bits w) {message : ProducerMessage}
    (hpc : w'.producer.pc = .check message)
    (hid : w'.producer.sequenceId = w.producer.sequenceId) (hcalls : w'.calls = w.calls ++ [message])
    (hsent : w'.sent = w.sent) : Ordered bits w' where
  calls := by
    rw [hsent]
    exact h.calls
  made e he := by
    rw [hsent] at he
    have hmade := h.made e he
    rw [hcalls, List.getElem?_append_left (List.getElem?_eq_some_iff.mp hmade).1]
    exact hmade
  current message' hmessage := by
    rw [hpc] at hmessage
    obtain rfl := Option.some.inj hmessage
    refine ⟨by rw [hcalls, List.getLast?_concat], fun e he => ?_⟩
    rw [hsent] at he
    have hlt := (List.getElem?_eq_some_iff.mp (h.made e he)).1
    rw [hcalls, List.length_append, List.length_singleton]
    omega
  drawn drawn message' hsending := by
    rw [hpc] at hsending
    cases hsending
  ids hle := by
    rw [hsent]
    exact h.ids (hid ▸ hle)
  below hle := by
    rw [hsent, hid]
    exact h.below (hid ▸ hle)
  next _ drawn message' hsending := by
    rw [hpc] at hsending
    cases hsending

/-- An id is drawn: greater than all before. -/
theorem draws (h : Ordered bits w) {message : ProducerMessage}
    (hpc : w.producer.pc = .check message)
    (hproducer : w'.producer =
      { w.producer with
        pc := .sending w.producer.sequenceId message
        sequenceId := w.producer.sequenceId + 1 })
    (hcalls : w'.calls = w.calls) (hsent : w'.sent = w.sent) : Ordered bits w' := by
  have hle (hle : w'.producer.sequenceId ≤ 2 ^ bits) : w.producer.sequenceId ≤ 2 ^ bits := by
    rw [hproducer] at hle
    exact Nat.le_of_succ_le hle
  constructor
  · rw [hsent]
    exact h.calls
  · rw [hsent, hcalls]
    exact h.made
  · intro message' hmessage
    rw [hsent, hcalls]
    rw [hproducer] at hmessage
    exact h.current message' (hpc ▸ hmessage)
  · intro drawn message' hsending
    rw [hproducer] at hsending ⊢
    cases hsending
    rfl
  · intro hbound
    rw [hsent]
    exact h.ids (hle hbound)
  · intro hbound e he
    rw [hsent] at he
    have hlt := h.below (hle hbound) e he
    rw [hproducer]
    exact Nat.lt_succ_of_lt hlt
  · intro hbound drawn message' hsending e he
    rw [hsent] at he
    rw [hproducer] at hsending
    cases hsending
    exact h.below (hle hbound) e he

/-- The channel takes the message: the last thing a call does. -/
theorem accepted (h : Ordered bits w) {drawn conn : Nat} {message : ProducerMessage}
    (hpc : w.producer.pc = .sending drawn message) (hidle : w'.producer.pc = .idle)
    (hid : w'.producer.sequenceId = w.producer.sequenceId) (hcalls : w'.calls = w.calls)
    (hsent : w'.sent = w.sent ++
      [{ conn, sequenceId := SerialId.get bits drawn, message, call := w.calls.length - 1 }]) :
    Ordered bits w' := by
  obtain ⟨hlast, hbefore⟩ := h.current message (by rw [hpc]; rfl)
  have hdrawn := h.drawn drawn message hpc
  -- no id has wrapped around yet
  have hget (hle : w'.producer.sequenceId ≤ 2 ^ bits) : SerialId.get bits drawn = drawn :=
    Nat.mod_eq_of_lt (by omega)
  have hnone (m : ProducerMessage) : w'.producer.pc.message ≠ some m := by
    rw [hidle]
    intro hm
    cases hm
  constructor
  · rw [hsent, List.pairwise_append]
    refine ⟨h.calls, List.pairwise_singleton _ _, fun e he e' he' => ?_⟩
    rw [List.mem_singleton.mp he']
    show e.call < w.calls.length - 1
    have hlt := hbefore e he
    omega
  · intro e he
    rw [hcalls]
    rw [hsent] at he
    rcases List.mem_append.mp he with he | he
    · exact h.made e he
    · rw [List.mem_singleton.mp he]
      show w.calls[w.calls.length - 1]? = some message
      rw [← List.getLast?_eq_getElem?]
      exact hlast
  · intro m hm
    exact absurd hm (hnone m)
  · intro drawn' message' hsending
    rw [hidle] at hsending
    cases hsending
  · intro hle
    have hle' := hid ▸ hle
    rw [hsent, List.pairwise_append]
    refine ⟨h.ids hle', List.pairwise_singleton _ _, fun e he e' he' => ?_⟩
    rw [List.mem_singleton.mp he']
    show e.sequenceId < SerialId.get bits drawn
    rw [hget hle]
    exact h.next hle' drawn message hpc e he
  · intro hle e he
    have hle' := hid ▸ hle
    rw [hid]
    rw [hsent] at he
    rcases List.mem_append.mp he with he | he
    · exact h.below hle' e he
    · rw [List.mem_singleton.mp he]
      show SerialId.get bits drawn < _
      rw [hget hle]
      omega
  · intro _ drawn' message' hsending
    rw [hidle] at hsending
    cases hsending

/-- **The step lemma.** -/
theorem step {a : WireAction} (h : Ordered bits w) (hs : (wire bits c).step w a = some w') :
    Ordered bits w' := by
  have hrefused {drawn : Nat} {message : ProducerMessage}
      (hpc : w.producer.pc = .sending drawn message) {e : ConnectionError} {s' : State}
      (hs' : Producer.step c w.producer (.sent (some e)) = some s') :
      Stays w.producer s' := by
    have hmoves := step_moves hs'
    cases hmoves with
    | lost hpc' he => exact .onward hpc' rfl rfl fun _ _ h => by cases h
    | refused hpc' hlost htimeout => exact .leave rfl rfl fun _ _ h => by cases h
  change wireStep bits c w a = some w' at hs
  unfold wireStep at hs
  split at hs
  · cases hs
  · rename_i a hsent
    obtain ⟨s', hs', rfl⟩ := Option.map_eq_some_iff.mp hs
    cases moves_kind (step_moves hs') with
    | stays hcalled hstays =>
      refine h.stays hstays ?_ rfl
      show w.calls ++ _ = _
      rw [hcalled, List.append_nil]
    | calls message hcalled hpc hid =>
      refine h.called hpc hid ?_ rfl
      show w.calls ++ _ = _
      rw [hcalled]
    | draws message hcalled hpc heq =>
      refine h.draws hpc heq ?_ rfl
      show w.calls ++ _ = _
      rw [hcalled, List.append_nil]
    | sent err ha => exact absurd ha (hsent err)
  · split at hs
    · rename_i drawn message hpc
      split at hs
      · cases hs
      · split at hs
        · obtain ⟨s', hs', rfl⟩ := Option.map_eq_some_iff.mp hs
          exact h.stays (hrefused hpc hs') rfl rfl
        · obtain rfl := Option.some.inj hs
          exact h.stays (.same rfl rfl) rfl rfl
    · cases hs
  · split at hs
    · rename_i drawn message hpc
      split at hs
      · split at hs
        · cases hs
        · obtain ⟨s', hs', rfl⟩ := Option.map_eq_some_iff.mp hs
          exact h.stays (hrefused hpc hs') rfl rfl
        · obtain ⟨s', hs', rfl⟩ := Option.map_eq_some_iff.mp hs
          have hmoves := step_moves hs'
          cases hmoves with
          | sent hpc' hup => exact h.accepted hpc rfl rfl rfl rfl
      · cases hs
    · cases hs
  · obtain rfl := Option.some.inj hs
    exact h.stays (.same rfl rfl) rfl rfl
  · obtain rfl := Option.some.inj hs
    exact h.stays (.same rfl rfl) rfl rfl

end Ordered

theorem ordered_of_reach {bits : Nat} {c : Config} {w : Wire} (h : (wire bits c).Reach w) :
    Ordered bits w := by
  refine Sys.ReachIf.inv (Ordered bits) ?_ (fun _ _ _ hordered _ hs => hordered.step hs) h
  rintro w rfl
  exact Ordered.init

/-- **The ids increase** on the channels of all connections as long as no more than 2^usize::BITS are
    drawn, and a call of `send_message` puts at most one `Send` on any channel: its message. -/
theorem sequence_ids_increase (bits : Nat) (c : Config) (w : Wire) (h : (wire bits c).Reach w) :
    (w.producer.sequenceId ≤ 2 ^ bits →
      ∀ conn, ((w.channel conn).map Sent.sequenceId).Pairwise (· < ·)) ∧
    (∀ call, (w.sent.filter fun e => e.call = call).length ≤ 1) ∧
    ∀ e ∈ w.sent, w.calls[e.call]? = some e.message := by
  have hordered := ordered_of_reach h
  refine ⟨fun hle conn => ?_, fun call => ?_, hordered.made⟩
  · rw [List.pairwise_map]
    exact (hordered.ids hle).filter _
  · have hpairwise := hordered.calls.filter fun e => e.call = call
    obtain ⟨l, hl⟩ : ∃ l, w.sent.filter (fun e => e.call = call) = l := ⟨_, rfl⟩
    have hcall : ∀ e ∈ l, e.call = call := by
      intro e he
      rw [← hl] at he
      exact of_decide_eq_true (List.mem_filter.mp he).2
    rw [hl] at hpairwise ⊢
    cases l with
    | nil => exact Nat.zero_le 1
    | cons e l =>
      cases l with
      | nil => exact Nat.le_refl 1
      | cons e' l =>
        have hlt := (List.pairwise_cons.mp hpairwise).1 e' List.mem_cons_self
        have hfirst := hcall e List.mem_cons_self
        have hsecond := hcall e' (List.mem_cons_of_mem e List.mem_cons_self)
        omega

/-! ### Around the counter -/

/-- One message after another, all accepted by the channel of one connection: after `n` of them. -/
def sentUpTo (bits n : Nat) : Wire where
  producer :=
    { pc := .idle
      sequenceId := n
      handle := .held
      log := [.create 0, .created 0] ++ (List.range n).map fun i => .send 0 i { payload := [] } }
  registered := decide (0 < n)
  calls := List.replicate n { payload := [] }
  sent := (List.range n).map fun i =>
    { conn := 0, sequenceId := SerialId.get bits i, message := { payload := [] }, call := i }

theorem reach_sentUpTo (bits n : Nat) : (wire bits {}).Reach (sentUpTo bits n) := by
  induction n with
  | zero =>
    have hinit : (wire bits {}).Reach {} := .init rfl
    refine hinit.exec [.task (.gotConnection (some 0)), .task (.gotConnection (some 0)),
      .task .createProducer, .task (.created (.ok { requestId := 0, producerName := "" }))] (Sys.guarded_true _ _) ?_
    rfl
  | succ n ih =>
    refine ih.exec [.task (.sendRaw { payload := [] }), .task .check, .register, .enqueue]
      (Sys.guarded_true _ _) ?_
    unfold sentUpTo
    rw [List.range_succ, List.map_append, List.map_append, List.replicate_succ', ← List.append_assoc]
    have hcall : (List.replicate n ({ payload := [] } : ProducerMessage) ++
        [({ payload := [] } : ProducerMessage)]).length - 1 = n := by
      rw [List.length_append, List.length_replicate]
      rfl
    rw [show decide (0 < n + 1) = true from decide_eq_true (Nat.succ_pos n)]
    show some (Wire.mk _ _ _ ((_ ++ [ProducerMessage.mk [] none none]) ++ [])
      (_ ++ [Sent.mk 0 (SerialId.get bits n) (ProducerMessage.mk [] none none)
        (((_ ++ [ProducerMessage.mk [] none none]) ++ []).length - 1)])) = _
    rw [List.append_nil, hcall]
    rfl

/-- The first id and the one after 2^usize::BITS messages are the same. -/
theorem not_pairwise_sentUpTo (bits : Nat) :
    ¬ (((sentUpTo bits (2 ^ bits + 1)).channel 0).map Sent.sequenceId).Pairwise (· < ·) := by
  intro hpairwise
  have hchannel (n : Nat) : (sentUpTo bits n).channel 0 = (sentUpTo bits n).sent := by
    apply List.filter_eq_self.mpr
    intro e he
    obtain ⟨i, -, rfl⟩ := List.mem_map.mp he
    rfl
  have hsent (n : Nat) : (sentUpTo bits n).sent.map Sent.sequenceId =
      (List.range n).map (SerialId.get bits) := by
    unfold sentUpTo
    rw [List.map_map]
    rfl
  rw [hchannel, hsent, List.range_succ, List.map_append, List.pairwise_append] at hpairwise
  have hfirst : SerialId.get bits 0 ∈ (List.range (2 ^ bits)).map (SerialId.get bits) :=
    List.mem_map_of_mem (List.mem_range.mpr (Nat.two_pow_pos bits))
  have hlt := hpairwise.2.2 _ hfirst _ List.mem_cons_self
  unfold SerialId.get at hlt
  rw [Nat.mod_self, Nat.zero_mod] at hlt
  exact Nat.lt_irrefl 0 hlt

/-- After 2^64 messages the ids start over. -/
theorem ids_start_over :
    ∃ w, (wire 64 {}).Reach w ∧ ¬ ((w.channel 0).map Sent.sequenceId).Pairwise (· < ·) :=
  ⟨_, reach_sentUpTo 64 _, not_pairwise_sentUpTo 64⟩

theorem sequence_ids_increase_three :
    (∀ conn, (((sentUpTo 64 3).channel conn).map Sent.sequenceId).Pairwise (· < ·)) ∧
      (sentUpTo 64 3).sent.map Sent.sequenceId = [0, 1, 2] :=
  ⟨(sequence_ids_increase 64 {} (sentUpTo 64 3) (reach_sentUpTo 64 3)).1 (by decide), rfl⟩

end PulsarClient.Producer
