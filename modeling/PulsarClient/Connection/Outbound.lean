/-
  OUTBOUND ORDER — the sink task of a connection, and the two channels it merges.

  A connection has a bounded DATA channel for `Send` commands and an unbounded CONTROL channel for
  everything else, `CloseProducer` included.  The sink task merges them with a BIASED select: it polls
  control first, data only when control was empty, writes what it got, and starts over.

  Each channel is first in, first out; the question is what happens ACROSS the two.  A `CloseProducer`
  that is issued while a `Send` of the same producer still sits in the data channel is written first.

  1. The SYSTEM (`outbound`): the client calls that enqueue, and the sink task, cut at every point
     where the two can interleave: between polling control and polling data, and while writing.
     Commands carry the number under which they were issued, so "issued before" is `<` on it.

  2. `closeProducer_overtakes` — two lines of client code that show the overtaking.

  3. `sends_precede_close` — the condition at the moment of `close_producer` (`drained`): no `Send` of
     that producer is in the data channel, the one the sink is just about to take not counted.  In a
     run that meets it every `CloseProducer` finds all earlier `Send`s of its producer written.

  4. `overtaken_of_not_drained` — the condition is exact: without it the sink alone, with no further
     call from anyone, writes the `CloseProducer` first.
-/
import PulsarClient.Message
import PulsarClient.Lib.Runs

namespace PulsarClient.Connection.Outbound

open Runs

/-! ## The system -/

/-- A command on its way out, with its number among all commands issued on the connection. -/
structure Command where
  serial : Nat
  msg : Message
  deriving DecidableEq, Repr

/-- The command is a `Send` of the producer. -/
def Command.sends (c : Command) (producerId : Nat) : Bool :=
  c.msg.command.send.any (·.producerId == producerId)

/-- The command is the `CloseProducer` of the producer. -/
def Command.closes (c : Command) (producerId : Nat) : Bool :=
  c.msg.command.closeProducer.any (·.producerId == producerId)

/-- Where the sink task is. -/
inductive Phase where
  /-- about to poll the control channel -/
  | selectControl
  /-- the control channel was empty; about to poll the data channel -/
  | selectData
  /-- in `sink.send(msg)` -/
  | sending (c : Command)
  /-- out of its loop -/
  | stopped
  deriving DecidableEq, Repr

structure State where
  outboundChannelSize : Nat
  phase : Phase := .selectControl
  control : List Command := []
  data : List Command := []
  /-- the last sender of the channel is dropped -/
  controlClosed : Bool := false
  dataClosed : Bool := false
  error : SharedError := SharedError.new
  requestId : Nat := 0
  /-- the commands issued so far, in order; `serial` is their number -/
  serial : Nat := 0
  issued : List Command := []
  /-- what has been written to the socket -/
  written : List Command := []
  deriving DecidableEq

inductive Action where
  /-- `Connection::send` enqueues and returns `Ok`, blocking for room or finding it -/
  | send (producerId sequenceId : Nat) (numMessages : Option Int) (payload : Payload)
  /-- `ConnectionSender::close_producer` -/
  | closeProducer (producerId : Nat)
  /-- any other command, on the control channel -/
  | command (m : Message)
  /-- the last sender of the control channel, or of the data channel, is dropped -/
  | dropControl
  | dropData
  /-- the sink task polls one of the channels -/
  | select
  /-- the socket takes the command -/
  | written
  /-- the socket fails -/
  | fail (e : ConnectionError)
  deriving DecidableEq, Repr

namespace State

/-- The number and the log of a newly issued command. -/
def issue (s : State) (m : Message) : Command := { serial := s.serial, msg := m }

def pushControl (s : State) (m : Message) : State :=
  { s with
    control := s.control ++ [s.issue m], serial := s.serial + 1, issued := s.issued ++ [s.issue m] }

def pushData (s : State) (m : Message) : State :=
  { s with
    data := s.data ++ [s.issue m], serial := s.serial + 1, issued := s.issued ++ [s.issue m] }

/-- One poll of the biased `select!`. -/
def select (s : State) : Option State :=
  match s.phase with
  | .selectControl =>
    match s.control with
    | c :: rest => some { s with phase := .sending c, control := rest }
    | [] =>
      if s.controlClosed then some { s with phase := .stopped }
      else some { s with phase := .selectData }
  | .selectData =>
    match s.data with
    | c :: rest => some { s with phase := .sending c, data := rest }
    | [] =>
      if s.dataClosed then some { s with phase := .stopped }
      else some { s with phase := .selectControl }
  | _ => none

end State

def step (s : State) : Action → Option State
  | .send producerId sequenceId numMessages payload =>
    if s.phase ≠ .stopped ∧ s.dataClosed = false ∧ s.data.length < s.outboundChannelSize then
      some (s.pushData (Messages.send producerId sequenceId numMessages payload))
    else none
  | .closeProducer producerId =>
    if s.phase ≠ .stopped ∧ s.controlClosed = false then
      some { s.pushControl (Messages.closeProducer producerId s.requestId) with
        requestId := s.requestId + 1 }
    else none
  | .command m =>
    if s.phase ≠ .stopped ∧ s.controlClosed = false ∧ m.command.send = none ∧
        m.command.closeProducer = none then
      some (s.pushControl m)
    else none
  | .dropControl => some { s with controlClosed := true }
  | .dropData => some { s with dataClosed := true }
  | .select => s.select
  | .written =>
    match s.phase with
    | .sending c => some { s with phase := .selectControl, written := s.written ++ [c] }
    | _ => none
  | .fail e =>
    match s.phase with
    | .sending _ => some { s with phase := .stopped, error := s.error.set e }
    | _ => none

/-- A new connection; its data channel has some room. -/
def outbound : Sys State Action where
  init s := ∃ outboundChannelSize, 0 < outboundChannelSize ∧ s = { outboundChannelSize }
  step := step

/-- Every `CloseProducer` on the socket is preceded there by the `Send`s of its producer that were
    issued before it. -/
def InOrder (s : State) : Prop :=
  ∀ producerId pre c post, s.written = pre ++ c :: post → c.closes producerId = true →
    ∀ d ∈ s.issued, d.serial < c.serial → d.sends producerId = true → d ∈ pre

/-- Commands of the data channel that a control command issued now would overtake: all but the head,
    when the sink has already passed by the control channel. -/
def overtakable (s : State) : List Command :=
  if s.phase = .selectData then s.data.tail else s.data

/-- No `Send` of the producer can be overtaken. -/
def drained (s : State) (producerId : Nat) : Bool :=
  (overtakable s).all fun c => !c.sends producerId

/-- `close_producer` is called only for a producer whose `Send`s cannot be overtaken. -/
def closesDrained (s : State) : Action → Bool
  | .closeProducer producerId => drained s producerId
  | _ => true

/-! ## The invariant -/

/-- Where a `Send` of the producer may be when the `CloseProducer` is waiting in the control channel:
    on the socket, on its way to it, or the next to be taken. -/
def Ahead (s : State) (d : Command) : Prop :=
  d ∈ s.written ∨ s.phase = .sending d ∨ (s.phase = .selectData ∧ s.data.head? = some d)

/-- What holds between any two steps of a run whose `CloseProducer`s are all issued drained. -/
structure Inv (s : State) : Prop where
  numbered : ∀ c ∈ s.issued, c.serial < s.serial
  controlIssued : ∀ c ∈ s.control, c ∈ s.issued
  dataIssued : ∀ c ∈ s.data, c ∈ s.issued
  sendingIssued : ∀ c, s.phase = .sending c → c ∈ s.issued
  writtenIssued : ∀ c ∈ s.written, c ∈ s.issued
  /-- the data channel carries no `CloseProducer` -/
  dataCloses : ∀ c ∈ s.data, ∀ p, c.closes p = false
  /-- until the sink stops, a `Send` is on the socket, on its way to it, or in the data channel -/
  located : s.phase ≠ .stopped → ∀ d ∈ s.issued, ∀ p, d.sends p = true →
    d ∈ s.written ∨ s.phase = .sending d ∨ d ∈ s.data
  /-- a waiting `CloseProducer` has the `Send`s issued before it ahead of it -/
  waiting : s.phase ≠ .stopped → ∀ c ∈ s.control, ∀ p, c.closes p = true →
    ∀ d ∈ s.issued, d.serial < c.serial → d.sends p = true → Ahead s d
  /-- a `CloseProducer` on its way has them on the socket -/
  sending : ∀ c, s.phase = .sending c → ∀ p, c.closes p = true →
    ∀ d ∈ s.issued, d.serial < c.serial → d.sends p = true → d ∈ s.written
  inOrder : InOrder s

theorem Inv.init {n : Nat} : Inv { outboundChannelSize := n } where
  numbered c hc := absurd hc List.not_mem_nil
  controlIssued c hc := absurd hc List.not_mem_nil
  dataIssued c hc := absurd hc List.not_mem_nil
  sendingIssued c hc := Phase.noConfusion hc
  writtenIssued c hc := absurd hc List.not_mem_nil
  dataCloses c hc := absurd hc List.not_mem_nil
  located _ d hd := absurd hd List.not_mem_nil
  waiting _ c hc := absurd hc List.not_mem_nil
  sending c hc := Phase.noConfusion hc
  inOrder p pre c post hw := by
    have hlen := congrArg List.length hw
    rw [List.length_append, List.length_cons] at hlen
    exact absurd hlen (by simp)

/-- A command issued now comes after every command issued before. -/
theorem Inv.not_before {s : State} {c d : Command} {m : Message} (h : Inv s) (hc : c ∈ s.issued)
    (hd : d ∈ s.issued ++ [s.issue m]) (hlt : d.serial < c.serial) : d ∈ s.issued := by
  rcases List.mem_append.mp hd with hd | hd
  · exact hd
  · obtain rfl := List.mem_singleton.mp hd
    have hnum : c.serial < s.serial := h.numbered c hc
    have hser : (s.issue m).serial = s.serial := rfl
    omega

theorem Inv.numbered_issue {s : State} {m : Message} (h : Inv s) :
    ∀ c ∈ s.issued ++ [s.issue m], c.serial < s.serial + 1 := by
  intro c hc
  rcases List.mem_append.mp hc with hc | hc
  · exact Nat.lt_succ_of_lt (h.numbered c hc)
  · obtain rfl := List.mem_singleton.mp hc
    exact Nat.lt_succ_self s.serial

theorem Inv.inOrder_issue {s : State} {m : Message} (h : Inv s) :
    ∀ p pre c post, s.written = pre ++ c :: post → c.closes p = true →
      ∀ d ∈ s.issued ++ [s.issue m], d.serial < c.serial → d.sends p = true → d ∈ pre := by
  intro p pre c post hw hc d hd hlt hs
  have hmem : c ∈ s.written := hw ▸ List.mem_append_right pre (List.mem_cons_self ..)
  exact h.inOrder p pre c post hw hc d (h.not_before (h.writtenIssued c hmem) hd hlt) hlt hs

/-- A control command that is no `Send`, and no `CloseProducer` unless its producer is drained. -/
theorem Inv.pushControl {s : State} {m : Message} (h : Inv s)
    (hsend : ∀ p, (s.issue m).sends p = false)
    (hclose : ∀ p, (s.issue m).closes p = true → drained s p = true) : Inv (s.pushControl m) where
  numbered := h.numbered_issue
  controlIssued c hc := by
    rcases List.mem_append.mp hc with hc | hc
    · exact List.mem_append_left _ (h.controlIssued c hc)
    · exact List.mem_append_right _ hc
  dataIssued c hc := List.mem_append_left _ (h.dataIssued c hc)
  sendingIssued c hc := List.mem_append_left _ (h.sendingIssued c hc)
  writtenIssued c hc := List.mem_append_left _ (h.writtenIssued c hc)
  dataCloses := h.dataCloses
  located hph d hd p hs := by
    rcases List.mem_append.mp hd with hd | hd
    · exact h.located hph d hd p hs
    · obtain rfl := List.mem_singleton.mp hd
      rw [hsend p] at hs
      exact absurd hs Bool.false_ne_true
  waiting hph c hc p hcl d hd hlt hs := by
    rcases List.mem_append.mp hc with hc | hc
    · exact h.waiting hph c hc p hcl d (h.not_before (h.controlIssued c hc) hd hlt) hlt hs
    · obtain rfl := List.mem_singleton.mp hc
      have hd' : d ∈ s.issued := by
        rcases List.mem_append.mp hd with hd | hd
        · exact hd
        · exact absurd (List.mem_singleton.mp hd ▸ hlt) (Nat.lt_irrefl _)
      rcases h.located hph d hd' p hs with hl | hl | hl
      · exact Or.inl hl
      · exact Or.inr (Or.inl hl)
      · -- still in the data channel: then it is the one the sink takes next
        have hdr := List.all_eq_true.mp (hclose p hcl)
        unfold overtakable at hdr
        by_cases hsel : s.phase = .selectData
        · rw [if_pos hsel] at hdr
          refine Or.inr (Or.inr ⟨hsel, ?_⟩)
          cases hdata : s.data with
          | nil =>
            rw [hdata] at hl
            exact absurd hl List.not_mem_nil
          | cons x rest =>
            rw [hdata] at hl hdr
            rcases List.mem_cons.mp hl with rfl | hl
            · show (State.pushControl s m).data.head? = some d
              rw [show (s.pushControl m).data = s.data from rfl, hdata]
              rfl
            · have hns := hdr d hl
              rw [hs] at hns
              exact absurd hns Bool.false_ne_true
        · rw [if_neg hsel] at hdr
          have hns := hdr d hl
          rw [hs] at hns
          exact absurd hns Bool.false_ne_true
  sending c hc p hcl d hd hlt hs :=
    h.sending c hc p hcl d (h.not_before (h.sendingIssued c hc) hd hlt) hlt hs
  inOrder := h.inOrder_issue

theorem head?_concat_of_head? {x y : Command} {l : List Command} (h : l.head? = some x) :
    (l ++ [y]).head? = some x := by
  cases l with
  | nil => exact absurd h (Option.some_ne_none x).symm
  | cons c l => exact h

theorem Inv.pushData {s : State} {m : Message} (h : Inv s)
    (hclose : ∀ p, (s.issue m).closes p = false) : Inv (s.pushData m) where
  numbered := h.numbered_issue
  controlIssued c hc := List.mem_append_left _ (h.controlIssued c hc)
  dataIssued c hc := by
    rcases List.mem_append.mp hc with hc | hc
    · exact List.mem_append_left _ (h.dataIssued c hc)
    · exact List.mem_append_right _ hc
  sendingIssued c hc := List.mem_append_left _ (h.sendingIssued c hc)
  writtenIssued c hc := List.mem_append_left _ (h.writtenIssued c hc)
  dataCloses c hc p := by
    rcases List.mem_append.mp hc with hc | hc
    · exact h.dataCloses c hc p
    · obtain rfl := List.mem_singleton.mp hc
      exact hclose p
  located hph d hd p hs := by
    rcases List.mem_append.mp hd with hd | hd
    · rcases h.located hph d hd p hs with hl | hl | hl
      · exact Or.inl hl
      · exact Or.inr (Or.inl hl)
      · exact Or.inr (Or.inr (List.mem_append_left _ hl))
    · exact Or.inr (Or.inr (List.mem_append_right _ hd))
  waiting hph c hc p hcl d hd hlt hs := by
    have hd' := h.not_before (h.controlIssued c hc) hd hlt
    rcases h.waiting hph c hc p hcl d hd' hlt hs with hl | hl | ⟨hsel, hhead⟩
    · exact Or.inl hl
    · exact Or.inr (Or.inl hl)
    · exact Or.inr (Or.inr ⟨hsel, head?_concat_of_head? hhead⟩)
  sending c hc p hcl d hd hlt hs :=
    h.sending c hc p hcl d (h.not_before (h.sendingIssued c hc) hd hlt) hlt hs
  inOrder := h.inOrder_issue

/-- The sink takes a control command: what was ahead of a `CloseProducer` is on the socket, since
    nothing is being sent and the data channel is not next. -/
theorem Inv.takeControl {s : State} {c : Command} {rest : List Command} (h : Inv s)
    (hph : s.phase = .selectControl) (hc : s.control = c :: rest) :
    Inv { s with phase := .sending c, control := rest } := by
  have hrun : s.phase ≠ .stopped := by rw [hph]; exact Phase.noConfusion
  have hahead : ∀ d, Ahead s d → d ∈ s.written := by
    rintro d (hd | hd | ⟨hd, -⟩)
    · exact hd
    · rw [hph] at hd
      exact Phase.noConfusion hd
    · rw [hph] at hd
      exact Phase.noConfusion hd
  have hmem : c ∈ s.control := hc ▸ List.mem_cons_self ..
  have hrest : ∀ c' ∈ rest, c' ∈ s.control := fun c' hc' => hc ▸ List.mem_cons_of_mem c hc'
  refine ⟨h.numbered, fun c' hc' => h.controlIssued c' (hrest c' hc'), h.dataIssued, ?_,
    h.writtenIssued, h.dataCloses, ?_, ?_, ?_, h.inOrder⟩
  · rintro c' ⟨⟩
    exact h.controlIssued c hmem
  · intro _ d hd p hs
    rcases h.located hrun d hd p hs with hl | hl | hl
    · exact Or.inl hl
    · rw [hph] at hl
      exact Phase.noConfusion hl
    · exact Or.inr (Or.inr hl)
  · intro _ c' hc' p hcl d hd hlt hs
    exact Or.inl (hahead d (h.waiting hrun c' (hrest c' hc') p hcl d hd hlt hs))
  · rintro c' ⟨⟩ p hcl d hd hlt hs
    exact hahead d (h.waiting hrun c hmem p hcl d hd hlt hs)

/-- The sink takes the head of the data channel. -/
theorem Inv.takeData {s : State} {c : Command} {rest : List Command} (h : Inv s)
    (hph : s.phase = .selectData) (hc : s.data = c :: rest) :
    Inv { s with phase := .sending c, data := rest } := by
  have hrun : s.phase ≠ .stopped := by rw [hph]; exact Phase.noConfusion
  have hmem : c ∈ s.data := hc ▸ List.mem_cons_self ..
  have hrest : ∀ c' ∈ rest, c' ∈ s.data := fun c' hc' => hc ▸ List.mem_cons_of_mem c hc'
  refine ⟨h.numbered, h.controlIssued, fun c' hc' => h.dataIssued c' (hrest c' hc'), ?_,
    h.writtenIssued, fun c' hc' => h.dataCloses c' (hrest c' hc'), ?_, ?_, ?_, h.inOrder⟩
  · rintro c' ⟨⟩
    exact h.dataIssued c hmem
  · intro _ d hd p hs
    rcases h.located hrun d hd p hs with hl | hl | hl
    · exact Or.inl hl
    · rw [hph] at hl
      exact Phase.noConfusion hl
    · rw [hc] at hl
      rcases List.mem_cons.mp hl with rfl | hl
      · exact Or.inr (Or.inl rfl)
      · exact Or.inr (Or.inr hl)
  · intro _ c' hc' p hcl d hd hlt hs
    rcases h.waiting hrun c' hc' p hcl d hd hlt hs with hl | hl | ⟨-, hhead⟩
    · exact Or.inl hl
    · rw [hph] at hl
      exact Phase.noConfusion hl
    · rw [hc, List.head?_cons, Option.some.injEq] at hhead
      exact Or.inr (Or.inl (congrArg Phase.sending hhead))
  · rintro c' ⟨⟩ p hcl
    rw [h.dataCloses c hmem p] at hcl
    exact absurd hcl Bool.false_ne_true

/-- The sink passes from one channel to the other, or stops: nothing it has left behind counts. -/
theorem Inv.movePhase {s : State} {phase : Phase} (h : Inv s)
    (hidle : ∀ c, s.phase ≠ .sending c ∧ phase ≠ .sending c)
    (hrun : phase ≠ .stopped → s.phase ≠ .stopped ∧
      (s.control = [] ∨ (s.data.head? = none ∧ s.phase = .selectData))) :
    Inv { s with phase } := by
  refine ⟨h.numbered, h.controlIssued, h.dataIssued, fun c hc => absurd hc (hidle c).2,
    h.writtenIssued, h.dataCloses, ?_, ?_, fun c hc => absurd hc (hidle c).2, h.inOrder⟩
  · intro hph d hd p hs
    rcases h.located (hrun hph).1 d hd p hs with hl | hl | hl
    · exact Or.inl hl
    · exact absurd hl (hidle d).1
    · exact Or.inr (Or.inr hl)
  · intro hph c hc p hcl d hd hlt hs
    rcases (hrun hph).2 with hnil | ⟨hnone, -⟩
    · exact absurd (hnil ▸ hc : c ∈ []) List.not_mem_nil
    · rcases h.waiting (hrun hph).1 c hc p hcl d hd hlt hs with hl | hl | ⟨-, hhead⟩
      · exact Or.inl hl
      · exact absurd hl (hidle d).1
      · rw [hnone] at hhead
        exact absurd hhead.symm (Option.some_ne_none d)

/-- What one poll of the `select!` does: take from one of the channels, or pass by an empty one. -/
theorem select_cases {s s' : State} (hs : s.select = some s') :
    (∃ c rest, s.phase = .selectControl ∧ s.control = c :: rest ∧
      s' = { s with phase := .sending c, control := rest }) ∨
    (∃ c rest, s.phase = .selectData ∧ s.data = c :: rest ∧
      s' = { s with phase := .sending c, data := rest }) ∨
    ∃ phase, s' = { s with phase } ∧ (∀ c, s.phase ≠ .sending c ∧ phase ≠ .sending c) ∧
      (phase ≠ .stopped → s.phase ≠ .stopped ∧
        (s.control = [] ∨ (s.data.head? = none ∧ s.phase = .selectData))) := by
  unfold State.select at hs
  split at hs
  · rename_i hph
    split at hs
    · rename_i c rest hc
      exact Or.inl ⟨c, rest, hph, hc, (Option.some.inj hs).symm⟩
    · rename_i hc
      refine Or.inr (Or.inr ?_)
      rw [hph]
      split at hs
      · exact ⟨.stopped, (Option.some.inj hs).symm, fun c => ⟨Phase.noConfusion, Phase.noConfusion⟩,
          fun hne => absurd rfl hne⟩
      · exact ⟨.selectData, (Option.some.inj hs).symm,
          fun c => ⟨Phase.noConfusion, Phase.noConfusion⟩, fun _ => ⟨Phase.noConfusion, Or.inl hc⟩⟩
  · rename_i hph
    split at hs
    · rename_i c rest hd
      exact Or.inr (Or.inl ⟨c, rest, hph, hd, (Option.some.inj hs).symm⟩)
    · rename_i hd
      refine Or.inr (Or.inr ?_)
      rw [hph]
      split at hs
      · exact ⟨.stopped, (Option.some.inj hs).symm, fun c => ⟨Phase.noConfusion, Phase.noConfusion⟩,
          fun hne => absurd rfl hne⟩
      · exact ⟨.selectControl, (Option.some.inj hs).symm,
          fun c => ⟨Phase.noConfusion, Phase.noConfusion⟩,
          fun _ => ⟨Phase.noConfusion, Or.inr ⟨by rw [hd]; rfl, rfl⟩⟩⟩
  · exact absurd hs (Option.some_ne_none s').symm

theorem Inv.select {s s' : State} (h : Inv s) (hs : s.select = some s') : Inv s' := by
  rcases select_cases hs with ⟨c, rest, hph, hc, rfl⟩ | ⟨c, rest, hph, hd, rfl⟩ |
    ⟨phase, rfl, hidle, hrun⟩
  · exact h.takeControl hph hc
  · exact h.takeData hph hd
  · exact h.movePhase hidle hrun

/-- The command the sink was sending is on the socket. -/
theorem Inv.written {s : State} {c : Command} (h : Inv s) (hph : s.phase = .sending c) :
    Inv { s with phase := .selectControl, written := s.written ++ [c] } := by
  have hrun : s.phase ≠ .stopped := by rw [hph]; exact Phase.noConfusion
  have hsent : ∀ d, d ∈ s.written ∨ s.phase = .sending d → d ∈ s.written ++ [c] := by
    rintro d (hd | hd)
    · exact List.mem_append_left _ hd
    · rw [hph, Phase.sending.injEq] at hd
      exact List.mem_append_right _ (hd ▸ List.mem_singleton_self c)
  refine ⟨h.numbered, h.controlIssued, h.dataIssued, fun c' hc' => Phase.noConfusion hc', ?_,
    h.dataCloses, ?_, ?_, fun c' hc' => Phase.noConfusion hc', ?_⟩
  · intro c' hc'
    rcases List.mem_append.mp hc' with hc' | hc'
    · exact h.writtenIssued c' hc'
    · exact List.mem_singleton.mp hc' ▸ h.sendingIssued c hph
  · intro _ d hd p hs
    rcases h.located hrun d hd p hs with hl | hl | hl
    · exact Or.inl (hsent d (Or.inl hl))
    · exact Or.inl (hsent d (Or.inr hl))
    · exact Or.inr (Or.inr hl)
  · intro _ c' hc' p hcl d hd hlt hs
    rcases h.waiting hrun c' hc' p hcl d hd hlt hs with hl | hl | ⟨hsel, -⟩
    · exact Or.inl (hsent d (Or.inl hl))
    · exact Or.inl (hsent d (Or.inr hl))
    · rw [hph] at hsel
      exact Phase.noConfusion hsel
  · intro p pre c' post hw hcl d hd hlt hs
    rcases List.eq_nil_or_concat post with rfl | ⟨post', x, rfl⟩
    · -- the `CloseProducer` is the command just written
      have hw' : s.written ++ [c] = pre ++ [c'] := hw
      obtain ⟨hpre, hcc⟩ := List.append_inj' hw' rfl
      obtain rfl := List.singleton_inj.mp hcc
      exact hpre ▸ h.sending c hph p hcl d hd hlt hs
    · have hw' : s.written ++ [c] = (pre ++ c' :: post') ++ [x] := by
        rw [List.append_assoc]
        rw [List.concat_eq_append] at hw
        exact hw
      obtain ⟨hpre, -⟩ := List.append_inj' hw' rfl
      exact h.inOrder p pre c' post' hpre hcl d hd hlt hs

theorem sends_closeProducer (s : State) (producerId requestId p : Nat) :
    (s.issue (Messages.closeProducer producerId requestId)).sends p = false := rfl

theorem closes_send (s : State) (producerId sequenceId : Nat) (n : Option Int) (payload : Payload)
    (p : Nat) : (s.issue (Messages.send producerId sequenceId n payload)).closes p = false := rfl

/-- **The step lemma.** -/
theorem Inv.step {s s' : State} {a : Action} (h : Inv s) (hok : closesDrained s a = true)
    (hs : step s a = some s') : Inv s' := by
  cases a with
  | send producerId sequenceId numMessages payload =>
    simp only [Outbound.step] at hs
    split at hs
    · exact Option.some.inj hs ▸ h.pushData (closes_send s producerId sequenceId numMessages payload)
    · exact absurd hs (Option.some_ne_none s').symm
  | closeProducer producerId =>
    simp only [Outbound.step] at hs
    split at hs
    · have hpush := h.pushControl (sends_closeProducer s producerId s.requestId) (by
        intro p hp
        have hpp : producerId = p := eq_of_beq hp
        exact hpp ▸ hok)
      exact Option.some.inj hs ▸ ⟨hpush.numbered, hpush.controlIssued, hpush.dataIssued,
        hpush.sendingIssued, hpush.writtenIssued, hpush.dataCloses, hpush.located, hpush.waiting,
        hpush.sending, hpush.inOrder⟩
    · exact absurd hs (Option.some_ne_none s').symm
  | command m =>
    simp only [Outbound.step] at hs
    split at hs
    · rename_i hm
      refine Option.some.inj hs ▸ h.pushControl ?_ ?_
      · intro p
        show m.command.send.any (·.producerId == p) = false
        rw [hm.2.2.1]
        rfl
      · intro p hp
        have hp' : m.command.closeProducer.any (·.producerId == p) = true := hp
        rw [hm.2.2.2] at hp'
        exact absurd hp' Bool.false_ne_true
    · exact absurd hs (Option.some_ne_none s').symm
  | dropControl =>
    exact Option.some.inj hs ▸ ⟨h.numbered, h.controlIssued, h.dataIssued, h.sendingIssued,
      h.writtenIssued, h.dataCloses, h.located, h.waiting, h.sending, h.inOrder⟩
  | dropData =>
    exact Option.some.inj hs ▸ ⟨h.numbered, h.controlIssued, h.dataIssued, h.sendingIssued,
      h.writtenIssued, h.dataCloses, h.located, h.waiting, h.sending, h.inOrder⟩
  | select => exact h.select hs
  | written =>
    simp only [Outbound.step] at hs
    split at hs
    · rename_i c hph
      exact Option.some.inj hs ▸ h.written hph
    · exact absurd hs (Option.some_ne_none s').symm
  | fail e =>
    simp only [Outbound.step] at hs
    split at hs
    · refine Option.some.inj hs ▸ ⟨h.numbered, h.controlIssued, h.dataIssued, ?_, h.writtenIssued,
        h.dataCloses, fun hne => absurd rfl hne, fun hne => absurd rfl hne, ?_, h.inOrder⟩
      · exact fun c hc => Phase.noConfusion hc
      · exact fun c hc => Phase.noConfusion hc
    · exact absurd hs (Option.some_ne_none s').symm

/-! ## The main result -/

/-- **Headline.**  In every run in which each `close_producer` is issued when no `Send` of its producer
    can be overtaken, every `CloseProducer` on the socket is preceded there by all the `Send`s of its
    producer that were enqueued before it was issued. -/
theorem sends_precede_close {s : State}
    (h : outbound.ReachIf (fun s a => closesDrained s a = true) s) : InOrder s := by
  have hinv : Inv s := by
    refine Sys.ReachIf.inv Inv ?_ (fun _ _ _ hi hok hs => hi.step hok hs) h
    rintro s ⟨n, -, rfl⟩
    exact Inv.init
  exact hinv.inOrder

/-- A `Send` that is on the socket when its producer is closed. -/
theorem sends_precede_close_written : ∃ s : State,
    s.written = [⟨0, Messages.send 7 0 none ⟨{}, []⟩⟩, ⟨1, Messages.closeProducer 7 0⟩] ∧
      InOrder s := by
  obtain ⟨s, hs, hp⟩ := Sys.exists_reachIf_of_execIf (S := outbound) closesDrained
    (p := fun s => s.written ==
      [⟨0, Messages.send 7 0 none ⟨{}, []⟩⟩, ⟨1, Messages.closeProducer 7 0⟩])
    (s := { outboundChannelSize := 1 }) ⟨1, by decide, rfl⟩
    [.send 7 0 none ⟨{}, []⟩, .select, .select, .written, .closeProducer 7, .select, .written]
    (by decide)
  exact ⟨s, eq_of_beq hp, sends_precede_close hs⟩

/-! ## A `CloseProducer` that overtakes -/

/-- A `Send` is enqueued, the producer is closed, the sink runs: the `CloseProducer` is on the socket,
    the `Send` is still in the data channel. -/
theorem closeProducer_overtakes : ¬ ∀ s, outbound.Reach s → InOrder s := by
  intro hall
  obtain ⟨s, hs, hp⟩ := Sys.exists_reach_of_exec (S := outbound)
    (p := fun s => s.written == [⟨1, Messages.closeProducer 7 0⟩] &&
      s.issued == [⟨0, Messages.send 7 0 none ⟨{}, []⟩⟩, ⟨1, Messages.closeProducer 7 0⟩])
    (s := { outboundChannelSize := 1 }) ⟨1, by decide, rfl⟩
    [.send 7 0 none ⟨{}, []⟩, .closeProducer 7, .select, .written] (by decide)
  rw [Bool.and_eq_true] at hp
  have hmem := hall s hs 7 [] ⟨1, Messages.closeProducer 7 0⟩ [] (eq_of_beq hp.1) (by decide)
    ⟨0, Messages.send 7 0 none ⟨{}, []⟩⟩ (by rw [eq_of_beq hp.2]; exact List.mem_cons_self ..)
    (by decide) (by decide)
  exact absurd hmem List.not_mem_nil

/-! ## The condition is exact -/

/-- How often a command is between its issue and the socket, or on it. -/
def copies (s : State) (d : Command) : Nat :=
  s.written.count d + (if s.phase = .sending d then 1 else 0) + s.control.count d + s.data.count d

/-- No command is duplicated or made up. -/
structure Distinct (s : State) : Prop where
  once : ∀ d, copies s d ≤ 1
  issued : ∀ d, 0 < copies s d → d ∈ s.issued
  numbered : ∀ d ∈ s.issued, d.serial < s.serial

theorem Distinct.issue {s s' : State} {c : Command} (h : Distinct s) (hc : c.serial = s.serial)
    (hser : s'.serial = s.serial + 1) (hiss : s'.issued = s.issued ++ [c])
    (hcop : ∀ d, copies s' d = copies s d + if c = d then 1 else 0) : Distinct s' := by
  have hnew : copies s c = 0 := by
    rcases Nat.eq_zero_or_pos (copies s c) with hz | hpos
    · exact hz
    · have hlt := h.numbered c (h.issued c hpos)
      omega
  refine ⟨fun d => ?_, fun d hpos => ?_, fun d hd => ?_⟩
  · have hd := hcop d
    by_cases hcd : c = d
    · subst hcd
      rw [if_pos rfl, hnew] at hd
      omega
    · rw [if_neg hcd] at hd
      rw [hd]
      exact h.once d
  · rw [hiss]
    by_cases hcd : c = d
    · exact List.mem_append_right _ (hcd ▸ List.mem_singleton_self c)
    · rw [hcop d, if_neg hcd] at hpos
      exact List.mem_append_left _ (h.issued d hpos)
  · rw [hser]
    rw [hiss] at hd
    rcases List.mem_append.mp hd with hd | hd
    · exact Nat.lt_succ_of_lt (h.numbered d hd)
    · rw [List.mem_singleton.mp hd, hc]
      exact Nat.lt_succ_self s.serial

theorem Distinct.move {s s' : State} (h : Distinct s) (hser : s'.serial = s.serial)
    (hiss : s'.issued = s.issued) (hcop : ∀ d, copies s' d ≤ copies s d) : Distinct s' := by
  refine ⟨fun d => Nat.le_trans (hcop d) (h.once d), fun d hpos => ?_, fun d hd => ?_⟩
  · rw [hiss]
    exact h.issued d (Nat.lt_of_lt_of_le hpos (hcop d))
  · rw [hser]
    exact h.numbered d (hiss ▸ hd)

theorem Distinct.pushControl {s : State} {m : Message} (h : Distinct s) :
    Distinct (s.pushControl m) := by
  refine h.issue (c := s.issue m) rfl rfl rfl fun d => ?_
  show s.written.count d + (if s.phase = .sending d then 1 else 0)
    + (s.control ++ [s.issue m]).count d + s.data.count d = _
  rw [List.count_append, List.count_singleton]
  unfold copies
  simp only [beq_iff_eq]
  omega

theorem Distinct.pushData {s : State} {m : Message} (h : Distinct s) :
    Distinct (s.pushData m) := by
  refine h.issue (c := s.issue m) rfl rfl rfl fun d => ?_
  show s.written.count d + (if s.phase = .sending d then 1 else 0)
    + s.control.count d + (s.data ++ [s.issue m]).count d = _
  rw [List.count_append, List.count_singleton]
  unfold copies
  simp only [beq_iff_eq]
  omega

theorem Distinct.step {s s' : State} {a : Action} (h : Distinct s) (hs : step s a = some s') :
    Distinct s' := by
  cases a with
  | send producerId sequenceId numMessages payload =>
    simp only [Outbound.step] at hs
    split at hs
    · exact Option.some.inj hs ▸ h.pushData
    · exact absurd hs (Option.some_ne_none s').symm
  | closeProducer producerId =>
    simp only [Outbound.step] at hs
    split at hs
    · have hpush : Distinct (s.pushControl (Messages.closeProducer producerId s.requestId)) :=
        h.pushControl
      exact Option.some.inj hs ▸ ⟨hpush.once, hpush.issued, hpush.numbered⟩
    · exact absurd hs (Option.some_ne_none s').symm
  | command m =>
    simp only [Outbound.step] at hs
    split at hs
    · exact Option.some.inj hs ▸ h.pushControl
    · exact absurd hs (Option.some_ne_none s').symm
  | dropControl => exact Option.some.inj hs ▸ ⟨h.once, h.issued, h.numbered⟩
  | dropData => exact Option.some.inj hs ▸ ⟨h.once, h.issued, h.numbered⟩
  | select =>
    rcases select_cases hs with ⟨c, rest, hph, hc, rfl⟩ | ⟨c, rest, hph, hd, rfl⟩ |
      ⟨phase, rfl, hidle, -⟩
    · refine h.move rfl rfl fun d => ?_
      simp [copies, hph, hc, List.count_cons]
      omega
    · refine h.move rfl rfl fun d => ?_
      simp [copies, hph, hd, List.count_cons]
      omega
    · refine h.move rfl rfl fun d => ?_
      simp [copies, (hidle d).1, (hidle d).2]
  | written =>
    simp only [Outbound.step] at hs
    split at hs
    · rename_i c hph
      refine Option.some.inj hs ▸ h.move rfl rfl fun d => ?_
      simp [copies, hph, List.count_singleton]
    · exact absurd hs (Option.some_ne_none s').symm
  | fail e =>
    simp only [Outbound.step] at hs
    split at hs
    · refine Option.some.inj hs ▸ h.move rfl rfl fun d => ?_
      show s.written.count d + 0 + s.control.count d + s.data.count d ≤ copies s d
      unfold copies
      omega
    · exact absurd hs (Option.some_ne_none s').symm

theorem distinct_of_reach {s : State} (h : outbound.Reach s) : Distinct s := by
  refine Sys.ReachIf.inv Distinct ?_ (fun _ _ _ hi _ hs => hi.step hs) h
  rintro s ⟨n, -, rfl⟩
  exact ⟨fun d => Nat.zero_le 1, fun d hpos => absurd hpos (Nat.lt_irrefl 0),
    fun d hd => absurd hd List.not_mem_nil⟩

/-- What is still in the data channel is not on the socket. -/
theorem Distinct.not_written {s : State} {d : Command} (h : Distinct s) (hd : d ∈ s.data) :
    d ∉ s.written := by
  intro hw
  have hone := h.once d
  have hcd := List.count_pos_iff.mpr hd
  have hcw := List.count_pos_iff.mpr hw
  unfold copies at hone
  omega

/-- The sink alone, from the control channel on: it writes all of it before it looks at the data. -/
theorem writes_control (cs : List Command) (s : State) (hph : s.phase = .selectControl)
    (hc : s.control = cs) : ∃ as t, (∀ a ∈ as, a = .select ∨ a = .written) ∧
      outbound.exec s as = some t ∧ t.written = s.written ++ cs ∧ t.data = s.data ∧
      t.issued = s.issued := by
  induction cs generalizing s with
  | nil =>
    exact ⟨[], s, fun a ha => absurd ha List.not_mem_nil, rfl, (List.append_nil _).symm, rfl, rfl⟩
  | cons c cs ih =>
    obtain ⟨as, t, has, hex, hw, hd, hi⟩ := ih
      { s with phase := .selectControl, control := cs, written := s.written ++ [c] } rfl rfl
    refine ⟨.select :: .written :: as, t, ?_, ?_, ?_, hd, hi⟩
    · intro a ha
      rcases List.mem_cons.mp ha with rfl | ha
      · exact Or.inl rfl
      · rcases List.mem_cons.mp ha with rfl | ha
        · exact Or.inr rfl
        · exact has a ha
    · have hsel : outbound.step s .select = some { s with phase := .sending c, control := cs } := by
        show s.select = _
        unfold State.select
        rw [hph]
        simp only [hc]
      rw [Sys.exec_cons, hsel]
      exact hex
    · rw [hw, List.append_assoc]
      rfl

/-- From any point of its loop the sink can get back to the control channel, by itself, without taking
    an overtakable command. -/
theorem back_to_control {s : State} (hrun : s.phase ≠ .stopped)
    (hdata : s.phase = .selectData → s.data ≠ []) :
    ∃ as t, (∀ a ∈ as, a = .select ∨ a = .written) ∧ outbound.exec s as = some t ∧
      t.phase = .selectControl ∧ t.control = s.control ∧ t.data = overtakable s ∧
      t.issued = s.issued := by
  unfold overtakable
  cases hph : s.phase with
  | selectControl =>
    rw [if_neg Phase.noConfusion]
    exact ⟨[], s, fun a ha => absurd ha List.not_mem_nil, rfl, hph, rfl, rfl, rfl⟩
  | selectData =>
    rw [if_pos rfl]
    obtain ⟨x, rest, hd⟩ := List.exists_cons_of_ne_nil (hdata hph)
    refine ⟨[.select, .written],
      { s with phase := .selectControl, data := rest, written := s.written ++ [x] }, ?_, ?_, rfl,
      rfl, ?_, rfl⟩
    · intro a ha
      rcases List.mem_cons.mp ha with rfl | ha
      · exact Or.inl rfl
      · exact Or.inr (List.mem_singleton.mp ha)
    · have hsel : outbound.step s .select = some { s with phase := .sending x, data := rest } := by
        show s.select = _
        unfold State.select
        rw [hph]
        simp only [hd]
      rw [Sys.exec_cons, hsel]
      rfl
    · rw [hd]
      rfl
  | sending c =>
    rw [if_neg Phase.noConfusion]
    refine ⟨[.written], { s with phase := .selectControl, written := s.written ++ [c] }, ?_, ?_,
      rfl, rfl, rfl, rfl⟩
    · intro a ha
      exact Or.inr (List.mem_singleton.mp ha)
    · have hwr : outbound.step s .written
          = some { s with phase := .selectControl, written := s.written ++ [c] } := by
        show Outbound.step s .written = _
        simp only [Outbound.step]
        rw [hph]
      rw [Sys.exec_cons, hwr]
      rfl
  | stopped => exact absurd hph hrun

/-- **Exactness.**  Whenever a `close_producer` is issued while a `Send` of its producer can be
    overtaken, the sink task alone takes the connection to a state that is out of order. -/
theorem overtaken_of_not_drained {s s' : State} {producerId : Nat} (h : outbound.Reach s)
    (hs : step s (.closeProducer producerId) = some s') (hnd : drained s producerId = false) :
    ∃ as t, (∀ a ∈ as, a = .select ∨ a = .written) ∧ outbound.exec s' as = some t ∧
      ¬ InOrder t := by
  obtain ⟨d, hd, hsends⟩ : ∃ d ∈ overtakable s, d.sends producerId = true := by
    by_contra hno
    rw [drained, ← Bool.not_eq_true, List.all_eq_true] at hnd
    refine hnd fun c hc => ?_
    rw [Bool.not_eq_true', ← Bool.not_eq_true]
    exact fun hcs => hno ⟨c, hc, hcs⟩
  have hdata : d ∈ s.data := by
    unfold overtakable at hd
    split at hd
    · exact List.mem_of_mem_tail hd
    · exact hd
  have hdist := distinct_of_reach h
  have hissued : d ∈ s.issued := by
    refine hdist.issued d ?_
    have hpos := List.count_pos_iff.mpr hdata
    unfold copies
    omega
  have hs' := hs
  simp only [Outbound.step] at hs'
  split at hs'
  · rename_i hopen
    obtain rfl := Option.some.inj hs'
    obtain ⟨as, t, has, hex, hph, hctl, hover, hiss⟩ := back_to_control (s := { s.pushControl
      (Messages.closeProducer producerId s.requestId) with requestId := s.requestId + 1 })
      hopen.1 fun _ => List.ne_nil_of_mem hdata
    obtain ⟨bs, u, hbs, hexu, hwu, hdu, hiu⟩ := writes_control t.control t hph rfl
    have hreach : outbound.Reach u := by
      have hst := Sys.ReachIf.step (S := outbound) (a := .closeProducer producerId) h trivial hs
      exact (hst.exec as (Sys.guarded_true as _) hex).exec bs (Sys.guarded_true bs _) hexu
    have hdu' : d ∈ u.data := by
      rw [hdu, hover]
      exact hd
    refine ⟨as ++ bs, u, ?_, ?_, fun hin => ?_⟩
    · intro a ha
      rcases List.mem_append.mp ha with ha | ha
      · exact has a ha
      · exact hbs a ha
    · rw [Sys.exec_append, hex]
      exact hexu
    · -- the `CloseProducer` is the last command written, and `d` is not among those before it
      have hlast : u.written = (t.written ++ s.control) ++
          s.issue (Messages.closeProducer producerId s.requestId) :: [] := by
        rw [hwu, hctl, List.append_assoc]
        rfl
      have hclose : (s.issue (Messages.closeProducer producerId s.requestId)).closes producerId
          = true := beq_self_eq_true producerId
      have hmem : d ∈ u.issued := by
        rw [hiu, hiss]
        exact List.mem_append_left _ hissued
      have hpre := hin producerId _ _ _ hlast hclose d hmem (hdist.numbered d hissued) hsends
      exact (distinct_of_reach hreach).not_written hdu' (hlast ▸ List.mem_append_left _ hpre)
  · exact absurd hs' (Option.some_ne_none s').symm

end PulsarClient.Connection.Outbound
