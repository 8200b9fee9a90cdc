/-
  PINGS — any number of `send_ping` calls on one connection, and the broker that answers them.

  `send_ping` pushes a `Register::Ping` with its oneshot, then a Ping command, and waits for the
  oneshot or a timeout.  The receiver keeps ONE slot for the waiting oneshot: a `Register::Ping`
  overwrites it, a Pong takes it.  The keep-alive task and every `check_connection` call share it.

  The connection here is alive: nobody shuts it down, the socket neither fails nor ends, the sink
  task writes, and the broker answers EVERY Ping.  A timeout is long against all of that: it fires
  only when nothing is under way any more (`settled`) — no call between its registration and its Ping,
  no Ping waiting to be written or answered, no Pong waiting to be read.

  1. `overlapping_pings_fail` — even so a `send_ping` can fail and mark the healthy connection failed:
     two calls overlap, the second registration drops the oneshot of the first.

  2. `pings_return_ok` — the condition under which this does not happen (`slotFree`): the receiver
     takes a `Register::Ping` only while the slot is empty, and a Pong only while it is full.  The
     argument is a BALANCE: registrations not yet completed are as many as Pings not yet answered.
-/
import PulsarClient.Connection.Receiver
import PulsarClient.Lib.Runs

namespace PulsarClient.Connection.Ping

open Runs Receiver

/-! ## The system -/

/-- The oneshot of a `send_ping` call. -/
inductive Oneshot where
  | empty | sent | canceled
  deriving DecidableEq, Repr

/-- What the effects of a receiver step do to the oneshots of the calls. -/
def settle (oneshot : Nat → Oneshot) : List Effect → Nat → Oneshot
  | [] => oneshot
  | .pong c :: es => settle (Function.update oneshot c .sent) es
  | .cancelPing c :: es => settle (Function.update oneshot c .canceled) es
  | _ :: es => settle oneshot es

/-- A live connection and its `send_ping` calls, which are numbered in the order they register. -/
structure State where
  phase : Phase := .idle
  rx : Receiver := {}
  /-- the number of the next call -/
  next : Nat := 0
  /-- calls that have registered and not yet pushed their Ping -/
  entering : List Nat := []
  /-- calls that wait for their oneshot or their timeout -/
  waiting : List Nat := []
  oneshot : Nat → Oneshot := fun _ => .empty
  /-- Pings on the socket that the broker has not answered yet -/
  wire : Nat := 0
  /-- calls that have returned; `none` is `Ok(())` -/
  returned : List (Nat × Option ConnectionError) := []

inductive Action where
  /-- `send_ping`: push `Register::Ping` -/
  | register
  /-- `send_ping`: push the Ping command and start the timeout -/
  | push (c : Nat)
  /-- `send_ping`: the oneshot is decided -/
  | finish (c : Nat)
  /-- `send_ping`: the timeout fires first -/
  | timeout (c : Nat)
  /-- the caller drops its `send_ping` -/
  | drop (c : Nat)
  /-- the sink task writes the next control command to the socket -/
  | write
  /-- the broker answers a Ping -/
  | answer
  /-- anything else the socket delivers -/
  | arrive (m : Message)
  /-- any other registration -/
  | enqueue (reg : Register)
  /-- any other control command -/
  | control (m : Message)
  /-- the receiver task takes a step -/
  | poll
  deriving DecidableEq, Repr

def isPing (m : Message) : Bool := m.command.ping.isSome

/-- What the receiver takes for a Pong: `ping` is looked at first. -/
def isPong (m : Message) : Bool := !m.command.ping.isSome && m.command.pong.isSome

def Inbound.isPong : Inbound → Bool
  | .msg m => Ping.isPong m
  | .err _ => false

namespace State

/-- The calls whose registration the receiver has not taken yet. -/
def queued (s : State) : List Nat :=
  s.rx.registrations.filterMap fun
    | .Ping c => some c
    | _ => none

/-- Pings not yet written. -/
def unwritten (s : State) : Nat := s.rx.control.countP isPing

/-- Pongs not yet read. -/
def unread (s : State) : Nat := s.rx.inbound.countP Inbound.isPong

/-- Nothing is under way. -/
def settled (s : State) : Bool :=
  s.entering.isEmpty && s.unwritten == 0 && s.wire == 0 && s.unread == 0

/-- A call returns. -/
def ret (s : State) (c : Nat) (res : Option ConnectionError) : State :=
  { s with waiting := s.waiting.erase c, returned := s.returned ++ [(c, res)] }

/-- Mark the connection failed. -/
def setError (s : State) (e : ConnectionError) : State :=
  { s with rx := { s.rx with error := s.rx.error.set e } }

def poll (s : State) : Option State :=
  match s.rx.poll s.phase with
  | none => none
  | some (phase, rx, effects) => some { s with phase, rx, oneshot := settle s.oneshot effects }

end State

def step (s : State) : Action → Option State
  | .register =>
    some { s with
      rx := { s.rx with registrations := s.rx.registrations ++ [.Ping s.next] }
      next := s.next + 1
      entering := s.next :: s.entering }
  | .push c =>
    if c ∈ s.entering then
      some { s with
        rx := { s.rx with control := s.rx.control ++ [Messages.ping] }
        entering := s.entering.erase c
        waiting := c :: s.waiting }
    else none
  | .finish c =>
    if c ∈ s.waiting then
      match s.oneshot c with
      | .sent => some (s.ret c none)
      | .canceled => some ((s.setError .Disconnected).ret c (some .Disconnected))
      | .empty => none
    else none
  | .timeout c =>
    if c ∈ s.waiting ∧ s.oneshot c = .empty ∧ s.settled = true then
      some ((s.setError (.Io .TimedOut)).ret c (some (.Io .TimedOut)))
    else none
  | .drop c => if c ∈ s.waiting then some { s with waiting := s.waiting.erase c } else none
  | .write =>
    match s.rx.control with
    | [] => none
    | m :: rest =>
      some { s with
        rx := { s.rx with control := rest }
        wire := if isPing m then s.wire + 1 else s.wire }
  | .answer =>
    if 0 < s.wire then
      some { s with
        rx := { s.rx with inbound := s.rx.inbound ++ [.msg Messages.pong] }
        wire := s.wire - 1 }
    else none
  | .arrive m =>
    if isPong m then none
    else some { s with rx := { s.rx with inbound := s.rx.inbound ++ [.msg m] } }
  | .enqueue reg =>
    match reg with
    | .Ping _ => none
    | reg => some { s with rx := { s.rx with registrations := s.rx.registrations ++ [reg] } }
  | .control m =>
    if isPing m then none else some { s with rx := { s.rx with control := s.rx.control ++ [m] } }
  | .poll => s.poll

/-- The connection from the moment its tasks are spawned. -/
def pings : Sys State Action where
  init s := s = {}
  step := step

/-- The receiver takes a `Register::Ping` only while its slot is empty, and a Pong only while it is
    full. -/
def slotFree (s : State) (a : Action) : Bool :=
  match a, s.phase with
  | .poll, .registrations =>
    match s.rx.registrations with
    | .Ping _ :: _ => s.rx.ping.isNone
    | _ => true
  | .poll, .inbound =>
    match s.rx.inbound with
    | item :: _ => !Inbound.isPong item || s.rx.ping.isSome
    | [] => true
  | _, _ => true

/-! ## What one poll step does -/

theorem settle_of_not_onPing (oneshot : Nat → Oneshot) {es : List Effect}
    (h : ∀ e ∈ es, e.onPing = false) : settle oneshot es = oneshot := by
  induction es with
  | nil => rfl
  | cons e es ih =>
    have hrest := ih fun e' he' => h e' (List.mem_cons_of_mem e he')
    have he := h e (List.mem_cons_self ..)
    cases e with
    | resolve r m => exact hrest
    | cancel r => exact hrest
    | deliver r m => exact hrest
    | pong c => exact absurd he.symm Bool.false_ne_true
    | cancelPing c => exact absurd he.symm Bool.false_ne_true

/-- Nothing but the pings has touched the connection. -/
structure Alive (rx : Receiver) : Prop where
  noError : rx.error.isSet = false
  controlOpen : rx.controlClosed = false
  inboundOpen : rx.inboundClosed = false
  registrationsOpen : rx.registrationsClosed = false
  noFailure : ∀ e, Inbound.err e ∉ rx.inbound

/-- The three things a step of the receiver can do to the pings. -/
inductive PollStep (s s' : State) : Prop where
  /-- neither a `Register::Ping` nor a Pong was taken -/
  | quiet (hq : s'.queued = s.queued) (hslot : s'.rx.ping = s.rx.ping)
      (hunread : s'.unread = s.unread) (hunwritten : s'.unwritten = s.unwritten)
      (hone : s'.oneshot = s.oneshot)
  /-- a `Register::Ping` was taken -/
  | register (c : Nat) (hq : s.queued = c :: s'.queued) (hslot : s'.rx.ping = some c)
      (hfree : slotFree s .poll = true → s.rx.ping = none)
      (hunread : s'.unread = s.unread) (hunwritten : s'.unwritten = s.unwritten)
      (hone : s.rx.ping = none → s'.oneshot = s.oneshot)
  /-- a Pong was taken -/
  | pong (hq : s'.queued = s.queued) (hslot : s'.rx.ping = none)
      (hfull : slotFree s .poll = true → s.rx.ping ≠ none)
      (hunread : s.unread = s'.unread + 1) (hunwritten : s'.unwritten = s.unwritten)
      (hone : ∀ c, s.rx.ping = some c → s'.oneshot = Function.update s.oneshot c .sent)

theorem pollStep_registrations {s s' : State} (ha : Alive s.rx) (hph : s.phase = .registrations)
    (h : s.poll = some s') : PollStep s s' ∧ Alive s'.rx := by
  unfold State.poll at h
  cases hreg : s.rx.registrations with
  | nil =>
    simp [Receiver.poll, hph, hreg, ha.registrationsOpen] at h
    subst h
    exact ⟨.quiet rfl rfl rfl rfl rfl, ha⟩
  | cons reg rest =>
    simp only [Receiver.poll, hph, hreg, Option.some.injEq] at h
    by_cases hp : ∃ c, reg = .Ping c
    · obtain ⟨c, rfl⟩ := hp
      subst h
      refine ⟨.register c (by simp [State.queued, hreg]; rfl) rfl ?_ rfl rfl ?_, ?_⟩
      · intro hfree
        simpa [slotFree, hph, hreg] using hfree
      · intro hnone
        simp [handleRegistration, hnone, settle]
      · exact ⟨ha.noError, ha.controlOpen, ha.inboundOpen, ha.registrationsOpen, ha.noFailure⟩
    · obtain ⟨p, q, cs, heq, hes⟩ :=
        ({ s.rx with registrations := rest } : Receiver).handleRegistration_frame
          fun c hc => hp ⟨c, hc⟩
      rw [heq] at h
      subst h
      refine ⟨.quiet ?_ rfl rfl rfl (settle_of_not_onPing _ hes), ?_⟩
      · cases reg with
        | Ping c => exact absurd ⟨c, rfl⟩ hp
        | Request key r => simp [State.queued, hreg]
        | Consumer c r => simp [State.queued, hreg]
        | RemoveConsumer c => simp [State.queued, hreg]
      · exact ⟨ha.noError, ha.controlOpen, ha.inboundOpen, ha.registrationsOpen, ha.noFailure⟩

theorem pollStep_inbound {s s' : State} (ha : Alive s.rx) (hph : s.phase = .inbound)
    (h : s.poll = some s') : PollStep s s' ∧ Alive s'.rx := by
  unfold State.poll at h
  cases hin : s.rx.inbound with
  | nil =>
    simp [Receiver.poll, hph, hin, ha.inboundOpen] at h
    subst h
    exact ⟨.quiet rfl rfl rfl rfl rfl, ha⟩
  | cons item rest =>
    cases item with
    | err e => exact absurd (hin ▸ List.mem_cons_self ..) (ha.noFailure e)
    | msg m =>
      have hrest : ∀ e, Inbound.err e ∉ rest := fun e he =>
        ha.noFailure e (hin ▸ List.mem_cons_of_mem _ he)
      simp only [Receiver.poll, hph, hin, Option.some.injEq] at h
      cases hping : m.command.ping.isSome with
      | true =>
        simp [handleInbound, hping, ha.controlOpen] at h
        subst h
        refine ⟨.quiet rfl rfl ?_ ?_ rfl, ?_⟩
        · simp [State.unread, hin, Inbound.isPong, Ping.isPong, hping]
        · simp [State.unwritten, List.countP_append, isPing, Messages.pong]
        · exact ⟨ha.noError, rfl, ha.inboundOpen, ha.registrationsOpen, hrest⟩
      | false =>
        cases hpong : m.command.pong.isSome with
        | true =>
          simp only [handleInbound, hping, hpong] at h
          subst h
          refine ⟨.pong rfl rfl ?_ ?_ rfl ?_, ?_⟩
          · intro hfull hnone
            simp [slotFree, hph, hin, Inbound.isPong, Ping.isPong, hping, hpong, hnone] at hfull
          · simp [State.unread, hin, Inbound.isPong, Ping.isPong, hping, hpong]
          · intro c hc
            simp [hc, settle]
          · exact ⟨ha.noError, ha.controlOpen, ha.inboundOpen, ha.registrationsOpen, hrest⟩
        | false =>
          obtain ⟨p, q, n, heq, hes⟩ :=
            ({ s.rx with inbound := rest } : Receiver).handleInbound_frame hping hpong
          rw [heq] at h
          subst h
          refine ⟨.quiet rfl rfl ?_ rfl (settle_of_not_onPing _ hes), ?_⟩
          · simp [State.unread, hin, Inbound.isPong, Ping.isPong, hpong]
          · exact ⟨ha.noError, ha.controlOpen, ha.inboundOpen, ha.registrationsOpen, hrest⟩

/-- **Every poll step of a live connection is one of the three, and leaves it alive.** -/
theorem pollStep {s s' : State} (ha : Alive s.rx) (h : s.poll = some s') :
    PollStep s s' ∧ Alive s'.rx := by
  cases hph : s.phase with
  | idle =>
    unfold State.poll at h
    by_cases hs : s.rx.shutdown = true
    · simp [Receiver.poll, hph, hs] at h
      subst h
      exact ⟨.quiet rfl rfl rfl rfl rfl, ha⟩
    · simp [Receiver.poll, hph, hs] at h
      subst h
      exact ⟨.quiet rfl rfl rfl rfl rfl, ha⟩
  | registrations => exact pollStep_registrations ha hph h
  | inbound => exact pollStep_inbound ha hph h
  | done => simp [State.poll, Receiver.poll, hph] at h

/-! ## The balance -/

/-- What holds between any two steps of a run in which the slot is never overwritten. -/
structure Inv (s : State) : Prop where
  alive : Alive s.rx
  /-- **The balance**: registrations not yet completed are as many as Pings not yet answered. -/
  balance : s.queued.length + s.rx.ping.toList.length =
    s.entering.length + s.unwritten + s.wire + s.unread
  /-- a call without its answer has its oneshot with the receiver -/
  held : ∀ c, c ∈ s.entering ∨ c ∈ s.waiting → s.oneshot c = .empty →
    c ∈ s.queued ∨ s.rx.ping = some c
  notCanceled : ∀ c, s.oneshot c ≠ .canceled
  returnedOk : ∀ c res, (c, res) ∈ s.returned → res = none

theorem frame_poll {s s' : State} (h : s.poll = some s') :
    s'.entering = s.entering ∧ s'.waiting = s.waiting ∧ s'.wire = s.wire ∧
      s'.returned = s.returned := by
  unfold State.poll at h
  split at h
  · exact absurd h (Option.some_ne_none s').symm
  · obtain rfl := Option.some.inj h
    exact ⟨rfl, rfl, rfl, rfl⟩

theorem Inv.poll {s s' : State} (h : Inv s) (hok : slotFree s .poll = true)
    (hs : s.poll = some s') : Inv s' := by
  obtain ⟨hstep, halive⟩ := pollStep h.alive hs
  obtain ⟨hent, hwait, hwire, hret⟩ := frame_poll hs
  have hbal := h.balance
  cases hstep with
  | quiet hq hslot hunread hunwritten hone =>
    refine ⟨halive, ?_, ?_, ?_, ?_⟩
    · rw [hq, hslot, hent, hunwritten, hwire, hunread]
      exact hbal
    · rw [hent, hwait, hone, hq, hslot]
      exact h.held
    · rw [hone]
      exact h.notCanceled
    · rw [hret]
      exact h.returnedOk
  | register c hq hslot hfree hunread hunwritten hone =>
    have hnone := hfree hok
    refine ⟨halive, ?_, ?_, ?_, ?_⟩
    · rw [hq, hnone] at hbal
      rw [hslot, hent, hunwritten, hwire, hunread, ← hbal]
      simp
    · rw [hent, hwait, hone hnone, hslot]
      intro c' hc' hempty
      rcases h.held c' hc' hempty with hin | hin
      · rw [hq] at hin
        rcases List.mem_cons.mp hin with rfl | hin
        · exact Or.inr rfl
        · exact Or.inl hin
      · rw [hnone] at hin
        exact absurd hin (Option.some_ne_none c').symm
    · rw [hone hnone]
      exact h.notCanceled
    · rw [hret]
      exact h.returnedOk
  | pong hq hslot hfull hunread hunwritten hone =>
    obtain ⟨c, hc⟩ := Option.ne_none_iff_exists'.mp (hfull hok)
    refine ⟨halive, ?_, ?_, ?_, ?_⟩
    · rw [hc, hunread] at hbal
      rw [hq, hslot, hent, hunwritten, hwire]
      simp at hbal ⊢
      omega
    · rw [hent, hwait, hone c hc, hq]
      intro c' hc' hempty
      by_cases hcc : c' = c
      · subst hcc
        rw [Function.update_self] at hempty
        exact Oneshot.noConfusion hempty
      · rw [Function.update_of_ne hcc] at hempty
        rcases h.held c' hc' hempty with hin | hin
        · exact Or.inl hin
        · rw [hc, Option.some.injEq] at hin
          exact absurd hin.symm hcc
    · intro c'
      rw [hone c hc]
      by_cases hcc : c' = c
      · subst hcc
        rw [Function.update_self]
        exact Oneshot.noConfusion
      · rw [Function.update_of_ne hcc]
        exact h.notCanceled c'
    · rw [hret]
      exact h.returnedOk

/-- When nothing is under way, no call is left without its answer. -/
theorem Inv.answered_of_settled {s : State} (h : Inv s) (hset : s.settled = true) {c : Nat}
    (hc : c ∈ s.waiting) : s.oneshot c ≠ .empty := by
  intro hempty
  have hbal := h.balance
  simp only [State.settled, Bool.and_eq_true, List.isEmpty_iff, beq_iff_eq] at hset
  obtain ⟨⟨⟨hent, hunwritten⟩, hwire⟩, hunread⟩ := hset
  rw [hent, hunwritten, hwire, hunread] at hbal
  rcases h.held c (Or.inr hc) hempty with hin | hin
  · have hpos := List.length_pos_of_mem hin
    rw [List.length_nil] at hbal
    omega
  · rw [hin] at hbal
    simp at hbal

/-! ## The other steps -/

theorem queued_concat (s : State) (c next : Nat) (entering : List Nat) :
    State.queued { s with
      rx := { s.rx with registrations := s.rx.registrations ++ [.Ping c] }
      next, entering } = s.queued ++ [c] := by
  simp [State.queued]

theorem Inv.register {s : State} (h : Inv s) :
    Inv { s with
      rx := { s.rx with registrations := s.rx.registrations ++ [.Ping s.next] }
      next := s.next + 1
      entering := s.next :: s.entering } := by
  have hbal := h.balance
  refine ⟨⟨h.alive.noError, h.alive.controlOpen, h.alive.inboundOpen, h.alive.registrationsOpen,
    h.alive.noFailure⟩, ?_, ?_, h.notCanceled, h.returnedOk⟩
  · show (State.queued _).length + s.rx.ping.toList.length
      = (s.next :: s.entering).length + s.unwritten + s.wire + s.unread
    rw [queued_concat, List.length_append, List.length_singleton, List.length_cons]
    omega
  · intro c hc hempty
    show c ∈ State.queued _ ∨ s.rx.ping = some c
    rw [queued_concat, List.mem_append, List.mem_singleton]
    by_cases hcn : c = s.next
    · exact Or.inl (Or.inr hcn)
    · have hc' : c ∈ s.entering ∨ c ∈ s.waiting := by
        rcases hc with hc | hc
        · exact Or.inl (List.mem_of_ne_of_mem hcn hc)
        · exact Or.inr hc
      rcases h.held c hc' hempty with hin | hin
      · exact Or.inl (Or.inl hin)
      · exact Or.inr hin

theorem Inv.push {s : State} {c : Nat} (h : Inv s) (hc : c ∈ s.entering) :
    Inv { s with
      rx := { s.rx with control := s.rx.control ++ [Messages.ping] }
      entering := s.entering.erase c
      waiting := c :: s.waiting } := by
  have hbal := h.balance
  refine ⟨⟨h.alive.noError, h.alive.controlOpen, h.alive.inboundOpen, h.alive.registrationsOpen,
    h.alive.noFailure⟩, ?_, ?_, h.notCanceled, h.returnedOk⟩
  · show s.queued.length + s.rx.ping.toList.length = (s.entering.erase c).length
      + (s.rx.control ++ [Messages.ping]).countP isPing + s.wire + s.unread
    have hlen := List.length_erase_of_mem hc
    have hpos := List.length_pos_of_mem hc
    have hone : List.countP isPing [Messages.ping] = 1 := rfl
    rw [List.countP_append, hone, hlen]
    have hu : s.unwritten = s.rx.control.countP isPing := rfl
    omega
  · intro c' hc' hempty
    refine h.held c' ?_ hempty
    rcases hc' with hc' | hc'
    · exact Or.inl (List.mem_of_mem_erase hc')
    · rcases List.mem_cons.mp hc' with rfl | hc'
      · exact Or.inl hc
      · exact Or.inr hc'

/-- A call that returns `Ok(())`, or is dropped. -/
theorem Inv.leave {s : State} {c : Nat} (h : Inv s) {returned : List (Nat × Option ConnectionError)}
    (hret : ∀ c res, (c, res) ∈ returned → res = none) :
    Inv { s with waiting := s.waiting.erase c, returned } := by
  refine ⟨h.alive, h.balance, ?_, h.notCanceled, hret⟩
  intro c' hc' hempty
  refine h.held c' ?_ hempty
  rcases hc' with hc' | hc'
  · exact Or.inl hc'
  · exact Or.inr (List.mem_of_mem_erase hc')

theorem Inv.write {s : State} {m : Message} {rest : List Message} (h : Inv s)
    (hctl : s.rx.control = m :: rest) :
    Inv { s with
      rx := { s.rx with control := rest }
      wire := if isPing m then s.wire + 1 else s.wire } := by
  have hbal := h.balance
  refine ⟨⟨h.alive.noError, h.alive.controlOpen, h.alive.inboundOpen, h.alive.registrationsOpen,
    h.alive.noFailure⟩, ?_, h.held, h.notCanceled, h.returnedOk⟩
  show s.queued.length + s.rx.ping.toList.length = s.entering.length
    + rest.countP isPing + (if isPing m then s.wire + 1 else s.wire) + s.unread
  have hu : s.unwritten = rest.countP isPing + if isPing m then 1 else 0 := by
    unfold State.unwritten
    rw [hctl, List.countP_cons]
  by_cases hm : isPing m = true
  · rw [if_pos hm] at hu ⊢
    omega
  · rw [if_neg hm] at hu ⊢
    omega

theorem Inv.answer {s : State} (h : Inv s) (hpos : 0 < s.wire) :
    Inv { s with
      rx := { s.rx with inbound := s.rx.inbound ++ [.msg Messages.pong] }
      wire := s.wire - 1 } := by
  have hbal := h.balance
  refine ⟨⟨h.alive.noError, h.alive.controlOpen, h.alive.inboundOpen, h.alive.registrationsOpen,
    ?_⟩, ?_, h.held, h.notCanceled, h.returnedOk⟩
  · intro e he
    rcases List.mem_append.mp he with he | he
    · exact h.alive.noFailure e he
    · exact Inbound.noConfusion (List.mem_singleton.mp he)
  · show s.queued.length + s.rx.ping.toList.length = s.entering.length + s.unwritten
      + (s.wire - 1) + (s.rx.inbound ++ [Inbound.msg Messages.pong]).countP Inbound.isPong
    have hone : [Inbound.msg Messages.pong].countP Inbound.isPong = 1 := rfl
    rw [List.countP_append, hone]
    have hu : s.unread = s.rx.inbound.countP Inbound.isPong := rfl
    omega

theorem Inv.arrive {s : State} {m : Message} (h : Inv s) (hm : isPong m = false) :
    Inv { s with rx := { s.rx with inbound := s.rx.inbound ++ [.msg m] } } := by
  refine ⟨⟨h.alive.noError, h.alive.controlOpen, h.alive.inboundOpen, h.alive.registrationsOpen,
    ?_⟩, ?_, h.held, h.notCanceled, h.returnedOk⟩
  · intro e he
    rcases List.mem_append.mp he with he | he
    · exact h.alive.noFailure e he
    · exact Inbound.noConfusion (List.mem_singleton.mp he)
  · show s.queued.length + s.rx.ping.toList.length = s.entering.length + s.unwritten
      + s.wire + (s.rx.inbound ++ [Inbound.msg m]).countP Inbound.isPong
    have hzero : [Inbound.msg m].countP Inbound.isPong = 0 := by simp [Inbound.isPong, hm]
    rw [List.countP_append, hzero]
    exact h.balance

theorem Inv.enqueue {s : State} {reg : Register} (h : Inv s) (hreg : ∀ c, reg ≠ .Ping c) :
    Inv { s with rx := { s.rx with registrations := s.rx.registrations ++ [reg] } } := by
  have hq : State.queued { s with rx := { s.rx with registrations := s.rx.registrations ++ [reg] } }
      = s.queued := by
    cases reg with
    | Ping c => exact absurd rfl (hreg c)
    | Request key r => simp [State.queued]
    | Consumer c r => simp [State.queued]
    | RemoveConsumer c => simp [State.queued]
  refine ⟨⟨h.alive.noError, h.alive.controlOpen, h.alive.inboundOpen, h.alive.registrationsOpen,
    h.alive.noFailure⟩, ?_, ?_, h.notCanceled, h.returnedOk⟩
  · rw [hq]
    exact h.balance
  · rw [hq]
    exact h.held

theorem Inv.control {s : State} {m : Message} (h : Inv s) (hm : isPing m = false) :
    Inv { s with rx := { s.rx with control := s.rx.control ++ [m] } } := by
  refine ⟨⟨h.alive.noError, h.alive.controlOpen, h.alive.inboundOpen, h.alive.registrationsOpen,
    h.alive.noFailure⟩, ?_, h.held, h.notCanceled, h.returnedOk⟩
  show s.queued.length + s.rx.ping.toList.length = s.entering.length
    + (s.rx.control ++ [m]).countP isPing + s.wire + s.unread
  have hzero : List.countP isPing [m] = 0 := by simp [hm]
  rw [List.countP_append, hzero]
  exact h.balance

/-- **The step lemma.** -/
theorem Inv.step {s s' : State} {a : Action} (h : Inv s) (hok : slotFree s a = true)
    (hs : step s a = some s') : Inv s' := by
  cases a with
  | register => exact Option.some.inj hs ▸ h.register
  | push c =>
    simp only [Ping.step] at hs
    split at hs
    · rename_i hc
      exact Option.some.inj hs ▸ h.push hc
    · exact absurd hs (Option.some_ne_none s').symm
  | finish c =>
    simp only [Ping.step] at hs
    split at hs
    · split at hs
      · refine Option.some.inj hs ▸ h.leave ?_
        intro c' res hmem
        rcases List.mem_append.mp hmem with hmem | hmem
        · exact h.returnedOk c' res hmem
        · exact (Prod.mk.inj (List.mem_singleton.mp hmem)).2
      · rename_i hcan
        exact absurd hcan (h.notCanceled c)
      · exact absurd hs (Option.some_ne_none s').symm
    · exact absurd hs (Option.some_ne_none s').symm
  | timeout c =>
    simp only [Ping.step] at hs
    split at hs
    · rename_i hc
      exact absurd hc.2.1 (h.answered_of_settled hc.2.2 hc.1)
    · exact absurd hs (Option.some_ne_none s').symm
  | drop c =>
    simp only [Ping.step] at hs
    split at hs
    · exact Option.some.inj hs ▸ h.leave h.returnedOk
    · exact absurd hs (Option.some_ne_none s').symm
  | write =>
    simp only [Ping.step] at hs
    split at hs
    · exact absurd hs (Option.some_ne_none s').symm
    · rename_i m rest hctl
      exact Option.some.inj hs ▸ h.write hctl
  | answer =>
    simp only [Ping.step] at hs
    split at hs
    · rename_i hpos
      exact Option.some.inj hs ▸ h.answer hpos
    · exact absurd hs (Option.some_ne_none s').symm
  | arrive m =>
    simp only [Ping.step] at hs
    split at hs
    · exact absurd hs (Option.some_ne_none s').symm
    · rename_i hm
      exact Option.some.inj hs ▸ h.arrive (Bool.not_eq_true _ ▸ hm)
  | enqueue reg =>
    simp only [Ping.step] at hs
    split at hs
    · exact absurd hs (Option.some_ne_none s').symm
    · rename_i hreg
      exact Option.some.inj hs ▸ h.enqueue hreg
  | control m =>
    simp only [Ping.step] at hs
    split at hs
    · exact absurd hs (Option.some_ne_none s').symm
    · rename_i hm
      exact Option.some.inj hs ▸ h.control (Bool.not_eq_true _ ▸ hm)
  | poll => exact h.poll hok hs

theorem Inv.init : Inv {} := by
  refine ⟨⟨rfl, rfl, rfl, rfl, fun e he => absurd he List.not_mem_nil⟩, rfl, ?_, ?_, ?_⟩
  · rintro c (hc | hc)
    · exact absurd hc List.not_mem_nil
    · exact absurd hc List.not_mem_nil
  · exact fun c => Oneshot.noConfusion
  · exact fun c res hmem => absurd hmem List.not_mem_nil

/-- **Headline.**  In every run in which the slot is never overwritten and no Pong finds it empty,
    every `send_ping` that has returned has returned `Ok(())`, none has marked the connection failed,
    and once nothing is under way every call that still waits has its Pong. -/
theorem pings_return_ok {s : State} (h : pings.ReachIf (fun s a => slotFree s a = true) s) :
    (∀ c res, (c, res) ∈ s.returned → res = none) ∧ s.rx.error.isSet = false ∧
      (s.settled = true → ∀ c ∈ s.waiting, s.oneshot c = .sent) := by
  have hinv : Inv s := by
    refine Sys.ReachIf.inv Inv ?_ (fun _ _ _ hi hok hs => hi.step hok hs) h
    rintro s rfl
    exact Inv.init
  refine ⟨hinv.returnedOk, hinv.alive.noError, fun hset c hc => ?_⟩
  have hne := hinv.answered_of_settled hset hc
  have hnc := hinv.notCanceled c
  cases ho : s.oneshot c with
  | empty => exact absurd ho hne
  | canceled => exact absurd ho hnc
  | sent => rfl

/-- Two calls one after the other, on one connection. -/
theorem pings_return_ok_in_turn :
    ∃ s : State, s.returned = [(0, none), (1, none)] ∧ s.rx.error.isSet = false := by
  obtain ⟨s, hs, hp⟩ := Sys.exists_reachIf_of_execIf (S := pings) slotFree
    (p := fun s => s.returned == [(0, none), (1, none)]) (s := {}) rfl
    [.register, .push 0, .poll, .poll, .poll, .write, .answer, .poll, .finish 0,
      .poll, .register, .push 1, .poll, .poll, .poll, .write, .answer, .poll, .finish 1] (by decide)
  exact ⟨s, eq_of_beq hp, (pings_return_ok hs).2.1⟩

/-! ## Overlapping pings -/

/-- Two overlapping calls: the second registration cancels the first, whose caller then marks the
    connection failed — although both Pings are written and both are answered. -/
theorem overlapping_pings_fail :
    ¬ ∀ s, pings.Reach s → (∀ c res, (c, res) ∈ s.returned → res = none) ∧
      s.rx.error.isSet = false := by
  intro hall
  obtain ⟨s, hs, hp⟩ := Sys.exists_reach_of_exec (S := pings)
    (p := fun s => s.returned == [(0, some ConnectionError.Disconnected), (1, none)]) (s := {}) rfl
    [.register, .push 0, .register, .push 1, .poll, .poll, .poll, .write, .write, .answer, .answer,
      .poll, .poll, .poll, .finish 0, .finish 1] (by decide)
  have hret := (hall s hs).1 0 (some .Disconnected)
    (by rw [eq_of_beq hp]; exact List.mem_cons_self ..)
  exact absurd hret (by decide)

end PulsarClient.Connection.Ping
