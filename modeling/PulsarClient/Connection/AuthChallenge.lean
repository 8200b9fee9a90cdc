/-
  CREDENTIALS ARE REFRESHED — the broker's auth challenges, and the task that answers them.

  A broker whose credentials expire sends `CommandAuthChallenge`.  Three parties pass it on: the receiver
  counts it into a channel of its own, a task takes it from there and asks the auth provider, and what
  the provider says goes into the control channel that the sink writes from.

  1. THE SYSTEM (`challenges`): the receiver in its single steps, the task, the sink as far as the control
     channel goes, and the world.  The sink ends when a write fails, or for reasons of its own, and with it
     the channel; then an answer of the provider is thrown away (`let _ = control_tx.send(..)`).
     `challenged` counts what the receiver takes from the socket, `asked` the calls of the provider,
     `provided` logs what it has answered.

  2. `challenges_answered` — in every state of every run: the provider is asked at most once for each
     challenge, and only after it has come in; the answers go out in the order of the calls, each with the
     data of its own call; all of them until the sink ends, and from then on none.

  3. `failed_provider_ends` — a provider that fails once ends the task: no challenge is answered any more.

  4. `answers_all` — as long as the sink is there, the task, a provider that answers and a socket that
     takes them are enough to answer all that is waiting.
-/
import PulsarClient.Connection.Establish
import PulsarClient.Connection.Receiver
import PulsarClient.Lib.Runs

namespace PulsarClient.Connection.AuthChallenge

open Proto Runs Receiver Establish

/-! ## The system -/

/-- Where the task is. -/
inductive Task where
  /-- in `auth_challenge_rx.next()` -/
  | waiting
  /-- in `prepare_auth_data` -/
  | preparing
  /-- out of its loop; the channel is gone -/
  | ended
  deriving DecidableEq, Repr

/-- What waits in the control channel: a message of somebody else's, or an `AuthResponse`. -/
inductive Control where
  | other (m : Message)
  | authResponse (auth : Authentication)
  deriving DecidableEq, Repr

/-- `messages::auth_challenge`, with the data it carries in the place of the command. -/
def Control.auth? : Control → Option Authentication
  | .other _ => none
  | .authResponse auth => some auth

/-- Where the sink task is. -/
inductive Sink where
  /-- in its `select!`, or busy with a `Send` -/
  | waiting
  /-- in `sink.send(msg)` -/
  | sending (c : Control)
  /-- out of its loop, with the command that it could not write; the channel is gone -/
  | stopped (lost : Option Control)
  deriving DecidableEq, Repr

/-- What it has taken from the channel and not written. -/
def Sink.holds : Sink → List Control
  | waiting => []
  | sending c => [c]
  | stopped lost => lost.toList

structure State where
  /-- the `auth_method_name` of the provider -/
  name : String
  phase : Phase := .idle
  /-- the receiver; `rx.authChallenge` is what its channel holds, `rx.controlClosed` that the sink has
      ended -/
  rx : Receiver := {}
  task : Task := .waiting
  /-- the control channel, between its senders and the sink -/
  control : List Control := []
  sink : Sink := .waiting
  /-- what the socket has taken -/
  written : List Control := []
  challenged : Nat := 0
  asked : Nat := 0
  provided : List Bytes := []
  failed : Bool := false

inductive Action where
  /-- the socket delivers -/
  | arrive (item : Inbound)
  | endInbound
  /-- a client of the connection registers -/
  | register (reg : Register)
  | closeRegistrations
  | shutdown
  /-- someone else sends on the control channel -/
  | send (m : Message)
  | setError (e : ConnectionError)
  /-- `Connection::error` -/
  | removeError
  /-- the receiver task takes a step -/
  | poll
  /-- the task takes a challenge -/
  | take
  /-- the provider answers -/
  | provide (answer : Except AuthenticationError Bytes)
  /-- the receiver has dropped its end of the channel, and the channel is empty -/
  | finish
  /-- the sink takes a command -/
  | select
  /-- the socket takes it, or fails -/
  | wrote (result : Except ConnectionError Unit)
  /-- the sink leaves its loop: a `Send` has failed, or the data channel is closed -/
  | endSink
  deriving DecidableEq

/-- The challenges among the messages the receiver takes in this step. -/
def taken (s : State) : Nat :=
  match s.phase, s.rx.inbound with
  | .inbound, .msg m :: _ => if routed m = some .AuthChallenge then 1 else 0
  | _, _ => 0

namespace State

/-- One step of the receiver; what it puts into the control channel joins the queue. -/
def poll (s : State) : Option State :=
  match s.rx.poll s.phase with
  | none => none
  | some (phase, rx, _) =>
    some { s with
      phase
      rx := { rx with control := [] }
      control := s.control ++ rx.control.map .other
      challenged := s.challenged + taken s }

/-- `prepare_auth_data` has returned. -/
def provide (s : State) : Except AuthenticationError Bytes → State
  | .ok data =>
    { s with
      task := .waiting
      -- "let _ = control_tx.send(..)"
      control :=
        if s.rx.controlClosed then s.control
        else s.control ++ [.authResponse { name := s.name, data }]
      provided := s.provided ++ [data] }
  | .error e =>
    { s with
      task := .ended
      rx := { s.rx with error := s.rx.error.set (.Authentication e) }
      failed := true }

/-- The sink leaves its loop, and drops its end of the channel. -/
def stop (s : State) (lost : Option Control) : State :=
  { s with sink := .stopped lost, rx := { s.rx with controlClosed := true } }

end State

def step (s : State) : Action → Option State
  | .arrive item => some { s with rx := { s.rx with inbound := s.rx.inbound ++ [item] } }
  | .endInbound => some { s with rx := { s.rx with inboundClosed := true } }
  | .register reg => some { s with rx := { s.rx with registrations := s.rx.registrations ++ [reg] } }
  | .closeRegistrations => some { s with rx := { s.rx with registrationsClosed := true } }
  | .shutdown => some { s with rx := { s.rx with shutdown := true } }
  | .send m =>
    if s.rx.controlClosed then none else some { s with control := s.control ++ [.other m] }
  | .setError e => some { s with rx := { s.rx with error := s.rx.error.set e } }
  | .removeError => some { s with rx := { s.rx with error := s.rx.error.remove } }
  | .poll => s.poll
  | .take =>
    if s.task = .waiting ∧ 0 < s.rx.authChallenge then
      some { s with
        task := .preparing
        rx := { s.rx with authChallenge := s.rx.authChallenge - 1 }
        asked := s.asked + 1 }
    else none
  | .provide answer => if s.task = .preparing then some (s.provide answer) else none
  | .finish =>
    if s.task = .waiting ∧ s.rx.authChallenge = 0 ∧ s.phase = .done then
      some { s with task := .ended }
    else none
  | .select =>
    match s.sink, s.control with
    | .waiting, c :: rest => some { s with sink := .sending c, control := rest }
    | _, _ => none
  | .wrote result =>
    match s.sink, result with
    | .sending c, .ok () => some { s with sink := .waiting, written := s.written ++ [c] }
    | .sending c, .error e =>
      some ({ s with rx := { s.rx with error := s.rx.error.set e } }.stop (some c))
    | _, _ => none
  | .endSink => if s.sink = .waiting then some (s.stop none) else none

/-- A connection with a provider, from the moment its tasks are spawned. -/
def challenges : Sys State Action where
  init s := ∃ name, s = { name }
  step := step

/-- The `AuthResponse`s that the channel has taken, on the socket or on their way to it — or lost, when
    the sink has ended. -/
def State.responses (s : State) : List Authentication :=
  (s.written ++ s.sink.holds ++ s.control).filterMap Control.auth?

/-- What the provider has answered, as `AuthResponse`s under its name. -/
def State.answers (s : State) : List Authentication :=
  s.provided.map fun data => { name := s.name, data }

/-! ## What the receiver does with a challenge -/

theorem authChallenge_handleRegistration (r : Receiver) (reg : Register) :
    (r.handleRegistration reg).1.authChallenge = r.authChallenge := by
  by_cases hreg : ∃ c, reg = .Ping c
  · obtain ⟨c, rfl⟩ := hreg
    rfl
  · obtain ⟨p, q, c, heq, -⟩ := r.handleRegistration_frame fun c hc => hreg ⟨c, hc⟩
    rw [heq]

theorem authChallenge_respond (r : Receiver) (key : RequestKey) (m : Message) :
    (r.respond key m).1.authChallenge = r.authChallenge := by
  obtain ⟨p, q, heq, -⟩ := r.respond_frame key m
  rw [heq]

/-- A message counts exactly when it is routed as a challenge. -/
theorem authChallenge_handleInbound (r : Receiver) (m : Message) :
    (r.handleInbound m).1.authChallenge =
      r.authChallenge + if routed m = some .AuthChallenge then 1 else 0 := by
  cases hrouted : routed m with
  | none =>
    rw [if_neg (Option.some_ne_none _).symm]
    unfold routed at hrouted
    unfold handleInbound
    by_cases hping : m.command.ping.isSome = true
    · rw [if_pos hping]
      split <;> rfl
    · by_cases hpong : m.command.pong.isSome = true
      · rw [if_neg hping, if_pos hpong]
        rfl
      · rw [if_neg (by simp [hping, hpong])] at hrouted
        rw [if_neg hping, if_neg hpong, hrouted]
        rfl
  | some key =>
    rw [handleInbound_of_routed hrouted]
    cases key with
    | RequestId requestId =>
      rw [if_neg (fun h => by cases h)]
      exact authChallenge_respond r _ m
    | ProducerSend producerId sequenceId =>
      rw [if_neg (fun h => by cases h)]
      exact authChallenge_respond r _ m
    | Consumer consumerId =>
      rw [if_neg (fun h => by cases h)]
      rfl
    | CloseConsumer consumerId requestId =>
      rw [if_neg (fun h => by cases h)]
      cases hpending : r.pendingRequests.lookup (.RequestId requestId) <;> simp only [hpending] <;> rfl
    | AuthChallenge =>
      rw [if_pos rfl]

/-- One step of the receiver. -/
theorem authChallenge_poll {s : State} {phase : Phase} {rx : Receiver} {effects : List Effect}
    (h : s.rx.poll s.phase = some (phase, rx, effects)) :
    rx.authChallenge = s.rx.authChallenge + taken s := by
  unfold taken
  cases hphase : s.phase with
  | idle =>
    rw [hphase] at h
    simp only [Receiver.poll] at h
    split at h <;> cases h <;> rfl
  | registrations =>
    rw [hphase] at h
    simp only [Receiver.poll] at h
    split at h
    · rename_i reg rest hreg
      obtain ⟨-, heq⟩ := Prod.mk.inj (Option.some.inj h)
      have hkeep := authChallenge_handleRegistration { s.rx with registrations := rest } reg
      rw [heq] at hkeep
      exact hkeep
    · split at h <;> cases h <;> rfl
  | inbound =>
    rw [hphase] at h
    simp only [Receiver.poll] at h
    split at h
    · rename_i m rest hin
      obtain ⟨-, heq⟩ := Prod.mk.inj (Option.some.inj h)
      have hcount := authChallenge_handleInbound { s.rx with inbound := rest } m
      rw [heq] at hcount
      simp only [hin]
      exact hcount
    · rename_i e rest hin
      cases h
      simp only [hin]
      rfl
    · rename_i hin
      simp only [hin]
      split at h <;> cases h <;> rfl
  | done =>
    rw [hphase] at h
    cases h

theorem controlClosed_handleRegistration (r : Receiver) (reg : Register) :
    (r.handleRegistration reg).1.controlClosed = r.controlClosed := by
  by_cases hreg : ∃ c, reg = .Ping c
  · obtain ⟨c, rfl⟩ := hreg
    rfl
  · obtain ⟨p, q, c, heq, -⟩ := r.handleRegistration_frame fun c hc => hreg ⟨c, hc⟩
    rw [heq]

theorem controlClosed_handleInbound (r : Receiver) (m : Message) :
    (r.handleInbound m).1.controlClosed = r.controlClosed := by
  by_cases hping : m.command.ping.isSome = true
  · unfold handleInbound
    rw [if_pos hping]
    split <;> rfl
  · by_cases hpong : m.command.pong.isSome = true
    · unfold handleInbound
      rw [if_neg hping, if_pos hpong]
    · obtain ⟨p, q, c, heq, -⟩ := r.handleInbound_frame (m := m) (Bool.eq_false_iff.mpr hping)
        (Bool.eq_false_iff.mpr hpong)
      rw [heq]

/-- The receiver leaves the end of the sink alone. -/
theorem controlClosed_poll {s : State} {phase : Phase} {rx : Receiver} {effects : List Effect}
    (h : s.rx.poll s.phase = some (phase, rx, effects)) :
    rx.controlClosed = s.rx.controlClosed := by
  have hall : ∀ out : Phase × Receiver × List Effect, Polled s.rx s.phase out →
      out.2.1.controlClosed = s.rx.controlClosed := by
    rintro out (_ | ⟨reg, rest, -⟩ | ⟨m, rest, -⟩)
    · rfl
    · exact controlClosed_handleRegistration { s.rx with registrations := rest } reg
    · exact controlClosed_handleInbound { s.rx with inbound := rest } m
  exact hall _ (polled h)

/-- What a step of the receiver adds to the control channel is no `AuthResponse`. -/
theorem responses_poll {s s' : State} (h : s.poll = some s') : s'.responses = s.responses := by
  unfold State.poll at h
  split at h
  · cases h
  · obtain rfl := Option.some.inj h
    unfold State.responses
    show (_ ++ _ ++ (s.control ++ _)).filterMap _ = (_ ++ _ ++ s.control).filterMap _
    rw [← List.append_assoc, List.filterMap_append, List.filterMap_map]
    have hother : ∀ ms : List Message, ms.filterMap (Control.auth? ∘ Control.other) = [] := by
      intro ms
      rw [List.filterMap_eq_nil_iff]
      intro m _
      rfl
    rw [hother, List.append_nil]

/-! ## What one step does -/

/-- The things a step can do to the challenges and their answers. -/
inductive Moves (s s' : State) : Prop where
  /-- neither a challenge nor an answer moves; the sink may, and may end -/
  | other (hkept : s'.name = s.name ∧ s'.task = s.task ∧ s'.failed = s.failed ∧
        s'.asked = s.asked ∧ s'.provided = s.provided)
      (hresponses : s'.responses = s.responses)
      (hcount : s'.rx.authChallenge + s.challenged = s.rx.authChallenge + s'.challenged)
      (hsink : s.rx.controlClosed = true → s'.rx.controlClosed = true)
  | takes (hwaiting : s.task = .waiting) (hpos : 0 < s.rx.authChallenge)
      (hs' : s' = { s with
        task := .preparing
        rx := { s.rx with authChallenge := s.rx.authChallenge - 1 }
        asked := s.asked + 1 })
  | provides (data : Bytes) (hpreparing : s.task = .preparing) (hs' : s' = s.provide (.ok data))
  | fails (e : AuthenticationError) (hpreparing : s.task = .preparing)
      (hs' : s' = s.provide (.error e))
  | finishes (hwaiting : s.task = .waiting) (hs' : s' = { s with task := .ended })

theorem moves {s s' : State} {a : Action} (hs : step s a = some s') : Moves s s' := by
  cases a with
  | arrive | endInbound | register | closeRegistrations | shutdown | setError | removeError =>
    obtain rfl := Option.some.inj hs
    exact .other ⟨rfl, rfl, rfl, rfl, rfl⟩ rfl rfl fun h => h
  | send m =>
    obtain ⟨-, heq⟩ := Option.ite_none_left_eq_some.mp hs
    obtain rfl := Option.some.inj heq
    refine .other ⟨rfl, rfl, rfl, rfl, rfl⟩ ?_ rfl fun h => h
    unfold State.responses
    rw [← List.append_assoc, List.filterMap_append]
    exact List.append_nil _
  | poll =>
    have hresponses := responses_poll hs
    have hpoll := hs
    simp only [step, State.poll] at hpoll
    split at hpoll
    · cases hpoll
    · rename_i phase rx effects hrx
      have hcount := authChallenge_poll hrx
      have hclosed := controlClosed_poll hrx
      obtain rfl := Option.some.inj hpoll
      refine .other ⟨rfl, rfl, rfl, rfl, rfl⟩ hresponses ?_ fun h => hclosed.trans h
      show rx.authChallenge + s.challenged = s.rx.authChallenge + (s.challenged + taken s)
      omega
  | take =>
    simp only [step] at hs
    split at hs
    · rename_i hready
      exact .takes hready.1 hready.2 (Option.some.inj hs).symm
    · cases hs
  | provide answer =>
    simp only [step] at hs
    split at hs
    · rename_i hpreparing
      cases answer with
      | ok data => exact .provides data hpreparing (Option.some.inj hs).symm
      | error e => exact .fails e hpreparing (Option.some.inj hs).symm
    · cases hs
  | finish =>
    simp only [step] at hs
    split at hs
    · rename_i hready
      exact .finishes hready.1 (Option.some.inj hs).symm
    · cases hs
  | select =>
    simp only [step] at hs
    split at hs
    · rename_i c rest hsink hcontrol
      obtain rfl := Option.some.inj hs
      refine .other ⟨rfl, rfl, rfl, rfl, rfl⟩ ?_ rfl fun h => h
      unfold State.responses
      rw [hcontrol, hsink]
      show (s.written ++ [c] ++ rest).filterMap _ = (s.written ++ [] ++ c :: rest).filterMap _
      rw [List.append_nil, List.append_assoc, List.singleton_append]
    · cases hs
  | wrote result =>
    simp only [step] at hs
    split at hs
    · rename_i c hsink
      obtain rfl := Option.some.inj hs
      refine .other ⟨rfl, rfl, rfl, rfl, rfl⟩ ?_ rfl fun h => h
      unfold State.responses
      rw [hsink]
      show (s.written ++ [c] ++ [] ++ s.control).filterMap _ = _
      rw [List.append_nil]
      rfl
    · rename_i c e hsink
      obtain rfl := Option.some.inj hs
      refine .other ⟨rfl, rfl, rfl, rfl, rfl⟩ ?_ rfl fun _ => rfl
      unfold State.responses
      rw [hsink]
      rfl
    · cases hs
  | endSink =>
    obtain ⟨hsink, heq⟩ := Option.ite_none_right_eq_some.mp hs
    obtain rfl := Option.some.inj heq
    refine .other ⟨rfl, rfl, rfl, rfl, rfl⟩ ?_ rfl fun _ => rfl
    unfold State.responses
    rw [hsink]
    rfl

/-! ## The invariant -/

/-- The calls of the provider that have not led to an answer: the one in progress, or the one that has
    failed. -/
def State.unanswered (s : State) : Nat :=
  (if s.task = .preparing then 1 else 0) + if s.failed then 1 else 0

structure Answered (s : State) : Prop where
  /-- each challenge has been taken up, or waits -/
  counted : s.asked + s.rx.authChallenge = s.challenged
  /-- each call has been answered, but for one -/
  called : s.asked = s.provided.length + s.unanswered
  /-- what goes out is what the provider has answered, … -/
  responses : s.responses <+: s.answers
  /-- … and all of it while the sink is there -/
  complete : s.rx.controlClosed = false → s.responses = s.answers
  ended : s.failed = true → s.task = .ended

theorem responses_provide {s : State} (hopen : s.rx.controlClosed = false) (data : Bytes) :
    (s.provide (.ok data)).responses = s.responses ++ [{ name := s.name, data }] := by
  show ((s.written ++ s.sink.holds ++ if s.rx.controlClosed then s.control
    else s.control ++ [Control.authResponse { name := s.name, data }]).filterMap Control.auth?) = _
  rw [hopen, if_neg Bool.false_ne_true, ← List.append_assoc, List.filterMap_append]
  rfl

/-- Without the sink the answer is thrown away. -/
theorem responses_thrown {s : State} (hclosed : s.rx.controlClosed = true) (data : Bytes) :
    (s.provide (.ok data)).responses = s.responses := by
  show ((s.written ++ s.sink.holds ++ if s.rx.controlClosed then s.control
    else s.control ++ [Control.authResponse { name := s.name, data }]).filterMap Control.auth?) = _
  rw [hclosed, if_pos rfl]
  rfl

theorem answers_provide (s : State) (data : Bytes) :
    (s.provide (.ok data)).answers = s.answers ++ [{ name := s.name, data }] := by
  show (s.provided ++ [data]).map _ = _
  rw [List.map_append]
  rfl

theorem Answered.not_failed {s : State} (h : Answered s) (htask : s.task ≠ .ended) :
    s.failed = false := by
  rw [← Bool.not_eq_true]
  exact fun hfailed => htask (h.ended hfailed)

/-- **The step lemma.** -/
theorem Answered.step {s s' : State} (h : Answered s) (hs : Moves s s') :
    Answered s' := by
  cases hs with
  | other hkept hresponses hcount hsink =>
    obtain ⟨hname, htask, hfailed, hasked, hprovided⟩ := hkept
    have hcounted := h.counted
    have hanswers : s'.answers = s.answers := by
      unfold State.answers
      rw [hprovided, hname]
    refine ⟨by omega, ?_, ?_, fun hopen => ?_, ?_⟩
    · unfold State.unanswered
      rw [hasked, hprovided, htask, hfailed]
      exact h.called
    · rw [hresponses, hanswers]
      exact h.responses
    · rw [hresponses, hanswers]
      refine h.complete (Bool.eq_false_iff.mpr fun hclosed => ?_)
      rw [hsink hclosed] at hopen
      cases hopen
    · rw [hfailed, htask]
      exact h.ended
  | takes hwaiting hpos hs' =>
    subst hs'
    have hcounted := h.counted
    have hcalled := h.called
    have hfailed := h.not_failed (by rw [hwaiting]; exact Task.noConfusion)
    unfold State.unanswered at hcalled
    rw [hwaiting, hfailed, if_neg Task.noConfusion, if_neg Bool.false_ne_true] at hcalled
    refine ⟨?_, ?_, h.responses, h.complete,
      fun hf => absurd (hfailed.symm.trans hf) Bool.false_ne_true⟩
    · show s.asked + 1 + (s.rx.authChallenge - 1) = s.challenged
      omega
    · show s.asked + 1 = s.provided.length + ((if Task.preparing = .preparing then 1 else 0) +
        if s.failed then 1 else 0)
      rw [hfailed, if_pos rfl, if_neg Bool.false_ne_true]
      omega
  | provides data hpreparing hs' =>
    subst hs'
    have hcalled := h.called
    have hfailed := h.not_failed (by rw [hpreparing]; exact Task.noConfusion)
    unfold State.unanswered at hcalled
    rw [hpreparing, hfailed, if_pos rfl, if_neg Bool.false_ne_true] at hcalled
    refine ⟨h.counted, ?_, ?_, fun hopen => ?_,
      fun hf => absurd (hfailed.symm.trans hf) Bool.false_ne_true⟩
    · show s.asked = (s.provided ++ [data]).length + ((if Task.waiting = .preparing then 1 else 0) +
        if s.failed then 1 else 0)
      rw [hfailed, if_neg Task.noConfusion, if_neg Bool.false_ne_true, List.length_append,
        List.length_singleton]
      omega
    · rw [answers_provide]
      cases hclosed : s.rx.controlClosed with
      | false => rw [responses_provide hclosed, h.complete hclosed]
      | true =>
        rw [responses_thrown hclosed]
        exact h.responses.trans (List.prefix_append _ _)
    · have hsame : s.rx.controlClosed = false := hopen
      rw [answers_provide, responses_provide hsame, h.complete hsame]
  | fails e hpreparing hs' =>
    subst hs'
    have hcalled := h.called
    have hfailed := h.not_failed (by rw [hpreparing]; exact Task.noConfusion)
    unfold State.unanswered at hcalled
    rw [hpreparing, hfailed, if_pos rfl, if_neg Bool.false_ne_true] at hcalled
    exact ⟨h.counted, hcalled, h.responses, h.complete, fun _ => rfl⟩
  | finishes hwaiting hs' =>
    subst hs'
    have hcalled := h.called
    unfold State.unanswered at hcalled
    rw [hwaiting, if_neg Task.noConfusion] at hcalled
    exact ⟨h.counted, hcalled, h.responses, h.complete, fun _ => rfl⟩

theorem answered_of_reach {s : State} (h : challenges.Reach s) : Answered s := by
  refine Sys.ReachIf.inv Answered ?_ (fun _ _ _ hi _ hs => hi.step (moves hs)) h
  rintro s ⟨name, rfl⟩
  exact ⟨rfl, rfl, List.prefix_rfl, fun _ => rfl, fun hfailed => absurd hfailed Bool.false_ne_true⟩

/-! ## The main results -/

/-- **Challenges are answered.**  In every state of every run: every challenge that has come in has been
    taken up or waits for its turn; the provider has been asked once for each that was taken up; all these
    calls but one at most — that which is in progress, or has failed — have been answered; and the
    `AuthResponse`s that have gone into the control channel, and those on the socket, are the first of those
    answers, in the order of the calls, each under the name of the provider: in the channel all of them
    until the sink ends. -/
theorem challenges_answered {s : State} (h : challenges.Reach s) :
    s.asked + s.rx.authChallenge = s.challenged ∧
      s.asked = s.provided.length + s.unanswered ∧ s.unanswered ≤ 1 ∧
      s.responses <+: s.answers ∧ s.written.filterMap Control.auth? <+: s.answers ∧
      (s.rx.controlClosed = false → s.responses = s.answers) := by
  have hanswered := answered_of_reach h
  have hwritten : s.written.filterMap Control.auth? <+: s.responses := by
    unfold State.responses
    rw [List.append_assoc, List.filterMap_append]
    exact List.prefix_append _ _
  refine ⟨hanswered.counted, hanswered.called, ?_, hanswered.responses,
    hwritten.trans hanswered.responses, hanswered.complete⟩
  unfold State.unanswered
  cases hfailed : s.failed with
  | false =>
    rw [if_neg Bool.false_ne_true]
    split <;> omega
  | true =>
    rw [hanswered.ended hfailed, if_neg Task.noConfusion]
    exact Nat.le_refl 1

/-- A task that has ended asks nothing and answers nothing. -/
theorem ended_step {s s' : State} (h : s.task = .ended) (hs : Moves s s') :
    s'.task = .ended ∧ s'.responses = s.responses ∧ s'.asked = s.asked := by
  cases hs with
  | other hkept hresponses _ _ => exact ⟨hkept.2.1.trans h, hresponses, hkept.2.2.2.1⟩
  | takes hwaiting _ _ | finishes hwaiting _ => exact absurd (h.symm.trans hwaiting) Task.noConfusion
  | provides _ hpreparing _ | fails _ hpreparing _ =>
    exact absurd (h.symm.trans hpreparing) Task.noConfusion

theorem ended_exec {as : List Action} {s t : State} (h : s.task = .ended)
    (ht : challenges.exec s as = some t) :
    t.task = .ended ∧ t.responses = s.responses ∧ t.asked = s.asked := by
  induction as generalizing s with
  | nil =>
    obtain rfl := Option.some.inj ht
    exact ⟨h, rfl, rfl⟩
  | cons a as ih =>
    rw [Sys.exec_cons, Option.bind_eq_some_iff] at ht
    obtain ⟨s', hs, ht⟩ := ht
    obtain ⟨htask, hresponses, hasked⟩ := ended_step h (moves hs)
    obtain ⟨htask', hresponses', hasked'⟩ := ih htask ht
    exact ⟨htask', hresponses'.trans hresponses, hasked'.trans hasked⟩

/-- **One failure is the end.**  When the provider fails, the connection is marked with its error, and
    whatever happens afterwards — further challenges, a provider that would answer again — the provider is
    not asked any more and no `AuthResponse` is sent any more, even when somebody takes the error away. -/
theorem failed_provider_ends {s s' : State} {e : AuthenticationError}
    (hs : step s (.provide (.error e)) = some s') :
    s'.rx.error.isSet = true ∧ s'.rx.error.removed = some (.Authentication e) ∧
      ∀ as t, challenges.exec s' as = some t → t.responses = s.responses ∧ t.asked = s.asked := by
  simp only [step] at hs
  split at hs
  · obtain rfl := Option.some.inj hs
    refine ⟨rfl, rfl, fun as t ht => ?_⟩
    obtain ⟨-, hresponses, hasked⟩ := ended_exec (s := s.provide (.error e)) rfl ht
    exact ⟨hresponses, hasked⟩
  · cases hs

/-- The turns of the task for some answers of the provider. -/
def turns (answers : List Bytes) : List Action :=
  answers.flatMap fun data => [.take, .provide (.ok data)]

/-- … and those of the sink for some commands. -/
def writes (n : Nat) : List Action := (List.replicate n [Action.select, .wrote (.ok ())]).flatten

/-- The task takes up what waits. -/
theorem exec_turns {s : State} {answers : List Bytes} (hwaiting : s.task = .waiting)
    (hopen : s.rx.controlClosed = false) (hlen : answers.length = s.rx.authChallenge) :
    ∃ t, challenges.exec s (turns answers) = some t ∧ t.rx.authChallenge = 0 ∧ t.task = .waiting ∧
      t.sink = s.sink ∧ t.responses = s.responses ++ answers.map fun data => { name := s.name, data } := by
  induction answers generalizing s with
  | nil => exact ⟨s, rfl, hlen.symm, hwaiting, rfl, (List.append_nil _).symm⟩
  | cons data answers ih =>
    rw [List.length_cons] at hlen
    have htake : challenges.step s .take = some { s with
        task := .preparing
        rx := { s.rx with authChallenge := s.rx.authChallenge - 1 }
        asked := s.asked + 1 } := if_pos ⟨hwaiting, by omega⟩
    let prepared : State := { s with
      task := .preparing
      rx := { s.rx with authChallenge := s.rx.authChallenge - 1 }
      asked := s.asked + 1 }
    obtain ⟨t, ht, hempty, htask, hsink, hresponses⟩ := ih (s := prepared.provide (.ok data)) rfl hopen
      (show answers.length = s.rx.authChallenge - 1 by omega)
    have hanswer : (prepared.provide (.ok data)).responses = s.responses ++ [{ name := s.name, data }] :=
      responses_provide (s := prepared) hopen data
    refine ⟨t, ?_, hempty, htask, hsink, ?_⟩
    · show challenges.exec s (.take :: .provide (.ok data) :: turns answers) = _
      rw [Sys.exec_cons, htake]
      exact ht
    · rw [hresponses, hanswer, List.map_cons, List.append_assoc]
      rfl

/-- The sink empties the channel. -/
theorem exec_writes {s : State} (hsink : s.sink = .waiting) :
    challenges.exec s (writes s.control.length) =
      some { s with control := [], written := s.written ++ s.control } := by
  induction hcontrol : s.control generalizing s with
  | nil =>
    obtain ⟨name, phase, rx, task, control, sink, written⟩ := s
    obtain rfl : control = [] := hcontrol
    rw [List.append_nil]
    rfl
  | cons c rest ih =>
    have hselect : challenges.step s .select = some { s with sink := .sending c, control := rest } := by
      simp only [challenges, step, hsink, hcontrol]
    show challenges.exec s (.select :: .wrote (.ok ()) :: writes rest.length) = _
    rw [Sys.exec_cons, hselect]
    show challenges.exec { s with sink := .waiting, control := rest, written := s.written ++ [c] }
      (writes rest.length) = _
    rw [ih (s := { s with sink := .waiting, control := rest, written := s.written ++ [c] }) rfl rfl,
      ← hsink, List.append_assoc, List.singleton_append]

/-- **All that waits is answered**, while the sink is there: the task and the provider make one answer for
    each challenge, and the sink writes them behind those that wait already. -/
theorem answers_all {s : State} {answers : List Bytes} (hwaiting : s.task = .waiting)
    (hopen : s.rx.controlClosed = false) (hsink : s.sink = .waiting)
    (hlen : answers.length = s.rx.authChallenge) :
    ∃ n t, challenges.exec s (turns answers ++ writes n) = some t ∧ t.rx.authChallenge = 0 ∧
      t.task = .waiting ∧ t.control = [] ∧
      t.written.filterMap Control.auth? =
        s.responses ++ answers.map fun data => { name := s.name, data } := by
  obtain ⟨t, ht, hempty, htask, hsame, hresponses⟩ := exec_turns hwaiting hopen hlen
  have hidle : t.sink = .waiting := hsame.trans hsink
  refine ⟨t.control.length, { t with control := [], written := t.written ++ t.control }, ?_, hempty,
    htask, rfl, ?_⟩
  · rw [Sys.exec_append, ht]
    exact exec_writes hidle
  · rw [← hresponses]
    unfold State.responses
    rw [hidle]
    show _ = (t.written ++ [] ++ t.control).filterMap _
    rw [List.append_nil]

/-! ## A challenge -/

/-- `CommandAuthChallenge` -/
def challenge : Message := { command := { authChallenge := some () } }

/-- Two challenges have come in, and the first has been taken up. -/
theorem challenges_answered_once : ∃ s : State, (s.challenged = 2 ∧ s.asked = 1) ∧
    (s.asked + s.rx.authChallenge = s.challenged ∧
      s.asked = s.provided.length + s.unanswered ∧ s.unanswered ≤ 1 ∧
      s.responses <+: s.answers ∧ s.written.filterMap Control.auth? <+: s.answers ∧
      (s.rx.controlClosed = false → s.responses = s.answers)) := by
  obtain ⟨s, hs, hp⟩ := Sys.exists_reach_of_exec (S := challenges)
    (p := fun s => s.challenged == 2 && s.asked == 1) (s := { name := "token" }) ⟨"token", rfl⟩
    [.arrive (.msg challenge), .arrive (.msg challenge), .poll, .poll, .poll, .poll, .take]
    (by decide)
  rw [Bool.and_eq_true] at hp
  exact ⟨s, ⟨eq_of_beq hp.1, eq_of_beq hp.2⟩, challenges_answered hs⟩

/-- The provider is being asked for the first of two challenges. -/
def asking : State where
  name := "token"
  task := .preparing
  rx := { authChallenge := 1 }
  challenged := 2
  asked := 1

theorem failed_provider_ends_asking :
    (asking.provide (.error (.Custom "expired"))).rx.error.isSet = true ∧
      (asking.provide (.error (.Custom "expired"))).rx.error.removed =
        some (.Authentication (.Custom "expired")) ∧
      ∀ as t, challenges.exec (asking.provide (.error (.Custom "expired"))) as = some t →
        t.responses = asking.responses ∧ t.asked = asking.asked :=
  failed_provider_ends rfl

theorem answers_all_one : ∃ n t,
    challenges.exec (asking.provide (.ok [0x61])) (turns [[0x62]] ++ writes n) = some t ∧
      t.rx.authChallenge = 0 ∧ t.task = .waiting ∧ t.control = [] ∧
      t.written.filterMap Control.auth? = (asking.provide (.ok [0x61])).responses ++
        [[0x62]].map fun data => { name := "token", data } :=
  answers_all rfl rfl rfl rfl

end PulsarClient.Connection.AuthChallenge
