/-
  THE TWO PLANES of a connection's outbound traffic, under the biased `select_biased!` of the sink task.

  `Outbound` shows what the two channels do to each other: a control command may overtake a `Send`.
  Here is what they keep:

  1. `planes_in_order` — each plane by itself is first in, first out, and exactly once: what was issued
     on it is what is on the socket, then what the sink has in hand, then what is in its channel.  A
     failing socket costs the command in hand, and what waits in the channels stays there.

  2. `control_waits_for_one_send` — "so that Ping/Pong/Ack/Flow/AuthChallenge/etc. can never be throttled
     by producer queue depth": however many `Send`s are queued or join the queue, a control command is
     behind AT MOST ONE of them.

  3. `sink_drains` — the sink alone, in a number of steps bounded by what is queued, puts everything on
     the socket.
-/
import Mathlib.Data.List.Nodup
import Mathlib.Data.List.TakeWhile
import PulsarClient.Connection.Outbound
import PulsarClient.Lib.Progress

namespace PulsarClient.Connection.Outbound

open Runs

/-! ## The planes -/

/-- A command of the data plane. -/
def Command.onData (c : Command) : Bool := c.msg.command.send.isSome

namespace State

/-- The command the sink has taken and not written yet. -/
def inHand (s : State) : List Command :=
  match s.phase with
  | .sending c => [c]
  | _ => []

/-- The channel of a plane. -/
def channel (s : State) (data : Bool) : List Command := if data then s.data else s.control

end State

/-- The commands of a plane. -/
def ofPlane (data : Bool) (cs : List Command) : List Command := cs.filter (·.onData == data)

@[simp] theorem ofPlane_nil (data : Bool) : ofPlane data [] = [] := rfl

@[simp] theorem ofPlane_append (data : Bool) (cs ds : List Command) :
    ofPlane data (cs ++ ds) = ofPlane data cs ++ ofPlane data ds := by
  unfold ofPlane
  exact List.filter_append cs ds

theorem ofPlane_singleton (data : Bool) (c : Command) :
    ofPlane data [c] = if c.onData = data then [c] else [] := by
  unfold ofPlane
  by_cases h : c.onData = data
  · simp [h]
  · simp [h]

/-! ## What one step does -/

/-- The things a step can do to the connection. -/
inductive Moves (s : State) : State → Prop where
  | issuesData (m : Message) (hsend : m.command.send.isSome = true) (hrun : s.phase ≠ .stopped) :
    Moves s (s.pushData m)
  | issuesControl (m : Message) (hsend : m.command.send = none) (hrun : s.phase ≠ .stopped)
      (requestId : Nat) : Moves s { s.pushControl m with requestId }
  | drops (controlClosed dataClosed : Bool) : Moves s { s with controlClosed, dataClosed }
  | takesControl (c : Command) (rest : List Command) (hphase : s.phase = .selectControl)
      (hcontrol : s.control = c :: rest) : Moves s { s with phase := .sending c, control := rest }
  | takesData (c : Command) (rest : List Command) (hphase : s.phase = .selectData)
      (hdata : s.data = c :: rest) : Moves s { s with phase := .sending c, data := rest }
  /-- by an empty control channel to the data channel, or out of the loop -/
  | passesControl (phase : Phase) (hphase : s.phase = .selectControl) (hcontrol : s.control = [])
      (hnext : phase = .selectData ∨ phase = .stopped) : Moves s { s with phase }
  /-- by an empty data channel back to the control channel, or out of the loop -/
  | passesData (phase : Phase) (hphase : s.phase = .selectData) (hdata : s.data = [])
      (hnext : phase = .selectControl ∨ phase = .stopped) : Moves s { s with phase }
  | writes (c : Command) (hphase : s.phase = .sending c) :
    Moves s { s with phase := .selectControl, written := s.written ++ [c] }
  | fails (c : Command) (hphase : s.phase = .sending c) (error : SharedError) :
    Moves s { s with phase := .stopped, error }

theorem moves_of_select {s s' : State} (hs : s.select = some s') : Moves s s' := by
  unfold State.select at hs
  split at hs
  · rename_i hphase
    split at hs
    · rename_i c rest hcontrol
      exact Option.some.inj hs ▸ .takesControl c rest hphase hcontrol
    · rename_i hcontrol
      split at hs
      · exact Option.some.inj hs ▸ .passesControl .stopped hphase hcontrol (Or.inr rfl)
      · exact Option.some.inj hs ▸ .passesControl .selectData hphase hcontrol (Or.inl rfl)
  · rename_i hphase
    split at hs
    · rename_i c rest hdata
      exact Option.some.inj hs ▸ .takesData c rest hphase hdata
    · rename_i hdata
      split at hs
      · exact Option.some.inj hs ▸ .passesData .stopped hphase hdata (Or.inr rfl)
      · exact Option.some.inj hs ▸ .passesData .selectControl hphase hdata (Or.inl rfl)
  · exact absurd hs (Option.some_ne_none s').symm

theorem moves {s s' : State} {a : Action} (hs : step s a = some s') : Moves s s' := by
  cases a with
  | send producerId sequenceId numMessages payload =>
    simp only [Outbound.step] at hs
    split at hs
    · rename_i hopen
      exact Option.some.inj hs ▸ .issuesData _ rfl hopen.1
    · exact absurd hs (Option.some_ne_none s').symm
  | closeProducer producerId =>
    simp only [Outbound.step] at hs
    split at hs
    · rename_i hopen
      exact Option.some.inj hs ▸ .issuesControl _ rfl hopen.1 _
    · exact absurd hs (Option.some_ne_none s').symm
  | command m =>
    simp only [Outbound.step] at hs
    split at hs
    · rename_i hopen
      exact Option.some.inj hs ▸ .issuesControl m hopen.2.2.1 hopen.1 s.requestId
    · exact absurd hs (Option.some_ne_none s').symm
  | dropControl => exact Option.some.inj hs ▸ .drops true s.dataClosed
  | dropData => exact Option.some.inj hs ▸ .drops s.controlClosed true
  | select => exact moves_of_select hs
  | written =>
    simp only [Outbound.step] at hs
    split at hs
    · rename_i c hphase
      exact Option.some.inj hs ▸ .writes c hphase
    · exact absurd hs (Option.some_ne_none s').symm
  | fail e =>
    simp only [Outbound.step] at hs
    split at hs
    · rename_i c hphase
      exact Option.some.inj hs ▸ .fails c hphase _
    · exact absurd hs (Option.some_ne_none s').symm

/-! ## Each plane in order -/

/-- Each channel holds commands of its plane; and what was issued on a plane is what is written, what is
    `held`, and what is in the channel, in this order. -/
structure InOrderBy (s : State) (held : List Command) : Prop where
  ownPlane : ∀ data, ofPlane data (s.channel data) = s.channel data
  inOrder : ∀ data, ofPlane data s.issued = ofPlane data (s.written ++ held) ++ s.channel data

/-- … where `held` is what the sink has in hand, or had when it stopped. -/
def Accounted (s : State) : Prop :=
  ∃ held, held.length ≤ 1 ∧ (s.phase ≠ .stopped → held = s.inHand) ∧ InOrderBy s held

namespace InOrderBy

variable {s : State} {held : List Command}

/-- A command is issued on its plane, at the end of its channel. -/
theorem issue {s' : State} (h : InOrderBy s held) (c : Command) (data : Bool)
    (hc : c.onData = data) (hissued : s'.issued = s.issued ++ [c])
    (hwritten : s'.written = s.written) (hchannel : s'.channel data = s.channel data ++ [c])
    (hother : s'.channel (!data) = s.channel (!data)) : InOrderBy s' held := by
  have hown : ofPlane data [c] = [c] := by rw [ofPlane_singleton, if_pos hc]
  have hnot : ofPlane (!data) [c] = [] := by
    rw [ofPlane_singleton, if_neg]
    rw [hc]
    cases data <;> exact Bool.noConfusion
  constructor
  · intro plane
    by_cases hp : plane = data
    · subst hp
      rw [hchannel, ofPlane_append, h.ownPlane plane, hown]
    · obtain rfl := Bool.eq_not_of_ne hp
      rw [hother]
      exact h.ownPlane (!data)
  · intro plane
    rw [hissued, hwritten, ofPlane_append, h.inOrder plane]
    by_cases hp : plane = data
    · subst hp
      rw [hown, hchannel, List.append_assoc]
    · obtain rfl := Bool.eq_not_of_ne hp
      rw [hnot, hother, List.append_nil]

/-- The head of a channel goes over into the hand. -/
theorem take {s' : State} (h : InOrderBy s []) {c : Command} {rest : List Command} (data : Bool)
    (hissued : s'.issued = s.issued) (hwritten : s'.written = s.written)
    (hchannel : s.channel data = c :: rest) (hrest : s'.channel data = rest)
    (hother : s'.channel (!data) = s.channel (!data)) : InOrderBy s' [c] := by
  have hown := h.ownPlane data
  rw [hchannel] at hown
  have hc : c.onData = data := by
    have hmem : c ∈ ofPlane data (c :: rest) := by
      rw [hown]
      exact List.mem_cons_self
    exact beq_iff_eq.mp (List.mem_filter.mp hmem).2
  have hsingle : ofPlane data [c] = [c] := by rw [ofPlane_singleton, if_pos hc]
  have hnot : ofPlane (!data) [c] = [] := by
    rw [ofPlane_singleton, if_neg]
    rw [hc]
    cases data <;> exact Bool.noConfusion
  have hkeep : ofPlane data rest = rest := by
    have hcons : ofPlane data (c :: rest) = c :: ofPlane data rest := by
      show ofPlane data ([c] ++ rest) = _
      rw [ofPlane_append, hsingle]
      rfl
    rw [hcons] at hown
    exact (List.cons.inj hown).2
  constructor
  · intro plane
    by_cases hp : plane = data
    · rw [hp, hrest]
      exact hkeep
    · obtain rfl := Bool.eq_not_of_ne hp
      rw [hother]
      exact h.ownPlane (!data)
  · intro plane
    rw [hissued, hwritten, h.inOrder plane, List.append_nil, ofPlane_append]
    by_cases hp : plane = data
    · rw [hp, hsingle, hchannel, hrest, List.append_assoc]
      rfl
    · obtain rfl := Bool.eq_not_of_ne hp
      rw [hnot, hother, List.append_nil]

/-- Nothing that counts changes. -/
theorem same {s' : State} (h : InOrderBy s held) (hissued : s'.issued = s.issued)
    (hwritten : s'.written = s.written) (hcontrol : s'.control = s.control)
    (hdata : s'.data = s.data) : InOrderBy s' held := by
  have hchannel : ∀ data, s'.channel data = s.channel data := by
    intro data
    unfold State.channel
    rw [hcontrol, hdata]
  constructor
  · intro data
    rw [hchannel]
    exact h.ownPlane data
  · intro data
    rw [hissued, hwritten, hchannel]
    exact h.inOrder data

end InOrderBy

/-- **The step lemma.** -/
theorem Accounted.step {s s' : State} (h : Accounted s) (hs : Moves s s') : Accounted s' := by
  obtain ⟨held, hone, hheld, hin⟩ := h
  cases hs with
  | issuesData m hsend hrun =>
    refine ⟨held, hone, hheld, hin.issue (s.issue m) true hsend rfl rfl rfl rfl⟩
  | issuesControl m hsend hrun requestId =>
    refine ⟨held, hone, hheld, hin.issue (s.issue m) false ?_ rfl rfl rfl rfl⟩
    show m.command.send.isSome = false
    rw [hsend]
    rfl
  | drops controlClosed dataClosed => exact ⟨held, hone, hheld, hin.same rfl rfl rfl rfl⟩
  | takesControl c rest hphase hcontrol =>
    obtain rfl : held = [] := by
      rw [hheld (by rw [hphase]; exact Phase.noConfusion), State.inHand, hphase]
    exact ⟨[c], Nat.le_refl 1, fun _ => rfl, hin.take false rfl rfl hcontrol rfl rfl⟩
  | takesData c rest hphase hdata =>
    obtain rfl : held = [] := by
      rw [hheld (by rw [hphase]; exact Phase.noConfusion), State.inHand, hphase]
    exact ⟨[c], Nat.le_refl 1, fun _ => rfl, hin.take true rfl rfl hdata rfl rfl⟩
  | passesControl phase hphase hcontrol hnext =>
    obtain rfl : held = [] := by
      rw [hheld (by rw [hphase]; exact Phase.noConfusion), State.inHand, hphase]
    refine ⟨[], Nat.zero_le 1, fun hrun => ?_, hin.same rfl rfl rfl rfl⟩
    rcases hnext with rfl | rfl
    · rfl
    · exact absurd rfl hrun
  | passesData phase hphase hdata hnext =>
    obtain rfl : held = [] := by
      rw [hheld (by rw [hphase]; exact Phase.noConfusion), State.inHand, hphase]
    refine ⟨[], Nat.zero_le 1, fun hrun => ?_, hin.same rfl rfl rfl rfl⟩
    rcases hnext with rfl | rfl
    · rfl
    · exact absurd rfl hrun
  | writes c hphase =>
    obtain rfl : held = [c] := by
      rw [hheld (by rw [hphase]; exact Phase.noConfusion), State.inHand, hphase]
    refine ⟨[], Nat.zero_le 1, fun _ => rfl, ⟨hin.ownPlane, fun data => ?_⟩⟩
    show ofPlane data s.issued = ofPlane data (s.written ++ [c] ++ []) ++ s.channel data
    rw [List.append_nil]
    exact hin.inOrder data
  | fails c hphase error =>
    exact ⟨held, hone, fun hrun => absurd rfl hrun, hin.same rfl rfl rfl rfl⟩

theorem accounted_of_reach {s : State} (h : outbound.Reach s) : Accounted s := by
  refine Sys.ReachIf.inv Accounted ?_ (fun _ _ _ hi _ hs => hi.step (moves hs)) h
  rintro s ⟨n, -, rfl⟩
  refine ⟨[], Nat.zero_le 1, fun _ => rfl, fun data => ?_, fun data => ?_⟩
  · cases data <;> rfl
  · cases data <;> rfl

/-- **Each plane is first in, first out, and exactly once.**  What was issued on a plane is what is on
    the socket, what the sink holds, and what waits in the channel, in this order; nothing is written
    twice.  A sink that runs holds what it has in hand; one that has stopped has lost at most that, and
    leaves what waits unsent. -/
theorem planes_in_order {s : State} (h : outbound.Reach s) :
    ∃ held, held.length ≤ 1 ∧ (s.phase ≠ .stopped → held = s.inHand) ∧
      ofPlane false s.issued = ofPlane false (s.written ++ held) ++ s.control ∧
      ofPlane true s.issued = ofPlane true (s.written ++ held) ++ s.data ∧ s.written.Nodup := by
  obtain ⟨held, hone, hheld, hin⟩ := accounted_of_reach h
  refine ⟨held, hone, hheld, hin.inOrder false, hin.inOrder true, ?_⟩
  rw [List.nodup_iff_count_le_one]
  intro d
  have honce := (distinct_of_reach h).once d
  unfold copies at honce
  omega

/-- The sink has passed by an empty control channel, and two `Send`s wait. -/
def halfway : State where
  outboundChannelSize := 2
  phase := .selectData
  data := [⟨0, Messages.send 7 0 none ⟨{}, []⟩⟩, ⟨1, Messages.send 7 1 none ⟨{}, []⟩⟩]
  serial := 2
  issued := [⟨0, Messages.send 7 0 none ⟨{}, []⟩⟩, ⟨1, Messages.send 7 1 none ⟨{}, []⟩⟩]

theorem reach_halfway : outbound.Reach halfway :=
  Sys.ReachIf.exec [.send 7 0 none ⟨{}, []⟩, .send 7 1 none ⟨{}, []⟩, .select]
    (.init (s := { outboundChannelSize := 2 }) ⟨2, by decide, rfl⟩) (Sys.guarded_true _ _) rfl

theorem planes_in_order_halfway : ∃ held, held.length ≤ 1 ∧
    (halfway.phase ≠ .stopped → held = halfway.inHand) ∧
    ofPlane false halfway.issued = ofPlane false (halfway.written ++ held) ++ halfway.control ∧
    ofPlane true halfway.issued = ofPlane true (halfway.written ++ held) ++ halfway.data ∧
    halfway.written.Nodup :=
  planes_in_order reach_halfway

/-! ## A control command and the `Send`s before it -/

/-- How many `Send`s the sink may write before it looks at the control channel again. -/
def State.committed (s : State) : Nat :=
  match s.phase with
  | .selectData => 1
  | .sending c => if c.onData then 1 else 0
  | _ => 0

/-- Where a control command may be, once it is issued, and how many `Send`s have been written meanwhile:
    `base` was written before. -/
inductive Waits (c : Command) (base : List Command) (s : State) : Prop where
  | queued (sent : List Command) (hwritten : s.written = base ++ sent) (hnot : c ∉ sent)
      (hcontrol : c ∈ s.control) (hle : sent.countP (·.onData) + s.committed ≤ 1)
  | taken (sent : List Command) (hwritten : s.written = base ++ sent) (hnot : c ∉ sent)
      (hphase : s.phase = .sending c) (hle : sent.countP (·.onData) ≤ 1)
  | written (pre post : List Command) (hwritten : s.written = base ++ (pre ++ c :: post))
      (hnot : c ∉ pre) (hle : pre.countP (·.onData) ≤ 1)
  | lost (sent : List Command) (hwritten : s.written = base ++ sent) (hnot : c ∉ sent)
      (hphase : s.phase = .stopped) (hle : sent.countP (·.onData) ≤ 1)

namespace Waits

variable {c : Command} {base : List Command} {s s' : State}

/-- The channels and the socket stay as they are, but for what joins the queues. -/
theorem joined (h : Waits c base s) (hphase : s'.phase = s.phase) (hwritten : s'.written = s.written)
    (hcontrol : ∀ d ∈ s.control, d ∈ s'.control) : Waits c base s' := by
  have hcommitted : s'.committed = s.committed := by
    unfold State.committed
    rw [hphase]
  cases h with
  | queued sent hw hnot hc hle =>
    exact .queued sent (hwritten.trans hw) hnot (hcontrol c hc) (hcommitted ▸ hle)
  | taken sent hw hnot hph hle => exact .taken sent (hwritten.trans hw) hnot (hphase.trans hph) hle
  | written pre post hw hnot hle => exact .written pre post (hwritten.trans hw) hnot hle
  | lost sent hw hnot hph hle => exact .lost sent (hwritten.trans hw) hnot (hphase.trans hph) hle

/-- The sink stops. -/
theorem stop (h : Waits c base s) (hphase : s'.phase = .stopped) (hwritten : s'.written = s.written) :
    Waits c base s' := by
  cases h with
  | queued sent hw hnot hc hle => exact .lost sent (hwritten.trans hw) hnot hphase (by omega)
  | taken sent hw hnot hph hle => exact .lost sent (hwritten.trans hw) hnot hphase hle
  | written pre post hw hnot hle => exact .written pre post (hwritten.trans hw) hnot hle
  | lost sent hw hnot hph hle => exact .lost sent (hwritten.trans hw) hnot hphase hle

/-- The sink polls: a waiting command stays where it is, and `committed` does not grow; or it is taken. -/
theorem poll (h : Waits c base s) (hidle : ∀ d, s.phase ≠ .sending d) (hrun : s.phase ≠ .stopped)
    (hwritten : s'.written = s.written)
    (hnext : c ∈ s.control → (c ∈ s'.control ∧ s'.committed ≤ s.committed) ∨
      s'.phase = .sending c) : Waits c base s' := by
  cases h with
  | queued sent hw hnot hc hle =>
    rcases hnext hc with ⟨hc', hcommitted⟩ | hphase
    · exact .queued sent (hwritten.trans hw) hnot hc' (by omega)
    · exact .taken sent (hwritten.trans hw) hnot hphase (by omega)
  | taken sent hw hnot hph hle => exact absurd hph (hidle c)
  | written pre post hw hnot hle => exact .written pre post (hwritten.trans hw) hnot hle
  | lost sent hw hnot hph hle => exact absurd hph hrun

/-- What the sink had in hand is written. -/
theorem write (h : Waits c base s) (hdistinct : Distinct s) {d : Command}
    (hphase : s.phase = .sending d) :
    Waits c base { s with phase := .selectControl, written := s.written ++ [d] } := by
  cases h with
  | queued sent hw hnot hc hle =>
    -- the command is in its channel, so it is not the one in hand
    have hne : c ≠ d := by
      rintro rfl
      have honce := hdistinct.once c
      have hpos := List.count_pos_iff.mpr hc
      unfold copies at honce
      rw [if_pos hphase] at honce
      omega
    refine .queued (sent ++ [d]) ?_ ?_ hc ?_
    · show s.written ++ [d] = _
      rw [hw, List.append_assoc]
    · rw [List.mem_append, List.mem_singleton]
      rintro (hmem | heq)
      · exact hnot hmem
      · exact hne heq
    · have hcommitted : s.committed = [d].countP (·.onData) := by
        unfold State.committed
        rw [hphase, List.countP_singleton]
      rw [hcommitted] at hle
      rw [List.countP_append]
      show _ + 0 ≤ 1
      omega
  | taken sent hw hnot hph hle =>
    obtain rfl : c = d := Phase.sending.inj (hph.symm.trans hphase)
    refine .written sent [] ?_ hnot hle
    show s.written ++ [c] = _
    rw [hw, List.append_assoc]
  | written pre post hw hnot hle =>
    refine .written pre (post ++ [d]) ?_ hnot hle
    show s.written ++ [d] = _
    rw [hw, List.append_assoc, List.append_assoc]
    rfl
  | lost sent hw hnot hph hle => exact absurd (hph.symm.trans hphase) Phase.noConfusion

/-- **The step lemma.** -/
theorem step (h : Waits c base s) (hdistinct : Distinct s) (hin : Accounted s) (hs : Moves s s') :
    Waits c base s' := by
  cases hs with
  | issuesData m hsend hrun => exact h.joined rfl rfl fun d hd => hd
  | issuesControl m hsend hrun requestId =>
    exact h.joined rfl rfl fun d hd => List.mem_append_left _ hd
  | drops controlClosed dataClosed => exact h.joined rfl rfl fun d hd => hd
  | takesControl d rest hphase hcontrol =>
    refine h.poll (by rw [hphase]; exact fun _ => Phase.noConfusion)
      (by rw [hphase]; exact Phase.noConfusion) rfl fun hc => ?_
    rw [hcontrol] at hc
    rcases List.mem_cons.mp hc with rfl | hc
    · exact Or.inr rfl
    · -- what comes out of the control channel is no `Send`
      have hd : d.onData = false := by
        obtain ⟨held, -, -, hin⟩ := hin
        have hmem : d ∈ ofPlane false s.control := by
          rw [show ofPlane false s.control = s.control from hin.ownPlane false, hcontrol]
          exact List.mem_cons_self
        exact beq_iff_eq.mp (List.mem_filter.mp hmem).2
      refine Or.inl ⟨hc, ?_⟩
      show (if d.onData then 1 else 0) ≤ _
      rw [hd]
      exact Nat.zero_le _
  | takesData d rest hphase hdata =>
    refine h.poll (by rw [hphase]; exact fun _ => Phase.noConfusion)
      (by rw [hphase]; exact Phase.noConfusion) rfl fun hc => Or.inl ⟨hc, ?_⟩
    have hone : s.committed = 1 := by
      unfold State.committed
      rw [hphase]
    rw [hone]
    show (if d.onData then 1 else 0) ≤ 1
    split <;> omega
  | passesControl phase hphase hcontrol hnext =>
    refine h.poll (by rw [hphase]; exact fun _ => Phase.noConfusion)
      (by rw [hphase]; exact Phase.noConfusion) rfl fun hc => ?_
    rw [hcontrol] at hc
    exact absurd hc List.not_mem_nil
  | passesData phase hphase hdata hnext =>
    refine h.poll (by rw [hphase]; exact fun _ => Phase.noConfusion)
      (by rw [hphase]; exact Phase.noConfusion) rfl fun hc => Or.inl ⟨hc, ?_⟩
    rcases hnext with rfl | rfl
    · exact Nat.zero_le _
    · exact Nat.zero_le _
  | writes d hphase => exact h.write hdistinct hphase
  | fails d hphase error => exact h.stop rfl rfl

theorem exec {as : List Action} {t : State} (h : Waits c base s) (hreach : outbound.Reach s)
    (ht : outbound.exec s as = some t) : Waits c base t := by
  induction as generalizing s with
  | nil =>
    obtain rfl := Option.some.inj ht
    exact h
  | cons a as ih =>
    rw [Sys.exec_cons, Option.bind_eq_some_iff] at ht
    obtain ⟨s', hs, ht⟩ := ht
    exact ih (h.step (distinct_of_reach hreach) (accounted_of_reach hreach) (moves hs))
      (.step hreach trivial hs) ht

end Waits

/-- A control command has just been issued. -/
theorem waits_of_issued {s s' : State} {c : Command} (hs : Moves s s')
    (hissued : s'.issued = s.issued ++ [c]) (hc : c.onData = false) : Waits c s.written s' := by
  have hgrew : ∀ {t : State}, t.issued = s.issued → t.issued ≠ s.issued ++ [c] := by
    intro t ht hgrown
    have hlen := congrArg List.length (ht.symm.trans hgrown)
    rw [List.length_append, List.length_singleton] at hlen
    omega
  cases hs with
  | issuesData m hsend hrun =>
    obtain rfl : s.issue m = c := List.singleton_inj.mp (List.append_cancel_left hissued)
    exact absurd (hsend.symm.trans hc) Bool.noConfusion
  | issuesControl m hsend hrun requestId =>
    obtain rfl : s.issue m = c := List.singleton_inj.mp (List.append_cancel_left hissued)
    refine .queued [] (List.append_nil _).symm List.not_mem_nil
      (List.mem_append_right _ (List.mem_singleton_self _)) ?_
    show 0 + s.committed ≤ 1
    unfold State.committed
    split
    · omega
    · split <;> omega
    · omega
  | drops | takesControl | takesData | passesControl | passesData | writes | fails =>
    exact absurd hissued (hgrew rfl)

/-- **A control command waits for at most one `Send`.**  Whatever is queued on the data plane when it is
    issued, and whatever is issued after it: of what is written from then on, at most one `Send` comes
    before it. -/
theorem control_waits_for_one_send {s s' t : State} {a : Action} {c : Command} {as : List Action}
    (h : outbound.Reach s) (hs : step s a = some s') (hissued : s'.issued = s.issued ++ [c])
    (hc : c.onData = false) (ht : outbound.exec s' as = some t) :
    ∃ sent, t.written = s.written ++ sent ∧
      (sent.takeWhile (· ≠ c)).countP (·.onData) ≤ 1 := by
  have hwaits : Waits c s.written t :=
    (waits_of_issued (moves hs) hissued hc).exec (.step h trivial hs) ht
  have hall : ∀ sent : List Command, c ∉ sent → ∀ d ∈ sent, decide (d ≠ c) = true := by
    intro sent hnot d hd
    rw [decide_eq_true_iff]
    rintro rfl
    exact hnot hd
  cases hwaits with
  | queued sent hw hnot _ hle =>
    rw [← List.takeWhile_eq_self_iff.mpr (hall sent hnot)] at hle
    exact ⟨sent, hw, by omega⟩
  | taken sent hw hnot _ hle | lost sent hw hnot _ hle =>
    rw [← List.takeWhile_eq_self_iff.mpr (hall sent hnot)] at hle
    exact ⟨sent, hw, hle⟩
  | written pre post hw hnot hle =>
    refine ⟨_, hw, ?_⟩
    rw [List.takeWhile_append_of_pos (hall pre hnot), List.takeWhile_cons_of_neg (by simp),
      List.append_nil]
    exact hle

/-- The bound is reached: a ping that is issued `halfway` is behind one of the two `Send`s. -/
theorem control_waits_for_one_send_ping : ∃ sent,
    [⟨0, Messages.send 7 0 none ⟨{}, []⟩⟩, ⟨2, Messages.ping⟩] = halfway.written ++ sent ∧
      (sent.takeWhile (· ≠ ⟨2, Messages.ping⟩)).countP (·.onData) ≤ 1 :=
  control_waits_for_one_send
    (t := { halfway with
      phase := .selectControl
      data := [⟨1, Messages.send 7 1 none ⟨{}, []⟩⟩]
      serial := 3
      issued := halfway.issued ++ [⟨2, Messages.ping⟩]
      written := [⟨0, Messages.send 7 0 none ⟨{}, []⟩⟩, ⟨2, Messages.ping⟩] })
    (a := .command Messages.ping) reach_halfway rfl rfl rfl
    (show outbound.exec _ [.select, .written, .select, .written] = _ from rfl)

/-! ## The sink alone -/

/-- A step of the sink task: a poll, or a write that succeeds. -/
def Action.bySink (a : Action) : Bool := a = .select ∨ a = .written

/-- A bound on the steps the sink needs to empty its hand and both channels. -/
def State.work (s : State) : Nat :=
  2 * s.control.length + 3 * s.data.length +
    match s.phase with
    | .selectControl => 1
    | .selectData => if s.data = [] then 2 else 0
    | .sending _ => 2
    | .stopped => 0

/-- The connection still has its senders, and its sink task. -/
structure State.Open (s : State) : Prop where
  running : s.phase ≠ .stopped
  control : s.controlClosed = false
  data : s.dataClosed = false

/-- **The step lemma**: with something left, the sink can take a step of its own, and has less left. -/
theorem sink_steps {s : State} (hopen : s.Open)
    (hleft : ¬ (s.inHand = [] ∧ s.control = [] ∧ s.data = [])) :
    ∃ a s', a.bySink = true ∧ step s a = some s' ∧ s'.Open ∧ s'.issued = s.issued ∧
      s'.work < s.work := by
  obtain ⟨hrun, hcontrolOpen, hdataOpen⟩ := hopen
  cases hphase : s.phase with
  | stopped => exact absurd hphase hrun
  | sending c =>
    refine ⟨.written, { s with phase := .selectControl, written := s.written ++ [c] }, rfl, ?_,
      ⟨Phase.noConfusion, hcontrolOpen, hdataOpen⟩, rfl, ?_⟩
    · simp only [Outbound.step, hphase]
    · simp only [State.work, hphase]
      omega
  | selectControl =>
    cases hcontrol : s.control with
    | cons c rest =>
      refine ⟨.select, { s with phase := .sending c, control := rest }, rfl, ?_,
        ⟨Phase.noConfusion, hcontrolOpen, hdataOpen⟩, rfl, ?_⟩
      · simp only [Outbound.step, State.select, hphase, hcontrol]
      · simp only [State.work, hphase, hcontrol, List.length_cons]
        omega
    | nil =>
      have hdata : s.data ≠ [] := by
        intro hnil
        refine hleft ⟨?_, hcontrol, hnil⟩
        rw [State.inHand, hphase]
      refine ⟨.select, { s with phase := .selectData }, rfl, ?_,
        ⟨Phase.noConfusion, hcontrolOpen, hdataOpen⟩, rfl, ?_⟩
      · simp only [Outbound.step, State.select, hphase, hcontrol, hcontrolOpen, Bool.false_eq_true,
          if_false]
      · simp only [State.work, hphase, if_neg hdata]
        omega
  | selectData =>
    cases hdata : s.data with
    | cons c rest =>
      refine ⟨.select, { s with phase := .sending c, data := rest }, rfl, ?_,
        ⟨Phase.noConfusion, hcontrolOpen, hdataOpen⟩, rfl, ?_⟩
      · simp only [Outbound.step, State.select, hphase, hdata]
      · simp only [State.work, hphase, hdata, List.length_cons, if_neg (List.cons_ne_nil c rest)]
        omega
    | nil =>
      refine ⟨.select, { s with phase := .selectControl }, rfl, ?_,
        ⟨Phase.noConfusion, hcontrolOpen, hdataOpen⟩, rfl, ?_⟩
      · simp only [Outbound.step, State.select, hphase, hdata, hdataOpen, Bool.false_eq_true,
          if_false]
      · simp only [State.work, hphase, hdata, if_true]
        omega

/-- **The sink drains both planes.**  From any state in which the connection is up, the sink task alone,
    within a number of steps linear in what is queued, puts every command that was issued on the
    socket, each plane in the order of issue. -/
theorem sink_drains {s : State} (h : outbound.Reach s) (hopen : s.Open) :
    ∃ as t, (∀ a ∈ as, a.bySink = true) ∧
      as.length ≤ 2 * s.control.length + 3 * s.data.length + 2 ∧ outbound.exec s as = some t ∧
      t.issued = s.issued ∧ ∀ data, ofPlane data t.written = ofPlane data s.issued := by
  have hwork : s.work ≤ 2 * s.control.length + 3 * s.data.length + 2 := by
    unfold State.work
    split
    · omega
    · split <;> omega
    · omega
    · omega
  obtain ⟨as, t, has, hlen, ht, hopent, hissued, hhand, hcontrol, hdata⟩ :=
    @Sys.exists_exec_of_measure _ _ outbound (fun _ a => a.bySink = true) _ _
      (fun s t => t.issued = s.issued) State.work (fun _ => rfl)
      (fun _ _ _ hst htu => htu.trans hst) (fun _ => sink_steps) s hopen
  refine ⟨as, t, has.forall_mem ht, hlen.trans hwork, ht, hissued, fun data => ?_⟩
  obtain ⟨held, -, hheld, hin⟩ := accounted_of_reach (h.exec as (Sys.guarded_true as s) ht)
  have hchannel : t.channel data = [] := by
    unfold State.channel
    split
    · exact hdata
    · exact hcontrol
  rw [← hissued, hin.inOrder data, hheld hopent.running, hhand, hchannel, List.append_nil,
    List.append_nil]

theorem sink_drains_halfway : ∃ as t, (∀ a ∈ as, a.bySink = true) ∧ as.length ≤ 8 ∧
    outbound.exec halfway as = some t ∧ t.issued = halfway.issued ∧
    ∀ data, ofPlane data t.written = ofPlane data halfway.issued :=
  sink_drains reach_halfway ⟨Phase.noConfusion, rfl, rfl⟩

end PulsarClient.Connection.Outbound
