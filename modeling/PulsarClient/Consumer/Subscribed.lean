/-
  THE SUBSCRIPTION — does the engine ever wait without one?

  `reconnect` unregisters the source first and registers the new one late; between the two it can fail
  at four awaits.  The engine calls it from two places.  At the top of the loop an error ends the
  engine.  For a `CloseConsumer` it is pushed to the application, and the loop goes on: no source is
  registered, and nothing makes the engine reconnect.

  1. `Served` — a live source is registered on the connection of the engine, or the connection is
     flagged, so that the next round of the loop reconnects.

  2. `staysServed` — the condition: a reconnect for a `CloseConsumer` fails only over a flagged
     connection; no other holder takes the error of the engine's connection, and the application does not
     close the consumer on it, when that leaves it unserved.

  3. `never_idle`, and `idle_unsubscribed` for the claim without the condition.
-/
import PulsarClient.Consumer.SessionInvariant

namespace PulsarClient.Consumer

open Runs Proto

/-! ## Being served -/

/-- The connection of the engine is flagged. -/
def Session.flagged (s : Session) : Bool := (s.errors s.connection).isSet

/-- A source that the engine reads, or will from the next top of its loop. -/
def Session.reads (s : Session) (source : Nat) : Bool :=
  decide (s.messagesRx = some source) || s.forwarded.contains source

/-- A source that the engine reads is registered on its connection. -/
def Session.registered (s : Session) : Bool := (s.consumers s.connection).any s.reads

/-- While the engine waits, a source with a forwarder is registered on its connection, or the connection
    is flagged. -/
def NeverIdle (s : Session) : Prop :=
  s.consumer.pc = .waiting →
    (∃ source ∈ s.forwarded, s.consumers s.connection = some source) ∨ s.flagged = true

/-! ## The condition -/

/-- The engine needs its connection as it is: in its loop, and while it subscribes on it. -/
def Session.needs (s : Session) : Bool :=
  match s.phase with
  | none => decide (s.consumer.pc ≠ .gone)
  | some (.subscribing _ registered) => registered
  | some .granting => true
  | some _ => false

/-- The source that is needed is registered. -/
def Session.holds (s : Session) : Bool :=
  match s.phase with
  | none => s.registered
  | some _ => decide (s.consumers s.connection = some s.resolver)

def staysServed (c : Settings) (s : Session) : SessionAction → Bool
  | .taken connection => decide (connection ≠ s.connection) || !s.needs || s.holds
  | .close connection => decide (connection ≠ s.connection) || !s.needs || s.flagged
  | a => !(decide (s.consumer.pc = .reconnecting true) && s.abandons c a) || s.flagged

/-! ## The invariant -/

/-- Behind every flag is an error. -/
def Backed (errors : Nat → SharedError) : Prop :=
  ∀ connection, (errors connection).isSet = true → (errors connection).removed.isSome = true

structure Served (s : Session) : Prop where
  served : s.needs = true → s.holds = true ∨ s.flagged = true
  /-- past the top of the loop, the source has its forwarder -/
  forwarded : s.consumer.pc = .flow ∨ s.consumer.pc = .waiting → s.messagesRx = none
  errors : Backed s.errors

section

variable {c : Settings} {s s' : Session}

theorem registered_iff : s.registered = true ↔
    ∃ source, s.consumers s.connection = some source ∧
      (s.messagesRx = some source ∨ source ∈ s.forwarded) := by
  unfold Session.registered Session.reads
  simp only [Option.any_eq_true, Bool.or_eq_true, decide_eq_true_eq, List.contains_iff_mem]

theorem Backed.set {errors : Nat → SharedError} (h : Backed errors) (connection : Nat)
    (e : ConnectionError) :
    Backed (Function.update errors connection ((errors connection).set e)) := by
  intro k hk
  by_cases heq : k = connection
  · subst heq
    rw [Function.update_self]
    rfl
  · rw [Function.update_of_ne heq] at hk ⊢
    exact h k hk

theorem Backed.remove {errors : Nat → SharedError} (h : Backed errors) (connection : Nat) :
    Backed (Function.update errors connection (errors connection).remove) := by
  intro k hk
  by_cases heq : k = connection
  · subst heq
    rw [Function.update_self] at hk
    exact absurd hk Bool.false_ne_true
  · rw [Function.update_of_ne heq] at hk ⊢
    exact h k hk

theorem Backed.closeConsumer (h : Backed s.errors) (connection : Nat) :
    Backed (s.closeConsumer connection).errors := by
  unfold Session.closeConsumer
  split
  · exact h
  · exact h.set connection _

/-- What the engine is served by, in the eyes of `holds` and `flagged`. -/
structure SameService (s s' : Session) : Prop where
  phase : s'.phase = s.phase
  connection : s'.connection = s.connection
  consumers : s'.consumers s.connection = s.consumers s.connection
  flagged : s.flagged = true → s'.flagged = true
  resolver : s'.resolver = s.resolver
  messagesRx : s'.messagesRx = s.messagesRx
  forwarded : s'.forwarded = s.forwarded

theorem SameService.holds (h : SameService s s') : s'.holds = s.holds := by
  unfold Session.holds Session.registered Session.reads
  rw [h.phase, h.connection, h.consumers, h.resolver, h.messagesRx, h.forwarded]

/-- What serves the engine stays, while the engine moves in its loop. -/
theorem Served.keep (h : Served s) (hsame : SameService s s')
    (hgone : s.consumer.pc = .gone → s'.consumer.pc = .gone)
    (hpc : s'.consumer.pc = .flow ∨ s'.consumer.pc = .waiting →
      s.consumer.pc = .flow ∨ s.consumer.pc = .waiting)
    (herrors : Backed s'.errors) : Served s' := by
  constructor
  · intro hneeds
    have hneeds' : s.needs = true := by
      unfold Session.needs at hneeds ⊢
      rw [hsame.phase] at hneeds
      split at hneeds
      · rw [decide_eq_true_eq] at hneeds ⊢
        exact fun hg => hneeds (hgone hg)
      · exact hneeds
      · rfl
      · exact hneeds
    rw [hsame.holds]
    exact (h.served hneeds').imp id hsame.flagged
  · intro hp
    rw [hsame.messagesRx]
    exact h.forwarded (hpc hp)
  · exact herrors

/-- The engine is in `reconnect`, and nothing is registered yet. -/
theorem Served.idle (hneeds : s.needs = false)
    (hpc : ¬ (s.consumer.pc = .flow ∨ s.consumer.pc = .waiting)) (herrors : Backed s.errors) :
    Served s where
  served := fun h => absurd (hneeds.symm.trans h) Bool.false_ne_true
  forwarded := fun hp => absurd hp hpc
  errors := herrors

theorem not_waiting_of_not_live (h : ¬ s.consumer.pc.live) :
    ¬ (s.consumer.pc = .flow ∨ s.consumer.pc = .waiting) := by
  rintro (hp | hp)
  · rw [hp] at h
    exact h trivial
  · rw [hp] at h
    exact h trivial

/-- `reconnect` begins. -/
theorem Served.begin (hlive : ¬ s.consumer.pc.live) (herrors : Backed s.errors) :
    Served s.reconnect := by
  apply Served.idle
  · rfl
  · rw [s.frame_reconnect.consumer]
    exact not_waiting_of_not_live hlive
  · exact herrors.closeConsumer s.connection

/-- `subscribe` registers the new source, or it has nothing to wait for. -/
theorem Served.subscribe (hlive : ¬ s.consumer.pc.live) (herrors : Backed s.errors)
    (currentRetries : Nat) : Served (s.subscribe currentRetries) := by
  have hpc := not_waiting_of_not_live hlive
  unfold Session.subscribe
  split
  · refine ⟨fun _ => Or.inl ?_, fun hp => absurd hp hpc, herrors⟩
    apply decide_eq_true
    exact Function.update_self _ _ _
  · exact .idle rfl hpc (herrors.set _ _)

/-- At the top of the loop the source gets its forwarder. -/
theorem Served.registerSource (h : s.registered = true ∨ s.flagged = true) (hphase : s.phase = none)
    (herrors : Backed s.errors) : Served s.registerSource := by
  refine ⟨fun _ => ?_, fun _ => rfl, herrors⟩
  refine h.imp (fun hr => ?_) id
  have hholds : s.registerSource.holds = s.registerSource.registered := by
    unfold Session.holds
    rw [show s.registerSource.phase = none from hphase]
  rw [hholds]
  obtain ⟨source, hregistered, hreads⟩ := registered_iff.mp hr
  refine registered_iff.mpr ⟨source, hregistered, Or.inr (List.mem_append.mpr ?_)⟩
  exact hreads.imp (fun hrx => Option.mem_toList.mpr hrx) id

/-- The source that was subscribed with is the one that the engine reads next. -/
theorem registered_resolver (h : s.holds = true) (hphase : s.phase = some .granting)
    (hrx : s'.messagesRx = some s.resolver) (hconnection : s'.connection = s.connection)
    (hconsumers : s'.consumers = s.consumers) : s'.registered = true := by
  unfold Session.holds at h
  rw [hphase] at h
  refine registered_iff.mpr ⟨s.resolver, ?_, Or.inl hrx⟩
  rw [hconnection, hconsumers]
  exact of_decide_eq_true h

/-- An error in the cell of a connection. -/
theorem flagged_set (s : Session) (connection : Nat) (e : ConnectionError)
    (h : connection = s.connection ∨ s.flagged = true) :
    (s.setError connection e).flagged = true := by
  show (Function.update s.errors connection ((s.errors connection).set e) s.connection).isSet = true
  by_cases heq : s.connection = connection
  · subst heq
    rw [Function.update_self]
    rfl
  · rw [Function.update_of_ne heq]
    exact h.resolve_left fun h => heq h.symm

theorem Served.fails (h : Served s) (connection : Nat) (e : ConnectionError) (ends : Bool) :
    Served { s.setError connection e with
      running := if ends then Function.update s.running connection false else s.running
      consumers := if ends then Function.update s.consumers connection none else s.consumers } := by
  by_cases hc : connection = s.connection
  · refine ⟨fun _ => Or.inr (flagged_set s connection e (Or.inl hc)), h.forwarded, ?_⟩
    exact h.errors.set connection e
  · have hconsumers : (if ends then Function.update s.consumers connection none else s.consumers)
        s.connection = s.consumers s.connection := by
      split
      · exact Function.update_of_ne (Ne.symm hc) _ _
      · rfl
    refine h.keep ⟨rfl, rfl, hconsumers, ?_, rfl, rfl, rfl⟩ id id (h.errors.set connection e)
    exact fun hflagged => flagged_set s connection e (Or.inr hflagged)

theorem Served.taken (h : Served s) {connection : Nat}
    (hok : staysServed c s (.taken connection) = true) :
    Served { s with
      errors := Function.update s.errors connection (s.errors connection).remove } := by
  have herrors := h.errors.remove connection
  by_cases hc : connection = s.connection
  · refine ⟨fun hneeds => Or.inl ?_, h.forwarded, herrors⟩
    have hneeds' : s.needs = true := hneeds
    simp only [staysServed, hc, ne_eq, not_true_eq_false, decide_false, hneeds', Bool.not_true,
      Bool.false_or] at hok
    exact hok
  · refine h.keep ⟨rfl, rfl, rfl, fun hflagged => ?_, rfl, rfl, rfl⟩ id id herrors
    show (Function.update s.errors connection (s.errors connection).remove s.connection).isSet = true
    rw [Function.update_of_ne (Ne.symm hc)]
    exact hflagged

theorem Served.close (h : Served s) {connection : Nat}
    (hok : staysServed c s (.close connection) = true) : Served (s.closeConsumer connection) := by
  have herrors := h.errors.closeConsumer connection
  unfold Session.closeConsumer at herrors ⊢
  split at herrors
  · rename_i hrunning
    rw [if_pos hrunning]
    by_cases hc : connection = s.connection
    · refine ⟨fun hneeds => Or.inr ?_, h.forwarded, herrors⟩
      have hneeds' : s.needs = true := hneeds
      simp only [staysServed, hc, ne_eq, not_true_eq_false, decide_false, hneeds', Bool.not_true,
        Bool.false_or] at hok
      exact hok
    · refine h.keep ⟨rfl, rfl, ?_, id, rfl, rfl, rfl⟩ id id herrors
      exact Function.update_of_ne (Ne.symm hc) _ _
  · rename_i hrunning
    rw [if_neg hrunning]
    by_cases hc : connection = s.connection
    · exact ⟨fun _ => Or.inr (flagged_set s connection _ (Or.inl hc)), h.forwarded, herrors⟩
    · refine h.keep ⟨rfl, rfl, rfl, fun hflagged => ?_, rfl, rfl, rfl⟩ id id herrors
      exact flagged_set s connection _ (Or.inr hflagged)

/-- `reconnect` ends with an error: the engine ends, or its connection is flagged. -/
theorem Served.abandoned {consumer : State} {e : Error} (h : Served s)
    (hok : s.consumer.pc = .reconnecting true → s.flagged = true)
    (hs : step c.consumer s.consumer (.reconnected (some e)) = some consumer) :
    Served { s with consumer, phase := none } := by
  cases step_moves hs with
  | stopped =>
    refine ⟨fun hneeds => ?_, ?_, h.errors⟩
    · exact absurd hneeds Bool.false_ne_true
    · rintro (hp | hp)
      · cases hp
      · cases hp
  | reported hpc =>
    refine ⟨fun _ => Or.inr (hok hpc), ?_, h.errors⟩
    obtain ⟨hturning, -⟩ := turning_push (c := c.consumer) s.consumer (.Err e) .top
    rintro (hp | hp)
    · have hp' : (s.consumer.push c.consumer (.Err e) .top).pc = .flow := hp
      rw [hp'] at hturning
      exact hturning.elim
    · have hp' : (s.consumer.push c.consumer (.Err e) .top).pc = .waiting := hp
      rw [hp'] at hturning
      exact hturning.elim

/-- **The step lemma**: a step that meets the condition keeps the invariant. -/
theorem Served.step {a : SessionAction} (h : Served s) (hsound : Sound s)
    (hok : staysServed c s a = true) (hs : Turn c s a s') : Served s' := by
  -- in its loop, the engine is served
  have hlive : s.consumer.pc.live → s.phase = none ∧ (s.registered = true ∨ s.flagged = true) := by
    intro hlive
    have hphase : s.phase = none := by
      by_contra hphase
      exact hsound.phase hphase hlive
    have hserved := h.served
    unfold Session.needs Session.holds at hserved
    rw [hphase] at hserved
    refine ⟨hphase, hserved (decide_eq_true ?_)⟩
    intro hgone
    rw [hgone] at hlive
    exact hlive.elim
  have hreconnecting : ∀ {phase : Phase}, s.phase = some phase → ¬ s.consumer.pc.live := by
    intro phase hphase
    apply hsound.phase
    rw [hphase]
    exact Option.some_ne_none _
  cases hs with
  | inner ha hs =>
    have hinner := inner_step ha hs
    refine h.keep ⟨rfl, rfl, rfl, id, rfl, rfl, rfl⟩ hinner.gone ?_ h.errors
    exact Or.imp hinner.flow hinner.waiting
  | arrive hsource hm => exact h.keep ⟨rfl, rfl, rfl, id, rfl, rfl, rfl⟩ id id h.errors
  | lost hpc hset => exact .begin (fun hl => hl) (h.errors.remove s.connection)
  | cleared hpc hset hremoved =>
    have hsome := h.errors s.connection hset
    rw [hremoved] at hsome
    exact absurd hsome Bool.false_ne_true
  | valid hpc hset =>
    obtain ⟨hphase, hserved⟩ := hlive (by rw [hpc]; trivial)
    exact .registerSource hserved hphase h.errors
  | flow hs =>
    have hpc : s.consumer.pc = .flow := by
      by_contra hpc
      simp only [Consumer.step, if_neg hpc] at hs
      exact absurd hs (Option.some_ne_none _).symm
    refine h.keep ⟨rfl, rfl, rfl, id, rfl, rfl, rfl⟩ ?_ (fun _ => Or.inl hpc) h.errors
    intro hgone
    cases hpc.symm.trans hgone
  | next hs hpc =>
    obtain ⟨e, rest, hwaiting, -, -⟩ := next_step hs
    refine h.keep ⟨rfl, rfl, rfl, id, rfl, rfl, rfl⟩ ?_ (fun _ => Or.inr hwaiting) h.errors
    intro hgone
    cases hwaiting.symm.trans hgone
  | closed hs hpc =>
    refine .begin ?_ h.errors
    show ¬ Pc.live _
    rw [hpc]
    exact fun hl => hl
  | awaits ha hphase hearly =>
    apply Served.idle
    · unfold Session.needs
      split
      · exact absurd ‹some _ = none› (Option.some_ne_none _)
      · rename_i heq
        obtain rfl := Option.some.inj heq
        exact absurd hearly Bool.false_ne_true
      · rename_i heq
        obtain rfl := Option.some.inj heq
        exact absurd hearly Bool.false_ne_true
      · rfl
    · exact not_waiting_of_not_live (hreconnecting hphase)
    · exact h.errors
  | connected hphase =>
    rename_i connection
    exact Served.subscribe (s := { s with connection, resolver := s.resolver + 1 })
      (hreconnecting hphase) h.errors 0
  | retried hphase =>
    rename_i connection n
    exact Served.subscribe (s := { s with connection }) (hreconnecting hphase) h.errors (n + 1)
  | subscribed hphase =>
    have hserved := h.served
    unfold Session.needs Session.holds at hserved
    rw [hphase] at hserved
    exact ⟨fun _ => hserved rfl, h.forwarded, h.errors⟩
  | granted hphase hpc =>
    have hserved := h.served (by unfold Session.needs; rw [hphase])
    refine .registerSource (hserved.imp (fun hholds => ?_) id) rfl h.errors
    exact registered_resolver hholds hphase rfl rfl rfl
  | regranted hphase hpc =>
    have hserved := h.served (by unfold Session.needs; rw [hphase])
    refine ⟨fun _ => hserved.imp (fun hholds => ?_) id, ?_, h.errors⟩
    · exact registered_resolver hholds hphase rfl rfl rfl
    · rintro (hp | hp)
      · cases hp
      · cases hp
  | abandoned ha hphase hs =>
    refine h.abandoned (fun hpc => ?_) hs
    cases a with
    | taken connection => exact absurd ha Bool.false_ne_true
    | close connection => exact absurd ha Bool.false_ne_true
    | _ =>
      simp only [staysServed, hpc, ha, decide_true, Bool.and_self, Bool.not_true,
        Bool.false_or] at hok
      exact hok
  | fails => exact h.fails _ _ _
  | taken => exact h.taken hok
  | close => exact h.close hok

theorem Served.init (hs : (session c).init s) : Served s := by
  obtain rfl := hs
  refine ⟨fun _ => Or.inl rfl, ?_, fun connection hset => absurd hset Bool.false_ne_true⟩
  rintro (hp | hp)
  · cases hp
  · cases hp

end

/-! ## The main result -/

/-- **Headline.**  In every run whose steps all meet the condition — whatever fails, and whenever the
    broker closes the consumer — an engine that waits for an event has its source registered on its
    connection, or reconnects in the next round of its loop. -/
theorem never_idle (c : Settings) (t : Session)
    (ht : (session c).ReachIf (fun s a => staysServed c s a = true) t) : NeverIdle t := by
  have hinv : Sound t ∧ Served t := by
    apply ht.inv fun t => Sound t ∧ Served t
    · exact fun s hs => ⟨sound_of_init hs, .init hs⟩
    · intro s a s' h hok hs
      exact ⟨h.1.step (turn hs), h.2.step h.1 hok (turn hs)⟩
  obtain ⟨hsound, hserved⟩ := hinv
  intro hpc
  have hphase : t.phase = none := by
    by_contra hphase
    apply hsound.phase hphase
    rw [hpc]
    trivial
  have hserves := hserved.served
  unfold Session.needs Session.holds at hserves
  rw [hphase, hpc] at hserves
  refine (hserves rfl).imp (fun hregistered => ?_) id
  obtain ⟨source, hregistered, hreads⟩ := registered_iff.mp hregistered
  rcases hreads with hrx | hforwarded
  · exact absurd ((hserved.forwarded (Or.inr hpc)).symm.trans hrx) (Option.some_ne_none _).symm
  · exact ⟨source, hforwarded, hregistered⟩

/-- The broker closes the consumer, the first `Subscribe` fails with a broken pipe and is retried on
    another connection, and the engine waits again. -/
theorem never_idle_retried : ∃ t : Session, t.connection = 2 ∧ t.consumer.pc = .waiting ∧
    NeverIdle t := by
  obtain ⟨t, ht, hp⟩ := Sys.exists_reachIf_of_execIf (S := session defaults) (staysServed defaults)
    (p := fun t => decide (t.connection = 2) && decide (t.consumer.pc = .waiting))
    (s := defaults.start) rfl
    [.top, .arrive 0 (some closedByBroker), .flow none, .next, .closed, .lookedUp none,
      .connected (.ok 1), .subscribed (some (.Io .BrokenPipe)), .delayed, .lookedUp none,
      .connected (.ok 2), .subscribed none, .granted none, .top, .flow none] (by decide +kernel)
  obtain ⟨hconnection, hpc⟩ := Bool.and_eq_true_iff.mp hp
  exact ⟨t, of_decide_eq_true hconnection, of_decide_eq_true hpc, never_idle defaults t ht⟩

/-- The broker closes the consumer, the lookup of the topic fails, and the engine waits on a connection
    that knows nothing of it. -/
theorem idle_unsubscribed :
    ¬ ∀ (c : Settings) (t : Session), (session c).Reach t → NeverIdle t := by
  intro hall
  obtain ⟨t, ht, hp⟩ := Sys.exists_reach_of_exec (S := session defaults)
    (p := fun t => decide (t.consumer.pc = .waiting) && decide (t.consumers t.connection = none) &&
      !t.flagged) (s := defaults.start) rfl
    [.top, .arrive 0 (some closedByBroker), .flow none, .next, .closed,
      .lookedUp (some (.ServiceDiscovery .NotFound)), .top, .flow none] (by decide +kernel)
  simp only [Bool.and_eq_true, Bool.not_eq_true', decide_eq_true_eq] at hp
  obtain ⟨⟨hpc, hnone⟩, hflagged⟩ := hp
  rcases hall defaults t ht hpc with ⟨source, -, hregistered⟩ | hset
  · exact absurd (hnone.symm.trans hregistered) (Option.some_ne_none source).symm
  · exact absurd (hflagged.symm.trans hset) Bool.false_ne_true

end PulsarClient.Consumer
