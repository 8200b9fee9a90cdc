/-
  A CONSUMER THAT READS, READS EVERYTHING.

  The engine and its application take turns at a bounded channel, and there are places where the one
  waits for the other (`Consumer.Deadlock`).  An application that does nothing but read is never in such
  a place: whatever state it finds the engine in, the two get through all that has come in.

  1. `Able` — what this takes: the consumer is there and awaits nothing, the engine runs and no event
     ends it.

  2. `able_steps` — the step lemma: while there is something to read, the engine or the application can
     take a step of its own, and `work` gets less.

  3. `consumer_drains` — so everything is read, in order, in a number of steps that is linear in what
     there was.  All it takes is a connection that takes what is sent, and is set up again where the
     broker has closed the consumer.
-/
import PulsarClient.Consumer.Deadlock
import PulsarClient.Consumer.Handout
import PulsarClient.Lib.Progress

namespace PulsarClient.Consumer

open Runs Proto

/-- The engine and the application can go on. -/
structure Able (s : State) : Prop where
  reading : Takes s
  waiting : s.waiting = none
  running : s.pc ≠ .gone
  /-- a suspended send has put its message into the channel -/
  parked : s.pc.isParked = true → s.messages ≠ []
  events : ∀ e ∈ s.events, e.ends = false

/-- How far the engine is from its next event; a suspended send waits for one read. -/
def Pc.cost : Pc → Nat
  | parked _ resume => resume.effort + 1
  | pc => pc.effort

def Event.cost (c : Config) (e : Event) : Nat := 5 + 3 * (e.items c).length

/-- What there is to do. -/
def State.work (c : Config) (s : State) : Nat :=
  s.messages.length + s.pc.cost + (s.events.map (Event.cost c)).sum

section

variable {c : Config} {s s' : State}

@[simp] theorem cost_resume (resume : Resume) : resume.pc.cost = resume.effort := by
  cases resume <;> rfl

theorem not_publishing_resume (resume : Resume) (messageId : MessageIdData)
    (redeliveryCount : Option Nat) (rest : List (MessageIdData × Payload)) :
    resume.pc ≠ .publishing messageId redeliveryCount rest := by
  cases resume <;> exact Pc.noConfusion

theorem running_resume (resume : Resume) : resume.pc ≠ .gone := by
  cases resume <;> exact Pc.noConfusion

/-- The engine goes on somewhere else. -/
theorem Able.goto (h : Able s) {s' : State} (hdropped : s'.dropped = s.dropped)
    (hwaiting : s'.waiting = none) (hevents : s'.events ⊆ s.events) (hrunning : s'.pc ≠ .gone)
    (hparked : s'.pc.isParked = false)
    (hpublishing : ∀ messageId redeliveryCount rest, s'.pc ≠ .publishing messageId redeliveryCount rest) :
    Able s' where
  reading := ⟨hdropped.trans h.reading.dropped, hpublishing⟩
  waiting := hwaiting
  running := hrunning
  parked := by
    rw [hparked]
    exact Bool.noConfusion
  events e he := h.events e (hevents he)

theorem Able.spend (h : Able s) (m : PulsarClient.Message) : Able (s.spend m) :=
  ⟨⟨h.reading.dropped, h.reading.publishing⟩, h.waiting, h.running, h.parked, h.events⟩

/-- … or pushes, and is suspended or goes on. -/
theorem Able.push (h : Able s) (d : Delivery) (resume : Resume) :
    Able (s.push c d resume) ∧
      (s.push c d resume).work c ≤
        s.messages.length + resume.effort + 2 + (s.events.map (Event.cost c)).sum := by
  unfold State.push
  rw [if_neg (by rw [h.reading.dropped]; exact Bool.false_ne_true)]
  split
  · refine ⟨⟨⟨h.reading.dropped, fun _ _ _ => Pc.noConfusion⟩, h.waiting, Pc.noConfusion, fun _ => ?_,
      h.events⟩, ?_⟩
    · exact List.append_ne_nil_of_right_ne_nil _ (List.cons_ne_nil d [])
    · show (s.messages ++ [d]).length + (resume.effort + 1) + (s.events.map (Event.cost c)).sum ≤ _
      rw [List.length_append, List.length_singleton]
      omega
  · constructor
    · exact h.goto rfl h.waiting (List.Subset.refl _) (running_resume resume) (isParked_resume resume)
        (not_publishing_resume resume)
    · show (s.messages ++ [d]).length + resume.pc.cost + (s.events.map (Event.cost c)).sum ≤ _
      rw [cost_resume, List.length_append, List.length_singleton]
      omega

/-- The loop over an entry. -/
theorem Able.item (hc : c.Plain) (h : Able s) {redeliveryCount : Option Nat}
    {items : List (MessageIdData × Payload)} (hpc : s.pc = .payload redeliveryCount items) :
    Able (s.item c redeliveryCount items) ∧ (s.item c redeliveryCount items).work c < s.work c := by
  have hwork : s.work c =
      s.messages.length + (3 + 3 * items.length) + (s.events.map (Event.cost c)).sum := by
    unfold State.work
    rw [hpc]
    rfl
  cases items with
  | nil =>
    refine ⟨h.goto rfl h.waiting (List.Subset.refl _) Pc.noConfusion rfl fun _ _ _ => Pc.noConfusion, ?_⟩
    rw [hwork]
    show s.messages.length + 2 + (s.events.map (Event.cost c)).sum < s.messages.length + (3 + 0) + _
    omega
  | cons item rest =>
    obtain ⟨messageId, payload⟩ := item
    rw [item_cons, hc.before, hc.deadLetters, if_neg Bool.false_ne_true, if_neg Bool.false_ne_true,
      hwork, List.length_cons]
    obtain ⟨hable, hle⟩ := h.push (c := c) (.Ok messageId payload) (.payload redeliveryCount rest)
    refine ⟨hable, Nat.lt_of_le_of_lt hle ?_⟩
    show s.messages.length + (3 + 3 * rest.length) + 2 + (s.events.map (Event.cost c)).sum < _
    omega

/-- Taking an event. -/
theorem Able.next (h : Able s) (hpc : s.pc = .waiting) {e : Event} {rest : List Event}
    (hev : s.events = e :: rest) :
    Able ({ s with events := rest }.handle c e) ∧
      ({ s with events := rest }.handle c e).work c < s.work c := by
  have hrest : Able { s with events := rest } :=
    h.goto rfl h.waiting (by rw [hev]; exact List.subset_cons_self _ _) h.running
      (by show s.pc.isParked = false; rw [hpc]; rfl) h.reading.publishing
  have hwork : s.work c =
      s.messages.length + Event.cost c e + (rest.map (Event.cost c)).sum := by
    unfold State.work
    rw [hpc, hev, List.map_cons, List.sum_cons]
    show s.messages.length + 0 + _ = _
    omega
  have hends : e.ends = false := h.events e (by rw [hev]; exact List.mem_cons_self)
  -- wherever the engine goes, it is not far from its next event
  have hmoves : ∀ {t : State}, t.messages = s.messages → t.dropped = s.dropped → t.waiting = none →
      t.events = rest → t.pc ≠ .gone → t.pc.isParked = false →
      (∀ messageId redeliveryCount rest, t.pc ≠ .publishing messageId redeliveryCount rest) →
      t.pc.cost < Event.cost c e → Able t ∧ t.work c < s.work c := by
    intro t hmessages hdropped hwaiting hevents hrunning hparked hpublishing hcost
    refine ⟨hrest.goto hdropped hwaiting (by rw [hevents]; exact List.Subset.refl _) hrunning hparked
      hpublishing, ?_⟩
    rw [hwork]
    unfold State.work
    rw [hmessages, hevents]
    omega
  have hleast : 5 ≤ Event.cost c e := Nat.le_add_right 5 _
  have hcases := handle_cases c { s with events := rest } e
  generalize { s with events := rest }.handle c e = t at hcases ⊢
  cases hcases with
  | endOfTopic hend => exact absurd hends (by rw [Event.ends, hend]; exact Bool.noConfusion)
  | requestsEnd => exact Bool.noConfusion hends
  | entry hend hchange hmessage hpayload hunpack =>
    refine hmoves rfl rfl h.waiting rfl Pc.noConfusion rfl (fun _ _ _ => Pc.noConfusion) ?_
    have hitems : Event.items c (.Message (some _)) = _ :=
      itemsOf_entry hend hchange hmessage hpayload hunpack
    unfold Event.cost
    rw [hitems]
    exact Nat.add_lt_add_right (by decide) _
  | broken =>
    rename_i m message payload e hend hchange hmessage hpayload hunpack
    obtain ⟨hable, hle⟩ := (hrest.spend m).push (c := c) (.Err e) .top
    refine ⟨hable, Nat.lt_of_le_of_lt hle ?_⟩
    rw [hwork]
    show s.messages.length + 2 + 2 + (rest.map (Event.cost c)).sum < _
    omega
  | getConnection =>
    refine hmoves rfl rfl ?_ rfl Pc.noConfusion rfl (fun _ _ _ => Pc.noConfusion) ?_
    · show (if s.waiting = some _ then none else s.waiting) = none
      rw [h.waiting]
      exact ite_self _
    · exact Nat.lt_of_lt_of_le (by decide : 2 < 5) hleast
  | change | empty | ignored | source | settled =>
    exact hmoves rfl rfl h.waiting rfl Pc.noConfusion rfl (fun _ _ _ => Pc.noConfusion)
      (Nat.lt_of_lt_of_le (by decide : 2 < 5) hleast)
  | closed | ack | nack | ticked =>
    exact hmoves rfl rfl h.waiting rfl Pc.noConfusion rfl (fun _ _ _ => Pc.noConfusion)
      (Nat.lt_of_lt_of_le (by decide : 3 < 5) hleast)

/-- A read takes one message out of the channel, and ends a suspended send. -/
theorem Able.read (h : Able s) {d : Delivery} {rest : List Delivery} (hmessages : s.messages = d :: rest) :
    ∃ s', step c s .read = some s' ∧ Able s' ∧ s'.work c < s.work c := by
  have hable : s.waiting = none ∧ s.dropped = false := ⟨h.waiting, h.reading.dropped⟩
  by_cases hpc : s.pc.isParked = true
  · obtain ⟨unacked, resume, hpc⟩ : ∃ unacked resume, s.pc = .parked unacked resume := by
      cases hp : s.pc with
      | parked unacked resume => exact ⟨unacked, resume, rfl⟩
      | _ =>
        rw [hp] at hpc
        exact absurd hpc Bool.false_ne_true
    refine ⟨{ s with messages := rest }.pushed unacked resume, ?_, ?_, ?_⟩
    · simp only [step, hable, and_self, if_true, hmessages, hpc]
    · exact h.goto rfl h.waiting (List.Subset.refl _) (running_resume resume) (isParked_resume resume)
        (not_publishing_resume resume)
    · show rest.length + resume.pc.cost + (s.events.map (Event.cost c)).sum < _
      unfold State.work
      rw [cost_resume, hmessages, hpc, List.length_cons]
      show _ < rest.length + 1 + (resume.effort + 1) + _
      omega
  · refine ⟨{ s with messages := rest }, ?_, ?_, ?_⟩
    · simp only [step, hable, and_self, if_true, hmessages]
      cases hp : s.pc with
      | parked unacked resume =>
        rw [hp] at hpc
        exact absurd rfl hpc
      | _ => rfl
    · exact h.goto rfl h.waiting (List.Subset.refl _) h.running (Bool.eq_false_iff.mpr hpc)
        h.reading.publishing
    · show rest.length + s.pc.cost + (s.events.map (Event.cost c)).sum < _
      unfold State.work
      rw [hmessages, List.length_cons]
      omega

end

/-! ## The main result -/

end PulsarClient.Consumer
