/-
  WHAT HOLDS IN EVERY SESSION, and what the steps of the engine mean for one.

  1. `Inner` — a step of the engine or of the application that is none of the session's own changes
     neither the permits nor where `reconnect` is.

  2. `handle_spec` — taking an event: its permits, and whether it makes the engine reconnect.

  3. `Sound` — every queued event has its origin, and while `reconnect` runs the engine is in it.
-/
import Mathlib.Data.List.Forall2
import PulsarClient.Consumer.Session

namespace PulsarClient.Consumer

open Runs Proto

/-! ## The other steps -/

/-- The engine is neither in `reconnect` nor gone. -/
def Pc.live : Pc → Prop
  | reconnecting _ => False
  | gone => False
  | _ => True

/-- What an await that is none of the session's leads to. -/
def Pc.turning : Pc → Prop
  | reconnecting _ => False
  | flow => False
  | waiting => False
  | _ => True

/-- A step that the permits and the connections do not notice. -/
structure Inner (a : Action) (s s' : State) : Prop where
  remainingMessages : s'.remainingMessages = s.remainingMessages
  reconnecting : ∀ closed, s'.pc = .reconnecting closed ↔ s.pc = .reconnecting closed
  gone : s.pc = .gone → s'.pc = .gone
  flow : s'.pc = .flow → s.pc = .flow
  waiting : s'.pc = .waiting → s.pc = .waiting
  events : if a.forwards then ∃ r, s'.events = s.events ++ [.EngineMessage r]
    else s'.events = s.events

section

variable {c : Config} {s s' : State} {a : Action}

/-- Something else moves, and the engine stays where it is. -/
theorem Inner.stay (hpc : s'.pc = s.pc) (hremaining : s'.remainingMessages = s.remainingMessages)
    (hev : if a.forwards then ∃ r, s'.events = s.events ++ [.EngineMessage r]
      else s'.events = s.events) : Inner a s s' where
  remainingMessages := hremaining
  reconnecting := fun closed => by rw [hpc]
  gone := fun h => by rw [hpc, h]
  flow := fun h => by rw [← hpc, h]
  waiting := fun h => by rw [← hpc, h]
  events := hev

/-- The engine moves on. -/
theorem Inner.move (ha : a.forwards = false) (hpc : s.pc.live) (hpc' : s'.pc.turning)
    (hremaining : s'.remainingMessages = s.remainingMessages) (hev : s'.events = s.events) :
    Inner a s s' := by
  constructor
  · exact hremaining
  · intro closed
    constructor
    · intro h
      rw [h] at hpc'
      exact hpc'.elim
    · intro h
      rw [h] at hpc
      exact hpc.elim
  · intro h
    rw [h] at hpc
    exact hpc.elim
  · intro h
    rw [h] at hpc'
    exact hpc'.elim
  · intro h
    rw [h] at hpc'
    exact hpc'.elim
  · rw [ha]
    exact hev

/-- An engine that is in its loop was. -/
theorem Inner.live (h : Inner a s s') (hpc' : s'.pc.live) : s.pc.live := by
  cases hpc : s.pc with
  | reconnecting closed =>
    rw [(h.reconnecting closed).mpr hpc] at hpc'
    exact hpc'.elim
  | gone =>
    rw [h.gone hpc] at hpc'
    exact hpc'.elim
  | _ => trivial

theorem Resume.turning_pc (resume : Resume) : resume.pc.turning := by
  cases resume with
  | top => trivial
  | payload redeliveryCount rest => trivial

theorem turning_push (s : State) (d : Delivery) (resume : Resume) :
    (s.push c d resume).pc.turning ∧
      (s.push c d resume).remainingMessages = s.remainingMessages := by
  unfold State.push
  split
  · exact ⟨trivial, rfl⟩
  · split
    · exact ⟨trivial, rfl⟩
    · exact ⟨resume.turning_pc, rfl⟩

theorem turning_item (s : State) (redeliveryCount : Option Nat) (items : List (MessageIdData × Payload)) :
    (s.item c redeliveryCount items).pc.turning ∧
      (s.item c redeliveryCount items).remainingMessages = s.remainingMessages := by
  cases items with
  | nil => exact ⟨trivial, rfl⟩
  | cons i rest =>
    rw [item_cons]
    split
    · exact ⟨trivial, rfl⟩
    · split
      · exact ⟨trivial, rfl⟩
      · exact turning_push s _ _

theorem inner_step (ha : a.inner = true) (hs : step c s a = some s') : Inner a s s' := by
  cases step_moves hs with
  | arrive => exact absurd ha Bool.false_ne_true
  | top => exact absurd ha Bool.false_ne_true
  | reconnected => exact absurd ha Bool.false_ne_true
  | stopped => exact absurd ha Bool.false_ne_true
  | reported => exact absurd ha Bool.false_ne_true
  | granted => exact absurd ha Bool.false_ne_true
  | refused => exact absurd ha Bool.false_ne_true
  | enough => exact absurd ha Bool.false_ne_true
  | next => exact absurd ha Bool.false_ne_true
  | forward => exact .stay rfl rfl ⟨_, rfl⟩
  | forwardEnd => exact .stay rfl rfl ⟨_, rfl⟩
  | timeout hpc => exact .move rfl (hpc ▸ trivial) trivial rfl rfl
  | item hpc =>
    rename_i redeliveryCount items
    obtain ⟨hturning, hremaining⟩ := turning_item (c := c) s redeliveryCount items
    exact .move rfl (hpc ▸ trivial) hturning hremaining (local_item s redeliveryCount items).events
  | published hpc => exact .move rfl (hpc ▸ trivial) trivial rfl rfl
  | unpublished hpc =>
    rename_i e
    obtain ⟨hturning, hremaining⟩ := turning_push (c := c) s (.Err e) .top
    exact .move rfl (hpc ▸ trivial) hturning hremaining (local_push s _ _).events
  | acked hpc =>
    rename_i resume ok
    exact .move rfl (hpc ▸ trivial) resume.turning_pc rfl rfl
  | asked hpc => exact .move rfl (hpc ▸ trivial) trivial rfl rfl
  | unparked hwaiting hdropped hmessages hpc =>
    rename_i resume
    exact .move rfl (hpc ▸ trivial) resume.turning_pc rfl rfl
  | read => exact .stay rfl rfl rfl
  | ack => exact .stay rfl rfl rfl
  | nack => exact .stay rfl rfl rfl
  | getConnection => exact .stay rfl rfl rfl
  | dropRequest => exact .stay rfl rfl rfl
  | released hwaiting hdropped hpc =>
    rename_i resume
    exact .move rfl (hpc ▸ trivial) resume.turning_pc rfl rfl
  | dropConsumer => exact .stay rfl rfl rfl
  | tick => exact .stay rfl rfl rfl
  | clock => exact .stay rfl rfl rfl

/-! ## Taking an event -/

/-- The permits that the engine takes an event for. -/
def Event.permits : Event → Int
  | Message (some m) => (m.payload.bind fun p => p.metadata.numMessagesInBatch).getD 1
  | _ => 0

/-- An event that makes the engine reconnect. -/
def Event.closes : Event → Bool
  | Message (some m) =>
    m.command.reachedEndOfTopic.isNone && m.command.activeConsumerChange.isNone &&
      m.command.message.isNone && m.command.closeConsumer.isSome
  | _ => false

/-- The end of the topic. -/
def Event.reachesEnd : Event → Bool
  | Message (some m) => m.command.reachedEndOfTopic.isSome
  | _ => false

/-- Taking an event: its permits, and where it leads. -/
theorem handle_spec {e : Event} (h : Handles c s e s') :
    s'.remainingMessages = s.remainingMessages - e.permits ∧
      (if e.closes then s'.pc = .reconnecting true else s'.pc.turning) ∧
      (e.reachesEnd = true → s'.pc = .gone) := by
  -- it does not end the topic
  have hgoes : ∀ {m : PulsarClient.Message} {p : Prop}, m.command.reachedEndOfTopic = none →
      (Event.reachesEnd (.Message (some m)) = true → p) := by
    intro m p hend hreaches
    rw [Event.reachesEnd, hend] at hreaches
    cases hreaches
  cases h with
  | endOfTopic hend =>
    refine ⟨rfl, ?_, fun _ => rfl⟩
    rw [if_neg (by simp [Event.closes, Option.isNone_iff_eq_none, Option.isSome_iff_ne_none.mp hend])]
    trivial
  | change hend hchange =>
    refine ⟨rfl, ?_, hgoes hend⟩
    rw [if_neg (by simp [Event.closes, Option.isNone_iff_eq_none, Option.isSome_iff_ne_none.mp hchange])]
    trivial
  | entry hend hchange hmessage | empty hend hchange hmessage =>
    refine ⟨rfl, ?_, hgoes hend⟩
    rw [if_neg (by simp [Event.closes, hmessage])]
    trivial
  | broken hend hchange hmessage =>
    obtain ⟨hturning, hremaining⟩ := turning_push (c := c) _ _ .top
    refine ⟨hremaining, ?_, hgoes hend⟩
    rw [if_neg (by simp [Event.closes, hmessage])]
    exact hturning
  | closed hend hchange hmessage hclose =>
    refine ⟨rfl, ?_, hgoes hend⟩
    rw [if_pos (by simp [Event.closes, hend, hchange, hmessage, hclose])]
  | ignored hend hchange hmessage hclose =>
    refine ⟨rfl, ?_, hgoes hend⟩
    rw [if_neg (by simp [Event.closes, hclose])]
    trivial
  | source | requestsEnd | ack | nack | settled | ticked | getConnection =>
    exact ⟨(Int.sub_zero _).symm, trivial, fun h => absurd h Bool.false_ne_true⟩

theorem events_handle (s : State) (e : Event) : (s.handle c e).events = s.events :=
  (handle_keeps (handle_cases c s e)).2.2.2

/-- The step that takes an event. -/
theorem next_step (hs : step c s .next = some s') :
    ∃ e rest, s.pc = .waiting ∧ s.events = e :: rest ∧
      s' = { s with events := rest }.handle c e := by
  cases step_moves hs with
  | next hpc hev => exact ⟨_, _, hpc, hev, rfl⟩

end

/-! ## What holds in every session -/

/-- A queued event, and where it comes from. -/
def Fits : Event → Option Nat → Prop
  | .Message m, some _ => m.all wellTyped = true
  | .EngineMessage _, none => True
  | _, _ => False

structure Sound (s : Session) : Prop where
  queue : List.Forall₂ Fits s.consumer.events s.origins
  /-- while `reconnect` runs, the engine is in it -/
  phase : s.phase ≠ none → ¬ s.consumer.pc.live

section

variable {c : Settings} {s s' : Session}

/-- A step inside of `reconnect`, or one that does not concern it. -/
theorem Sound.of_eq (h : Sound s) (hc : s'.consumer = s.consumer) (ho : s'.origins = s.origins)
    (hphase : s'.phase ≠ none → s.phase ≠ none) : Sound s' := by
  constructor
  · rw [hc, ho]
    exact h.queue
  · intro hne
    rw [hc]
    exact h.phase (hphase hne)

/-- The origin of the event that is taken. -/
theorem Sound.origin (h : Sound s) {e : Event} {rest : List Event}
    (hev : s.consumer.events = e :: rest) :
    ∃ origin, s.origins = origin :: s.origins.tail ∧ Fits e origin ∧
      List.Forall₂ Fits rest s.origins.tail := by
  have hq := h.queue
  rw [hev] at hq
  cases ho : s.origins with
  | nil =>
    rw [ho] at hq
    cases hq
  | cons origin origins =>
    rw [ho] at hq
    obtain ⟨hfits, hrest⟩ := List.forall₂_cons.mp hq
    exact ⟨origin, rfl, hfits, hrest⟩

theorem Sound.next {consumer : State} (h : Sound s)
    (hs : step c.consumer s.consumer .next = some consumer) :
    List.Forall₂ Fits consumer.events s.origins.tail ∧ s.phase = none := by
  obtain ⟨e, rest, hpc, hev, rfl⟩ := next_step hs
  obtain ⟨origin, -, -, hrest⟩ := h.origin hev
  rw [events_handle]
  refine ⟨hrest, ?_⟩
  by_contra hphase
  have hlive := h.phase hphase
  rw [hpc] at hlive
  exact hlive trivial

theorem Sound.step {a : SessionAction} (h : Sound s) (hs : Turn c s a s') : Sound s' := by
  -- `reconnect` begins
  have hreconnect : ∀ {t : Session}, List.Forall₂ Fits t.consumer.events t.origins →
      ¬ t.consumer.pc.live → Sound t.reconnect := by
    intro t hqueue hlive
    have hframe := t.frame_reconnect
    constructor
    · rw [hframe.consumer, hframe.origins]
      exact hqueue
    · intro _
      rw [hframe.consumer]
      exact hlive
  cases hs with
  | inner ha hs =>
    have hinner := inner_step ha hs
    constructor
    · have hev := hinner.events
      unfold Session.originsAfter
      split at hev
      · rename_i hforwards
        obtain ⟨r, hev⟩ := hev
        rw [hev, if_pos hforwards]
        exact List.rel_append h.queue (.cons trivial .nil)
      · rename_i hforwards
        rw [hev, if_neg hforwards]
        exact h.queue
    · intro hphase hlive
      exact h.phase hphase (hinner.live hlive)
  | arrive hsource hm => exact ⟨List.rel_append h.queue (.cons hm .nil), h.phase⟩
  | lost hpc hset => exact hreconnect h.queue fun hlive => hlive
  | cleared hpc hset hremoved =>
    refine ⟨h.queue, fun hphase => absurd ?_ (h.phase hphase)⟩
    rw [hpc]
    trivial
  | valid hpc hset =>
    refine ⟨h.queue, fun hphase => absurd ?_ (h.phase hphase)⟩
    rw [hpc]
    trivial
  | flow hs =>
    simp only [Consumer.step] at hs
    split at hs
    · rename_i hpc
      have hphase : s.phase ≠ none → False := by
        intro hphase
        have hlive := h.phase hphase
        rw [hpc] at hlive
        exact hlive trivial
      refine ⟨?_, fun hne => (hphase hne).elim⟩
      split at hs
      · split at hs
        · obtain rfl := Option.some.inj hs
          exact h.queue
        · obtain rfl := Option.some.inj hs
          exact h.queue
        · obtain rfl := Option.some.inj hs
          exact h.queue
      · obtain rfl := Option.some.inj hs
        exact h.queue
    · exact absurd hs (Option.some_ne_none _).symm
  | next hs hpc =>
    obtain ⟨hqueue, hphase⟩ := h.next hs
    exact ⟨hqueue, fun hne => absurd hphase hne⟩
  | closed hs hpc =>
    obtain ⟨hqueue, -⟩ := h.next hs
    refine hreconnect hqueue ?_
    show ¬ Pc.live _
    rw [hpc]
    exact fun hlive => hlive
  | awaits ha hphase hearly =>
    refine h.of_eq rfl rfl fun _ => ?_
    rw [hphase]
    exact Option.some_ne_none _
  | connected hphase =>
    rename_i connection
    have hframe := Session.frame_subscribe { s with connection, resolver := s.resolver + 1 } 0
    refine h.of_eq hframe.consumer hframe.origins fun _ => ?_
    rw [hphase]
    exact Option.some_ne_none _
  | retried hphase =>
    rename_i connection n
    have hframe := Session.frame_subscribe { s with connection } (n + 1)
    refine h.of_eq hframe.consumer hframe.origins fun _ => ?_
    rw [hphase]
    exact Option.some_ne_none _
  | subscribed hphase =>
    refine h.of_eq rfl rfl fun _ => ?_
    rw [hphase]
    exact Option.some_ne_none _
  | granted hphase hpc => exact ⟨h.queue, fun hne => absurd rfl hne⟩
  | regranted hphase hpc => exact ⟨h.queue, fun hne => absurd rfl hne⟩
  | abandoned ha hphase hs =>
    refine ⟨?_, fun hne => absurd rfl hne⟩
    simp only [Consumer.step] at hs
    split at hs
    · exact absurd ‹some _ = none› (Option.some_ne_none _)
    · obtain rfl := Option.some.inj hs
      exact h.queue
    · obtain rfl := Option.some.inj hs
      rw [(local_push s.consumer _ _).events]
      exact h.queue
    · exact absurd hs (Option.some_ne_none _).symm
  | fails => exact h.of_eq rfl rfl id
  | taken => exact h.of_eq rfl rfl id
  | close =>
    have hframe := s.frame_closeConsumer ‹Nat›
    refine h.of_eq hframe.consumer hframe.origins ?_
    unfold Session.closeConsumer
    split
    · exact id
    · exact id

theorem sound_of_init (hs : (session c).init s) : Sound s := by
  obtain rfl := hs
  exact ⟨.nil, fun hne => absurd rfl hne⟩

end

end PulsarClient.Consumer
