/-
  THE WINDOW — how far can `remaining_messages` go, and is the `as u32` of the permits ever a cut?

  The counter is an `i64` because one entry may carry more messages than the consumer has permits for:
  it goes below zero, and the next `Flow` makes up for it.  An entry says how many messages it carries
  in `num_messages_in_batch`, an `i32`; nobody bounds it by the batch size.

  1. **Half a window** — past the threshold check the counter is at least `batch_size.div_ceil(2)`:
     it was, or a `Flow` was sent and it is `batch_size`.

  2. **One entry** — between two checks at most one entry is taken, of at most `2 ^ 31 - 1` messages.
     So the counter stays within one entry below half a window (`WindowInv`).

  3. **The cast** (`permits_in_u32`) — `batch_size - remaining_messages` is then at most
     `batch_size / 2 + (2 ^ 31 - 1)`, which is below `2 ^ 32` for every `batch_size` of a `u32`.  There
     is no room for a second entry.
-/
import PulsarClient.Consumer.SessionInvariant

namespace PulsarClient.Consumer

open Runs

/-! ## Statement -/

/-- The values of an `i64`. -/
def InI64 (n : Int) : Prop := -2 ^ 63 ≤ n ∧ n < 2 ^ 63

/-- `num_messages_in_batch` of an entry is absent, or in `0..=i32::MAX`. -/
def sizedEntry (m : PulsarClient.Message) : Bool :=
  match m.payload.bind fun p => p.metadata.numMessagesInBatch with
  | some n => decide (0 ≤ n) && decide (n < 2 ^ 31)
  | none => true

/-- So it is with what arrives. -/
def sized : Action → Bool
  | .arrive (some m) => sizedEntry m
  | _ => true

/-- `batch_size.div_ceil(2)` -/
def Config.threshold (c : Config) : Nat := (c.batchSize + 1) / 2

/-- What the engine knows of its counter. -/
structure WindowInv (c : Config) (s : State) : Prop where
  /-- at most one entry below half a window -/
  low : (c.threshold : Int) - 2 ^ 31 < s.remainingMessages
  high : s.remainingMessages ≤ c.batchSize
  /-- past the check, at least half a window -/
  waiting : s.pc = .waiting → (c.threshold : Int) ≤ s.remainingMessages
  queued : ∀ e ∈ s.events, 0 ≤ e.permits ∧ e.permits < 2 ^ 31

section

variable {c : Config} {s s' : State} {a : Action}

/-- An entry takes at most an `i32` off. -/
theorem permits_of_sized {m : Option PulsarClient.Message} (h : sized (.arrive m) = true) :
    0 ≤ (Event.Message m).permits ∧ (Event.Message m).permits < 2 ^ 31 := by
  cases m with
  | none =>
    show (0 : Int) ≤ 0 ∧ (0 : Int) < 2 ^ 31
    omega
  | some m =>
    have hm : sizedEntry m = true := h
    unfold sizedEntry at hm
    show 0 ≤ (m.payload.bind fun p => p.metadata.numMessagesInBatch).getD 1 ∧
      (m.payload.bind fun p => p.metadata.numMessagesInBatch).getD 1 < 2 ^ 31
    split at hm
    · rename_i n hn
      obtain ⟨hpos, hlt⟩ := Bool.and_eq_true_iff.mp hm
      rw [hn]
      exact ⟨of_decide_eq_true hpos, of_decide_eq_true hlt⟩
    · rename_i hn
      rw [hn]
      show (0 : Int) ≤ 1 ∧ (1 : Int) < 2 ^ 31
      omega

/-! ## The cast -/

/-- **The arithmetic**: what is missing fits a `u32`, and is not nothing when the check fails. -/
theorem permits_in_u32 (h : WindowInv c s) (hbatch : c.batchSize < 2 ^ 32)
    (hwants : s.wantsFlow c = true) :
    1 ≤ (c.batchSize : Int) - s.remainingMessages ∧
      (c.batchSize : Int) - s.remainingMessages ≤ 2 ^ 32 - 1 := by
  have hlow := h.low
  have hlt : s.remainingMessages < (c.threshold : Int) := of_decide_eq_true hwants
  have hhalf : c.threshold = (c.batchSize + 1) / 2 := rfl
  omega

/-- Nothing is cut. -/
theorem cast_exact (h : WindowInv c s) (hbatch : c.batchSize < 2 ^ 32)
    (hwants : s.wantsFlow c = true) :
    ((((c.batchSize : Int) - s.remainingMessages) % 2 ^ 32).toNat : Int) =
      c.batchSize - s.remainingMessages := by
  obtain ⟨hpos, hle⟩ := permits_in_u32 h hbatch hwants
  omega

/-- Nor does the counter leave its type, or the difference. -/
theorem WindowInv.inI64 (h : WindowInv c s) (hbatch : c.batchSize < 2 ^ 32) :
    InI64 s.remainingMessages ∧ InI64 (c.batchSize - s.remainingMessages) := by
  have hlow := h.low
  have hhigh := h.high
  constructor
  · show -2 ^ 63 ≤ s.remainingMessages ∧ s.remainingMessages < 2 ^ 63
    omega
  · show -2 ^ 63 ≤ (c.batchSize : Int) - s.remainingMessages ∧
      (c.batchSize : Int) - s.remainingMessages < 2 ^ 63
    omega

/-! ## The invariant -/

/-- A step that the permits do not notice. -/
theorem WindowInv.inner (h : WindowInv c s) (ha : a.inner = true) (hs : step c s a = some s') :
    WindowInv c s' := by
  have hinner := inner_step ha hs
  constructor
  · rw [hinner.remainingMessages]
    exact h.low
  · rw [hinner.remainingMessages]
    exact h.high
  · intro hwaiting
    rw [hinner.remainingMessages]
    exact h.waiting (hinner.waiting hwaiting)
  · intro e he
    have hevents := hinner.events
    split at hevents
    · -- a request is forwarded, and costs nothing
      obtain ⟨r, hevents⟩ := hevents
      rw [hevents, List.mem_append, List.mem_singleton] at he
      rcases he with he | rfl
      · exact h.queued e he
      · show (0 : Int) ≤ 0 ∧ (0 : Int) < 2 ^ 31
        omega
    · rw [hevents] at he
      exact h.queued e he

/-- The counter stays, and the engine is not past the check. -/
theorem WindowInv.leave {pc : Pc} (h : WindowInv c s) (hpc : pc ≠ .waiting) :
    WindowInv c { s with pc } :=
  ⟨h.low, h.high, fun hwaiting => absurd hwaiting hpc, h.queued⟩

/-- A full window. -/
theorem WindowInv.full {pc : Pc} {sent : List Command} (h : WindowInv c s) :
    WindowInv c { s with remainingMessages := c.batchSize, pc, sent } := by
  have hhalf : c.threshold = (c.batchSize + 1) / 2 := rfl
  constructor
  · show (c.threshold : Int) - 2 ^ 31 < (c.batchSize : Int)
    omega
  · exact Int.le_refl (c.batchSize : Int)
  · intro _
    show (c.threshold : Int) ≤ (c.batchSize : Int)
    omega
  · exact h.queued

/-- **One entry**: it is taken past the check, so with half a window left. -/
theorem WindowInv.take {e : Event} {rest : List Event} (h : WindowInv c s) (hpc : s.pc = .waiting)
    (hev : s.events = e :: rest) : WindowInv c ({ s with events := rest }.handle c e) := by
  have hcases := handle_cases c { s with events := rest } e
  obtain ⟨hremaining, hleads, -⟩ := handle_spec hcases
  obtain ⟨-, -, -, hevents⟩ := handle_keeps hcases
  obtain ⟨hpos, hlt⟩ := h.queued e (hev ▸ List.mem_cons_self)
  have hhalf := h.waiting hpc
  have hhigh := h.high
  have hremaining' : ({ s with events := rest }.handle c e).remainingMessages =
      s.remainingMessages - e.permits := hremaining
  constructor
  · rw [hremaining']
    omega
  · rw [hremaining']
    omega
  · intro hwaiting
    split at hleads
    · cases hleads.symm.trans hwaiting
    · rw [hwaiting] at hleads
      exact hleads.elim
  · intro e' he'
    rw [hevents] at he'
    exact h.queued e' (hev ▸ List.mem_cons_of_mem e he')

/-- **The step lemma.** -/
theorem WindowInv.step (h : WindowInv c s) (hok : sized a = true) (hs : step c s a = some s') :
    WindowInv c s' := by
  by_cases ha : a.inner = true
  · exact h.inner ha hs
  · cases step_moves hs with
    | arrive =>
      refine ⟨h.low, h.high, h.waiting, fun e he => ?_⟩
      rcases List.mem_append.mp he with he | he
      · exact h.queued e he
      · rw [List.mem_singleton] at he
        exact he ▸ permits_of_sized hok
    | top hpc =>
      rename_i lost
      cases lost with
      | true => exact h.leave Pc.noConfusion
      | false => exact h.leave Pc.noConfusion
    | reconnected hpc => exact h.full
    | stopped hpc => exact h.leave Pc.noConfusion
    | reported hpc =>
      rename_i e
      obtain ⟨hturning, hremaining⟩ := turning_push (c := c) s (.Err e) .top
      have hevents := (local_push (c := c) s (.Err e) .top).events
      constructor
      · rw [hremaining]
        exact h.low
      · rw [hremaining]
        exact h.high
      · intro hwaiting
        rw [hwaiting] at hturning
        exact hturning.elim
      · rw [hevents]
        exact h.queued
    | granted hpc hwants => exact h.full
    | refused hpc hwants hpc' =>
      apply h.leave
      rcases hpc' with rfl | rfl
      · exact Pc.noConfusion
      · exact Pc.noConfusion
    | enough hpc hwants =>
      exact ⟨h.low, h.high, fun _ => Int.not_lt.mp (of_decide_eq_false hwants), h.queued⟩
    | next hpc hev => exact h.take hpc hev
    | _ => exact absurd rfl ha

theorem WindowInv.init (hs : (consumer c).init s) : WindowInv c s := by
  obtain rfl := hs
  have hhalf : c.threshold = (c.batchSize + 1) / 2 := rfl
  constructor
  · show (c.threshold : Int) - 2 ^ 31 < (c.batchSize : Int)
    omega
  · exact Int.le_refl (c.batchSize : Int)
  · intro hwaiting
    cases hwaiting
  · intro e he
    cases he

/-! ## What is sent -/

/-- Taking an event sends nothing yet. -/
theorem sent_handle {e : Event} (h : Handles c s e s') : s'.sent = s.sent := by
  cases e with
  | Message m => exact (local_handle h).sent
  | EngineMessage r => cases h <;> rfl

/-- **Only the check sends a `Flow`**, and only when the counter is low. -/
theorem granted_of_sent {permits : Nat} (hs : step c s a = some s')
    (hsent : s'.sent = s.sent ++ [.flow permits]) :
    s.wantsFlow c = true ∧
      permits = (((c.batchSize : Int) - s.remainingMessages) % 2 ^ 32).toNat := by
  have hne : s.sent ≠ s.sent ++ [.flow permits] := by
    intro heq
    exact List.cons_ne_nil _ _ (List.append_right_eq_self.mp heq.symm)
  have hlast {x : Command} : s.sent ++ [x] = s.sent ++ [.flow permits] → x = .flow permits :=
    fun heq => List.singleton_inj.mp (List.append_cancel_left heq)
  cases step_moves hs with
  | granted hpc hwants =>
    have hflow := hlast hsent
    injection hflow with hflow
    exact ⟨hwants, hflow.symm⟩
  | acked hpc =>
    rename_i ok
    cases ok with
    | true => cases hlast hsent
    | false => exact absurd hsent hne
  | asked hpc =>
    rename_i ok
    cases ok with
    | true => cases hlast hsent
    | false => exact absurd hsent hne
  | reported | unpublished => exact absurd ((local_push s _ _).sent.symm.trans hsent) hne
  | item => exact absurd ((local_item s _ _).sent.symm.trans hsent) hne
  | next hpc hev => exact absurd ((sent_handle (handle_cases c _ _)).symm.trans hsent) hne
  | _ => exact absurd hsent hne

end

/-! ## The main result -/

/-- **Headline.**  Whatever the batch size of a `u32`, and whatever entries arrive: past the check the
    counter is between half a window and a window; a `Flow` asks for exactly what is missing, which is
    positive and fits its `u32`; and neither the counter nor the difference leaves its `i64`. -/
theorem flow_window (c : Config) (hbatch : c.batchSize < 2 ^ 32) (s : State)
    (hs : (consumer c).ReachIf (fun _ a => sized a = true) s) :
    InI64 s.remainingMessages ∧ InI64 (c.batchSize - s.remainingMessages) ∧
      (s.pc = .waiting →
        (c.threshold : Int) ≤ s.remainingMessages ∧ s.remainingMessages ≤ c.batchSize) ∧
      ∀ a s' (permits : Nat), step c s a = some s' → s'.sent = s.sent ++ [.flow permits] →
        (permits : Int) = c.batchSize - s.remainingMessages ∧ 1 ≤ permits ∧ permits ≤ 2 ^ 32 - 1 := by
  have h : WindowInv c s :=
    hs.inv (WindowInv c) (fun _ h0 => .init h0) fun _ _ _ h hok hstep => h.step hok hstep
  obtain ⟨hcounter, hdifference⟩ := h.inI64 hbatch
  refine ⟨hcounter, hdifference, fun hpc => ⟨h.waiting hpc, h.high⟩, ?_⟩
  intro a s' permits hstep hsent
  obtain ⟨hwants, hpermits⟩ := granted_of_sent hstep hsent
  have hexact := cast_exact h hbatch hwants
  have hrange := permits_in_u32 h hbatch hwants
  rw [← hpermits] at hexact
  omega

/-- An entry of as many messages as the field can say. -/
def hugeEntry : PulsarClient.Message where
  command := {}
  payload := some { metadata := { numMessagesInBatch := some (2 ^ 31 - 1) }, data := [] }

/-- The largest window that a `u32` allows. -/
def widest : Config where
  batchSize := 2 ^ 32 - 1
  codecs := { decodeSingleMessageMetadata := fun _ => none, decompress := fun _ _ b => .ok b }

/-- Two such entries: the first leaves half a window, the second one message, and the next `Flow` asks
    for `2 ^ 32 - 2`. -/
theorem flow_window_widest : ∃ s, s.pc = .flow ∧ s.remainingMessages = 1 ∧
    ∀ a s' (permits : Nat), step widest s a = some s' → s'.sent = s.sent ++ [.flow permits] →
      permits = 2 ^ 32 - 2 := by
  obtain ⟨s, hs, hp⟩ := Sys.exists_reachIf_of_execIf (S := consumer widest) (fun _ a => sized a)
    (p := fun s => decide (s.pc = .flow) && decide (s.remainingMessages = 1))
    (s := { remainingMessages := 2 ^ 32 - 1 }) rfl
    [.arrive (some hugeEntry), .arrive (some hugeEntry), .top false, .flow none, .next, .top false,
      .flow none, .next, .top false] (by decide +kernel)
  obtain ⟨hpc, hremaining⟩ := Bool.and_eq_true_iff.mp hp
  have hremaining := of_decide_eq_true hremaining
  refine ⟨s, of_decide_eq_true hpc, hremaining, fun a s' permits hstep hsent => ?_⟩
  have hexact := ((flow_window widest (by decide) s hs).2.2.2 a s' permits hstep hsent).1
  rw [hremaining] at hexact
  have hbatch : widest.batchSize = 2 ^ 32 - 1 := rfl
  omega

end PulsarClient.Consumer
