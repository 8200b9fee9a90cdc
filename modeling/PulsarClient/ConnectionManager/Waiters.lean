/-
  WAITERS ARE SERVED — every waiter list in the pool has a call that will resolve it.

  A call that finds an entry `Connecting(waiters)` parks there and relies on somebody else.  Who?  The
  calls that DRIVE an address: those establishing a connection (or backing off between attempts), and
  those about to install one or to report a failure.  Each of them ends in a lock section that takes
  the waiter list away and resolves everyone on it.

  1. `abandoned_entry_is_never_driven` — the code lets a driver disappear: when the future of the call
     that created the entry is dropped (or the executor refuses its keep-alive task) the entry stays,
     and every later caller parks on it.

  2. `driven_iff_keepsDriver` — that is the only way: a run keeps every waiter list driven exactly when
     no step of it takes away the last driver of a waiter list.

  3. `parked_calls_are_driven` — so in such a run whoever waits is on a list with a driver.
-/
import PulsarClient.ConnectionManager.Pool

namespace PulsarClient.ConnectionManager

open Runs

/-- A call that will resolve, or has resolved, the waiters of its address. -/
def Pc.drives : Pc → Bool
  | .establishing _ => true
  | .backoff _ => true
  | .installing _ => true
  | .failing _ => true
  | _ => false

/-- A call that waits for its oneshot. -/
def Pc.waits : Pc → Bool
  | .parked => true
  | .parkedInner => true
  | _ => false

def ConnectionStatus.isConnecting : ConnectionStatus → Bool
  | .Connecting _ => true
  | .Connected _ _ => false

/-- Every waiter list has a call that drives its address. -/
def Driven (s : State) : Prop :=
  ∀ b ws, s.connections b = some (.Connecting ws) →
    ∃ t < s.calls, s.broker t = b ∧ (s.pc t).drives = true

/-- Nobody relies on the call alone: it does not drive, or its address has no waiter list, or another
    call drives it too. -/
def dispensable (s : State) (t : Nat) : Bool :=
  !(s.pc t).drives || !(s.connections (s.broker t)).any ConnectionStatus.isConnecting ||
    (List.range s.calls).any fun u => u ≠ t && s.broker u = s.broker t && (s.pc u).drives

/-- A call is dropped, or refused its keep-alive task, only when nobody relies on it alone. -/
def keepsDriver (s : State) : Action → Bool
  | .drop t => dispensable s t
  | .connected t false => dispensable s t
  | _ => true

/-! ## Driven entries -/

namespace Driven

variable {s s' : State}

/-- No new waiter list, no driver lost. -/
theorem mono (h : Driven s)
    (hentry : ∀ b ws, s'.connections b = some (.Connecting ws) →
      ∃ ws', s.connections b = some (.Connecting ws'))
    (hdrive : ∀ t b, t < s.calls → s.broker t = b → (s.pc t).drives = true →
      t < s'.calls ∧ s'.broker t = b ∧ (s'.pc t).drives = true) : Driven s' := by
  intro b ws hb
  obtain ⟨ws', hb'⟩ := hentry b ws hb
  obtain ⟨t, hlt, hbr, hd⟩ := h b ws' hb'
  exact ⟨t, hdrive t b hlt hbr hd⟩

/-- A call moves on without giving up the drive. -/
theorem goto {t : Nat} {p : Pc} (h : Driven s) (hp : (s.pc t).drives = true → p.drives = true) :
    Driven (s.goto t p) := by
  refine h.mono (fun b ws hb => ⟨ws, hb⟩) fun u b hlt hbr hd => ⟨hlt, hbr, ?_⟩
  by_cases hut : u = t
  · subst hut
    rw [goto_pc_self]
    exact hp hd
  · rw [goto_pc_of_ne s p hut]
    exact hd

/-- A call parks on a waiter list that is there. -/
theorem park {t : Nat} {ws : List Nat} {p : Pc} (h : Driven s)
    (hb : s.connections (s.broker t) = some (.Connecting ws)) (hp : (s.pc t).drives = false) :
    Driven (s.park t ws p) := by
  refine h.mono ?_ fun u b hlt hbr hd => ⟨hlt, hbr, ?_⟩
  · intro b ws' hb'
    by_cases hbt : b = s.broker t
    · exact ⟨ws, hbt ▸ hb⟩
    · have heq : (s.park t ws p).connections b = s.connections b := setEntry_of_ne s _ hbt
      exact ⟨ws', heq ▸ hb'⟩
  · have hut : u ≠ t := by
      rintro rfl
      rw [hp] at hd
      exact absurd hd Bool.false_ne_true
    exact (goto_pc_of_ne (s.setEntry (s.broker t) _) p hut).symm ▸ hd

/-- The entry of an address is taken away or filled: its waiters need no driver any more. -/
theorem settleEntry {t : Nat} {p : Pc} {b : BrokerAddress} {e : Option ConnectionStatus}
    (h : Driven s) (hbt : s.broker t = b) (he : ∀ ws, e ≠ some (.Connecting ws)) :
    Driven ((s.setEntry b e).goto t p) := by
  intro b' ws hb'
  have hne : b' ≠ b := by
    rintro rfl
    exact he ws ((setEntry_self s b' e).symm.trans hb')
  have hb'' : s.connections b' = some (.Connecting ws) := (setEntry_of_ne s e hne).symm.trans hb'
  obtain ⟨u, hlt, hbr, hd⟩ := h b' ws hb''
  refine ⟨u, hlt, hbr, ?_⟩
  have hut : u ≠ t := by
    rintro rfl
    exact hne (hbr.symm.trans hbt)
  rw [goto_pc_of_ne _ p hut]
  exact hd

/-- A call takes the lead; the entry of its address may become a new, empty waiter list. -/
theorem lead {t : Nat} (h : Driven s) (ht : t < s.calls) (hd : (s.pc t).drives = false)
    (hcalls : s'.calls = s.calls) (hbroker : s'.broker = s.broker)
    (hpc : s'.pc = Function.update s.pc t (.establishing 0))
    (hentry : ∀ b, b ≠ s.broker t → s'.connections b = s.connections b) : Driven s' := by
  intro b ws hb
  rw [hcalls, hbroker, hpc]
  by_cases hbt : b = s.broker t
  · exact ⟨t, ht, hbt.symm, by rw [Function.update_self]; rfl⟩
  · rw [hentry b hbt] at hb
    obtain ⟨u, hlt, hbr, hu⟩ := h b ws hb
    refine ⟨u, hlt, hbr, ?_⟩
    have hut : u ≠ t := by
      rintro rfl
      rw [hd] at hu
      exact absurd hu Bool.false_ne_true
    rw [Function.update_of_ne hut]
    exact hu

/-- A call stops driving without resolving anyone: the entries stay driven exactly when nobody relied
    on it alone. -/
theorem abandon_iff {t : Nat} {p : Pc} (h : Driven s) (hp : p.drives = false) :
    Driven (s.goto t p) ↔ dispensable s t = true := by
  constructor
  · intro h'
    by_cases hd : (s.pc t).drives = true
    · cases he : s.connections (s.broker t) with
      | none => simp [dispensable, he]
      | some e =>
        cases e with
        | Connected conn lastUsed => simp [dispensable, he, ConnectionStatus.isConnecting]
        | Connecting ws =>
          obtain ⟨u, hlt, hbr, hu⟩ := h' (s.broker t) ws he
          have hut : u ≠ t := by
            rintro rfl
            rw [goto_pc_self, hp] at hu
            exact absurd hu Bool.false_ne_true
          rw [goto_pc_of_ne s p hut] at hu
          have hany : ((List.range s.calls).any fun u =>
              u ≠ t && s.broker u = s.broker t && (s.pc u).drives) = true :=
            List.any_eq_true.mpr ⟨u, List.mem_range.mpr hlt, by
              simp [hut, show s.broker u = s.broker t from hbr, hu]⟩
          unfold dispensable
          rw [hany, Bool.or_true]
    · rw [Bool.not_eq_true] at hd
      simp [dispensable, hd]
  · intro hdis b ws hb
    obtain ⟨u, hlt, hbr, hu⟩ := h b ws hb
    by_cases hut : u = t
    · subst hut
      have hb' : s.connections (s.broker u) = some (.Connecting ws) := hbr ▸ hb
      have hany : ((List.range s.calls).any fun v =>
          v ≠ u && s.broker v = s.broker u && (s.pc v).drives) = true := by
        simpa [dispensable, hu, hb', ConnectionStatus.isConnecting] using hdis
      obtain ⟨v, hv, hvp⟩ := List.any_eq_true.mp hany
      simp only [Bool.and_eq_true, decide_eq_true_eq] at hvp
      refine ⟨v, List.mem_range.mp hv, hvp.1.2.trans hbr, ?_⟩
      rw [goto_pc_of_ne s p hvp.1.1]
      exact hvp.2
    · refine ⟨u, hlt, hbr, ?_⟩
      rw [goto_pc_of_ne s p hut]
      exact hu

end Driven

/-! ## One step -/

section Step

variable {o : ConnectionRetryOptions} {s s' : State}

theorem Driven.look {t : Nat} (h : Driven s) (hpc : s.pc t = .looking) : Driven (s.look t) := by
  have hd : (s.pc t).drives = false := by rw [hpc]; rfl
  have hgo : ∀ p, Driven (s.goto t p) := fun p => h.goto fun hd' => by
    rw [hd] at hd'
    exact absurd hd' Bool.false_ne_true
  unfold State.look
  split
  · exact hgo _
  · split
    · exact h.settleEntry rfl fun ws => by simp
    · exact hgo _
  · rename_i ws hb
    exact h.park hb hd

theorem Driven.enter {t : Nat} (h : Driven s) (ht : t < s.calls) (hpc : s.pc t = .entering) :
    Driven (s.enter t) := by
  have hd : (s.pc t).drives = false := by rw [hpc]; rfl
  unfold State.enter
  split
  · exact h.lead ht hd rfl rfl rfl fun b hb => setEntry_of_ne s _ hb
  · split
    · exact h.lead ht hd rfl rfl rfl fun _ _ => rfl
    · rename_i ws hb _
      exact h.park hb hd
  · exact h.lead ht hd rfl rfl rfl fun _ _ => rfl

theorem Driven.refused {t retries : Nat} {e : ConnectionError} (h : Driven s) :
    Driven (s.refused o t retries e) := by
  unfold State.refused
  split
  · split
    · exact h.goto fun _ => rfl
    · exact h.goto fun _ => rfl
  · exact h.goto fun _ => rfl

theorem Driven.newCall {b : BrokerAddress} {p : Pc} (h : Driven s) : Driven (s.newCall b p) := by
  refine h.mono (fun b ws hb => ⟨ws, hb⟩) fun t b' hlt hbr hd => ?_
  have hne : t ≠ s.calls := Nat.ne_of_lt hlt
  refine ⟨Nat.lt_succ_of_lt hlt, ?_, ?_⟩
  · show Function.update s.broker s.calls b t = b'
    rw [Function.update_of_ne hne]
    exact hbr
  · rw [show (s.newCall b p).pc t = s.pc t from goto_pc_of_ne s p hne]
    exact hd

theorem Driven.checkConnections {held : List Nat} (h : Driven s) :
    Driven (s.checkConnections o held) := by
  refine h.mono (fun b ws hb => ⟨ws, ?_⟩) fun t b hlt hbr hd => ⟨hlt, hbr, hd⟩
  simp only [State.checkConnections] at hb
  split at hb
  · split at hb
    · exact absurd hb (by simp)
    · exact absurd hb (by simp)
  · exact hb

/-- The step of one call keeps every waiter list driven, exactly when it keeps its driver. -/
theorem driven_step_iff {a : Action} (hn : Numbered s) (h : Driven s) (hs : step o s a = some s') :
    Driven s' ↔ keepsDriver s a = true := by
  have hyes : ∀ {a : Action}, keepsDriver s a = true → Driven s' →
      (Driven s' ↔ keepsDriver s a = true) := fun hk hd => ⟨fun _ => hk, fun _ => hd⟩
  have hgo : ∀ {t}, (s.pc t).drives = false → ∀ p, Driven (s.goto t p) :=
    fun hd p => h.goto fun hd' => by
      rw [hd] at hd'
      exact absurd hd' Bool.false_ne_true
  cases step_cases hs with
  | getConnection => exact hyes rfl h.newCall
  | connect => exact hyes rfl h.newCall
  | look hpc => exact hyes rfl (h.look hpc)
  | enter hpc =>
    exact hyes rfl (h.enter (hn.lt (by rw [hpc]; exact Pc.noConfusion)) hpc)
  | @connected t _ spawned _ =>
    cases spawned with
    | true => exact hyes rfl (h.goto fun _ => rfl)
    | false => exact h.abandon_iff rfl
  | refused _ => exact hyes rfl h.refused
  | wake _ => exact hyes rfl (h.goto fun _ => rfl)
  | receive hpc _ => exact hyes rfl (hgo (by rw [hpc]; rfl) _)
  | @receiveInner t conn spawned hpc _ =>
    cases spawned with
    | true => exact hyes rfl (hgo (by rw [hpc]; rfl) _)
    | false => exact hyes rfl (hgo (by rw [hpc]; rfl) _)
  | receiveError hpc _ => exact hyes rfl (hgo (by rw [hpc]; rfl) _)
  | @install t _ _ =>
    refine hyes rfl ?_
    exact Driven.settleEntry (s := s.resolve t _ _) h rfl fun ws => by simp
  | @fail t _ _ =>
    refine hyes rfl ?_
    exact Driven.settleEntry (s := s.resolve t _ _) h rfl fun ws => by simp
  | drop _ _ => exact h.abandon_iff rfl
  | checkConnections => exact hyes rfl h.checkConnections
  | engine hs =>
    obtain ⟨_, _, _, rfl, -⟩ := engineStep_frame hs
    exact hyes rfl h
  | _ => exact hyes rfl h

end Step

/-! ## Runs -/

/-- **Exactness.**  A run keeps every waiter list driven exactly when each of its steps keeps its
    driver. -/
theorem driven_iff_keepsDriver (o : ConnectionRetryOptions) (as : List Action) :
    (pool o).Along Driven {} as ↔ (pool o).Guarded (fun s a => keepsDriver s a = true) {} as := by
  refine Sys.along_iff_guarded (I := Numbered) (fun _ _ _ hn hs => Numbered.step hn hs)
    (fun _ _ _ hn hd hs => driven_step_iff hn hd hs) as {} (fun _ _ => rfl) ?_
  intro b ws hb
  exact absurd hb.symm (Option.some_ne_none _)

/-! ## Who waits is on a list -/

/-- A call that waits for its oneshot is on the waiter list of its address. -/
def Listed (s : State) : Prop :=
  ∀ t, (s.pc t).waits = true → s.inbox t = none →
    ∃ ws, s.connections (s.broker t) = some (.Connecting ws) ∧ t ∈ ws

theorem mem_waiters {e : Option ConnectionStatus} {ws : List Nat} {t : Nat}
    (he : e = some (.Connecting ws)) (ht : t ∈ ws) : t ∈ State.waiters e := by
  subst he
  exact ht

namespace Listed

variable {s s' : State}

theorem goto {t : Nat} {p : Pc} (h : Listed s) (hp : p.waits = false) : Listed (s.goto t p) := by
  intro u hw hi
  have hut : u ≠ t := by
    rintro rfl
    rw [goto_pc_self, hp] at hw
    exact absurd hw Bool.false_ne_true
  rw [goto_pc_of_ne s p hut] at hw
  exact h u hw hi

theorem park {t : Nat} {ws : List Nat} {p : Pc} (h : Listed s)
    (hb : s.connections (s.broker t) = some (.Connecting ws)) : Listed (s.park t ws p) := by
  intro u hw hi
  have hself : (s.park t ws p).connections (s.broker t) = some (.Connecting (ws ++ [t])) :=
    setEntry_self s (s.broker t) _
  by_cases hut : u = t
  · subst hut
    exact ⟨ws ++ [u], hself, List.mem_append_right ws (List.mem_singleton_self u)⟩
  · have hw' : (s.pc u).waits = true := (goto_pc_of_ne (s.setEntry (s.broker t) _) p hut) ▸ hw
    obtain ⟨ws', hb', hmem⟩ := h u hw' hi
    by_cases hbr : s.broker u = s.broker t
    · have hws : ws' = ws := by
        rw [hbr, hb, Option.some.injEq, ConnectionStatus.Connecting.injEq] at hb'
        exact hb'.symm
      refine ⟨ws ++ [t], ?_, List.mem_append_left _ (hws ▸ hmem)⟩
      show (s.park t ws p).connections (s.broker u) = _
      rw [hbr]
      exact hself
    · exact ⟨ws', (setEntry_of_ne s _ hbr).trans hb', hmem⟩

/-- An entry is replaced, its waiters have been resolved. -/
theorem replace {t : Nat} {p : Pc} {b : BrokerAddress} {e : Option ConnectionStatus} (h : Listed s)
    (hp : p.waits = false) (hconn : s'.connections = s.connections) (hpc : s'.pc = s.pc)
    (hbr : s'.broker = s.broker)
    (hin : ∀ u, s'.inbox u = none → s.inbox u = none ∧ u ∉ State.waiters (s.connections b)) :
    Listed ((s'.setEntry b e).goto t p) := by
  intro u hw hi
  have hut : u ≠ t := by
    rintro rfl
    rw [goto_pc_self, hp] at hw
    exact absurd hw Bool.false_ne_true
  rw [goto_pc_of_ne _ p hut] at hw
  obtain ⟨hnone, hnot⟩ := hin u hi
  obtain ⟨ws, hbu, hmem⟩ := h u (hpc ▸ hw) hnone
  have hne : s.broker u ≠ b := by
    rintro rfl
    exact hnot (mem_waiters hbu hmem)
  refine ⟨ws, ?_, hmem⟩
  show (s'.setEntry b e).connections (s'.broker u) = _
  rw [hbr, setEntry_of_ne s' e hne, hconn]
  exact hbu

/-- A call takes the lead: nobody is on a list that was not there. -/
theorem lead {t : Nat} (h : Listed s) : Listed (s.lead t) := h.goto rfl

theorem look {t : Nat} (h : Listed s) : Listed (s.look t) := by
  unfold State.look
  split
  · exact h.goto rfl
  · rename_i conn lastUsed hb
    split
    · refine h.replace rfl rfl rfl rfl fun u hu => ⟨hu, ?_⟩
      rw [hb]
      exact List.not_mem_nil
    · exact h.goto rfl
  · rename_i ws hb
    exact h.park hb

theorem enter {t : Nat} (h : Listed s) : Listed (s.enter t) := by
  unfold State.enter
  split
  · rename_i hb
    have hset : Listed ((s.setEntry (s.broker t) (some (.Connecting []))).goto t
        (.establishing 0)) := by
      refine h.replace rfl rfl rfl rfl fun u hu => ⟨hu, ?_⟩
      rw [hb]
      exact List.not_mem_nil
    exact hset
  · split
    · exact h.lead
    · rename_i ws hb _
      exact h.park hb
  · exact h.lead

theorem refused {o : ConnectionRetryOptions} {t retries : Nat} {e : ConnectionError}
    (h : Listed s) : Listed (s.refused o t retries e) := by
  unfold State.refused
  split
  · split
    · exact h.goto rfl
    · exact h.goto rfl
  · exact h.goto rfl

theorem settle {t : Nat} {p : Pc} {e : Option ConnectionStatus} {res : Outcome} (h : Listed s)
    (hp : p.waits = false) :
    Listed (((s.resolve t (State.waiters (s.connections (s.broker t))) res).setEntry (s.broker t)
      e).goto t p) := by
  refine h.replace hp rfl rfl rfl fun u hu => ?_
  have hu' : (if u ∈ State.waiters (s.connections (s.broker t)) then some res else s.inbox u)
      = none := hu
  split at hu'
  · exact absurd hu' (Option.some_ne_none res)
  · exact ⟨hu', ‹_›⟩

theorem newCall {b : BrokerAddress} {p : Pc} (h : Listed s) (hp : p.waits = false) :
    Listed (s.newCall b p) := by
  intro t hw hi
  have hne : t ≠ s.calls := by
    rintro rfl
    rw [show (s.newCall b p).pc s.calls = p from goto_pc_self s s.calls p, hp] at hw
    exact absurd hw Bool.false_ne_true
  rw [show (s.newCall b p).pc t = s.pc t from goto_pc_of_ne s p hne] at hw
  obtain ⟨ws, hb, hmem⟩ := h t hw hi
  refine ⟨ws, ?_, hmem⟩
  show s.connections (Function.update s.broker s.calls b t) = _
  rw [Function.update_of_ne hne]
  exact hb

theorem checkConnections {o : ConnectionRetryOptions} {held : List Nat} (h : Listed s) :
    Listed (s.checkConnections o held) := by
  intro t hw hi
  obtain ⟨ws, hb, hmem⟩ := h t hw hi
  refine ⟨ws, ?_, hmem⟩
  have hb' : s.connections ((s.checkConnections o held).broker t) = some (.Connecting ws) := hb
  simp only [State.checkConnections] at hb' ⊢
  rw [hb']

theorem step {o : ConnectionRetryOptions} {a : Action} (h : Listed s)
    (hs : ConnectionManager.step o s a = some s') : Listed s' := by
  cases step_cases hs with
  | getConnection => exact h.newCall rfl
  | connect => exact h.newCall rfl
  | look _ => exact h.look
  | enter _ => exact h.enter
  | @connected t _ spawned _ =>
    cases spawned with
    | true => exact h.goto rfl
    | false => exact h.goto rfl
  | refused _ => exact h.refused
  | wake _ => exact h.goto rfl
  | receive _ _ => exact h.goto rfl
  | @receiveInner t conn spawned _ _ =>
    cases spawned with
    | true => exact h.goto rfl
    | false => exact h.goto rfl
  | receiveError _ _ => exact h.goto rfl
  | install _ => exact h.settle rfl
  | fail _ => exact h.settle rfl
  | drop _ _ => exact h.goto rfl
  | checkConnections => exact h.checkConnections
  | engine hs =>
    obtain ⟨_, _, _, rfl, -⟩ := engineStep_frame hs
    exact h
  | _ => exact h

end Listed

/-! ## The main result -/

/-- **Headline.**  In every run in which no call is dropped, or refused its keep-alive task, while it
    is the last to drive a waiter list: every entry `Connecting` has a call inside `connect` that
    drives it, and whoever waits is on such a list, so the driver's last lock section resolves them. -/
theorem parked_calls_are_driven {o : ConnectionRetryOptions} {s : State}
    (h : (pool o).ReachIf (fun s a => keepsDriver s a = true) s) :
    (∀ b ws, s.connections b = some (.Connecting ws) →
      ∃ t < s.calls, s.broker t = b ∧ (s.pc t).drives = true) ∧
    ∀ t, (s.pc t).waits = true → s.inbox t = none →
      ∃ ws, s.connections (s.broker t) = some (.Connecting ws) ∧ t ∈ ws ∧
        ∃ u < s.calls, s.broker u = s.broker t ∧ (s.pc u).drives = true := by
  have hinv : Numbered s ∧ Driven s ∧ Listed s := by
    refine Sys.ReachIf.inv (fun s => Numbered s ∧ Driven s ∧ Listed s) ?_ ?_ h
    · rintro s rfl
      refine ⟨fun _ _ => rfl, ?_, ?_⟩
      · intro b ws hb
        exact absurd hb.symm (Option.some_ne_none _)
      · intro t hw
        exact absurd hw Bool.false_ne_true
    · rintro s a s' ⟨hn, hd, hl⟩ hok hs
      exact ⟨hn.step hs, (driven_step_iff hn hd hs).mpr hok, hl.step hs⟩
  obtain ⟨-, hdriven, hlisted⟩ := hinv
  refine ⟨hdriven, fun t hw hi => ?_⟩
  obtain ⟨ws, hb, hmem⟩ := hlisted t hw hi
  exact ⟨ws, hb, hmem, hdriven _ ws hb⟩

/-- One call establishes, a second one waits for it. -/
theorem parked_calls_are_driven_two : ∃ s : State,
    s.pc 1 = .parked ∧ s.inbox 1 = none ∧ ∃ ws, s.connections (s.broker 1) = some (.Connecting ws) ∧
      1 ∈ ws ∧ ∃ u < s.calls, s.broker u = s.broker 1 ∧ (s.pc u).drives = true := by
  obtain ⟨s, hs, hp⟩ := Sys.exists_reachIf_of_execIf (S := pool ⟨0, 10⟩) keepsDriver
    (p := fun s => s.pc 1 == .parked && s.inbox 1 == none) (s := {}) rfl
    [.getConnection ⟨"pulsar://b", "b:6650", false⟩, .look 0, .enter 0,
      .getConnection ⟨"pulsar://b", "b:6650", false⟩, .look 1] (by decide)
  rw [Bool.and_eq_true] at hp
  have hpc : s.pc 1 = .parked := eq_of_beq hp.1
  have hin : s.inbox 1 = none := eq_of_beq hp.2
  exact ⟨s, hpc, hin, (parked_calls_are_driven hs).2 1 (by rw [hpc]; rfl) hin⟩

/-! ## An abandoned entry -/

/-- A caller is dropped while it establishes a connection: its entry stays, and the next caller parks
    on it although nobody is left inside `connect`. -/
theorem abandoned_entry_is_never_driven :
    ¬ ∀ (o : ConnectionRetryOptions) (s : State), (pool o).Reach s →
      ∀ b ws, s.connections b = some (.Connecting ws) →
        ∃ t < s.calls, s.broker t = b ∧ (s.pc t).drives = true := by
  intro hall
  obtain ⟨s, hs, hp⟩ := Sys.exists_reach_of_exec (S := pool ⟨0, 10⟩)
    (p := fun s => s.connections ⟨"pulsar://b", "b:6650", false⟩ == some (.Connecting [1]) &&
      (s.calls == 2 && (s.pc 0 == .dropped && s.pc 1 == .parked))) (s := {}) rfl
    [.getConnection ⟨"pulsar://b", "b:6650", false⟩, .look 0, .enter 0, .drop 0,
      .getConnection ⟨"pulsar://b", "b:6650", false⟩, .look 1] (by decide)
  simp only [Bool.and_eq_true, beq_iff_eq] at hp
  obtain ⟨hentry, hcalls, hpc0, hpc1⟩ := hp
  obtain ⟨t, hlt, -, hd⟩ := hall ⟨0, 10⟩ s hs _ _ hentry
  have ht : t = 0 ∨ t = 1 := by omega
  rcases ht with rfl | rfl
  · rw [hpc0] at hd
    exact absurd hd Bool.false_ne_true
  · rw [hpc1] at hd
    exact absurd hd Bool.false_ne_true

end PulsarClient.ConnectionManager
