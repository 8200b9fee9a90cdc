/-
  ONE CONNECTION AT A TIME — when the callers of an address share a single establishment.

  The pool wants one call to establish and the others to wait for it.  Who is first is decided twice,
  in two lock sections: `get_connection` lets a call through that finds no entry (or an invalid
  connection), `connect_inner` then makes it the first if it finds no WAITER.  Neither looks at whether
  somebody is establishing already:

  * two calls that both find no entry both become first, since the entry the first one creates has no
    waiter yet;
  * an invalid connection stays in the map while it is replaced, so every call that finds it
    establishes one of its own;
  * a call that found no entry, and is late, establishes a second connection next to the valid one
    that is in the map by then.

  1. `two_calls_establish` — the first of these.

  2. `single_flight` — the condition (`entersAlone`): a call becomes first only when it finds no waiter
     list and no valid connection, and no other call for its address is inside `connect`.  In a run that meets
     it (and abandons no waiter list, see `keepsDriver`), at most one call at a time establishes, and
     only when the pool has nothing to hand out; whoever was resolved was resolved by the call that led
     when it parked, with that call's outcome; and whoever waits, waits for such a call.
-/
import PulsarClient.ConnectionManager.Waiters

namespace PulsarClient.ConnectionManager

open Runs

/-- Establishing a physical connection, or between two attempts to. -/
def Pc.establishes : Pc → Bool
  | .establishing _ => true
  | .backoff _ => true
  | _ => false

/-- Inside `connect`, past its first lock section. -/
def Pc.inConnect : Pc → Bool
  | .parkedInner => true
  | p => p.drives

/-- Before the first time a call can park. -/
def Pc.fresh : Pc → Bool
  | .looking => true
  | .entering => true
  | _ => false

def Pc.hasReturned : Pc → Bool
  | .returned _ => true
  | _ => false

/-- No other call for the address of `t` is inside `connect`. -/
def alone (s : State) (t : Nat) : Bool :=
  (List.range s.calls).all fun u => u = t || s.broker u ≠ s.broker t || !(s.pc u).inConnect

/-- A call takes the lead for its address only alone.  Of the others `connect_inner` sees what is in the
    entry: a waiter list belongs to a call that establishes, even while nobody waits, and a valid
    connection needs none.  Where it sees no entry or an invalid connection, others may still be on their
    way. -/
def entersAlone (s : State) : Action → Bool
  | .enter t =>
    match s.connections (s.broker t) with
    | some (.Connecting ws) => !ws.isEmpty
    | some (.Connected conn _) => !s.valid conn && alone s t
    | none => alone s t
  | _ => true

/-- The condition of this file: no waiter list is abandoned, and leads do not overlap. -/
def oneFlight (s : State) (a : Action) : Bool := keepsDriver s a && entersAlone s a

/-- The waiter was sent the outcome of the call that resolved it.  (An error cannot be cloned, so the
    waiters of a failed call are told `Canceled`.) -/
def SentOutcome (s : State) (r : Nat) (res : Outcome) : Prop :=
  (∃ conn, res = .Ok conn ∧ s.pc r = .returned (.Ok conn)) ∨
    (res = .Err .Canceled ∧ ∃ e, s.pc r = .returned (.Err e))

/-! ## The invariant -/

/-- What holds between any two steps of a run in which leads do not overlap. -/
structure Flight (s : State) : Prop where
  /-- who establishes has the lead -/
  lead : ∀ t, (s.pc t).establishes = true → s.flight (s.broker t) = some t
  /-- of an address with a waiter list, only the lead is inside `connect` (but for parked calls) -/
  leadOfList : ∀ b ws, s.connections b = some (.Connecting ws) → ∀ t, s.broker t = b →
    (s.pc t).drives = true → s.flight b = some t
  /-- its waiters parked under that lead -/
  leaderOfList : ∀ b ws, s.connections b = some (.Connecting ws) → ∀ w ∈ ws,
    s.leader w = s.flight b
  /-- they are calls for that address which have parked -/
  member : ∀ b ws, s.connections b = some (.Connecting ws) → ∀ w ∈ ws,
    w < s.calls ∧ s.broker w = b ∧ (s.pc w).fresh = false
  /-- a call resolved inside `connect_inner` finds no waiter list -/
  woken : ∀ t, s.pc t = .parkedInner → s.inbox t ≠ none → ∀ ws,
    s.connections (s.broker t) ≠ some (.Connecting ws)
  /-- nothing is sent to a call that has not parked -/
  unsent : ∀ t, (s.pc t).fresh = true ∨ s.calls ≤ t → s.inbox t = none
  /-- resolutions come from the lead, with its outcome -/
  resolved : ∀ w r res, (w, r, res) ∈ s.resolutions →
    w < s.calls ∧ (s.pc w).fresh = false ∧ s.leader w = some r ∧ SentOutcome s r res

theorem Pc.inConnect_of_drives {p : Pc} (h : p.drives = true) : p.inConnect = true := by
  cases p with
  | parkedInner => rfl
  | _ => exact h

theorem Pc.drives_of_establishes {p : Pc} (h : p.establishes = true) : p.drives = true := by
  cases p with
  | establishing retries => rfl
  | backoff retries => rfl
  | _ => exact absurd h Bool.false_ne_true

theorem Pc.inConnect_of_establishes {p : Pc} (h : p.establishes = true) : p.inConnect = true :=
  Pc.inConnect_of_drives (Pc.drives_of_establishes h)

theorem SentOutcome.hasReturned {s : State} {r : Nat} {res : Outcome} (h : SentOutcome s r res) :
    (s.pc r).hasReturned = true := by
  rcases h with ⟨conn, -, hpc⟩ | ⟨-, e, hpc⟩
  · rw [hpc]
    rfl
  · rw [hpc]
    rfl

theorem SentOutcome.congr {s s' : State} {r : Nat} {res : Outcome} (h : SentOutcome s r res)
    (hpc : s'.pc r = s.pc r) : SentOutcome s' r res := by
  unfold SentOutcome
  rw [hpc]
  exact h

namespace Flight

variable {s s' : State}

/-- A call moves on without touching the map. -/
theorem goto {t : Nat} {p : Pc} (h : Flight s) (hfresh : p.fresh = true → (s.pc t).fresh = true)
    (hlead : p.establishes = true → s.flight (s.broker t) = some t)
    (hdrive : p.drives = true → ∀ ws, s.connections (s.broker t) = some (.Connecting ws) →
      s.flight (s.broker t) = some t)
    (hpark : p ≠ .parkedInner) (hlive : (s.pc t).hasReturned = false) (ht : t < s.calls) :
    Flight (s.goto t p) := by
  have hfr : ∀ u, (s.pc u).fresh = false → ((s.goto t p).pc u).fresh = false := by
    intro u hu
    by_cases hut : u = t
    · subst hut
      rw [goto_pc_self, ← Bool.not_eq_true]
      intro hp
      rw [hfresh hp] at hu
      exact absurd hu.symm Bool.false_ne_true
    · rw [goto_pc_of_ne s p hut]
      exact hu
  refine ⟨?_, ?_, h.leaderOfList, ?_, ?_, ?_, ?_⟩
  · intro u hu
    by_cases hut : u = t
    · subst hut
      rw [goto_pc_self] at hu
      exact hlead hu
    · rw [goto_pc_of_ne s p hut] at hu
      exact h.lead u hu
  · intro b ws hb u hbr hu
    by_cases hut : u = t
    · subst hut
      rw [goto_pc_self] at hu
      have hbr' : s.broker u = b := hbr
      subst hbr'
      exact hdrive hu ws hb
    · rw [goto_pc_of_ne s p hut] at hu
      exact h.leadOfList b ws hb u hbr hu
  · intro b ws hb w hw
    obtain ⟨hlt, hbr, hf⟩ := h.member b ws hb w hw
    exact ⟨hlt, hbr, hfr w hf⟩
  · intro u hu
    by_cases hut : u = t
    · subst hut
      rw [goto_pc_self] at hu
      exact absurd hu hpark
    · rw [goto_pc_of_ne s p hut] at hu
      exact h.woken u hu
  · intro u hu
    refine h.unsent u ?_
    rcases hu with hu | hu
    · by_cases hut : u = t
      · subst hut
        rw [goto_pc_self] at hu
        exact Or.inl (hfresh hu)
      · rw [goto_pc_of_ne s p hut] at hu
        exact Or.inl hu
    · exact Or.inr hu
  · intro w r res hmem
    obtain ⟨hlt, hf, hl, hout⟩ := h.resolved w r res hmem
    refine ⟨hlt, hfr w hf, hl, hout.congr ?_⟩
    have hrt : r ≠ t := by
      rintro rfl
      rw [hout.hasReturned] at hlive
      exact absurd hlive.symm Bool.false_ne_true
    exact goto_pc_of_ne s p hrt

/-- A call parks: behind the waiters, under the lead of the moment. -/
theorem park {t : Nat} {ws : List Nat} {p : Pc} (h : Flight s)
    (hb : s.connections (s.broker t) = some (.Connecting ws)) (hf : (s.pc t).fresh = true)
    (hp : p.waits = true) (ht : t < s.calls) : Flight (s.park t ws p) := by
  have hpd : p.drives = false ∧ p.establishes = false ∧ p.fresh = false := by
    cases p <;> first | exact ⟨rfl, rfl, rfl⟩ | exact absurd hp Bool.false_ne_true
  have hself : (s.park t ws p).connections (s.broker t) = some (.Connecting (ws ++ [t])) :=
    setEntry_self s (s.broker t) _
  have hother : ∀ b, b ≠ s.broker t → (s.park t ws p).connections b = s.connections b :=
    fun b hbt => setEntry_of_ne s _ hbt
  have hpct : (s.park t ws p).pc t = p := goto_pc_self (s.setEntry (s.broker t) _) t p
  have hpcu : ∀ u, u ≠ t → (s.park t ws p).pc u = s.pc u :=
    fun u hu => goto_pc_of_ne (s.setEntry (s.broker t) _) p hu
  have hleadt : (s.park t ws p).leader t = s.flight (s.broker t) := Function.update_self ..
  have hleadu : ∀ u, u ≠ t → (s.park t ws p).leader u = s.leader u :=
    fun u hu => Function.update_of_ne hu ..
  have hne : ∀ u, (s.pc u).fresh = false → u ≠ t := by
    rintro u hu rfl
    rw [hf] at hu
    exact absurd hu.symm Bool.false_ne_true
  -- the waiters of any list, old or new
  have hmem : ∀ b ws', (s.park t ws p).connections b = some (.Connecting ws') → ∀ w ∈ ws',
      (w = t ∧ b = s.broker t) ∨
        ∃ ws'', s.connections b = some (.Connecting ws'') ∧ w ∈ ws'' := by
    intro b ws' hb' w hw
    by_cases hbt : b = s.broker t
    · subst hbt
      rw [hself, Option.some.injEq, ConnectionStatus.Connecting.injEq] at hb'
      subst hb'
      rcases List.mem_append.mp hw with hw | hw
      · exact Or.inr ⟨ws, hb, hw⟩
      · exact Or.inl ⟨List.mem_singleton.mp hw, rfl⟩
    · rw [hother b hbt] at hb'
      exact Or.inr ⟨ws', hb', hw⟩
  refine ⟨?_, ?_, ?_, ?_, ?_, ?_, ?_⟩
  · intro u hu
    by_cases hut : u = t
    · subst hut
      rw [hpct, hpd.2.1] at hu
      exact absurd hu Bool.false_ne_true
    · rw [hpcu u hut] at hu
      exact h.lead u hu
  · intro b ws' hb' u hbr hu
    by_cases hut : u = t
    · subst hut
      rw [hpct, hpd.1] at hu
      exact absurd hu Bool.false_ne_true
    · rw [hpcu u hut] at hu
      by_cases hbt : b = s.broker t
      · subst hbt
        exact h.leadOfList _ ws hb u hbr hu
      · rw [hother b hbt] at hb'
        exact h.leadOfList b ws' hb' u hbr hu
  · intro b ws' hb' w hw
    rcases hmem b ws' hb' w hw with ⟨rfl, rfl⟩ | ⟨ws'', hb'', hw''⟩
    · exact hleadt
    · rw [hleadu w (hne w (h.member b ws'' hb'' w hw'').2.2)]
      exact h.leaderOfList b ws'' hb'' w hw''
  · intro b ws' hb' w hw
    rcases hmem b ws' hb' w hw with ⟨rfl, rfl⟩ | ⟨ws'', hb'', hw''⟩
    · exact ⟨ht, rfl, by rw [hpct]; exact hpd.2.2⟩
    · obtain ⟨hlt, hbr, hfr⟩ := h.member b ws'' hb'' w hw''
      exact ⟨hlt, hbr, by rw [hpcu w (hne w hfr)]; exact hfr⟩
  · intro u hu hi ws' hb'
    by_cases hut : u = t
    · subst hut
      exact hi (h.unsent u (Or.inl hf))
    · rw [hpcu u hut] at hu
      by_cases hbt : s.broker u = s.broker t
      · exact h.woken u hu hi ws (hbt ▸ hb)
      · exact h.woken u hu hi ws' ((hother _ hbt) ▸ hb')
  · intro u hu
    refine h.unsent u ?_
    rcases hu with hu | hu
    · by_cases hut : u = t
      · subst hut
        exact Or.inl hf
      · rw [hpcu u hut] at hu
        exact Or.inl hu
    · exact Or.inr hu
  · intro w r res hres
    obtain ⟨hlt, hfr, hl, hout⟩ := h.resolved w r res hres
    have hwt := hne w hfr
    have hrt : r ≠ t := by
      rintro rfl
      have hret := hout.hasReturned
      cases hpc : s.pc r with
      | returned x =>
        rw [hpc] at hf
        exact absurd hf Bool.false_ne_true
      | _ =>
        rw [hpc] at hret
        exact absurd hret Bool.false_ne_true
    refine ⟨hlt, by rw [hpcu w hwt]; exact hfr, ?_, hout.congr (hpcu r hrt)⟩
    rw [hleadu w hwt]
    exact hl

/-- A call that drives the address ends: the entry is no waiter list any more, and who was on it is
    resolved with the outcome `res` that goes with what the call returns. -/
theorem settle {t : Nat} {e : Option ConnectionStatus} {res ret : Outcome} (h : Flight s)
    (hd : (s.pc t).drives = true) (he : ∀ ws, e ≠ some (.Connecting ws))
    (hout : (∃ conn, res = .Ok conn ∧ ret = .Ok conn) ∨
      (res = .Err .Canceled ∧ ∃ err, ret = .Err err)) (ht : t < s.calls) :
    Flight (((s.resolve t (State.waiters (s.connections (s.broker t))) res).setEntry (s.broker t)
      e).goto t (.returned ret)) := by
  generalize hs' : ((s.resolve t (State.waiters (s.connections (s.broker t))) res).setEntry
    (s.broker t) e).goto t (.returned ret) = s'
  have hself : s'.connections (s.broker t) = e := hs' ▸ setEntry_self _ (s.broker t) e
  have hother : ∀ b, b ≠ s.broker t → s'.connections b = s.connections b :=
    fun b hbt => hs' ▸ setEntry_of_ne (s.resolve t _ res) e hbt
  have hpct : s'.pc t = .returned ret := hs' ▸ goto_pc_self _ t _
  have hpcu : ∀ u, u ≠ t → s'.pc u = s.pc u := fun u hu => hs' ▸ goto_pc_of_ne _ _ hu
  have hbr : s'.broker = s.broker := hs' ▸ rfl
  have hcalls : s'.calls = s.calls := hs' ▸ rfl
  have hflight : s'.flight = s.flight := hs' ▸ rfl
  have hleader : s'.leader = s.leader := hs' ▸ rfl
  have hinbox : ∀ u, s'.inbox u =
      if u ∈ State.waiters (s.connections (s.broker t)) then some res else s.inbox u :=
    fun u => hs' ▸ rfl
  have hresol : s'.resolutions = s.resolutions ++
      (State.waiters (s.connections (s.broker t))).map fun w => (w, t, res) := hs' ▸ rfl
  -- a list that is still there is another address's
  have hlist : ∀ b ws, s'.connections b = some (.Connecting ws) →
      b ≠ s.broker t ∧ s.connections b = some (.Connecting ws) := by
    intro b ws hb
    have hbt : b ≠ s.broker t := by
      rintro rfl
      exact he ws (hself.symm.trans hb)
    exact ⟨hbt, (hother b hbt).symm.trans hb⟩
  have hfresh : ∀ u, (s.pc u).fresh = false → (s'.pc u).fresh = false := by
    intro u hu
    by_cases hut : u = t
    · subst hut
      rw [hpct]
      rfl
    · rw [hpcu u hut]
      exact hu
  -- the waiters just resolved
  have hwait : ∀ u, u ∈ State.waiters (s.connections (s.broker t)) →
      ∃ ws, s.connections (s.broker t) = some (.Connecting ws) ∧ u ∈ ws := by
    intro u hu
    cases hent : s.connections (s.broker t) with
    | none =>
      rw [hent] at hu
      exact absurd hu List.not_mem_nil
    | some x =>
      cases x with
      | Connected conn lastUsed =>
        rw [hent] at hu
        exact absurd hu List.not_mem_nil
      | Connecting ws =>
        rw [hent] at hu
        exact ⟨ws, rfl, hu⟩
  refine ⟨?_, ?_, ?_, ?_, ?_, ?_, ?_⟩
  · intro u hu
    rw [hflight, hbr]
    by_cases hut : u = t
    · subst hut
      rw [hpct] at hu
      exact absurd hu Bool.false_ne_true
    · rw [hpcu u hut] at hu
      exact h.lead u hu
  · intro b ws hb u hbu hu
    rw [hflight]
    rw [hbr] at hbu
    by_cases hut : u = t
    · subst hut
      rw [hpct] at hu
      exact absurd hu Bool.false_ne_true
    · rw [hpcu u hut] at hu
      exact h.leadOfList b ws (hlist b ws hb).2 u hbu hu
  · intro b ws hb w hw
    rw [hleader, hflight]
    exact h.leaderOfList b ws (hlist b ws hb).2 w hw
  · intro b ws hb w hw
    obtain ⟨hlt, hbw, hfr⟩ := h.member b ws (hlist b ws hb).2 w hw
    exact ⟨hcalls ▸ hlt, hbr ▸ hbw, hfresh w hfr⟩
  · intro u hu hi ws hb
    rw [hbr] at hb
    obtain ⟨hbt, hb'⟩ := hlist (s.broker u) ws hb
    have hut : u ≠ t := by
      rintro rfl
      exact hbt rfl
    rw [hpcu u hut] at hu
    rw [hinbox u] at hi
    split at hi
    · rename_i hin
      obtain ⟨ws', hbw, hmem⟩ := hwait u hin
      exact hbt (h.member _ ws' hbw u hmem).2.1
    · exact h.woken u hu hi ws hb'
  · intro u hu
    rw [hcalls] at hu
    have hun : s.inbox u = none := by
      refine h.unsent u ?_
      rcases hu with hu | hu
      · by_cases hut : u = t
        · subst hut
          rw [hpct] at hu
          exact absurd hu Bool.false_ne_true
        · rw [hpcu u hut] at hu
          exact Or.inl hu
      · exact Or.inr hu
    rw [hinbox u]
    split
    · rename_i hin
      obtain ⟨ws', hbw, hmem⟩ := hwait u hin
      obtain ⟨hlt, -, hfr⟩ := h.member _ ws' hbw u hmem
      rcases hu with hu | hu
      · rw [hfresh u hfr] at hu
        exact absurd hu Bool.false_ne_true
      · omega
    · exact hun
  · intro w r res' hmem
    rw [hresol] at hmem
    rw [hcalls, hleader]
    rcases List.mem_append.mp hmem with hmem | hmem
    · obtain ⟨hlt, hfr, hl, hout'⟩ := h.resolved w r res' hmem
      refine ⟨hlt, hfresh w hfr, hl, hout'.congr (hpcu r ?_)⟩
      rintro rfl
      have hret := hout'.hasReturned
      cases hpc : s.pc r with
      | returned x =>
        rw [hpc] at hd
        exact absurd hd Bool.false_ne_true
      | _ =>
        rw [hpc] at hret
        exact absurd hret Bool.false_ne_true
    · obtain ⟨w', hw', heq⟩ := List.mem_map.mp hmem
      obtain ⟨rfl, rfl, rfl⟩ : w' = w ∧ t = r ∧ res = res' := by
        simpa [Prod.mk.injEq] using heq
      obtain ⟨ws, hbw, hin⟩ := hwait w' hw'
      obtain ⟨hlt, -, hfr⟩ := h.member _ ws hbw w' hin
      refine ⟨hlt, hfresh w' hfr, ?_, ?_⟩
      · rw [h.leaderOfList _ ws hbw w' hin]
        exact h.leadOfList _ ws hbw t rfl hd
      · unfold SentOutcome
        rw [hpct]
        rcases hout with ⟨conn, rfl, rfl⟩ | ⟨rfl, err, rfl⟩
        · exact Or.inl ⟨conn, rfl, rfl⟩
        · exact Or.inr ⟨rfl, err, rfl⟩

/-- Nothing of the calls changes, and no waiter list is new. -/
theorem frame (h : Flight s) (hpc : s'.pc = s.pc) (hcalls : s'.calls = s.calls)
    (hbr : s'.broker = s.broker) (hflight : s'.flight = s.flight) (hleader : s'.leader = s.leader)
    (hinbox : s'.inbox = s.inbox) (hres : s'.resolutions = s.resolutions)
    (hlist : ∀ b ws, s'.connections b = some (.Connecting ws) →
      s.connections b = some (.Connecting ws)) : Flight s' := by
  constructor
  · rw [hpc, hflight, hbr]
    exact h.lead
  · intro b ws hb
    rw [hpc, hflight, hbr]
    exact h.leadOfList b ws (hlist b ws hb)
  · intro b ws hb
    rw [hleader, hflight]
    exact h.leaderOfList b ws (hlist b ws hb)
  · intro b ws hb
    rw [hpc, hcalls, hbr]
    exact h.member b ws (hlist b ws hb)
  · intro u hu hi ws hb
    rw [hpc] at hu
    rw [hinbox] at hi
    rw [hbr] at hb
    exact h.woken u hu hi ws (hlist _ ws hb)
  · rw [hpc, hcalls, hinbox]
    exact h.unsent
  · intro w r res hmem
    rw [hres] at hmem
    obtain ⟨hlt, hfr, hl, hout⟩ := h.resolved w r res hmem
    rw [hcalls, hpc, hleader]
    exact ⟨hlt, hfr, hl, hout.congr (congrFun hpc r)⟩

theorem newCall {b : BrokerAddress} {p : Pc} (h : Flight s) (hn : Numbered s)
    (hp : p.fresh = true) : Flight (s.newCall b p) := by
  have hpd : p.establishes = false ∧ p.drives = false ∧ p ≠ .parkedInner := by
    cases p <;> first
      | exact ⟨rfl, rfl, Pc.noConfusion⟩
      | exact absurd hp Bool.false_ne_true
  have hpct : (s.newCall b p).pc s.calls = p := goto_pc_self s s.calls p
  have hpcu : ∀ u, u ≠ s.calls → (s.newCall b p).pc u = s.pc u := fun u hu => goto_pc_of_ne s p hu
  have hbru : ∀ u, u ≠ s.calls → (s.newCall b p).broker u = s.broker u :=
    fun u hu => Function.update_of_ne hu ..
  constructor
  · intro u hu
    by_cases hut : u = s.calls
    · subst hut
      rw [hpct, hpd.1] at hu
      exact absurd hu Bool.false_ne_true
    · rw [hpcu u hut] at hu
      rw [hbru u hut]
      exact h.lead u hu
  · intro b' ws hb u hbr hu
    by_cases hut : u = s.calls
    · subst hut
      rw [hpct, hpd.2.1] at hu
      exact absurd hu Bool.false_ne_true
    · rw [hpcu u hut] at hu
      rw [hbru u hut] at hbr
      exact h.leadOfList b' ws hb u hbr hu
  · exact h.leaderOfList
  · intro b' ws hb w hw
    obtain ⟨hlt, hbr, hfr⟩ := h.member b' ws hb w hw
    have hne : w ≠ s.calls := Nat.ne_of_lt hlt
    rw [hbru w hne, hpcu w hne]
    exact ⟨Nat.lt_succ_of_lt hlt, hbr, hfr⟩
  · intro u hu hi ws hb
    by_cases hut : u = s.calls
    · subst hut
      exact hpd.2.2 (hpct.symm.trans hu)
    · rw [hpcu u hut] at hu
      rw [hbru u hut] at hb
      exact h.woken u hu hi ws hb
  · intro u hu
    refine h.unsent u ?_
    by_cases hut : u = s.calls
    · exact Or.inr (Nat.le_of_eq hut.symm)
    · rw [hpcu u hut] at hu
      exact hu.imp_right Nat.le_of_succ_le
  · intro w r res hmem
    obtain ⟨hlt, hfr, hl, hout⟩ := h.resolved w r res hmem
    have hr : r ≠ s.calls := by
      rintro rfl
      have hret := hout.hasReturned
      rw [hn s.calls (Nat.le_refl _)] at hret
      exact absurd hret Bool.false_ne_true
    rw [hpcu w (Nat.ne_of_lt hlt)]
    exact ⟨Nat.lt_succ_of_lt hlt, hfr, hl, hout.congr (hpcu r hr)⟩

/-- A call takes the lead when no other call for its address is inside `connect`.  The list it finds
    or makes, if any, is empty. -/
theorem takeLead {t : Nat} (h : Flight s) (ht : t < s.calls) (hf : (s.pc t).fresh = true)
    (halone : ∀ u, u ≠ t → s.broker u = s.broker t → (s.pc u).inConnect = false)
    (hpc : s'.pc = Function.update s.pc t (.establishing 0)) (hcalls : s'.calls = s.calls)
    (hbr : s'.broker = s.broker) (hflight : s'.flight = Function.update s.flight (s.broker t) (some t))
    (hleader : s'.leader = s.leader) (hinbox : s'.inbox = s.inbox)
    (hres : s'.resolutions = s.resolutions)
    (hentry : ∀ ws, s'.connections (s.broker t) = some (.Connecting ws) → ws = [])
    (hother : ∀ b, b ≠ s.broker t → s'.connections b = s.connections b) : Flight s' := by
  have hpct : s'.pc t = .establishing 0 := by rw [hpc, Function.update_self]
  have hpcu : ∀ u, u ≠ t → s'.pc u = s.pc u := fun u hu => by rw [hpc, Function.update_of_ne hu]
  have hflt : s'.flight (s.broker t) = some t := by rw [hflight, Function.update_self]
  have hflu : ∀ b, b ≠ s.broker t → s'.flight b = s.flight b := fun b hb => by
    rw [hflight, Function.update_of_ne hb]
  -- another call inside `connect` is for another address
  have hne : ∀ u, u ≠ t → (s.pc u).inConnect = true → s.broker u ≠ s.broker t := by
    intro u hut hu heq
    rw [halone u hut heq] at hu
    exact absurd hu Bool.false_ne_true
  have hlive : ∀ u, (s.pc u).fresh = false → (s'.pc u).fresh = false ∧ u ≠ t := by
    intro u hu
    have hut : u ≠ t := by
      rintro rfl
      rw [hf] at hu
      exact absurd hu.symm Bool.false_ne_true
    exact ⟨by rw [hpcu u hut]; exact hu, hut⟩
  constructor
  · intro u hu
    rw [hbr]
    by_cases hut : u = t
    · subst hut
      exact hflt
    · rw [hpcu u hut] at hu
      rw [hflu _ (hne u hut (Pc.inConnect_of_establishes hu))]
      exact h.lead u hu
  · intro b ws hb u hbu hu
    rw [hbr] at hbu
    by_cases hut : u = t
    · subst hut
      subst hbu
      exact hflt
    · rw [hpcu u hut] at hu
      have hbt : b ≠ s.broker t := hbu ▸ hne u hut (Pc.inConnect_of_drives hu)
      rw [hother b hbt] at hb
      rw [hflu b hbt]
      exact h.leadOfList b ws hb u hbu hu
  · intro b ws hb w hw
    by_cases hbt : b = s.broker t
    · subst hbt
      rw [hentry ws hb] at hw
      exact absurd hw List.not_mem_nil
    · rw [hother b hbt] at hb
      rw [hleader, hflu b hbt]
      exact h.leaderOfList b ws hb w hw
  · intro b ws hb w hw
    by_cases hbt : b = s.broker t
    · subst hbt
      rw [hentry ws hb] at hw
      exact absurd hw List.not_mem_nil
    · rw [hother b hbt] at hb
      obtain ⟨hlt, hbw, hfr⟩ := h.member b ws hb w hw
      rw [hcalls, hbr]
      exact ⟨hlt, hbw, (hlive w hfr).1⟩
  · intro u hu hi ws hb
    have hut : u ≠ t := by
      rintro rfl
      rw [hpct] at hu
      exact Pc.noConfusion hu
    rw [hpcu u hut] at hu
    rw [hinbox] at hi
    have hbt : s.broker u ≠ s.broker t := hne u hut (by rw [hu]; rfl)
    rw [hbr, hother _ hbt] at hb
    exact h.woken u hu hi ws hb
  · intro u hu
    rw [hinbox]
    refine h.unsent u ?_
    rw [hcalls] at hu
    by_cases hut : u = t
    · subst hut
      exact Or.inl hf
    · rw [hpcu u hut] at hu
      exact hu
  · intro w r res hmem
    rw [hres] at hmem
    obtain ⟨hlt, hfr, hl, hout⟩ := h.resolved w r res hmem
    have hr : (s.pc r).fresh = false := by
      rcases hout with ⟨conn, -, hp⟩ | ⟨-, e, hp⟩
      · rw [hp]
        rfl
      · rw [hp]
        rfl
    rw [hcalls, hleader]
    exact ⟨hlt, (hlive w hfr).1, hl, hout.congr (hpcu r (hlive r hr).2)⟩

end Flight

/-! ## One step -/

section Step

variable {o : ConnectionRetryOptions} {s s' : State}

theorem alone_iff {t : Nat} (hn : Numbered s) : alone s t = true ↔
    ∀ u, u ≠ t → s.broker u = s.broker t → (s.pc u).inConnect = false := by
  simp only [alone, List.all_eq_true, List.mem_range, Bool.or_eq_true, decide_eq_true_eq,
    Bool.not_eq_true']
  constructor
  · intro h u hut hbr
    by_cases hlt : u < s.calls
    · rcases h u hlt with (heq | hne) | hin
      · exact absurd heq hut
      · exact absurd hbr hne
      · exact hin
    · rw [hn u (Nat.le_of_not_lt hlt)]
      rfl
  · intro h u _
    by_cases hut : u = t
    · exact Or.inl (Or.inl hut)
    · by_cases hbr : s.broker u = s.broker t
      · exact Or.inr (h u hut hbr)
      · exact Or.inl (Or.inr hbr)

/-- What `entersAlone` says of a call that is about to take the lead. -/
theorem entersAlone_enter {t : Nat} (hn : Numbered s) (h : entersAlone s (.enter t) = true)
    (hw : State.waiters (s.connections (s.broker t)) = []) :
    s.serves (s.broker t) = false ∧
      ∀ u, u ≠ t → s.broker u = s.broker t → (s.pc u).inConnect = false := by
  unfold State.serves
  cases hb : s.connections (s.broker t) with
  | none =>
    simp only [entersAlone, hb] at h
    exact ⟨rfl, (alone_iff hn).mp h⟩
  | some entry =>
    cases entry with
    | Connected conn lastUsed =>
      simp only [entersAlone, hb, Bool.and_eq_true, Bool.not_eq_true'] at h
      exact ⟨h.1, (alone_iff hn).mp h.2⟩
    | Connecting ws =>
      obtain rfl : ws = [] := by
        rw [hb] at hw
        exact hw
      simp only [entersAlone, hb, List.isEmpty_nil] at h
      exact absurd h (by decide)

theorem Flight.look {t : Nat} (h : Flight s) (hn : Numbered s) (hpc : s.pc t = .looking) :
    Flight (s.look t) := by
  have ht : t < s.calls := hn.lt (by rw [hpc]; exact Pc.noConfusion)
  have hf : (s.pc t).fresh = true := by rw [hpc]; rfl
  have hret : (s.pc t).hasReturned = false := by rw [hpc]; rfl
  have henter : Flight (s.goto t .entering) :=
    h.goto (fun _ => hf) Bool.noConfusion Bool.noConfusion Pc.noConfusion hret ht
  unfold State.look
  split
  · exact henter
  · rename_i conn lastUsed hb
    split
    · -- the entry is touched: still no waiter list
      have hlist : ∀ b ws, (s.setEntry (s.broker t) (some (.Connected conn s.now))).connections b =
          some (.Connecting ws) → s.connections b = some (.Connecting ws) := by
        intro b ws hb'
        by_cases hbt : b = s.broker t
        · subst hbt
          rw [setEntry_self] at hb'
          exact absurd hb' (by simp)
        · exact (setEntry_of_ne s _ hbt).symm.trans hb'
      have h' : Flight (s.setEntry (s.broker t) (some (.Connected conn s.now))) :=
        h.frame rfl rfl rfl rfl rfl rfl rfl hlist
      exact h'.goto (fun hp => absurd hp Bool.false_ne_true) Bool.noConfusion Bool.noConfusion
        Pc.noConfusion hret ht
    · exact henter
  · rename_i ws hb
    exact h.park hb hf rfl ht

theorem Flight.enter {t : Nat} (h : Flight s) (hn : Numbered s) (hpc : s.pc t = .entering)
    (hok : entersAlone s (.enter t) = true) : Flight (s.enter t) := by
  have ht : t < s.calls := hn.lt (by rw [hpc]; exact Pc.noConfusion)
  have hf : (s.pc t).fresh = true := by rw [hpc]; rfl
  unfold State.enter
  split
  · rename_i hb
    have halone := (entersAlone_enter hn hok (by rw [hb]; rfl)).2
    refine h.takeLead ht hf halone rfl rfl rfl rfl rfl rfl rfl ?_ fun b hbt => setEntry_of_ne s _ hbt
    intro ws hws
    have hself := (setEntry_self s (s.broker t) (some (.Connecting []))).symm.trans hws
    rw [Option.some.injEq, ConnectionStatus.Connecting.injEq] at hself
    exact hself.symm
  · rename_i ws hb
    split
    · rename_i hemp
      have hnil : ws = [] := List.isEmpty_iff.mp hemp
      subst hnil
      have halone := (entersAlone_enter hn hok (by rw [hb]; rfl)).2
      refine h.takeLead ht hf halone rfl rfl rfl rfl rfl rfl rfl ?_ fun _ _ => rfl
      intro ws' hws
      have heq := hb.symm.trans hws
      rw [Option.some.injEq, ConnectionStatus.Connecting.injEq] at heq
      exact heq.symm
    · exact h.park hb hf rfl ht
  · rename_i conn lastUsed hb
    have halone := (entersAlone_enter hn hok (by rw [hb]; rfl)).2
    refine h.takeLead ht hf halone rfl rfl rfl rfl rfl rfl rfl ?_ fun _ _ => rfl
    intro ws hws
    exact absurd (hb.symm.trans hws) (by simp)

theorem Flight.keepAlive {t conn : Nat} {spawned : Bool} (h : Flight s)
    (hd : ∀ ws, s.connections (s.broker t) = some (.Connecting ws) →
      s.flight (s.broker t) = some t)
    (hlive : (s.pc t).hasReturned = false) (ht : t < s.calls) :
    Flight (s.keepAlive t conn spawned) := by
  cases spawned with
  | true =>
    exact h.goto Bool.noConfusion Bool.noConfusion (fun _ => hd) Pc.noConfusion hlive ht
  | false =>
    exact h.goto Bool.noConfusion Bool.noConfusion Bool.noConfusion Pc.noConfusion hlive ht

theorem Flight.refused {t retries : Nat} {e : ConnectionError} (h : Flight s)
    (hest : (s.pc t).establishes = true) (hlive : (s.pc t).hasReturned = false) (ht : t < s.calls) :
    Flight (s.refused o t retries e) := by
  have hlead := h.lead t hest
  have hfail : Flight (s.goto t (.failing e)) :=
    h.goto Bool.noConfusion Bool.noConfusion (fun _ _ _ => hlead) Pc.noConfusion hlive ht
  unfold State.refused
  split
  · split
    · exact hfail
    · exact h.goto Bool.noConfusion (fun _ => hlead) (fun _ _ _ => hlead) Pc.noConfusion hlive ht
  · exact hfail

/-- **The step lemma.** -/
theorem Flight.step {a : Action} (h : Flight s) (hn : Numbered s) (hok : entersAlone s a = true)
    (hs : ConnectionManager.step o s a = some s') : Flight s' := by
  cases step_cases hs with
  | getConnection => exact h.newCall hn rfl
  | connect => exact h.newCall hn rfl
  | look hpc => exact h.look hn hpc
  | enter hpc => exact h.enter hn hpc hok
  | @connected t _ spawned hpc =>
    have ht : t < s.calls := hn.lt (by rw [hpc]; exact Pc.noConfusion)
    have hlead := h.lead t (by rw [hpc]; rfl)
    refine Flight.keepAlive ?_ (fun _ _ => hlead) (by rw [show _ = _ from hpc]; rfl) ht
    exact h.frame rfl rfl rfl rfl rfl rfl rfl fun _ _ hb => hb
  | @refused t _ e hpc =>
    have ht : t < s.calls := hn.lt (by rw [hpc]; exact Pc.noConfusion)
    exact h.refused (by rw [hpc]; rfl) (by rw [hpc]; rfl) ht
  | @wake t _ hpc =>
    have ht : t < s.calls := hn.lt (by rw [hpc]; exact Pc.noConfusion)
    have hlead := h.lead t (by rw [hpc]; rfl)
    exact h.goto Bool.noConfusion (fun _ => hlead) (fun _ _ _ => hlead) Pc.noConfusion
      (by rw [hpc]; rfl) ht
  | @receive t _ _ hpc _ =>
    have ht : t < s.calls := hn.lt (by rw [hpc]; exact Pc.noConfusion)
    exact h.goto Bool.noConfusion Bool.noConfusion Bool.noConfusion Pc.noConfusion
      (by rw [hpc]; rfl) ht
  | @receiveInner t _ _ hpc hin =>
    have ht : t < s.calls := hn.lt (by rw [hpc]; exact Pc.noConfusion)
    have hno := h.woken t hpc (by rw [hin]; exact Option.some_ne_none _)
    exact h.keepAlive (fun ws hb => absurd hb (hno ws)) (by rw [hpc]; rfl) ht
  | @receiveError t _ _ hpc hin =>
    have ht : t < s.calls := hn.lt (by rw [hpc]; exact Pc.noConfusion)
    have hno := h.woken t hpc (by rw [hin]; exact Option.some_ne_none _)
    exact h.goto Bool.noConfusion Bool.noConfusion (fun _ ws hb => absurd hb (hno ws))
      Pc.noConfusion (by rw [hpc]; rfl) ht
  | @install t conn hpc =>
    have ht : t < s.calls := hn.lt (by rw [hpc]; exact Pc.noConfusion)
    exact h.settle (by rw [hpc]; rfl) (fun ws => by simp) (Or.inl ⟨conn, rfl, rfl⟩) ht
  | @fail t e hpc =>
    have ht : t < s.calls := hn.lt (by rw [hpc]; exact Pc.noConfusion)
    exact h.settle (by rw [hpc]; rfl) (fun ws => by simp) (Or.inr ⟨rfl, e, rfl⟩) ht
  | @drop t hret hne =>
    have hlive : (s.pc t).hasReturned = false := by
      cases hpc : s.pc t with
      | returned res => exact absurd hpc (hret res)
      | _ => rfl
    exact h.goto Bool.noConfusion Bool.noConfusion Bool.noConfusion Pc.noConfusion hlive
      (hn.lt hne)
  | checkConnections =>
    refine h.frame rfl rfl rfl rfl rfl rfl rfl fun b ws hb => ?_
    simp only [State.checkConnections] at hb
    split at hb
    · split at hb
      · exact absurd hb (by simp)
      · exact absurd hb (by simp)
    · exact hb
  | engine hs =>
    obtain ⟨_, _, _, rfl, -⟩ := engineStep_frame hs
    exact h.frame rfl rfl rfl rfl rfl rfl rfl fun _ _ hb => hb
  | _ => exact h.frame rfl rfl rfl rfl rfl rfl rfl fun _ _ hb => hb

/-! ## What a step adds to the logs -/

/-- A step leaves the logs alone, or takes the lead, or resolves some waiters. -/
theorem logs_of_step {a : Action} (hs : ConnectionManager.step o s a = some s') :
    (s'.leads = s.leads ∧ s'.inbox = s.inbox ∧ s'.resolutions = s.resolutions) ∨
    (∃ t, a = .enter t ∧ State.waiters (s.connections (s.broker t)) = [] ∧
      s'.leads = s.leads ++ [(t, s.serves (s.broker t))] ∧ s'.inbox = s.inbox ∧
      s'.resolutions = s.resolutions) ∨
    ∃ t ws res, s'.leads = s.leads ∧ s'.inbox = (s.resolve t ws res).inbox ∧
      s'.resolutions = (s.resolve t ws res).resolutions := by
  cases step_cases hs with
  | look _ =>
    refine Or.inl ?_
    unfold State.look
    split
    · exact ⟨rfl, rfl, rfl⟩
    · split
      · exact ⟨rfl, rfl, rfl⟩
      · exact ⟨rfl, rfl, rfl⟩
    · exact ⟨rfl, rfl, rfl⟩
  | @enter t _ =>
    unfold State.enter
    split
    · rename_i hb
      refine Or.inr (Or.inl ⟨t, rfl, by rw [hb]; rfl, ?_, rfl, rfl⟩)
      have hnew : (s.setEntry (s.broker t) (some (.Connecting []))).serves (s.broker t) = false := by
        unfold State.serves
        rw [setEntry_self]
      have hold : s.serves (s.broker t) = false := by
        unfold State.serves
        rw [hb]
      rw [hold]
      show s.leads ++ [(t, State.serves _ (s.broker t))] = _
      rw [hnew]
    · rename_i ws hb
      split
      · rename_i hemp
        exact Or.inr (Or.inl ⟨t, rfl, by rw [hb]; exact List.isEmpty_iff.mp hemp, rfl, rfl, rfl⟩)
      · exact Or.inl ⟨rfl, rfl, rfl⟩
    · rename_i hb
      exact Or.inr (Or.inl ⟨t, rfl, by rw [hb]; rfl, rfl, rfl, rfl⟩)
  | @connected t _ spawned _ =>
    cases spawned with
    | true => exact Or.inl ⟨rfl, rfl, rfl⟩
    | false => exact Or.inl ⟨rfl, rfl, rfl⟩
  | refused _ =>
    refine Or.inl ?_
    unfold State.refused
    split
    · split
      · exact ⟨rfl, rfl, rfl⟩
      · exact ⟨rfl, rfl, rfl⟩
    · exact ⟨rfl, rfl, rfl⟩
  | @receiveInner t conn spawned _ _ =>
    cases spawned with
    | true => exact Or.inl ⟨rfl, rfl, rfl⟩
    | false => exact Or.inl ⟨rfl, rfl, rfl⟩
  | @install t _ _ => exact Or.inr (Or.inr ⟨t, _, _, rfl, rfl, rfl⟩)
  | @fail t _ _ => exact Or.inr (Or.inr ⟨t, _, _, rfl, rfl, rfl⟩)
  | engine hs =>
    obtain ⟨_, _, _, rfl, -⟩ := engineStep_frame hs
    exact Or.inl ⟨rfl, rfl, rfl⟩
  | _ => exact Or.inl ⟨rfl, rfl, rfl⟩

/-- Whoever took the lead found no valid connection in the pool. -/
def Needed (s : State) : Prop := ∀ t served, (t, served) ∈ s.leads → served = false

theorem Needed.step {a : Action} (h : Needed s) (hn : Numbered s) (hok : entersAlone s a = true)
    (hs : ConnectionManager.step o s a = some s') : Needed s' := by
  intro t served hmem
  rcases logs_of_step hs with ⟨hl, -, -⟩ | ⟨u, rfl, hw, hl, -, -⟩ | ⟨_, _, _, hl, -, -⟩
  · exact h t served (hl ▸ hmem)
  · rw [hl] at hmem
    rcases List.mem_append.mp hmem with hold | hnew
    · exact h t served hold
    · obtain ⟨-, rfl⟩ := Prod.mk.inj (List.mem_singleton.mp hnew)
      exact (entersAlone_enter hn hok hw).1
  · exact h t served (hl ▸ hmem)

/-- What is in a call's oneshot was sent by whoever resolved it. -/
def Delivered (s : State) : Prop :=
  ∀ w res, s.inbox w = some res → ∃ r, (w, r, res) ∈ s.resolutions

theorem Delivered.step {a : Action} (h : Delivered s)
    (hs : ConnectionManager.step o s a = some s') : Delivered s' := by
  intro w res hin
  rcases logs_of_step hs with ⟨-, hi, hr⟩ | ⟨_, -, -, -, hi, hr⟩ | ⟨t, ws, out, -, hi, hr⟩
  · rw [hi] at hin
    rw [hr]
    exact h w res hin
  · rw [hi] at hin
    rw [hr]
    exact h w res hin
  · rw [hr]
    have hin' : (if w ∈ ws then some out else s.inbox w) = some res := (congrFun hi w).symm.trans hin
    by_cases hw : w ∈ ws
    · rw [if_pos hw, Option.some.injEq] at hin'
      subst hin'
      exact ⟨t, List.mem_append_right _ (List.mem_map.mpr ⟨w, hw, rfl⟩)⟩
    · rw [if_neg hw] at hin'
      obtain ⟨r, hmem⟩ := h w res hin'
      exact ⟨r, List.mem_append_left _ hmem⟩

end Step

/-! ## The main result -/

/-- **Headline.**  In every run in which a call takes the lead only alone, and no waiter list loses its
    last driver: (1) at most one call at a time establishes a connection to an address, (2) and only
    when the pool has none to hand out; (3) every call that was resolved was resolved by the call that
    led when it parked, (4) with that call's outcome; (5) every call that waits, waits for the call
    that led when it parked, which is on its way to resolve it. -/
theorem single_flight {o : ConnectionRetryOptions} {s : State}
    (h : (pool o).ReachIf (fun s a => oneFlight s a = true) s) :
    (∀ t u, (s.pc t).establishes = true → (s.pc u).establishes = true → s.broker t = s.broker u →
      t = u) ∧
    (∀ t served, (t, served) ∈ s.leads → served = false) ∧
    (∀ w r res, (w, r, res) ∈ s.resolutions → s.leader w = some r ∧ SentOutcome s r res) ∧
    (∀ w res, s.inbox w = some res → ∃ r, s.leader w = some r ∧ SentOutcome s r res) ∧
    ∀ w, (s.pc w).waits = true → s.inbox w = none →
      ∃ u < s.calls, s.broker u = s.broker w ∧ (s.pc u).drives = true ∧ s.leader w = some u := by
  have hinv : (Numbered s ∧ Driven s ∧ Listed s) ∧ Flight s ∧ Needed s ∧ Delivered s := by
    refine Sys.ReachIf.inv
      (fun s => (Numbered s ∧ Driven s ∧ Listed s) ∧ Flight s ∧ Needed s ∧ Delivered s) ?_ ?_ h
    · rintro s rfl
      have hno : ∀ (b : BrokerAddress) (ws : List Nat),
          ({} : State).connections b ≠ some (.Connecting ws) :=
        fun _ _ hb => absurd hb.symm (Option.some_ne_none _)
      refine ⟨⟨fun _ _ => rfl, ?_, ?_⟩, ?_, ?_, ?_⟩
      · exact fun b ws hb => absurd hb (hno b ws)
      · exact fun t hw => absurd hw Bool.false_ne_true
      · constructor
        · exact fun t ht => absurd ht Bool.false_ne_true
        · exact fun b ws hb => absurd hb (hno b ws)
        · exact fun b ws hb => absurd hb (hno b ws)
        · exact fun b ws hb => absurd hb (hno b ws)
        · exact fun t ht => absurd ht Pc.noConfusion
        · exact fun _ _ => rfl
        · exact fun w r res hmem => absurd hmem List.not_mem_nil
      · exact fun t served hmem => absurd hmem List.not_mem_nil
      · exact fun w res hin => absurd hin.symm (Option.some_ne_none _)
    · rintro s a s' ⟨⟨hn, hd, hl⟩, hf, hneed, hdel⟩ hok hs
      have hok' := Bool.and_eq_true_iff.mp hok
      exact ⟨⟨hn.step hs, (driven_step_iff hn hd hs).mpr hok'.1, hl.step hs⟩,
        hf.step hn hok'.2 hs, hneed.step hn hok'.2 hs, hdel.step hs⟩
  obtain ⟨⟨hn, hd, hl⟩, hf, hneed, hdel⟩ := hinv
  refine ⟨?_, hneed, fun w r res hmem => (hf.resolved w r res hmem).2.2, ?_, ?_⟩
  · intro t u ht hu hbr
    have hlead := hf.lead t ht
    rw [hbr, hf.lead u hu, Option.some.injEq] at hlead
    exact hlead.symm
  · intro w res hin
    obtain ⟨r, hmem⟩ := hdel w res hin
    exact ⟨r, (hf.resolved w r res hmem).2.2⟩
  · intro w hw hin
    obtain ⟨ws, hb, hmem⟩ := hl w hw hin
    obtain ⟨u, hlt, hbr, hdr⟩ := hd _ ws hb
    refine ⟨u, hlt, hbr, hdr, ?_⟩
    rw [hf.leaderOfList _ ws hb w hmem]
    exact hf.leadOfList _ ws hb u hbr hdr

/-- One call establishes, a second one parks, and is sent the connection of the first. -/
theorem single_flight_joined : ∃ s : State, s.inbox 1 = some (.Ok 0) ∧
    ∃ r, s.leader 1 = some r ∧ SentOutcome s r (.Ok 0) := by
  obtain ⟨s, hs, hp⟩ := Sys.exists_reachIf_of_execIf (S := pool ⟨0, 10⟩) oneFlight
    (p := fun s => s.inbox 1 == some (.Ok 0)) (s := {}) rfl
    [.getConnection ⟨"pulsar://b", "b:6650", false⟩, .look 0, .enter 0,
      .getConnection ⟨"pulsar://b", "b:6650", false⟩, .look 1, .connected 0 true, .install 0]
    (by decide)
  have hin : s.inbox 1 = some (.Ok 0) := eq_of_beq hp
  exact ⟨s, hin, (single_flight hs).2.2.2.1 1 (.Ok 0) hin⟩

/-! ## Two flights -/

/-- Two calls find no entry.  The first creates it and establishes; the second finds it without a
    waiter, takes itself for the first, and establishes as well. -/
theorem two_calls_establish :
    ¬ ∀ (o : ConnectionRetryOptions) (s : State), (pool o).Reach s →
      ∀ t u, (s.pc t).establishes = true → (s.pc u).establishes = true → s.broker t = s.broker u →
        t = u := by
  intro hall
  obtain ⟨s, hs, hp⟩ := Sys.exists_reach_of_exec (S := pool ⟨0, 10⟩)
    (p := fun s => (s.pc 0).establishes && ((s.pc 1).establishes && s.broker 0 == s.broker 1))
    (s := {}) rfl
    [.getConnection ⟨"pulsar://b", "b:6650", false⟩, .getConnection ⟨"pulsar://b", "b:6650", false⟩,
      .look 0, .look 1, .enter 0, .enter 1] (by decide)
  simp only [Bool.and_eq_true, beq_iff_eq] at hp
  exact absurd (hall ⟨0, 10⟩ s hs 0 1 hp.1 hp.2.1 hp.2.2) (by decide)

end PulsarClient.ConnectionManager
