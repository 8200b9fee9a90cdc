/-
  PROGRESS — the other half of an argument about runs: not what always holds, but what is reached.

  A party of a system can always take a step of its own until it is done, and each of these steps makes a
  number smaller.  Then it gets done by itself, in at most that number of steps (`exists_exec_of_measure`).

  When each of these steps makes the number smaller, it is not only possible to get done: no run of them is
  longer (`exec_of_measure`).

  `own state label` says which steps are the party's; `I` is what is known of every state; `R` is what
  the steps leave as it is, seen from the first state.
-/
import PulsarClient.Lib.Runs

namespace PulsarClient.Runs.Sys

variable {σ α : Type} {S : Sys σ α}

/-- **The progress rule.** -/
theorem exists_exec_of_measure {own : σ → α → Prop} {I done : σ → Prop} {R : σ → σ → Prop}
    (measure : σ → Nat) (hrefl : ∀ s, R s s) (htrans : ∀ s t u, R s t → R t u → R s u)
    (hstep : ∀ s, I s → ¬ done s →
      ∃ a s', own s a ∧ S.step s a = some s' ∧ I s' ∧ R s s' ∧ measure s' < measure s)
    {s : σ} (hs : I s) :
    ∃ as t, S.Guarded own s as ∧ as.length ≤ measure s ∧ S.exec s as = some t ∧ I t ∧ R s t ∧
      done t := by
  induction hn : measure s using Nat.strongRecOn generalizing s with
  | ind n ih =>
    by_cases hdone : done s
    · exact ⟨[], s, trivial, Nat.zero_le _, rfl, hs, hrefl s, hdone⟩
    · obtain ⟨a, s', hown, ha, hs', hR, hless⟩ := hstep s hs hdone
      obtain ⟨as, t, hguarded, hlen, ht, hI, hR', hdone'⟩ := ih _ (hn ▸ hless) hs' rfl
      refine ⟨a :: as, t, ?_, ?_, ?_, hI, htrans s s' t hR hR', hdone'⟩
      · intro u hu
        obtain rfl := Option.some.inj (ha.symm.trans hu)
        exact ⟨hown, hguarded⟩
      · rw [List.length_cons]
        omega
      · rw [exec_cons, ha]
        exact ht

/-- **The bound on every run** of the party's steps. -/
theorem exec_of_measure {own : σ → α → Prop} {I : σ → Prop} (measure : σ → Nat)
    (hstep : ∀ s a s', I s → own s a → S.step s a = some s' → I s' ∧ measure s' < measure s)
    {as : List α} {s t : σ} (hs : I s) (hown : S.Guarded own s as) (ht : S.exec s as = some t) :
    I t ∧ as.length + measure t ≤ measure s := by
  induction as generalizing s with
  | nil =>
    obtain rfl := Option.some.inj ht
    exact ⟨hs, Nat.le_of_eq (Nat.zero_add _)⟩
  | cons a as ih =>
    rw [exec_cons, Option.bind_eq_some_iff] at ht
    obtain ⟨s', ha, ht⟩ := ht
    obtain ⟨hfirst, hrest⟩ := hown s' ha
    obtain ⟨hs', hless⟩ := hstep s a s' hs hfirst ha
    obtain ⟨hI, hlen⟩ := ih hs' hrest ht
    refine ⟨hI, ?_⟩
    rw [List.length_cons]
    omega

/-- A condition that does not look at the state, of a run that takes place. -/
theorem Guarded.forall_mem {p : α → Prop} {as : List α} {s t : σ}
    (h : S.Guarded (fun _ a => p a) s as) (ht : S.exec s as = some t) : ∀ a ∈ as, p a := by
  induction as generalizing s with
  | nil => exact fun a ha => absurd ha List.not_mem_nil
  | cons b as ih =>
    rw [exec_cons, Option.bind_eq_some_iff] at ht
    obtain ⟨s', hs', ht⟩ := ht
    obtain ⟨hb, hrest⟩ := h s' hs'
    intro a ha
    rcases List.mem_cons.mp ha with rfl | ha
    · exact hb
    · exact ih hrest ht a ha

end PulsarClient.Runs.Sys
