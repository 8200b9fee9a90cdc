/-
  RUNS of a labelled transition system — the part of every safety argument of this development
  that does not depend on what the system is.

  A system is a set of start states and a PARTIAL step function (`none` = the label is not enabled
  there), so that a concrete interleaving can be executed by `exec` and checked by `decide`, while
  "every interleaving" is the inductive `Reach`.  Three things are proved once, here:

  1. **Invariants** (`ReachIf.inv`): what holds at the start and is kept by one step holds in every
     reachable state.  `ReachIf ok` is reachability through steps that all satisfy a side condition
     `ok state label` — the shape of "in every run whose steps all meet the condition"; plain `Reach`
     is the case `ok = True`.

  2. **Exact conditions** (`along_iff_guarded`): for one given run, "the property holds in every
     state it passes through" IS "each of its steps meets the condition", as soon as one step from a
     good state is good exactly when it meets the condition.

  3. **Concrete runs** (`exists_reach_of_exec`): a label sequence whose execution ends in a state
     with a (decidable) property yields a reachable state with that property — how an interleaving
     that breaks a claim is exhibited.

  A system may keep a LOG of what it did, newest entry last.  `Each P log` says of every entry that
  `P` held between it and the log as it was then; a step that appends one entry owes `P` for that
  entry only (`each_concat`).  A system that is one LOOP, a state after each turn, stays where it is once
  it has stopped (`eq_of_le_of_stopped`).
-/
import Mathlib.Data.List.Basic

namespace PulsarClient.Runs

/-- A labelled transition system: where a run may start, and what a label does to a state. -/
structure Sys (σ α : Type) where
  /-- The states a run may start in. -/
  init : σ → Prop
  /-- One step; `none` when the label is not enabled in the state. -/
  step : σ → α → Option σ

variable {σ α : Type}

namespace Sys

variable (S : Sys σ α)

/-- Execute a sequence of labels, in order. -/
def exec : σ → List α → Option σ
  | s, [] => some s
  | s, a :: as => (S.step s a).bind fun s' => exec s' as

/-- `exec`, stopping also at a step that does not satisfy a decidable side condition. -/
def execIf (ok : σ → α → Bool) : σ → List α → Option σ
  | s, [] => some s
  | s, a :: as => if ok s a then (S.step s a).bind fun s' => execIf ok s' as else none

/-- The states reached from a start state by steps that all satisfy `ok`. -/
inductive ReachIf (ok : σ → α → Prop) : σ → Prop where
  | init {s} (h : S.init s) : ReachIf ok s
  | step {s a s'} (h : ReachIf ok s) (hok : ok s a) (hs : S.step s a = some s') : ReachIf ok s'

/-- The states reached from a start state by any steps. -/
abbrev Reach : σ → Prop := S.ReachIf fun _ _ => True

/-- `P` holds in every state that `exec s as` passes through, `s` included. -/
def Along (P : σ → Prop) : σ → List α → Prop
  | s, [] => P s
  | s, a :: as => P s ∧ ∀ s', S.step s a = some s' → Along P s' as

/-- Every step that `exec s as` takes satisfies `ok` in the state it is taken from. -/
def Guarded (ok : σ → α → Prop) : σ → List α → Prop
  | _, [] => True
  | s, a :: as => ∀ s', S.step s a = some s' → ok s a ∧ Guarded ok s' as

variable {S}

@[simp] theorem exec_nil (s : σ) : S.exec s [] = some s := rfl

@[simp] theorem exec_cons (s : σ) (a : α) (as : List α) :
    S.exec s (a :: as) = (S.step s a).bind fun s' => S.exec s' as := rfl

theorem exec_append (as bs : List α) (s : σ) :
    S.exec s (as ++ bs) = (S.exec s as).bind fun t => S.exec t bs := by
  induction as generalizing s with
  | nil => rfl
  | cons a as ih =>
    rw [List.cons_append, exec_cons, exec_cons, Option.bind_assoc]
    congr 1
    funext s'
    exact ih s'

/-! ## Invariants -/

/-- **The invariant rule**: kept by every admissible step, so true in every state reached. -/
theorem ReachIf.inv {ok : σ → α → Prop} (I : σ → Prop) (h0 : ∀ s, S.init s → I s)
    (hstep : ∀ s a s', I s → ok s a → S.step s a = some s' → I s') :
    ∀ {s}, S.ReachIf ok s → I s := by
  intro s h
  induction h with
  | init h => exact h0 _ h
  | step _ hok hs ih => exact hstep _ _ _ ih hok hs

/-! ## Exact conditions along one run -/

theorem Along.head {P : σ → Prop} {s : σ} {as : List α} (h : S.Along P s as) : P s := by
  cases as with
  | nil => exact h
  | cons a as => exact h.1

/-- … and in the state it ends in. -/
theorem Along.last {P : σ → Prop} {s t : σ} {as : List α} (h : S.Along P s as)
    (ht : S.exec s as = some t) : P t := by
  induction as generalizing s with
  | nil => exact Option.some.inj ht ▸ h
  | cons a as ih =>
    rw [exec_cons, Option.bind_eq_some_iff] at ht
    obtain ⟨s', hs', ht⟩ := ht
    exact ih (h.2 s' hs') ht

theorem Guarded.prefix {ok : σ → α → Prop} {s : σ} {as bs : List α}
    (h : S.Guarded ok s (as ++ bs)) : S.Guarded ok s as := by
  induction as generalizing s with
  | nil => exact trivial
  | cons a as ih => exact fun s' hs' => ⟨(h s' hs').1, ih (h s' hs').2⟩

/-- **The exactness rule**: if a step from a good state leads to a good state exactly when it meets
    the condition, then a run stays good exactly when all its steps meet the condition.  `I` is what
    is known of every state anyway. -/
theorem along_iff_guarded {I P : σ → Prop} {ok : σ → α → Prop}
    (hinv : ∀ s a s', I s → S.step s a = some s' → I s')
    (hstep : ∀ s a s', I s → P s → S.step s a = some s' → (P s' ↔ ok s a)) :
    ∀ (as : List α) (s : σ), I s → P s → (S.Along P s as ↔ S.Guarded ok s as) := by
  intro as
  induction as with
  | nil =>
    intro s _ hs
    exact ⟨fun _ => trivial, fun _ => hs⟩
  | cons a as ih =>
    intro s hI hs
    constructor
    · rintro ⟨-, hal⟩ s' hs'
      have hP' : P s' := (hal s' hs').head
      exact ⟨(hstep s a s' hI hs hs').mp hP',
        (ih s' (hinv s a s' hI hs') hP').mp (hal s' hs')⟩
    · intro hg
      refine ⟨hs, fun s' hs' => ?_⟩
      obtain ⟨hok, hg'⟩ := hg s' hs'
      exact (ih s' (hinv s a s' hI hs') ((hstep s a s' hI hs hs').mpr hok)).mpr hg'

/-- Two conditions on steps that agree where the invariant holds agree on runs. -/
theorem guarded_iff_guarded {I : σ → Prop} {ok ok' : σ → α → Prop}
    (hinv : ∀ s a s', I s → ok' s a → S.step s a = some s' → I s')
    (hiff : ∀ s a s', I s → S.step s a = some s' → (ok s a ↔ ok' s a)) :
    ∀ (as : List α) (s : σ), I s → (S.Guarded ok s as ↔ S.Guarded ok' s as) := by
  intro as
  induction as with
  | nil => exact fun s _ => Iff.rfl
  | cons a as ih =>
    intro s hI
    constructor
    · intro hg s' hs'
      obtain ⟨hok, hrest⟩ := hg s' hs'
      have hok' := (hiff s a s' hI hs').mp hok
      exact ⟨hok', (ih s' (hinv s a s' hI hok' hs')).mp hrest⟩
    · intro hg s' hs'
      obtain ⟨hok', hrest⟩ := hg s' hs'
      exact ⟨(hiff s a s' hI hs').mpr hok', (ih s' (hinv s a s' hI hok' hs')).mpr hrest⟩

/-! ## Concrete runs -/

theorem ReachIf.exec {ok : σ → α → Prop} (as : List α) {s t : σ} (h : S.ReachIf ok s)
    (hg : S.Guarded ok s as) (ht : S.exec s as = some t) : S.ReachIf ok t := by
  induction as generalizing s with
  | nil =>
    rw [exec_nil, Option.some.injEq] at ht
    exact ht ▸ h
  | cons a as ih =>
    rw [exec_cons, Option.bind_eq_some_iff] at ht
    obtain ⟨s', hs', ht⟩ := ht
    obtain ⟨hok, hg'⟩ := hg s' hs'
    exact ih (.step h hok hs') hg' ht

theorem guarded_true (as : List α) (s : σ) : S.Guarded (fun _ _ => True) s as := by
  induction as generalizing s with
  | nil => exact trivial
  | cons a as ih => exact fun s' _ => ⟨trivial, ih s'⟩

/-- A guarded execution is a conditioned run. -/
theorem ReachIf.execIf {ok : σ → α → Bool} (as : List α) {s t : σ}
    (h : S.ReachIf (fun s a => ok s a = true) s) (ht : S.execIf ok s as = some t) :
    S.ReachIf (fun s a => ok s a = true) t := by
  induction as generalizing s with
  | nil =>
    obtain rfl : s = t := Option.some.inj ht
    exact h
  | cons a as ih =>
    have ht' : (if ok s a then (S.step s a).bind fun s' => S.execIf ok s' as else none) = some t :=
      ht
    by_cases hok : ok s a = true
    · rw [if_pos hok, Option.bind_eq_some_iff] at ht'
      obtain ⟨s', hs', ht'⟩ := ht'
      exact ih (.step h hok hs') ht'
    · rw [if_neg hok] at ht'
      exact absurd ht' (Option.some_ne_none t).symm

/-- A guarded execution meets the condition at every step. -/
theorem guarded_of_execIf {ok : σ → α → Bool} (as : List α) {s : σ}
    (h : (S.execIf ok s as).isSome = true) : S.Guarded (fun s a => ok s a = true) s as := by
  induction as generalizing s with
  | nil => exact trivial
  | cons a as ih =>
    intro s' hs'
    have h' : (if ok s a then (S.step s a).bind fun s' => S.execIf ok s' as else none).isSome =
        true := h
    rw [hs'] at h'
    by_cases hok : ok s a = true
    · rw [if_pos hok] at h'
      exact ⟨hok, ih h'⟩
    · rw [if_neg hok] at h'
      exact absurd h' Bool.false_ne_true

/-- A guarded run that executes to a state with property `p` shows that such a state is reachable
    under the side condition. -/
theorem exists_reachIf_of_execIf (ok : σ → α → Bool) {p : σ → Bool} {s : σ} (h0 : S.init s)
    (as : List α) (h : (S.execIf ok s as).any p = true) :
    ∃ t, S.ReachIf (fun s a => ok s a = true) t ∧ p t = true := by
  cases ht : S.execIf ok s as with
  | none =>
    rw [ht] at h
    exact absurd h Bool.false_ne_true
  | some t =>
    rw [ht] at h
    exact ⟨t, ReachIf.execIf as (.init h0) ht, h⟩

/-- A run that executes to a state with property `p` shows that such a state is reachable. -/
theorem exists_reach_of_exec {p : σ → Bool} {s : σ} (h0 : S.init s) (as : List α)
    (h : (S.exec s as).any p = true) : ∃ t, S.Reach t ∧ p t = true := by
  cases ht : S.exec s as with
  | none =>
    rw [ht] at h
    exact absurd h Bool.false_ne_true
  | some t =>
    rw [ht] at h
    exact ⟨t, ReachIf.exec as (.init h0) (guarded_true as s) ht, h⟩

end Sys

/-! ## Loops -/

/-- A loop that has stopped stays where it is: `f n` is its state after `n` turns. -/
theorem eq_of_le_of_stopped {f : Nat → σ} {m n : Nat} (hle : m ≤ n) (stopped : σ → Prop)
    (hstays : ∀ k, stopped (f k) → f (k + 1) = f k) (h : stopped (f m)) : f n = f m := by
  induction hle with
  | refl => rfl
  | step _ ih =>
    rw [hstays _ (ih ▸ h)]
    exact ih

/-! ## Logs -/

/-- Every entry of the log satisfied `P` when it was made: `P before entry`. -/
def Each (P : List α → α → Prop) (log : List α) : Prop :=
  ∀ before entry after, log = before ++ entry :: after → P before entry

theorem each_nil {P : List α → α → Prop} : Each P [] := by
  intro before entry after h
  exact absurd h.symm (List.append_ne_nil_of_right_ne_nil before (List.cons_ne_nil entry after))

/-- One more entry. -/
theorem each_concat {P : List α → α → Prop} {log : List α} {x : α} :
    Each P (log ++ [x]) ↔ Each P log ∧ P log x := by
  constructor
  · intro h
    refine ⟨fun before entry after heq => ?_, h log x [] rfl⟩
    apply h before entry (after ++ [x])
    rw [heq, List.append_assoc, List.cons_append]
  · rintro ⟨hlog, hx⟩ before entry after heq
    rcases List.eq_nil_or_concat after with rfl | ⟨after', z, rfl⟩
    · obtain ⟨rfl, hcons⟩ := List.append_inj' heq rfl
      obtain rfl := List.singleton_inj.mp hcons
      exact hx
    · have heq' : log ++ [x] = (before ++ entry :: after') ++ [z] := by
        rw [heq, List.append_assoc, List.cons_append, List.concat_eq_append]
      exact hlog before entry after' (List.append_inj' heq' rfl).1

/-- Entries for which nothing is owed. -/
theorem each_append {P : List α → α → Prop} {log entries : List α} (hlog : Each P log)
    (hentries : ∀ entry ∈ entries, ∀ before, P before entry) : Each P (log ++ entries) := by
  induction entries generalizing log with
  | nil =>
    rw [List.append_nil]
    exact hlog
  | cons x entries ih =>
    rw [List.append_cons]
    apply ih
    · exact each_concat.mpr ⟨hlog, hentries x List.mem_cons_self log⟩
    · intro entry hentry
      exact hentries entry (List.mem_cons_of_mem x hentry)

end PulsarClient.Runs
