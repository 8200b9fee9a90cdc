/-
  RENDEZVOUS — requests and answers that may arrive in EITHER order.

  A requester leaves a `ρ` (something to hand an answer to), an answerer leaves a `μ`; whoever comes
  second completes the pair.  The specification is about two lists only: the requests `R` and the
  answers `A` in the order in which they arrived.

  * `pairs R A`   — who has been handed what: the `i`-th request gets the `i`-th answer (`List.zip`);
  * `waiting R A` — the request that has no answer yet, if the requests are ahead;
  * `early R A`   — the answer that has no request yet, if the answers are ahead.

  `Balanced R A` says that neither side is ever ahead by more than one — what makes ONE slot per side
  enough to implement this.  The four laws say what an arrival does to the three observables; an
  implementation with a slot for a waiting request and a slot for an early answer is correct as soon
  as it follows them.
-/
import Mathlib.Data.List.Zip

namespace PulsarClient.Rendezvous

variable {ρ μ : Type}

/-- The completed pairs. -/
def pairs (R : List ρ) (A : List μ) : List (ρ × μ) := R.zip A

/-- The request that waits for its answer. -/
def waiting (R : List ρ) (A : List μ) : Option ρ := R[A.length]?

/-- The answer that came before its request. -/
def early (R : List ρ) (A : List μ) : Option μ := A[R.length]?

/-- Neither side is ahead by more than one. -/
def Balanced (R : List ρ) (A : List μ) : Prop :=
  R.length ≤ A.length + 1 ∧ A.length ≤ R.length + 1

theorem balanced_nil : Balanced ([] : List ρ) ([] : List μ) := ⟨Nat.zero_le _, Nat.zero_le _⟩

theorem waiting_eq_none_iff {R : List ρ} {A : List μ} :
    waiting R A = none ↔ R.length ≤ A.length :=
  List.getElem?_eq_none_iff

theorem early_eq_none_iff {R : List ρ} {A : List μ} : early R A = none ↔ A.length ≤ R.length :=
  List.getElem?_eq_none_iff

/-- The two slots are never full at the same time. -/
theorem waiting_none_or_early_none (R : List ρ) (A : List μ) :
    waiting R A = none ∨ early R A = none := by
  rcases Nat.le_total R.length A.length with h | h
  · exact Or.inl (waiting_eq_none_iff.mpr h)
  · exact Or.inr (early_eq_none_iff.mpr h)

/-- Zipping with a list that has just enough elements for the longer side: one more pair. -/
theorem zip_concat_left {R : List ρ} {A : List μ} {r : ρ} {m : μ} (h : A[R.length]? = some m) :
    (R ++ [r]).zip A = R.zip A ++ [(r, m)] := by
  induction R generalizing A with
  | nil =>
    cases A with
    | nil => simp at h
    | cons a A =>
      rw [List.length_nil, List.getElem?_cons_zero, Option.some.injEq] at h
      simp [h]
  | cons x R ih =>
    cases A with
    | nil => simp at h
    | cons a A =>
      rw [List.length_cons, List.getElem?_cons_succ] at h
      simp [ih h]

theorem zip_concat_right {R : List ρ} {A : List μ} {r : ρ} {m : μ} (h : R[A.length]? = some r) :
    R.zip (A ++ [m]) = R.zip A ++ [(r, m)] := by
  have hs := zip_concat_left (r := m) h
  rw [← List.zip_swap (A ++ [m]) R, ← List.zip_swap A R, hs, List.map_append]
  rfl

theorem zip_concat_left_of_le {R : List ρ} {A : List μ} (r : ρ) (h : A.length ≤ R.length) :
    (R ++ [r]).zip A = R.zip A := by
  induction R generalizing A with
  | nil =>
    obtain rfl : A = [] := List.length_eq_zero_iff.mp (Nat.le_zero.mp h)
    simp
  | cons x R ih =>
    cases A with
    | nil => simp
    | cons a A =>
      rw [List.cons_append, List.zip_cons_cons, List.zip_cons_cons, ih (Nat.le_of_succ_le_succ h)]

theorem zip_concat_right_of_le {R : List ρ} {A : List μ} (m : μ) (h : R.length ≤ A.length) :
    R.zip (A ++ [m]) = R.zip A := by
  rw [← List.zip_swap (A ++ [m]) R, ← List.zip_swap A R, zip_concat_left_of_le m h]

/-! ## Implementations

  An implementation keeps three things: what it has handed over (`H`), a slot for a request that waits
  (`w`) and a slot for an answer that came early (`e`).  `Meets` says that they are what the
  specification says; the four laws are the four things an arrival can do to it. -/

/-- The observables `H`, `w`, `e` of an implementation are right for the requests `R` and the
    answers `A`. -/
structure Meets (R : List ρ) (A : List μ) (H : List (ρ × μ)) (w : Option ρ) (e : Option μ) :
    Prop where
  handed : H = pairs R A
  waiting : w = waiting R A
  early : e = early R A
  balanced : Balanced R A

variable {R : List ρ} {A : List μ} {H : List (ρ × μ)} {w : Option ρ} {e : Option μ}

namespace Meets

theorem nil : Meets ([] : List ρ) ([] : List μ) [] none none :=
  ⟨rfl, rfl, rfl, balanced_nil⟩

/-- The two slots are never full at the same time. -/
theorem one_empty (h : Meets R A H w e) : w = none ∨ e = none := by
  rw [h.waiting, h.early]
  exact waiting_none_or_early_none R A

/-- A request arrives after its answer: the pair is completed, the slot of the answer is emptied. -/
theorem request_meets_early {m : μ} (h : Meets R A H w (some m)) (r : ρ) :
    Meets (R ++ [r]) A (H ++ [(r, m)]) w none := by
  have he : A[R.length]? = some m := h.early.symm
  have hlt : R.length < A.length := (List.getElem?_eq_some_iff.mp he).1
  have hlen : (R ++ [r]).length = R.length + 1 := by simp
  have hA : A.length = R.length + 1 := by have := h.balanced.2; omega
  have hw : w = none := h.waiting.trans (waiting_eq_none_iff.mpr (by omega))
  refine ⟨?_, ?_, ?_, ?_, ?_⟩
  · rw [h.handed]
    exact (zip_concat_left he).symm
  · rw [hw]
    exact (waiting_eq_none_iff.mpr (by omega)).symm
  · exact (early_eq_none_iff.mpr (by omega)).symm
  · omega
  · omega

/-- A request arrives before its answer: nothing is handed over, the request waits. -/
theorem request_waits (h : Meets R A H w none) (r : ρ) (hle : R.length ≤ A.length) :
    Meets (R ++ [r]) A H (some r) none := by
  have hge : A.length ≤ R.length := early_eq_none_iff.mp h.early.symm
  have hlen : (R ++ [r]).length = R.length + 1 := by simp
  have hA : A.length = R.length := Nat.le_antisymm hge hle
  refine ⟨?_, ?_, (early_eq_none_iff.mpr (by omega)).symm, ?_, ?_⟩
  · rw [h.handed]
    exact (zip_concat_left_of_le r hge).symm
  · show some r = (R ++ [r])[A.length]?
    rw [hA, List.getElem?_concat_length]
  · omega
  · omega

/-- An answer arrives after its request: the pair is completed, the slot of the request is emptied. -/
theorem answer_meets_waiting {r : ρ} (h : Meets R A H (some r) e) (m : μ) :
    Meets R (A ++ [m]) (H ++ [(r, m)]) none e := by
  have hr : R[A.length]? = some r := h.waiting.symm
  have hlt : A.length < R.length := (List.getElem?_eq_some_iff.mp hr).1
  have hlen : (A ++ [m]).length = A.length + 1 := by simp
  have hR : R.length = A.length + 1 := by have := h.balanced.1; omega
  have he : e = none := h.early.trans (early_eq_none_iff.mpr (by omega))
  refine ⟨?_, (waiting_eq_none_iff.mpr (by omega)).symm, ?_, ?_, ?_⟩
  · rw [h.handed]
    exact (zip_concat_right hr).symm
  · rw [he]
    exact (early_eq_none_iff.mpr (by omega)).symm
  · omega
  · omega

/-- An answer arrives before its request: nothing is handed over, the answer is kept. -/
theorem answer_is_kept (h : Meets R A H none e) (m : μ) (hle : A.length ≤ R.length) :
    Meets R (A ++ [m]) H none (some m) := by
  have hge : R.length ≤ A.length := waiting_eq_none_iff.mp h.waiting.symm
  have hlen : (A ++ [m]).length = A.length + 1 := by simp
  have hR : R.length = A.length := Nat.le_antisymm hge hle
  refine ⟨?_, (waiting_eq_none_iff.mpr (by omega)).symm, ?_, ?_, ?_⟩
  · rw [h.handed]
    exact (zip_concat_right_of_le m hge).symm
  · show some m = (A ++ [m])[R.length]?
    rw [hR, List.getElem?_concat_length]
  · omega
  · omega

/-- As many pairs are handed over as there are requests, or answers, whichever are fewer. -/
theorem length_handed (h : Meets R A H w e) : H.length = min R.length A.length := by
  rw [h.handed]
  exact List.length_zip

/-- A waiting request is one of the requests. -/
theorem mem_of_waiting {r : ρ} (h : Meets R A H (some r) e) : r ∈ R :=
  List.mem_of_getElem? h.waiting.symm

end Meets

end PulsarClient.Rendezvous
