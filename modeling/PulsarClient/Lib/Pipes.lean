/-
  PIPES — a component that takes something in and gives something out, step by step.

  `outputs f s as` is what `f` says of the steps of a run, one after another: what they take in, or what
  they give out.  What a component holds is the difference:

  1. `conserved` — if each step keeps "given out, and held" equal to "held before, and taken in", so does
     a run; a component that holds nothing in the end has given out what it has taken in.

  2. `conserved_sublist` — if each step may lose something, but neither invents nor reorders anything, so
     may a run.

  `I` is what is known of every state, and `ok` what is known of every step of the run.
-/
import PulsarClient.Lib.Runs

namespace PulsarClient.Runs.Sys

variable {σ α β : Type} {S : Sys σ α}

/-- What `f` says of the steps of a run. -/
def outputs (S : Sys σ α) (f : σ → α → List β) : σ → List α → List β
  | _, [] => []
  | s, a :: as => f s a ++ ((S.step s a).map fun s' => outputs S f s' as).getD []

@[simp] theorem outputs_nil (f : σ → α → List β) (s : σ) : S.outputs f s [] = [] := rfl

theorem outputs_cons (f : σ → α → List β) {s s' : σ} {a : α} (as : List α)
    (hs : S.step s a = some s') : S.outputs f s (a :: as) = f s a ++ S.outputs f s' as := by
  rw [outputs, hs]
  rfl

/-- What depends on the labels alone. -/
theorem outputs_eq_flatMap (g : α → List β) {s t : σ} {as : List α} (h : S.exec s as = some t) :
    S.outputs (fun _ a => g a) s as = as.flatMap g := by
  induction as generalizing s with
  | nil => rfl
  | cons a as ih =>
    obtain ⟨s', hs', ht⟩ := Option.bind_eq_some_iff.mp h
    rw [outputs_cons _ _ hs', ih ht, List.flatMap_cons]

/-- A run goes on by one step. -/
theorem outputs_concat (f : σ → α → List β) {s t t' : σ} {as : List α} {a : α}
    (h : S.exec s as = some t) (hs : S.step t a = some t') :
    S.outputs f s (as ++ [a]) = S.outputs f s as ++ f t a := by
  induction as generalizing s with
  | nil =>
    obtain rfl := Option.some.inj h
    rw [List.nil_append, outputs_cons _ _ hs, outputs_nil, outputs_nil, List.append_nil,
      List.nil_append]
  | cons b as ih =>
    obtain ⟨s', hs', ht⟩ := Option.bind_eq_some_iff.mp h
    rw [List.cons_append, outputs_cons _ _ hs', outputs_cons _ _ hs', ih ht, List.append_assoc]

section

variable {out inp : σ → α → List β} {held : σ → List β} {I : σ → Prop} {ok : α → Prop}

/-- **The pipe rule.** -/
theorem conserved {s t : σ} {as : List α} (hs : I s) (hok : ∀ a ∈ as, ok a)
    (hinv : ∀ s a s', I s → ok a → S.step s a = some s' → I s')
    (hstep : ∀ s a s', I s → ok a → S.step s a = some s' →
      out s a ++ held s' = held s ++ inp s a)
    (h : S.exec s as = some t) :
    S.outputs out s as ++ held t = held s ++ S.outputs inp s as := by
  induction as generalizing s with
  | nil =>
    obtain rfl := Option.some.inj h
    rw [outputs_nil, outputs_nil, List.append_nil, List.nil_append]
  | cons a as ih =>
    obtain ⟨s', hs', ht⟩ := Option.bind_eq_some_iff.mp h
    have hoka := hok a List.mem_cons_self
    rw [outputs_cons _ _ hs', outputs_cons _ _ hs', List.append_assoc,
      ih (hinv s a s' hs hoka hs') (fun b hb => hok b (List.mem_cons_of_mem a hb)) ht,
      ← List.append_assoc, hstep s a s' hs hoka hs', List.append_assoc]

/-- **The lossy pipe rule.** -/
theorem conserved_sublist
    (hstep : ∀ s a s', S.step s a = some s' → (out s a ++ held s').Sublist (held s ++ inp s a))
    {s t : σ} {as : List α} (h : S.exec s as = some t) :
    (S.outputs out s as ++ held t).Sublist (held s ++ S.outputs inp s as) := by
  induction as generalizing s with
  | nil =>
    obtain rfl := Option.some.inj h
    rw [outputs_nil, outputs_nil, List.append_nil, List.nil_append]
  | cons a as ih =>
    obtain ⟨s', hs', ht⟩ := Option.bind_eq_some_iff.mp h
    rw [outputs_cons _ _ hs', outputs_cons _ _ hs', List.append_assoc, ← List.append_assoc (held s)]
    have hrest : (out s a ++ (S.outputs out s' as ++ held t)).Sublist
        (out s a ++ held s' ++ S.outputs inp s' as) := by
      rw [List.append_assoc]
      exact (ih ht).append_left _
    exact hrest.trans ((hstep s a s' hs').append_right _)

end

end PulsarClient.Runs.Sys
