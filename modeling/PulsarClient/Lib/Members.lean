/-
  MEMBERS — the parts of a system that are systems of their own.

  A system that runs several others side by side (the consumers of several topics) is made of members,
  each with the run it has come by.  That a member is in a state of its own system is then no invariant
  to prove: it cannot be built otherwise (`Member.run`), and whatever holds of every run of such a system
  holds of the member, whoever its steps were taken by.

  1. `Member` — a name, the run, the state; `act` is one more step.

  2. `Member.outputs` — what the run of a member has taken in or given out.

  3. `actAt` — one of several members takes a step, if it can; the others are what they were.
-/
import PulsarClient.Lib.Pipes

namespace PulsarClient.Runs

variable {ι σ α β : Type} {S : ι → Sys σ α} {start : ι → σ}

/-- A part of a larger system: of the systems `S`, the one called `name`, after a run from its start. -/
structure Member (S : ι → Sys σ α) (start : ι → σ) where
  name : ι
  history : List α
  state : σ
  run : (S name).exec (start name) history = some state

namespace Member

/-- A member that has not moved. -/
def new (name : ι) : Member S start := ⟨name, [], start name, rfl⟩

/-- One step more. -/
def act (m : Member S start) (a : α) : Option (Member S start) :=
  match h : (S m.name).step m.state a with
  | none => none
  | some state =>
    some ⟨m.name, m.history ++ [a], state, by
      rw [Sys.exec_append, m.run]
      exact (Sys.exec_cons m.state a []).trans (by rw [h]; rfl)⟩

/-- The state of a member is one its system comes to. -/
theorem reach (m : Member S start) (h : (S m.name).init (start m.name)) : (S m.name).Reach m.state :=
  Sys.ReachIf.exec m.history (.init h) (Sys.guarded_true _ _) m.run

variable {m m' : Member S start} {a : α}

theorem act_some (h : m.act a = some m') :
    m'.name = m.name ∧ m'.history = m.history ++ [a] ∧
      (S m.name).step m.state a = some m'.state := by
  unfold act at h
  split at h
  · cases h
  · rename_i state hstate
    obtain rfl := Option.some.inj h
    exact ⟨rfl, rfl, hstate⟩

/-- A step that it may not take leaves a member as it is. -/
def tryAct (m : Member S start) (a : α) : Member S start := (m.act a).getD m

theorem tryAct_cases (m : Member S start) (a : α) :
    m.act a = some (m.tryAct a) ∨ m.act a = none ∧ m.tryAct a = m := by
  unfold tryAct
  cases m.act a with
  | none => exact Or.inr ⟨rfl, rfl⟩
  | some m' => exact Or.inl rfl

@[simp] theorem name_tryAct (m : Member S start) (a : α) : (m.tryAct a).name = m.name := by
  rcases m.tryAct_cases a with h | ⟨-, h⟩
  · exact (act_some h).1
  · rw [h]

/-! ## What a run says -/

/-- What `f` says of the steps a member has taken. -/
def outputs (f : ι → σ → α → List β) (m : Member S start) : List β :=
  (S m.name).outputs (f m.name) (start m.name) m.history

/-- One more step says one thing more. -/
theorem outputs_act (f : ι → σ → α → List β) (h : m.act a = some m') :
    m'.outputs f = m.outputs f ++ f m.name m.state a := by
  obtain ⟨hname, hhistory, hstep⟩ := act_some h
  unfold outputs
  rw [hname, hhistory, Sys.outputs_concat _ m.run hstep]

/-- A step that nothing is said of. -/
theorem outputs_tryAct (f : ι → σ → α → List β) (h : f m.name m.state a = []) :
    (m.tryAct a).outputs f = m.outputs f := by
  rcases m.tryAct_cases a with hact | ⟨-, hact⟩
  · rw [outputs_act f hact, h, List.append_nil]
  · rw [hact]

/-! ## Several members -/

/-- The `n`-th member takes a step, if it can. -/
def actAt (ms : List (Member S start)) (n : Nat) (a : α) : List (Member S start) :=
  ms.modify n fun m => m.tryAct a

@[simp] theorem length_actAt (ms : List (Member S start)) (n : Nat) (a : α) :
    (actAt ms n a).length = ms.length := List.length_modify ..

/-- … and the others do not. -/
theorem getElem?_actAt (ms : List (Member S start)) (n : Nat) (a : α) (k : Nat) :
    (actAt ms n a)[k]? = (ms[k]?).map fun m => if n = k then m.tryAct a else m := by
  unfold actAt
  rw [List.getElem?_modify]
  split
  · rfl
  · cases ms[k]? <;> rfl

/-- Whoever is there afterwards was there before, and has the name it had. -/
theorem of_actAt {ms : List (Member S start)} {n k : Nat} (h : (actAt ms n a)[k]? = some m') :
    ∃ m, ms[k]? = some m ∧ m'.name = m.name ∧ m' = if n = k then m.tryAct a else m := by
  rw [getElem?_actAt, Option.map_eq_some_iff] at h
  obtain ⟨m, hm, rfl⟩ := h
  refine ⟨m, hm, ?_, rfl⟩
  split
  · exact name_tryAct m a
  · rfl

/-! ## Entries with the number of a member -/

/-- Entries in the order of their numbers: first those with small ones. -/
theorem filter_append_filter {l : List (Nat × β)} (h : l.Pairwise fun y z => y.1 ≤ z.1) (k : Nat) :
    (l.filter fun y => y.1 < k) ++ (l.filter fun y => k ≤ y.1) = l := by
  induction l with
  | nil => rfl
  | cons y l ih =>
    obtain ⟨hy, hl⟩ := List.pairwise_cons.mp h
    by_cases hk : y.1 < k
    · rw [List.filter_cons_of_pos (by exact decide_eq_true hk),
        List.filter_cons_of_neg (by rw [decide_eq_true_iff]; exact Nat.not_le_of_lt hk),
        List.cons_append, ih hl]
    · have hle : k ≤ y.1 := Nat.le_of_not_lt hk
      rw [List.filter_eq_nil_iff.mpr, List.filter_eq_self.mpr]
      · rfl
      · intro z hz
        rcases List.mem_cons.mp hz with rfl | hz
        · exact decide_eq_true hle
        · exact decide_eq_true (Nat.le_trans hle (hy z hz))
      · intro z hz hlt
        rcases List.mem_cons.mp hz with rfl | hz
        · exact hk (of_decide_eq_true hlt)
        · exact Nat.not_le_of_lt (of_decide_eq_true hlt) (Nat.le_trans hle (hy z hz))

/-- … so they are the entries of one member after another. -/
theorem flatMap_filter_eq {l : List (Nat × β)} {k : Nat} (h : l.Pairwise fun y z => y.1 ≤ z.1)
    (hbelow : ∀ y ∈ l, y.1 < k) :
    (List.range k).flatMap (fun n => l.filter fun y => y.1 = n) = l := by
  induction k generalizing l with
  | zero =>
    cases l with
    | nil => rfl
    | cons y l => exact absurd (hbelow y List.mem_cons_self) (Nat.not_lt_zero _)
  | succ k ih =>
    have hfirst : ∀ n ∈ List.range k, (l.filter fun y => y.1 = n) =
        (l.filter fun y => y.1 < k).filter fun y => y.1 = n := by
      intro n hn
      rw [List.filter_filter]
      refine List.filter_congr fun y _ => ?_
      have hlt := List.mem_range.mp hn
      rw [← Bool.decide_and]
      exact decide_eq_decide.mpr ⟨fun h => ⟨h, h ▸ hlt⟩, And.left⟩
    have hlast : (l.filter fun y => y.1 = k) = l.filter fun y => k ≤ y.1 := by
      refine List.filter_congr fun y hy => ?_
      have hlt := hbelow y hy
      exact decide_eq_decide.mpr (by omega)
    rw [List.range_succ, List.flatMap_append, List.flatMap_singleton, List.flatMap_congr hfirst,
      ih (h.filter _) fun y hy => of_decide_eq_true (List.mem_filter.mp hy).2, hlast,
      filter_append_filter h k]

theorem flatMap_filter {γ : Type} (l : List γ) (p : γ → Bool) (f : γ → List β) :
    (l.filter p).flatMap f = l.flatMap fun x => if p x then f x else [] := by
  induction l with
  | nil => rfl
  | cons x l ih =>
    rw [List.filter_cons, List.flatMap_cons, ← ih]
    split
    · exact List.flatMap_cons ..
    · rfl

theorem flatMap_range {γ : Type} (l : List γ) (f : γ → List β) :
    (List.range l.length).flatMap (fun n => ((l[n]?).map f).getD []) = l.flatMap f := by
  induction l with
  | nil => rfl
  | cons x l ih =>
    rw [List.length_cons, List.range_succ_eq_map, List.flatMap_cons, List.flatMap_map, List.flatMap_cons,
      ← ih]
    rfl

end Member

end PulsarClient.Runs
