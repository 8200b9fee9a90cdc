/-
  COUNTED RECORDS — a known number of self-delimiting records, one after another.

  A container that says how many records it holds is read by parsing that often; what is left over is
  not looked at.

  1. `Reads parse enc m` is all one has to show for one record: in front of anything it is read and cut
     off, and no proper prefix of it is read.

  2. `count_flatMap` — the records come back, in order.  `count_cut` — no proper prefix of them holds
     that many.
-/
import Mathlib.Data.List.Basic

namespace PulsarClient.Records

variable {α β : Type}

/-- `n` records in a row. -/
def count (parse : List β → Option (α × List β)) : Nat → List β → Option (List α)
  | 0, _ => some []
  | n + 1, i => do
    let (m, i) ← parse i
    let ms ← count parse n i
    some (m :: ms)

/-- `parse` reads the record of `m` that `enc` writes, and nothing shorter. -/
structure Reads (parse : List β → Option (α × List β)) (enc : α → List β) (m : α) : Prop where
  whole : ∀ rest, parse (enc m ++ rest) = some (m, rest)
  cut : ∀ p q, enc m = p ++ q → q ≠ [] → parse p = none

section

variable {parse : List β → Option (α × List β)} {enc : α → List β} {ms : List α}

theorem count_cons {n : Nat} {i rest : List β} {m : α} (h : parse i = some (m, rest)) :
    count parse (n + 1) i = (count parse n rest).map (m :: ·) := by
  show (do let (m, i) ← parse i; let ms ← count parse n i; some (m :: ms)) = _
  rw [h]
  show (count parse n rest).bind (fun ms => some (m :: ms)) = _
  cases count parse n rest <;> rfl

theorem count_none {n : Nat} {i : List β} (h : parse i = none) : count parse (n + 1) i = none := by
  show (do let (m, i) ← parse i; let ms ← count parse n i; some (m :: ms)) = _
  rw [h]
  rfl

theorem count_flatMap (h : ∀ m ∈ ms, Reads parse enc m) (rest : List β) :
    count parse ms.length (ms.flatMap enc ++ rest) = some ms := by
  induction ms with
  | nil => rfl
  | cons m ms ih =>
    have hm := (h m List.mem_cons_self).whole (ms.flatMap enc ++ rest)
    have hms := ih fun m' hm' => h m' (List.mem_cons_of_mem m hm')
    rw [List.flatMap_cons, List.append_assoc, List.length_cons, count_cons hm, hms]
    rfl

/-- No proper prefix of the records holds as many.  By induction on the records: the cut is in a later
    record, or in the first, or right behind it. -/
theorem count_cut (h : ∀ m ∈ ms, Reads parse enc m) {p q : List β} (hcut : ms.flatMap enc = p ++ q)
    (hq : q ≠ []) : count parse ms.length p = none := by
  induction ms generalizing p with
  | nil => exact absurd (List.append_eq_nil_iff.mp hcut.symm).2 hq
  | cons m ms ih =>
    have hm := h m List.mem_cons_self
    have ih' := @ih fun m' hm' => h m' (List.mem_cons_of_mem m hm')
    rw [List.flatMap_cons] at hcut
    rw [List.length_cons]
    rcases List.append_eq_append_iff.mp hcut with ⟨p', rfl, hrest⟩ | ⟨q', hfirst, hrest⟩
    · rw [count_cons (hm.whole p'), ih' hrest]
      rfl
    · by_cases hq' : q' = []
      · -- the first record is there whole, and nothing of the others
        have hwhole := hm.whole []
        rw [List.append_nil, hfirst, hq', List.append_nil] at hwhole
        have hempty : ms.flatMap enc = [] ++ q := by rw [hrest, hq']; rfl
        rw [count_cons hwhole, ih' hempty]
        rfl
      · exact count_none (hm.cut p q' hfirst hq')

end

end PulsarClient.Records
