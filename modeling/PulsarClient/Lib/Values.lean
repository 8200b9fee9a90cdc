/-
  THE VALUES OF A MAP, as a list up to its order.

  A sum over the values of a map follows its updates: `values_insert` puts the new value in the place of
  whatever the key had, and `values_of_some` says what that was.
-/
import Mathlib.Data.List.Perm.Basic
import Mathlib.Data.List.Nodup

namespace PulsarClient.Values

variable {α β : Type} {cmp : α → α → Ordering} [Std.TransCmp cmp] [Std.LawfulEqCmp cmp]

def values (m : Std.TreeMap α β cmp) : List β := m.toList.map Prod.snd

theorem nodup_toList (m : Std.TreeMap α β cmp) : m.toList.Nodup := by
  refine Std.TreeMap.distinct_keys_toList.imp ?_
  intro a b hab heq
  exact hab (heq ▸ Std.ReflCmp.compare_self)

theorem mem_values {m : Std.TreeMap α β cmp} {v : β} :
    v ∈ values m ↔ ∃ k : α, m[k]? = some v := by
  unfold values
  rw [List.mem_map]
  constructor
  · rintro ⟨⟨k, v⟩, hmem, rfl⟩
    exact ⟨k, Std.TreeMap.mem_toList_iff_getElem?_eq_some.mp hmem⟩
  · rintro ⟨k, hk⟩
    exact ⟨(k, v), Std.TreeMap.mem_toList_iff_getElem?_eq_some.mpr hk, rfl⟩

/-- Maps that look up the same have the same values. -/
theorem values_perm {m m' : Std.TreeMap α β cmp} (h : ∀ k : α, m[k]? = m'[k]?) :
    (values m).Perm (values m') := by
  refine List.Perm.map _ ?_
  rw [List.perm_ext_iff_of_nodup (nodup_toList m) (nodup_toList m')]
  rintro ⟨k, v⟩
  rw [Std.TreeMap.mem_toList_iff_getElem?_eq_some, Std.TreeMap.mem_toList_iff_getElem?_eq_some, h]

/-- A new entry stands beside what its key leaves. -/
theorem toList_insert_perm (m : Std.TreeMap α β cmp) (k : α) (v : β) :
    (m.insert k v).toList.Perm ((k, v) :: (m.erase k).toList) := by
  have hnot : (k, v) ∉ (m.erase k).toList := by
    rw [Std.TreeMap.mem_toList_iff_getElem?_eq_some, Std.TreeMap.getElem?_erase_self]
    exact nofun
  rw [List.perm_ext_iff_of_nodup (nodup_toList _) (List.nodup_cons.mpr ⟨hnot, nodup_toList _⟩)]
  rintro ⟨k', v'⟩
  rw [List.mem_cons, Std.TreeMap.mem_toList_iff_getElem?_eq_some,
    Std.TreeMap.mem_toList_iff_getElem?_eq_some, Std.TreeMap.getElem?_insert,
    Std.TreeMap.getElem?_erase, Prod.mk.injEq]
  by_cases hk : cmp k k' = .eq
  · rw [if_pos hk, if_pos hk]
    obtain rfl := Std.LawfulEqCmp.eq_of_compare hk
    simp [eq_comm]
  · rw [if_neg hk, if_neg hk]
    refine ⟨Or.inr, fun h => h.resolve_left fun hsame => hk ?_⟩
    rw [hsame.1]
    exact Std.ReflCmp.compare_self

/-- **Writing** puts a value in the place of what the key had. -/
theorem values_insert (m : Std.TreeMap α β cmp) (k : α) (v : β) :
    (values (m.insert k v)).Perm (v :: values (m.erase k)) :=
  (toList_insert_perm m k v).map Prod.snd

/-- **Erasing** takes away the key's value, -/
theorem values_of_some {m : Std.TreeMap α β cmp} {k : α} {v : β} (h : m[k]? = some v) :
    (values m).Perm (v :: values (m.erase k)) := by
  refine (values_perm fun k' => ?_).trans (values_insert m k v)
  rw [Std.TreeMap.getElem?_insert]
  split
  next heq => rw [← Std.LawfulEqCmp.eq_of_compare heq, h]
  next => rfl

/-- if it has one. -/
theorem values_of_none {m : Std.TreeMap α β cmp} {k : α} (h : m[k]? = none) :
    (values m).Perm (values (m.erase k)) := by
  refine values_perm fun k' => ?_
  rw [Std.TreeMap.getElem?_erase]
  split
  next heq => rw [← Std.LawfulEqCmp.eq_of_compare heq, h]
  next => rfl

end PulsarClient.Values
