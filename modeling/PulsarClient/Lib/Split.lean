/-
  CUTTING A LIST AT A SEPARATOR.

  1. `cut_inj` — a list has one cut at a separator that its front does not contain.  (And
     `isPrefixOf?_eq_some_iff`: what is left behind a prefix.)

  2. `splitOnce` — at the first occurrence of a pattern; where the front has nothing of the pattern's
     first element, that occurrence is the one written behind it.

  3. `splitOn_eq_iff` — splitting everywhere is the one way to write a list as parts without the
     separator.
-/
import Mathlib.Data.List.TakeWhile

namespace PulsarClient.Split

variable {α : Type} [DecidableEq α]

/-! ## A prefix -/

theorem isPrefixOf?_eq_some_iff {pre s rest : List α} :
    pre.isPrefixOf? s = some rest ↔ s = pre ++ rest := by
  induction pre generalizing s with
  | nil =>
    show some s = some rest ↔ s = rest
    exact Option.some_inj
  | cons c pre ih =>
    cases s with
    | nil => exact ⟨nofun, nofun⟩
    | cons d s =>
      show (if c == d then pre.isPrefixOf? s else none) = some rest ↔ _
      split
      next hcd =>
        rw [ih, List.cons_append, eq_of_beq hcd, List.cons.injEq]
        exact ⟨fun h => ⟨rfl, h⟩, fun h => h.2⟩
      next hcd =>
        refine ⟨nofun, fun h => ?_⟩
        rw [(List.cons.inj h).1] at hcd
        exact absurd BEq.rfl hcd

/-! ## One cut -/

/-- What a cut at `sep` goes over. -/
theorem ne_of_not_mem {sep : α} {s : List α} (hs : sep ∉ s) : ∀ c ∈ s, (c != sep) = true := by
  intro c hc
  rw [bne_iff_ne]
  rintro rfl
  exact hs hc

theorem takeWhile_cut {sep : α} {front : List α} (hfront : sep ∉ front) (back : List α) :
    (front ++ sep :: back).takeWhile (fun c => c != sep) = front := by
  rw [List.takeWhile_append_of_pos (ne_of_not_mem hfront), List.takeWhile_cons_of_neg,
    List.append_nil]
  simp

theorem dropWhile_cut {sep : α} {front : List α} (hfront : sep ∉ front) (back : List α) :
    (front ++ sep :: back).dropWhile (fun c => c != sep) = sep :: back := by
  rw [List.dropWhile_append_of_pos (ne_of_not_mem hfront), List.dropWhile_cons_of_neg]
  simp

theorem dropWhile_eq_nil {sep : α} {s : List α} (hs : sep ∉ s) :
    s.dropWhile (fun c => c != sep) = [] :=
  List.dropWhile_eq_nil_iff.mpr (ne_of_not_mem hs)

/-- **The cut is unique.** -/
theorem cut_inj {sep : α} {front back front' back' : List α} (hfront : sep ∉ front)
    (hfront' : sep ∉ front') (h : front ++ sep :: back = front' ++ sep :: back') :
    front = front' ∧ back = back' := by
  have htake := congrArg (List.takeWhile fun c => c != sep) h
  have hdrop := congrArg (List.dropWhile fun c => c != sep) h
  rw [takeWhile_cut hfront, takeWhile_cut hfront'] at htake
  rw [dropWhile_cut hfront, dropWhile_cut hfront'] at hdrop
  exact ⟨htake, (List.cons.inj hdrop).2⟩

/-! ## Around a pattern -/

/-- Around the FIRST occurrence of the pattern. -/
def splitOnce (pattern : List α) : List α → Option (List α × List α)
  | [] => if pattern.isEmpty then some ([], []) else none
  | c :: s =>
    if pattern.isPrefixOf (c :: s) then some ([], (c :: s).drop pattern.length)
    else (splitOnce pattern s).map fun parts => (c :: parts.1, parts.2)

theorem append_of_splitOnce {pattern s front back : List α}
    (h : splitOnce pattern s = some (front, back)) : s = front ++ (pattern ++ back) := by
  induction s generalizing front with
  | nil =>
    unfold splitOnce at h
    split at h
    next hempty =>
      cases h
      rw [List.isEmpty_iff.mp hempty]
      rfl
    next => cases h
  | cons c s ih =>
    unfold splitOnce at h
    split at h
    next hprefix =>
      obtain ⟨rest, hrest⟩ := List.isPrefixOf_iff_prefix.mp hprefix
      cases h
      rw [← hrest, List.drop_left]
      rfl
    next =>
      obtain ⟨parts, hparts, hcons⟩ := Option.map_eq_some_iff.mp h
      cases hcons
      rw [ih hparts]
      rfl

/-- No occurrence begins in a front that has nothing of the pattern's first element. -/
theorem splitOnce_append {p : α} {pattern front : List α} (hfront : p ∉ front) (back : List α) :
    splitOnce (p :: pattern) (front ++ (p :: pattern ++ back)) = some (front, back) := by
  induction front with
  | nil =>
    have hprefix : (p :: pattern).isPrefixOf (p :: (pattern ++ back)) = true :=
      List.isPrefixOf_iff_prefix.mpr (List.prefix_append (p :: pattern) back)
    show splitOnce (p :: pattern) (p :: (pattern ++ back)) = _
    unfold splitOnce
    rw [if_pos hprefix]
    show some ([], (p :: pattern ++ back).drop (p :: pattern).length) = _
    rw [List.drop_left]
  | cons c front ih =>
    have hprefix : ¬ (p :: pattern).isPrefixOf (c :: (front ++ (p :: pattern ++ back))) = true := by
      intro h
      obtain ⟨rest, hrest⟩ := List.isPrefixOf_iff_prefix.mp h
      have hhead : p = c := (List.cons.inj hrest).1
      exact hfront (hhead ▸ List.mem_cons_self)
    rw [List.cons_append, splitOnce, if_neg hprefix,
      ih fun hmem => hfront (List.mem_cons_of_mem c hmem)]
    rfl

/-! ## Everywhere -/

theorem not_mem_of_mem_splitOn {sep : α} {s part : List α} (h : part ∈ s.splitOn sep) :
    sep ∉ part := by
  induction s generalizing part with
  | nil =>
    rw [List.splitOn_nil, List.mem_singleton] at h
    rw [h]
    exact List.not_mem_nil
  | cons c s ih =>
    rw [List.splitOn_cons_eq_if_modifyHead] at h
    split at h
    next =>
      rcases List.mem_cons.mp h with rfl | h
      · exact List.not_mem_nil
      · exact ih h
    next hc =>
      cases hparts : s.splitOn sep with
      | nil => exact absurd hparts (List.splitOn_ne_nil sep s)
      | cons first parts =>
        rw [hparts] at h ih
        rcases List.mem_cons.mp h with rfl | h
        · intro hmem
          rcases List.mem_cons.mp hmem with rfl | hmem
          · exact hc BEq.rfl
          · exact ih List.mem_cons_self hmem
        · exact ih (List.mem_cons_of_mem first h)

/-- **The parts are the only ones.** -/
theorem splitOn_eq_iff {sep : α} {s : List α} {parts : List (List α)} :
    s.splitOn sep = parts ↔
      parts ≠ [] ∧ s = [sep].intercalate parts ∧ ∀ part ∈ parts, sep ∉ part := by
  constructor
  · rintro rfl
    exact ⟨List.splitOn_ne_nil sep s, (List.intercalate_splitOn sep).symm,
      fun part hpart => not_mem_of_mem_splitOn hpart⟩
  · rintro ⟨hne, rfl, hparts⟩
    exact List.splitOn_intercalate sep hparts hne

end PulsarClient.Split
