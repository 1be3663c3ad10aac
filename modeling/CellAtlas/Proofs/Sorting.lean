import Mathlib.Data.List.Basic

/-!
# Stable sorting

A list is sorted stably by a key if its entries come by ascending keys and those of one key in the
order that they had before. There is only one such order (`StableSort.unique`), the merge sort of
the library finds it (`stableSort_mergeSort`), and lists one of which has no larger keys than the
other can be sorted apart (`StableSort.append`).
-/

namespace CellAtlas

variable {α : Type} {key : α → Int} {l l' s s' : List α}

/-- `s` has the entries of `l` by ascending keys, and those of any one key in the order of `l`. -/
structure StableSort (key : α → Int) (l s : List α) : Prop where
  perm : s.Perm l
  sorted : s.Pairwise (key · ≤ key ·)
  stable : ∀ k, s.filter (key · = k) = l.filter (key · = k)

/-- No entry has a smaller key than the first one of a sorted list. -/
theorem key_le_of_mem_cons {a b : α} (h : (a :: s).Pairwise (key · ≤ key ·)) (hb : b ∈ a :: s) :
    key a ≤ key b := by
  rcases List.mem_cons.mp hb with rfl | hb
  · exact Int.le_refl _
  · exact List.rel_of_pairwise_cons h hb

/-- Lists with the same entries of each key have the same entries. -/
theorem mem_iff_of_filter_eq (h : ∀ k, s.filter (key · = k) = s'.filter (key · = k)) {a : α} :
    a ∈ s ↔ a ∈ s' := by
  have hiff : a ∈ s.filter (key · = key a) ↔ a ∈ s'.filter (key · = key a) := by rw [h]
  simpa using hiff

/-- A sorted list is determined by the entries of each key. -/
theorem eq_of_sorted_of_filter_eq (hs : s.Pairwise (key · ≤ key ·))
    (hs' : s'.Pairwise (key · ≤ key ·))
    (h : ∀ k, s.filter (key · = k) = s'.filter (key · = k)) : s = s' := by
  induction s generalizing s' with
  | nil =>
      cases s' with
      | nil => rfl
      | cons b s' => exact absurd ((mem_iff_of_filter_eq h).mpr List.mem_cons_self) List.not_mem_nil
  | cons a s ih =>
      cases s' with
      | nil => exact absurd ((mem_iff_of_filter_eq h).mp List.mem_cons_self) List.not_mem_nil
      | cons b s' =>
          -- both first entries have the least key, so that they are the first ones of that key
          have hkey : key a = key b := Int.le_antisymm
            (key_le_of_mem_cons hs ((mem_iff_of_filter_eq h).mpr List.mem_cons_self))
            (key_le_of_mem_cons hs' ((mem_iff_of_filter_eq h).mp List.mem_cons_self))
          have hfirst := h (key a)
          simp only [List.filter_cons, hkey, decide_true, if_true, List.cons.injEq] at hfirst
          obtain rfl := hfirst.1
          have hrest : ∀ k, s.filter (key · = k) = s'.filter (key · = k) := by
            intro k
            have hk := h k
            by_cases ha : key a = k <;> simpa [ha] using hk
          rw [ih hs.of_cons hs'.of_cons hrest]

namespace StableSort

/-- There is one stable order of a list. -/
theorem unique (h : StableSort key l s) (h' : StableSort key l s') : s = s' :=
  eq_of_sorted_of_filter_eq h.sorted h'.sorted fun k => (h.stable k).trans (h'.stable k).symm

theorem nil : StableSort key [] [] := ⟨.refl [], .nil, fun _ => rfl⟩

theorem singleton (a : α) : StableSort key [a] [a] :=
  ⟨.refl [a], List.pairwise_singleton _ a, fun _ => rfl⟩

/-- Two lists are sorted together if they are sorted apart and no key of the first is larger. -/
theorem append (h : StableSort key l s) (h' : StableSort key l' s')
    (hle : ∀ a ∈ l, ∀ b ∈ l', key a ≤ key b) : StableSort key (l ++ l') (s ++ s') where
  perm := h.perm.append h'.perm
  sorted := by
    apply List.pairwise_append.mpr
    refine ⟨h.sorted, h'.sorted, ?_⟩
    intro a ha b hb
    exact hle a (h.perm.mem_iff.mp ha) b (h'.perm.mem_iff.mp hb)
  stable := by
    intro k
    rw [List.filter_append, List.filter_append, h.stable, h'.stable]

end StableSort

/-- Sorting by merging is stable. -/
theorem stableSort_mergeSort (key : α → Int) (l : List α) :
    StableSort key l (l.mergeSort fun a b => key a ≤ key b) := by
  have htrans : ∀ a b c, decide (key a ≤ key b) = true → decide (key b ≤ key c) = true →
      decide (key a ≤ key c) = true := by
    intro a b c hab hbc
    rw [decide_eq_true_eq] at *
    exact Int.le_trans hab hbc
  have htotal : ∀ a b, (decide (key a ≤ key b) || decide (key b ≤ key a)) = true := by
    intro a b
    simpa using Int.le_total (key a) (key b)
  refine ⟨List.mergeSort_perm .., ?_, ?_⟩
  · exact (List.pairwise_mergeSort htrans htotal l).imp of_decide_eq_true
  · intro k
    symm
    -- the entries of one key are sorted already, so they keep their order
    have hsub : (l.filter (key · = k)).Sublist (l.mergeSort fun a b => key a ≤ key b) := by
      apply List.sublist_mergeSort htrans htotal _ List.filter_sublist
      apply List.pairwise_of_forall_mem_list
      intro a ha b hb
      simp only [List.mem_filter, decide_eq_true_eq] at ha hb ⊢
      omega
    have hfilter := hsub.filter (key · = k)
    rw [List.filter_filter] at hfilter
    simp only [Bool.and_self] at hfilter
    exact hfilter.eq_of_length ((List.mergeSort_perm l _).filter _).length_eq.symm

end CellAtlas
