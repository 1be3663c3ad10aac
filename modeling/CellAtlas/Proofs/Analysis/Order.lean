import CellAtlas.Analysis.Order
import CellAtlas.Proofs.Analysis.Dependency
import Mathlib.Data.List.Perm.Subperm
import Mathlib.Data.String.Basic

/-!
# Ordering stages is right

`place` counts, for every stage, the dependencies it waits for. `Placing` is the invariant that ties
these counts to the stages that have been placed: the count of a stage is the number of its entries
for registered stages less the number of placed stages that it depends on (`Stage.remaining`), and
the queue holds, in ascending order of ids, the stages not yet placed whose count is zero. One
placing preserves it (`Placing.step`), so that each takes the next stage (`Placing.takesNext`), and
there is only one list of stages that does so (`TakesNext.unique`).

For stages that list no dependency twice a count is zero exactly if all registered dependencies have
been placed (`remaining_eq_zero_iff`). Hence the main statement `order_of_dependencies_nodup`:
stages without a cycle are ordered, each behind its dependencies, and otherwise the error names the
stages from which a cycle can be reached.
-/

namespace CellAtlas

variable {σ : Type}

/-! ### Counts -/

/-- How many dependencies a stage waits for, where the stages with the ids in `registered` exist and
those with the ids in `placed` have been placed. -/
def Stage.remaining (s : Stage σ) (registered placed : List String) : Int :=
  (s.dependencies.filter (registered.contains ·)).length
    - (placed.filter (s.dependencies.contains ·)).length

/-- What all stages wait for once some of them have been placed. -/
def waitingAfter (stages : List (Stage σ)) (placed : List String) : List (Waiting σ) :=
  stages.map fun s => { stage := s, count := s.remaining (stages.map (·.id)) placed }

/-- One dependency less to wait for once it is placed. -/
theorem remaining_concat_of_mem {s : Stage σ} {id : String} (registered placed : List String)
    (h : id ∈ s.dependencies) :
    s.remaining registered (placed ++ [id]) = s.remaining registered placed - 1 := by
  simp only [Stage.remaining, List.filter_append, List.filter_cons, List.filter_nil,
    List.contains_iff_mem, h, if_true, List.length_append, List.length_singleton]
  omega

theorem remaining_concat_of_not_mem {s : Stage σ} {id : String} (registered placed : List String)
    (h : id ∉ s.dependencies) :
    s.remaining registered (placed ++ [id]) = s.remaining registered placed := by
  simp [Stage.remaining, h]

/-- Placing a stage lowers the counts to those that the longer list of placed stages gives. -/
theorem lowerAll_waitingAfter (stages : List (Stage σ)) (placed : List String) (id : String) :
    Waiting.lowerAll (waitingAfter stages placed) id = waitingAfter stages (placed ++ [id]) := by
  rw [Waiting.lowerAll, waitingAfter, waitingAfter, List.map_map]
  apply List.map_congr_left
  intro s _
  by_cases h : id ∈ s.dependencies
  · simp [Waiting.lower, h, remaining_concat_of_mem]
  · simp [Waiting.lower, h, remaining_concat_of_not_mem]

/-- The freed stages, said of the stages themselves. -/
theorem freed_waitingAfter (stages : List (Stage σ)) (placed : List String) (id : String) :
    Waiting.freed (waitingAfter stages placed) id = stages.filter fun s =>
      s.dependencies.contains id && s.remaining (stages.map (·.id)) (placed ++ [id]) == 0 := by
  rw [Waiting.freed, waitingAfter, List.filter_map, List.map_map]
  refine (List.map_id _).trans (List.filter_congr ?_)
  intro s _
  by_cases h : id ∈ s.dependencies
  · simp [Waiting.freedBy, Waiting.lower, h, remaining_concat_of_mem]
  · simp [Waiting.freedBy, h]

/-- What is counted off has been counted. -/
theorem placed_subperm (s : Stage σ) {registered placed : List String} (hnodup : placed.Nodup)
    (hsubset : placed ⊆ registered) :
    (placed.filter (s.dependencies.contains ·)).Subperm
      (s.dependencies.filter (registered.contains ·)) := by
  apply (hnodup.filter _).subperm
  intro d hd
  simp only [List.mem_filter, List.contains_iff_mem] at hd ⊢
  exact ⟨hd.2, hsubset hd.1⟩

/-- A stage never waits for less than nothing: what is placed of its dependencies is registered. -/
theorem remaining_nonneg (s : Stage σ) {registered placed : List String} (hnodup : placed.Nodup)
    (hsubset : placed ⊆ registered) : 0 ≤ s.remaining registered placed := by
  have := (placed_subperm s hnodup hsubset).length_le
  rw [Stage.remaining]
  omega

/-- A stage that waits for nothing has all its registered dependencies placed. -/
theorem mem_of_remaining_eq_zero {s : Stage σ} {registered placed : List String}
    (hnodup : placed.Nodup) (hsubset : placed ⊆ registered)
    (h : s.remaining registered placed = 0) {d : String} (hd : d ∈ s.dependencies)
    (hregistered : d ∈ registered) : d ∈ placed := by
  have hperm := (placed_subperm s hnodup hsubset).perm_of_length_le (by
    rw [Stage.remaining] at h
    omega)
  have hmem : d ∈ s.dependencies.filter (registered.contains ·) := by
    simp [hd, hregistered]
  exact List.mem_of_mem_filter (hperm.mem_iff.mpr hmem)

/-- Where no dependency is listed twice, a stage waits for nothing exactly if all its registered
dependencies have been placed. -/
theorem remaining_eq_zero_iff {s : Stage σ} (hdeps : s.dependencies.Nodup)
    {registered placed : List String} (hnodup : placed.Nodup) (hsubset : placed ⊆ registered) :
    s.remaining registered placed = 0
      ↔ ∀ d ∈ s.dependencies, d ∈ registered → d ∈ placed := by
  constructor
  · intro h d hd hregistered
    exact mem_of_remaining_eq_zero hnodup hsubset h hd hregistered
  · intro h
    -- the other half: placed dependencies are at least as many as registered ones, so none is left
    have hsub : s.dependencies.filter (registered.contains ·)
        ⊆ placed.filter (s.dependencies.contains ·) := by
      intro d hd
      simp only [List.mem_filter, List.contains_iff_mem] at hd ⊢
      exact ⟨h d hd.1 hd.2, hd.1⟩
    have hle := ((hdeps.filter _).subperm hsub).length_le
    have h0 := remaining_nonneg s hnodup hsubset
    rw [Stage.remaining] at h0 ⊢
    omega

/-! ### Sorting -/

theorem mem_sortById {stages : List (Stage σ)} {s : Stage σ} : s ∈ sortById stages ↔ s ∈ stages :=
  List.mem_mergeSort

theorem pairwise_sortById (stages : List (Stage σ)) :
    (sortById stages).Pairwise fun a b => ¬ b.id < a.id := by
  -- the comparison is a total preorder, as merging needs it
  have hsorted : (sortById stages).Pairwise fun a b => (!decide (b.id < a.id)) = true := by
    apply List.pairwise_mergeSort
    · intro a b c hab hbc
      simp only [Bool.not_eq_true', decide_eq_false_iff_not, not_lt] at hab hbc ⊢
      exact hab.trans hbc
    · intro a b
      simp only [Bool.or_eq_true, Bool.not_eq_true', decide_eq_false_iff_not, not_lt]
      exact le_total a.id b.id
  refine hsorted.imp ?_
  intro a b hab
  simpa using hab

/-! ### Placing -/

/-- What holds of the queue when the stages with the ids in `placed` have been placed. -/
structure Placing (stages : List (Stage σ)) (placed : List String) (queue : List (Stage σ)) :
    Prop where
  placed_nodup : placed.Nodup
  placed_subset : placed ⊆ stages.map (·.id)
  remaining_placed : ∀ s ∈ stages, s.id ∈ placed → s.remaining (stages.map (·.id)) placed = 0
  mem_queue : ∀ s, s ∈ queue ↔
    s ∈ stages ∧ s.id ∉ placed ∧ s.remaining (stages.map (·.id)) placed = 0
  queue_nodup : queue.Nodup
  queue_sorted : queue.Pairwise fun a b => ¬ b.id < a.id

/-- The stage with the least id among those that wait for nothing and have not been placed. -/
structure IsNext (stages : List (Stage σ)) (placed : List String) (s : Stage σ) : Prop where
  mem : s ∈ stages
  not_placed : s.id ∉ placed
  remaining : s.remaining (stages.map (·.id)) placed = 0
  least : ∀ t ∈ stages, t.id ∉ placed → t.remaining (stages.map (·.id)) placed = 0 → ¬ t.id < s.id

/-- A list that takes the next stage as long as there is one, after the stages with the ids in
`placed`. -/
def TakesNext (stages : List (Stage σ)) (placed : List String) : List (Stage σ) → Prop
  | [] => ∀ s ∈ stages, s.id ∉ placed → s.remaining (stages.map (·.id)) placed ≠ 0
  | s :: rest => IsNext stages placed s ∧ TakesNext stages (placed ++ [s.id]) rest

/-- Two stages with least ids have one id, and so are one stage. -/
theorem IsNext.unique {stages : List (Stage σ)} (hids : (stages.map (·.id)).Nodup)
    {placed : List String} {s t : Stage σ} (hs : IsNext stages placed s)
    (ht : IsNext stages placed t) : s = t := by
  have hst : s.id = t.id := le_antisymm
    (not_lt.mp (hs.least t ht.mem ht.not_placed ht.remaining))
    (not_lt.mp (ht.least s hs.mem hs.not_placed hs.remaining))
  exact List.inj_on_of_nodup_map hids hs.mem ht.mem hst

theorem IsNext.placed_concat_nodup {stages : List (Stage σ)} {placed : List String} {s : Stage σ}
    (h : IsNext stages placed s) (hplaced : placed.Nodup) : (placed ++ [s.id]).Nodup := by
  rw [← List.concat_eq_append]
  exact hplaced.concat h.not_placed

namespace TakesNext

variable {stages : List (Stage σ)} {placed : List String} {l : List (Stage σ)}

/-- Every stage of such a list was next when the stages before it had been placed. -/
theorem isNext {before after : List (Stage σ)} {s : Stage σ}
    (h : TakesNext stages placed (before ++ s :: after)) :
    IsNext stages (placed ++ before.map (·.id)) s := by
  induction before generalizing placed with
  | nil => simpa using h.1
  | cons t before ih => simpa using ih h.2

theorem subset (h : TakesNext stages placed l) : l ⊆ stages := by
  intro s hs
  obtain ⟨before, after, rfl⟩ := List.append_of_mem hs
  exact h.isNext.mem

/-- No stage is placed twice, since the next one is always new. -/
theorem nodup (h : TakesNext stages placed l) (hplaced : placed.Nodup) :
    (placed ++ l.map (·.id)).Nodup := by
  induction l generalizing placed with
  | nil => simpa using hplaced
  | cons s rest ih =>
      have hrest := ih h.2 (h.1.placed_concat_nodup hplaced)
      simpa using hrest

/-- In the end every stage that has not been placed waits for something. -/
theorem remaining_ne_zero (h : TakesNext stages placed l) {s : Stage σ} (hs : s ∈ stages)
    (hplaced : s.id ∉ placed ++ l.map (·.id)) :
    s.remaining (stages.map (·.id)) (placed ++ l.map (·.id)) ≠ 0 := by
  induction l generalizing placed with
  | nil =>
      rw [List.map_nil, List.append_nil] at hplaced ⊢
      exact h s hs hplaced
  | cons t rest ih =>
      have hsplit : placed ++ (t :: rest).map (·.id) = placed ++ [t.id] ++ rest.map (·.id) := by
        simp
      rw [hsplit] at hplaced ⊢
      exact ih h.2 hplaced

/-- By induction on the list: there is one next stage at every point, or there is none. -/
theorem unique (hids : (stages.map (·.id)).Nodup) (h : TakesNext stages placed l)
    {l' : List (Stage σ)} (h' : TakesNext stages placed l') : l = l' := by
  induction l generalizing placed l' with
  | nil =>
      cases l' with
      | nil => rfl
      | cons t rest => exact absurd h'.1.remaining (h t h'.1.mem h'.1.not_placed)
  | cons s rest ih =>
      cases l' with
      | nil => exact absurd h.1.remaining (h' s h.1.mem h.1.not_placed)
      | cons t rest' =>
          obtain rfl := h.1.unique hids h'.1
          rw [ih h.2 h'.2]

end TakesNext

namespace Placing

variable {stages : List (Stage σ)} {placed : List String} {queue : List (Stage σ)} {s : Stage σ}

/-- Before anything is placed, the stages that wait for nothing are in the queue. -/
theorem start (hids : (stages.map (·.id)).Nodup) :
    Placing stages []
      (sortById (((waitingAfter stages []).filter (·.count == 0)).map (·.stage))) := by
  have hmap : ((waitingAfter stages []).filter (·.count == 0)).map (·.stage)
      = stages.filter fun s => s.remaining (stages.map (·.id)) [] == 0 := by
    rw [waitingAfter, List.filter_map, List.map_map]
    exact List.map_id _
  rw [hmap]
  refine ⟨.nil, List.nil_subset _, fun _ _ h => absurd h List.not_mem_nil, ?_, ?_,
    pairwise_sortById _⟩
  · intro s
    simp [mem_sortById]
  · exact (List.mergeSort_perm _ _).nodup_iff.mpr (hids.of_map.filter _)

/-- The queue is sorted and holds all that wait for nothing, so that its head is the next stage. -/
theorem head_isNext (h : Placing stages placed (s :: queue)) : IsNext stages placed s := by
  obtain ⟨hmem, hplaced, hzero⟩ := (h.mem_queue s).mp List.mem_cons_self
  refine ⟨hmem, hplaced, hzero, ?_⟩
  intro t ht htplaced htzero
  rcases List.mem_cons.mp ((h.mem_queue t).mpr ⟨ht, htplaced, htzero⟩) with rfl | htqueue
  · exact lt_irrefl t.id
  · exact List.rel_of_pairwise_cons h.queue_sorted htqueue

theorem placed_concat_nodup (h : Placing stages placed (s :: queue)) :
    (placed ++ [s.id]).Nodup := h.head_isNext.placed_concat_nodup h.placed_nodup

theorem placed_concat_subset (h : Placing stages placed (s :: queue)) :
    placed ++ [s.id] ⊆ stages.map (·.id) := by
  intro a ha
  rcases List.mem_append.mp ha with ha | ha
  · exact h.placed_subset ha
  · rw [List.mem_singleton.mp ha]
    exact List.mem_map_of_mem h.head_isNext.mem

/-- A stage that waits for nothing keeps waiting for nothing. -/
theorem remaining_concat (h : Placing stages placed (s :: queue)) {t : Stage σ}
    (ht : t.remaining (stages.map (·.id)) placed = 0) :
    t.remaining (stages.map (·.id)) (placed ++ [s.id]) = 0 := by
  have h0 := remaining_nonneg t h.placed_concat_nodup h.placed_concat_subset
  by_cases hdep : s.id ∈ t.dependencies
  · have := remaining_concat_of_mem (stages.map (·.id)) placed hdep
    omega
  · rw [remaining_concat_of_not_mem _ _ hdep, ht]

/-- The queue after one placing has the stages that wait for nothing then. -/
theorem mem_queue_concat (hids : (stages.map (·.id)).Nodup) (h : Placing stages placed (s :: queue))
    (t : Stage σ) :
    t ∈ queue ∨ t ∈ Waiting.freed (waitingAfter stages placed) s.id ↔
      t ∈ stages ∧ t.id ∉ placed ++ [s.id] ∧
        t.remaining (stages.map (·.id)) (placed ++ [s.id]) = 0 := by
  have hs := h.head_isNext
  have hself : t ∈ stages → t.id = s.id → t = s :=
    fun ht heq => List.inj_on_of_nodup_map hids ht hs.mem heq
  rw [freed_waitingAfter]
  simp only [List.mem_filter, List.contains_iff_mem, Bool.and_eq_true, beq_iff_eq,
    List.mem_append, List.mem_singleton, not_or]
  constructor
  · rintro (ht | ⟨ht, hdep, hzero⟩)
    · obtain ⟨hmem, hplaced, hzero⟩ := (h.mem_queue t).mp (List.mem_cons_of_mem s ht)
      refine ⟨hmem, ⟨hplaced, ?_⟩, h.remaining_concat hzero⟩
      intro heq
      exact (List.nodup_cons.mp h.queue_nodup).1 (hself hmem heq ▸ ht)
    -- a freed stage has waited for something, so it is neither placed nor the one just placed
    · have hone := remaining_concat_of_mem (stages.map (·.id)) placed hdep
      refine ⟨ht, ⟨?_, ?_⟩, hzero⟩
      · intro hplaced
        have := h.remaining_placed t ht hplaced
        omega
      · intro heq
        have := hs.remaining
        rw [hself ht heq] at hone hzero
        omega
  · rintro ⟨hmem, ⟨hplaced, hne⟩, hzero⟩
    -- it waits for nothing now: either the placing has freed it or it was in the queue already
    by_cases hdep : s.id ∈ t.dependencies
    · exact .inr ⟨hmem, hdep, hzero⟩
    · rw [remaining_concat_of_not_mem _ _ hdep] at hzero
      rcases List.mem_cons.mp ((h.mem_queue t).mpr ⟨hmem, hplaced, hzero⟩) with rfl | ht
      · exact absurd rfl hne
      · exact .inl ht

/-- One placing preserves the invariant. -/
theorem step (hids : (stages.map (·.id)).Nodup) (h : Placing stages placed (s :: queue)) :
    Placing stages (placed ++ [s.id])
      (sortById (queue ++ Waiting.freed (waitingAfter stages placed) s.id)) where
  placed_nodup := h.placed_concat_nodup
  placed_subset := h.placed_concat_subset
  remaining_placed := by
    intro t ht htplaced
    rcases List.mem_append.mp htplaced with hold | hnew
    · exact h.remaining_concat (h.remaining_placed t ht hold)
    -- ids are unique, so this is the stage that has just been placed
    · have heq : t = s :=
        List.inj_on_of_nodup_map hids ht h.head_isNext.mem (List.mem_singleton.mp hnew)
      exact h.remaining_concat (heq ▸ h.head_isNext.remaining)
  mem_queue := by
    intro t
    rw [mem_sortById, List.mem_append]
    exact h.mem_queue_concat hids t
  queue_nodup := by
    rw [sortById, (List.mergeSort_perm _ _).nodup_iff, List.nodup_append]
    refine ⟨(List.nodup_cons.mp h.queue_nodup).2, ?_, ?_⟩
    · rw [freed_waitingAfter]
      exact hids.of_map.filter _
    -- what was in the queue waited for nothing before, and what is freed waited for one thing
    · intro t ht u hu heq
      obtain ⟨-, -, hzero⟩ := (h.mem_queue t).mp (List.mem_cons_of_mem s ht)
      rw [freed_waitingAfter, List.mem_filter] at hu
      obtain ⟨hdep, hfreed⟩ := Bool.and_eq_true_iff.mp hu.2
      have hone := remaining_concat_of_mem (stages.map (·.id)) placed
        (List.contains_iff_mem.mp hdep)
      have := beq_iff_eq.mp hfreed
      rw [← heq] at hone this
      omega
  queue_sorted := pairwise_sortById _

/-- Placing always takes the next stage. -/
theorem takesNext (hids : (stages.map (·.id)).Nodup) (h : Placing stages placed queue) :
    TakesNext stages placed (place queue (waitingAfter stages placed)) := by
  generalize hwaiting : waitingAfter stages placed = waiting
  -- along the queue; `step` carries the invariant over each placing
  fun_induction place queue waiting generalizing placed with
  | case1 waiting =>
      intro s hs hplaced hzero
      exact absurd ((h.mem_queue s).mpr ⟨hs, hplaced, hzero⟩) List.not_mem_nil
  | case2 s queue waiting ih =>
      subst hwaiting
      exact ⟨h.head_isNext, ih (h.step hids) (lowerAll_waitingAfter stages placed s.id).symm⟩

end Placing

/-! ### The order of a registry -/

namespace Registry

variable (r : Registry σ)

/-- At the start the counts are those of no stage placed. -/
theorem waiting_eq_waitingAfter :
    r.stages.map (·.waiting r.ids) = waitingAfter r.stages [] := by
  apply List.map_congr_left
  intro s _
  simp [Stage.waiting, Stage.remaining, ids]

/-- What the queue places takes the next stage at every point. -/
theorem placed_takesNext : TakesNext r.stages [] r.placed := by
  rw [placed, waiting_eq_waitingAfter]
  exact (Placing.start r.ids_nodup).takesNext r.ids_nodup

theorem placed_nodup : (r.placed.map (·.id)).Nodup := r.placed_takesNext.nodup .nil

theorem placed_subset : r.placed ⊆ r.stages := r.placed_takesNext.subset

theorem placed_ids_subset : r.placed.map (·.id) ⊆ r.ids := List.map_subset _ r.placed_subset

theorem placed_subperm : r.placed.Subperm r.stages :=
  r.placed_nodup.of_map.subperm r.placed_subset

theorem mem_missing {id : String} : id ∈ r.missing ↔ id ∈ r.ids ∧ id ∉ r.placed.map (·.id) := by
  simp [missing]

/-- All stages get placed exactly if none is missing. -/
theorem length_placed_eq_iff : r.placed.length = r.count ↔ r.missing = [] := by
  constructor
  · intro h
    have hperm := r.placed_subperm.perm_of_length_le (Nat.le_of_eq h.symm)
    rw [List.eq_nil_iff_forall_not_mem]
    intro id hid
    obtain ⟨hid, hplaced⟩ := r.mem_missing.mp hid
    exact hplaced ((hperm.map _).mem_iff.mpr hid)
  · intro h
    -- no id is missing, so that there are as many placed stages as there are ids
    have hsub : r.ids ⊆ r.placed.map (·.id) := by
      intro id hid
      by_contra hplaced
      exact absurd (r.mem_missing.mpr ⟨hid, hplaced⟩) (h ▸ List.not_mem_nil)
    have hge := (r.ids_nodup.subperm hsub).length_le
    have hle := r.placed_subperm.length_le
    rw [List.length_map, List.length_map] at hge
    exact Nat.le_antisymm hle hge

theorem order_eq_ok (h : r.missing = []) : r.order = .ok r.placed := by
  rw [order, if_pos (r.length_placed_eq_iff.mpr h)]

/-- A list of all stages that always takes the next one is the order. -/
theorem order_eq_ok_of_takesNext {stages : List (Stage σ)} (h : TakesNext r.stages [] stages)
    (hlength : stages.length = r.count) : r.order = .ok stages := by
  have hplaced : r.placed = stages := r.placed_takesNext.unique r.ids_nodup h
  rw [order, hplaced, if_pos hlength]

theorem order_eq_error (h : r.missing ≠ []) :
    r.order = .error (.circular (sortIds r.missing)) := by
  rw [order, if_neg (mt r.length_placed_eq_iff.mp h)]

/-- If no stage is missing then all of them are placed, in some order. -/
theorem placed_perm (h : r.missing = []) : r.placed.Perm r.stages :=
  r.placed_subperm.perm_of_length_le (Nat.le_of_eq (r.length_placed_eq_iff.mpr h).symm)

/-- An order has every stage exactly once. -/
theorem perm_of_order_eq_ok {ordered : List (Stage σ)} (h : r.order = .ok ordered) :
    ordered.Perm r.stages := by
  by_cases hmissing : r.missing = []
  · rw [r.order_eq_ok hmissing] at h
    injection h with h
    exact h ▸ r.placed_perm hmissing
  · rw [r.order_eq_error hmissing] at h
    cases h

variable {r}

/-- Every stage is placed behind all its registered dependencies. -/
theorem mem_before_of_mem_dependencies {before after : List (Stage σ)} {s : Stage σ}
    (h : r.placed = before ++ s :: after) {d : String} (hd : d ∈ s.dependencies)
    (hregistered : d ∈ r.ids) : d ∈ before.map (·.id) := by
  have hsublist : (before.map (·.id)).Sublist (r.placed.map (·.id)) := by
    rw [h]
    exact (List.sublist_append_left before (s :: after)).map _
  have hnext : IsNext r.stages (before.map (·.id)) s := (h ▸ r.placed_takesNext).isNext
  exact mem_of_remaining_eq_zero (r.placed_nodup.sublist hsublist)
    (List.Subset.trans hsublist.subset r.placed_ids_subset) hnext.remaining hd hregistered

/-- A stage from which a cycle can be reached does not get placed. -/
theorem ReachesCycle.mem_missing {a : String} (h : r.ReachesCycle a) : a ∈ r.missing := by
  refine r.mem_missing.mpr ⟨h.mem_ids, fun ha => ?_⟩
  refine not_reachesCycle_of_ordered ?_ a ha h
  rintro before a after heq b ⟨s, hs, rfl, hb, hregistered⟩
  obtain ⟨first, rest, hplaced, rfl, hrest⟩ := List.map_eq_append_iff.mp heq
  obtain ⟨t, last, rfl, hid, -⟩ := List.map_eq_cons_iff.mp hrest
  have hmem : t ∈ r.stages :=
    r.placed_subset (hplaced ▸ List.mem_append_right first List.mem_cons_self)
  obtain rfl : t = s := List.inj_on_of_nodup_map r.ids_nodup hmem hs hid
  exact mem_before_of_mem_dependencies hplaced hb hregistered

/-- Where no dependency is listed twice, a stage that does not get placed depends on one that
does not either. -/
theorem exists_missing_of_mem_missing (hdeps : ∀ s ∈ r.stages, s.dependencies.Nodup) {a : String}
    (ha : a ∈ r.missing) : ∃ b ∈ r.missing, r.DependsOn a b := by
  obtain ⟨hid, hplaced⟩ := r.mem_missing.mp ha
  obtain ⟨s, hs, rfl⟩ := List.mem_map.mp hid
  have hwaits : s.remaining r.ids (r.placed.map (·.id)) ≠ 0 :=
    r.placed_takesNext.remaining_ne_zero hs hplaced
  rw [ne_eq, remaining_eq_zero_iff (hdeps s hs) r.placed_nodup r.placed_ids_subset] at hwaits
  push Not at hwaits
  obtain ⟨d, hd, hregistered, hnot⟩ := hwaits
  exact ⟨d, r.mem_missing.mpr ⟨hregistered, hnot⟩, s, hs, rfl, hd, hregistered⟩

/-- What is left over is what waits for a cycle. -/
theorem mem_missing_iff_reachesCycle (hdeps : ∀ s ∈ r.stages, s.dependencies.Nodup) {a : String} :
    a ∈ r.missing ↔ r.ReachesCycle a :=
  ⟨reachesCycle_of_closed fun _ hb => exists_missing_of_mem_missing hdeps hb,
    ReachesCycle.mem_missing⟩

end Registry

theorem mem_sortIds {ids : List String} {id : String} : id ∈ sortIds ids ↔ id ∈ ids :=
  List.mem_mergeSort

/-- Stages that list no dependency twice are ordered, each behind its registered dependencies, if
their dependencies have no cycle; otherwise the error names the stages from which a cycle can be
reached. -/
theorem order_of_dependencies_nodup (r : Registry σ)
    (hdeps : ∀ s ∈ r.stages, s.dependencies.Nodup) :
    (r.Acyclic → ∃ ordered, r.order = .ok ordered ∧ ordered.Perm r.stages ∧
      ∀ before s after, ordered = before ++ s :: after →
        ∀ d ∈ s.dependencies, d ∈ r.ids → d ∈ before.map (·.id)) ∧
    (¬ r.Acyclic → ∃ ids, r.order = .error (.circular ids) ∧
      (RegistryError.circular ids).message
        = "Circular dependency detected among: " ++ ", ".intercalate ids ∧
      ids.Nodup ∧ ∀ id, id ∈ ids ↔ id ∈ r.ids ∧ r.ReachesCycle id) := by
  constructor
  · intro hacyclic
    -- without cycles nothing is left over
    have hmissing : r.missing = [] := by
      rw [List.eq_nil_iff_forall_not_mem]
      intro a ha
      exact hacyclic.not_reachesCycle a ((Registry.mem_missing_iff_reachesCycle hdeps).mp ha)
    refine ⟨r.placed, r.order_eq_ok hmissing, r.placed_perm hmissing, ?_⟩
    intro before s after heq d hd hregistered
    exact Registry.mem_before_of_mem_dependencies heq hd hregistered
  · intro hcyclic
    obtain ⟨a, ha⟩ := Registry.exists_reachesCycle hcyclic
    have hmissing : r.missing ≠ [] := List.ne_nil_of_mem ha.mem_missing
    refine ⟨sortIds r.missing, r.order_eq_error hmissing, rfl, ?_, ?_⟩
    · exact (List.mergeSort_perm _ _).nodup_iff.mpr (r.ids_nodup.filter _)
    · intro id
      rw [mem_sortIds, Registry.mem_missing_iff_reachesCycle hdeps]
      exact ⟨fun h => ⟨h.mem_ids, h⟩, fun h => h.2⟩

/-- Two stages that wait for each other, one that waits for them, and one that waits for nobody. -/
def tangled : Registry Unit where
  stages := [
    { id := "parse", dependencies := ["check"], action := .idle },
    { id := "check", dependencies := ["parse", "absent"], action := .idle },
    { id := "print", dependencies := ["load", "check"], action := .idle },
    { id := "load", action := .idle }]
  ids_nodup := by decide

theorem tangled_not_acyclic : ¬ tangled.Acyclic := by
  have hparse : tangled.DependsOn "parse" "check" :=
    ⟨_, List.mem_cons_self, rfl, by decide, by decide⟩
  have hcheck : tangled.DependsOn "check" "parse" :=
    ⟨_, List.mem_cons_of_mem _ List.mem_cons_self, rfl, by decide, by decide⟩
  intro h
  exact h "parse" (.tail (.single hparse) hcheck)

/-- The hypothesis can be met where there is a cycle. -/
theorem order_tangled :
    (∀ s ∈ tangled.stages, s.dependencies.Nodup) ∧
      ∃ ids, tangled.order = .error (.circular ids) ∧
        ∀ id, id ∈ ids ↔ id ∈ tangled.ids ∧ tangled.ReachesCycle id := by
  have hdeps : ∀ s ∈ tangled.stages, s.dependencies.Nodup := by decide
  obtain ⟨ids, hids, -, -, hmem⟩ :=
    (order_of_dependencies_nodup tangled hdeps).2 tangled_not_acyclic
  exact ⟨hdeps, ids, hids, hmem⟩

end CellAtlas
