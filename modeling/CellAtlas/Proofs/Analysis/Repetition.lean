import CellAtlas.Proofs.Analysis.Registration
import CellAtlas.Proofs.Except
import Mathlib.Data.List.Dedup

/-!
# Dependencies listed twice

Every entry of a list of dependencies is counted, and the placing of a stage is taken off once
(`remaining_eq_zero_iff_count`). So a stage that lists a registered dependency twice waits for ever,
and with it the stages that depend on it:

    b depends on [a, a]      waits for 2, and the placing of a leaves 1

The stages that do not get placed are those from which a cycle can be reached or such a repetition
(`mem_missing_iff`). The main statement `order_once` compares a registry with the one that lists
every dependency once: they agree exactly if whoever repeats a dependency is behind a cycle anyway.
-/

namespace CellAtlas

open Relation

variable {σ : Type}

/-! ### Every dependency once -/

/-- The stage with every dependency listed once. -/
def Stage.once (s : Stage σ) : Stage σ := { s with dependencies := s.dependencies.dedup }

@[simp] theorem Stage.once_id (s : Stage σ) : s.once.id = s.id := rfl

@[simp] theorem Stage.mem_once_dependencies {s : Stage σ} {d : String} :
    d ∈ s.once.dependencies ↔ d ∈ s.dependencies := List.mem_dedup

@[simp] theorem map_id_map_once (stages : List (Stage σ)) :
    (stages.map Stage.once).map (·.id) = stages.map (·.id) := by
  simp [Function.comp_def]

def Registry.once (r : Registry σ) : Registry σ where
  stages := r.stages.map Stage.once
  ids_nodup := by
    rw [map_id_map_once]
    exact r.ids_nodup

/-! ### Counts -/

section Counts

variable {s : Stage σ} {registered placed : List String}

/-- Among the registered dependencies none is repeated exactly if each is counted at most once. -/
theorem nodup_filter_iff_count :
    (s.dependencies.filter (registered.contains ·)).Nodup ↔
      ∀ d ∈ registered, s.dependencies.count d ≤ 1 := by
  rw [List.nodup_iff_count_le_one]
  constructor
  · intro h d hd
    have hcount := h d
    rwa [List.count_filter (by simpa using hd)] at hcount
  · intro h d
    by_cases hd : d ∈ registered
    · rw [List.count_filter (by simpa using hd)]
      exact h d hd
    · rw [List.count_eq_zero_of_not_mem (by simp [hd])]
      exact Nat.zero_le 1

/-- A stage waits for nothing exactly if it lists no registered dependency twice and all of them
have been placed. -/
theorem remaining_eq_zero_iff_count (hnodup : placed.Nodup) (hsubset : placed ⊆ registered) :
    s.remaining registered placed = 0 ↔
      (∀ d ∈ registered, s.dependencies.count d ≤ 1) ∧
        ∀ d ∈ s.dependencies, d ∈ registered → d ∈ placed := by
  have hsubperm := placed_subperm s hnodup hsubset
  constructor
  · intro h
    -- the placed dependencies are as many as the listed ones, so that they are those, each once
    have hperm := hsubperm.perm_of_length_le (by
      rw [Stage.remaining] at h
      omega)
    refine ⟨nodup_filter_iff_count.mp (hperm.nodup_iff.mp (hnodup.filter _)), ?_⟩
    intro d hd hregistered
    exact mem_of_remaining_eq_zero hnodup hsubset h hd hregistered
  · rintro ⟨hcount, hplaced⟩
    have hsub : s.dependencies.filter (registered.contains ·)
        ⊆ placed.filter (s.dependencies.contains ·) := by
      intro d hd
      simp only [List.mem_filter, List.contains_iff_mem] at hd ⊢
      exact ⟨hplaced d hd.1 hd.2, hd.1⟩
    have hle := ((nodup_filter_iff_count.mpr hcount).subperm hsub).length_le
    have hge := hsubperm.length_le
    rw [Stage.remaining]
    omega

/-- Without repetitions it makes no difference to list every dependency once. -/
theorem remaining_once (hcount : ∀ d ∈ registered, s.dependencies.count d ≤ 1)
    (placed : List String) :
    s.once.remaining registered placed = s.remaining registered placed := by
  have hentries : (s.once.dependencies.filter (registered.contains ·)).Perm
      (s.dependencies.filter (registered.contains ·)) := by
    apply (List.perm_ext_iff_of_nodup ((List.nodup_dedup _).filter _)
      (nodup_filter_iff_count.mpr hcount)).mpr
    simp
  rw [Stage.remaining, Stage.remaining, hentries.length_eq]
  simp

end Counts

/-! ### What cannot be placed -/

namespace Registry

variable (r : Registry σ)

/-- The stage with the id `a` lists a registered dependency more than once. -/
def Repeats (a : String) : Prop :=
  ∃ s ∈ r.stages, s.id = a ∧ ∃ d ∈ r.ids, 1 < s.dependencies.count d

/-- Following dependencies from the stage with the id `a` can come to a stage that repeats one. -/
def ReachesRepetition (a : String) : Prop :=
  ∃ b, ReflTransGen r.DependsOn a b ∧ r.Repeats b

variable {r} {a b : String}

/-- A stage that gets placed repeats no dependency, and they all get placed. -/
theorem of_mem_placed {s : Stage σ} (hs : s ∈ r.placed) :
    (∀ d ∈ r.ids, s.dependencies.count d ≤ 1) ∧
      ∀ d ∈ s.dependencies, d ∈ r.ids → d ∈ r.placed.map (·.id) := by
  obtain ⟨before, after, hplaced⟩ := List.append_of_mem hs
  have hsublist : (before.map (·.id)).Sublist (r.placed.map (·.id)) := by
    rw [hplaced]
    exact (List.sublist_append_left before (s :: after)).map _
  have hnext : IsNext r.stages (before.map (·.id)) s := (hplaced ▸ r.placed_takesNext).isNext
  obtain ⟨hcount, hdeps⟩ := (remaining_eq_zero_iff_count (r.placed_nodup.sublist hsublist)
    (List.Subset.trans hsublist.subset r.placed_ids_subset)).mp hnext.remaining
  exact ⟨hcount, fun d hd hregistered => hsublist.subset (hdeps d hd hregistered)⟩

/-- Of a stage that does not get placed one can say why. -/
theorem exists_of_mem_missing (ha : a ∈ r.missing) :
    r.Repeats a ∨ ∃ b ∈ r.missing, r.DependsOn a b := by
  obtain ⟨hid, hplaced⟩ := r.mem_missing.mp ha
  obtain ⟨s, hs, rfl⟩ := List.mem_map.mp hid
  have hwaits : s.remaining r.ids (r.placed.map (·.id)) ≠ 0 :=
    r.placed_takesNext.remaining_ne_zero hs hplaced
  rw [ne_eq, remaining_eq_zero_iff_count r.placed_nodup r.placed_ids_subset] at hwaits
  -- without repetitions it is a dependency that keeps the stage from being placed
  by_cases hcount : ∀ d ∈ r.ids, s.dependencies.count d ≤ 1
  · right
    have hdeps := not_and.mp hwaits hcount
    push Not at hdeps
    obtain ⟨d, hd, hregistered, hnot⟩ := hdeps
    exact ⟨d, r.mem_missing.mpr ⟨hregistered, hnot⟩, s, hs, rfl, hd, hregistered⟩
  · left
    push Not at hcount
    exact ⟨s, hs, rfl, hcount⟩

/-- A registered stage is placed or missing. -/
theorem mem_placed_of_not_mem_missing {s : Stage σ} (hs : s ∈ r.stages) (h : s.id ∉ r.missing) :
    s ∈ r.placed := by
  have hplaced : s.id ∈ r.placed.map (·.id) := by
    by_contra hnot
    exact h (r.mem_missing.mpr ⟨List.mem_map_of_mem hs, hnot⟩)
  obtain ⟨t, ht, hid⟩ := List.mem_map.mp hplaced
  obtain rfl := List.inj_on_of_nodup_map r.ids_nodup (r.placed_subset ht) hs hid
  exact ht

theorem Repeats.mem_missing (h : r.Repeats a) : a ∈ r.missing := by
  obtain ⟨s, hs, rfl, d, hd, hcount⟩ := h
  by_contra hnot
  have hle := (of_mem_placed (mem_placed_of_not_mem_missing hs hnot)).1 d hd
  omega

/-- Whoever waits for a missing stage is missing too. -/
theorem DependsOn.mem_missing (h : r.DependsOn a b) (hb : b ∈ r.missing) : a ∈ r.missing := by
  obtain ⟨s, hs, rfl, hd, hregistered⟩ := h
  by_contra hnot
  have hplaced := (of_mem_placed (mem_placed_of_not_mem_missing hs hnot)).2 b hd hregistered
  exact (r.mem_missing.mp hb).2 hplaced

/-- The stages that do not get placed and reach no repetition wait for one another. -/
theorem reachesCycle_of_mem_missing (ha : a ∈ r.missing) (hnone : ¬ r.ReachesRepetition a) :
    r.ReachesCycle a := by
  classical
  -- these stages wait for one another: each depends on a missing one, which reaches none either
  let stuck := r.missing.filter fun a => ¬ r.ReachesRepetition a
  have hmem : ∀ a, a ∈ stuck ↔ a ∈ r.missing ∧ ¬ r.ReachesRepetition a := by simp [stuck]
  have hclosed : ∀ a ∈ stuck, ∃ b ∈ stuck, r.DependsOn a b := by
    intro a ha
    obtain ⟨ha, hnone⟩ := (hmem a).mp ha
    rcases exists_of_mem_missing ha with hrepeats | ⟨b, hb, hab⟩
    · exact absurd ⟨a, .refl, hrepeats⟩ hnone
    · refine ⟨b, (hmem b).mpr ⟨hb, ?_⟩, hab⟩
      rintro ⟨c, hbc, hc⟩
      exact hnone ⟨c, hbc.head hab, hc⟩
  exact reachesCycle_of_closed hclosed ((hmem a).mpr ⟨ha, hnone⟩)

/-- The stages that do not get placed are those from which a cycle or a repetition can be
reached. -/
theorem mem_missing_iff : a ∈ r.missing ↔ r.ReachesCycle a ∨ r.ReachesRepetition a := by
  constructor
  · intro ha
    by_cases hrepetition : r.ReachesRepetition a
    · exact .inr hrepetition
    · exact .inl (reachesCycle_of_mem_missing ha hrepetition)
  · rintro (hcycle | ⟨b, hab, hb⟩)
    · exact hcycle.mem_missing
    · induction hab using ReflTransGen.head_induction_on with
      | refl => exact hb.mem_missing
      | head hac _ ih => exact hac.mem_missing ih

end Registry

/-! ### Two registries -/

/-- Where no stage repeats a registered dependency, listing them once does not change which is
next. -/
theorem IsNext.once {stages : List (Stage σ)} {placed : List String} {s : Stage σ}
    (hcount : ∀ s ∈ stages, ∀ d ∈ stages.map (·.id), s.dependencies.count d ≤ 1)
    (h : IsNext stages placed s) : IsNext (stages.map Stage.once) placed s.once where
  mem := List.mem_map_of_mem h.mem
  not_placed := h.not_placed
  remaining := by
    rw [map_id_map_once, remaining_once (hcount s h.mem)]
    exact h.remaining
  least := by
    intro _ hmem hplaced hremaining
    obtain ⟨t, ht, rfl⟩ := List.mem_map.mp hmem
    rw [map_id_map_once, remaining_once (hcount t ht)] at hremaining
    exact h.least t ht hplaced hremaining

/-- Without repetitions the same stages are next. -/
theorem TakesNext.once {stages : List (Stage σ)} {placed : List String} {l : List (Stage σ)}
    (hcount : ∀ s ∈ stages, ∀ d ∈ stages.map (·.id), s.dependencies.count d ≤ 1)
    (h : TakesNext stages placed l) :
    TakesNext (stages.map Stage.once) placed (l.map Stage.once) := by
  induction l generalizing placed with
  | nil =>
      intro _ hmem hplaced
      obtain ⟨s, hs, rfl⟩ := List.mem_map.mp hmem
      rw [map_id_map_once, remaining_once (hcount s hs)]
      exact h s hs hplaced
  | cons s l ih => exact ⟨h.1.once hcount, ih h.2⟩

namespace Registry

variable {r r' : Registry σ}

theorem once_ids (r : Registry σ) : r.once.ids = r.ids := map_id_map_once r.stages

/-- Listing a dependency once or twice makes the same graph. -/
theorem dependsOn_once (r : Registry σ) : r.once.DependsOn = r.DependsOn := by
  funext a b
  rw [eq_iff_iff, DependsOn, DependsOn, once_ids]
  simp [once]

/-- Cycles are about which stages depend on which, not about how often they say so. -/
theorem reachesCycle_once {a : String} : r.once.ReachesCycle a ↔ r.ReachesCycle a := by
  rw [ReachesCycle, ReachesCycle, dependsOn_once]

/-- Where every dependency is listed once, only cycles keep stages from being placed. -/
theorem mem_missing_once {a : String} : a ∈ r.once.missing ↔ r.ReachesCycle a := by
  rw [← reachesCycle_once]
  apply mem_missing_iff_reachesCycle
  intro s hs
  obtain ⟨t, -, rfl⟩ := List.mem_map.mp hs
  exact List.nodup_dedup _

/-- Registries with the same ids list what is missing in the same order. -/
theorem missing_congr (hids : r.ids = r'.ids) (h : ∀ a, a ∈ r.missing ↔ a ∈ r'.missing) :
    r.missing = r'.missing := by
  rw [missing, missing, hids]
  apply List.filter_congr
  intro a ha
  have hiff := h a
  rw [r.mem_missing, r'.mem_missing, hids, and_iff_right ha, and_iff_right ha] at hiff
  rw [Bool.eq_iff_iff]
  simpa using hiff

/-- If all stages get placed, they are placed in the same order when dependencies are listed
once. -/
theorem order_once_of_missing_eq_nil (h : r.missing = []) :
    r.once.order = .ok (r.placed.map Stage.once) := by
  apply r.once.order_eq_ok_of_takesNext
  · apply r.placed_takesNext.once
    intro s hs d hd
    exact (of_mem_placed ((r.placed_perm h).mem_iff.mpr hs)).1 d hd
  · simp [count, once, (r.placed_perm h).length_eq]

/-- Cycles are all that keeps stages from being placed, if whoever repeats a dependency is behind
one. -/
theorem missing_once (h : ∀ a, r.Repeats a → r.ReachesCycle a) : r.once.missing = r.missing := by
  apply missing_congr r.once_ids
  intro a
  rw [mem_missing_once, mem_missing_iff, iff_self_or]
  rintro ⟨b, hab, hb⟩
  obtain ⟨c, hbc, hc⟩ := h b hb
  exact ⟨c, hab.trans hbc, hc⟩

/-- All stages get placed exactly if there is neither a cycle nor a repetition. -/
theorem missing_eq_nil_iff : r.missing = [] ↔ r.Acyclic ∧ ∀ a, ¬ r.Repeats a := by
  rw [List.eq_nil_iff_forall_not_mem]
  constructor
  · intro h
    refine ⟨fun a ha => h a ?_, fun a ha => h a ha.mem_missing⟩
    exact ReachesCycle.mem_missing ⟨a, .refl, ha⟩
  · rintro ⟨hacyclic, hrepeats⟩ a ha
    rcases mem_missing_iff.mp ha with hcycle | ⟨b, -, hb⟩
    · exact hacyclic.not_reachesCycle a hcycle
    · exact hrepeats b hb

/-- The orders agree, or the failures do, exactly if whoever repeats a dependency is behind a
cycle. -/
theorem order_once_eq_iff :
    r.once.order = r.order.map (List.map Stage.once) ↔ ∀ a, r.Repeats a → r.ReachesCycle a := by
  by_cases hnil : r.missing = []
  · have hnone := (missing_eq_nil_iff.mp hnil).2
    rw [order_once_of_missing_eq_nil hnil, r.order_eq_ok hnil]
    exact iff_of_true rfl fun a ha => absurd ha (hnone a)
  · rw [r.order_eq_error hnil]
    -- no order; both fail with the same ids exactly if the same stages are missing
    constructor
    · intro h a ha
      by_cases honce : r.once.missing = []
      · rw [r.once.order_eq_ok honce] at h
        cases h
      · rw [r.once.order_eq_error honce] at h
        have hsort : sortIds r.once.missing = sortIds r.missing := by
          injection h with h
          injection h
        rw [← mem_missing_once, ← mem_sortIds, hsort, mem_sortIds]
        exact ha.mem_missing
    · intro h
      have hmissing := missing_once h
      rw [← hmissing] at hnil ⊢
      exact r.once.order_eq_error hnil

end Registry

/-- Stages are ordered exactly if no dependencies are cyclic and no registered one is repeated, and
the order is then that of the stages that list every dependency once. Otherwise the failure names
the stages from which a cycle or a repetition can be reached. So repetitions are harmless exactly if
whoever repeats a dependency is behind a cycle anyway. -/
theorem order_once (r : Registry σ) :
    (r.Acyclic ∧ (∀ a, ¬ r.Repeats a) → ∃ ordered, r.order = .ok ordered ∧
      r.once.order = .ok (ordered.map Stage.once)) ∧
    (¬ (r.Acyclic ∧ ∀ a, ¬ r.Repeats a) → ∃ ids, r.order = .error (.circular ids) ∧
      ∀ id, id ∈ ids ↔ r.ReachesCycle id ∨ r.ReachesRepetition id) ∧
    (r.once.order = r.order.map (List.map Stage.once) ↔
      ∀ a, r.Repeats a → r.ReachesCycle a) := by
  rw [← Registry.missing_eq_nil_iff]
  refine ⟨fun h => ?_, fun h => ?_, Registry.order_once_eq_iff⟩
  · exact ⟨r.placed, r.order_eq_ok h, Registry.order_once_of_missing_eq_nil h⟩
  · refine ⟨sortIds r.missing, r.order_eq_error h, fun id => ?_⟩
    rw [mem_sortIds, Registry.mem_missing_iff]

def doubled : Registry Unit where
  stages := [
    { id := "load", action := .idle },
    { id := "show", dependencies := ["load", "load"], action := .idle }]
  ids_nodup := by decide

theorem doubled_acyclic : doubled.Acyclic := by
  apply Registry.acyclic_of_rank fun id => if id = "load" then 0 else 1
  rintro a b ⟨s, hs, rfl, hb, -⟩
  rcases List.mem_pair.mp hs with rfl | rfl
  · exact absurd hb List.not_mem_nil
  · obtain rfl : b = "load" := by simpa using hb
    decide

/-- Without a cycle a failure is reported, and it goes away when every dependency is listed once. -/
theorem order_once_doubled :
    doubled.Acyclic ∧ (∃ ids, doubled.order = .error (.circular ids) ∧ "show" ∈ ids) ∧
      doubled.once.order ≠ doubled.order.map (List.map Stage.once) := by
  have hrepeats : doubled.Repeats "show" :=
    ⟨_, List.mem_cons_of_mem _ List.mem_cons_self, rfl, "load", by decide, by decide⟩
  obtain ⟨-, hfails, hagrees⟩ := order_once doubled
  obtain ⟨ids, hids, hmem⟩ := hfails fun h => h.2 "show" hrepeats
  refine ⟨doubled_acyclic, ⟨ids, hids, (hmem "show").mpr (.inr ⟨_, .refl, hrepeats⟩)⟩, ?_⟩
  intro heq
  exact doubled_acyclic.not_reachesCycle "show" (hagrees.mp heq "show" hrepeats)

end CellAtlas
