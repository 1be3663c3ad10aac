import CellAtlas.Proofs.Analysis.Order

/-!
# The order of stages and the order of their registration

Stages are registered one call after the other, and a call with an id that is taken is rejected. The
order in which they run is the least one: of the stages that can run next it always takes the one
with the least id (`isNext_iff`), so that any other order in which they could run has a larger id
where the two first differ (`Topological.lex`). Nothing of this depends on when a stage was
registered (`TakesNext.of_perm`). The main statement is `order_least`.
-/

namespace CellAtlas

variable {σ : Type}

namespace Registry

/-! ### Calls -/

/-- A registry after a call, which may be rejected. -/
def tryRegister (r : Registry σ) (s : Stage σ) : Registry σ :=
  match r.register s with
  | .ok r => r
  | .error _ => r

def ofCalls (calls : List (Stage σ)) : Registry σ := calls.foldl tryRegister empty

section Calls

variable {r : Registry σ} {s : Stage σ}

/-- An id that is taken is rejected. -/
theorem register_of_mem (h : s.id ∈ r.ids) : r.register s = .error (.duplicateId s.id) := by
  rw [register, dif_pos h]

/-- A rejected call changes nothing. -/
theorem tryRegister_of_mem (h : s.id ∈ r.ids) : r.tryRegister s = r := by
  rw [tryRegister, register_of_mem h]

/-- After a call the id of its stage is there, whether the call has been rejected or not. -/
theorem mem_ids_tryRegister {id : String} :
    id ∈ (r.tryRegister s).ids ↔ id ∈ r.ids ∨ id = s.id := by
  by_cases h : s.id ∈ r.ids
  · rw [tryRegister_of_mem h]
    constructor
    · exact .inl
    · rintro (hid | rfl)
      · exact hid
      · exact h
  · rw [tryRegister, register, dif_neg h]
    simp [ids]

/-- The ids of a registry are those of all calls, of the rejected ones too. -/
theorem mem_ids_ofCalls {calls : List (Stage σ)} {id : String} :
    id ∈ (ofCalls calls).ids ↔ id ∈ calls.map (·.id) := by
  induction calls using List.reverseRecOn with
  | nil => exact Iff.rfl
  | append_singleton calls s ih =>
      rw [ofCalls, List.foldl_append]
      show id ∈ ((ofCalls calls).tryRegister s).ids ↔ _
      rw [mem_ids_tryRegister, ih, List.map_append, List.mem_append]
      simp

/-- A call with an id of an earlier one may be left out. -/
theorem ofCalls_of_duplicate {before after : List (Stage σ)} (h : s.id ∈ before.map (·.id)) :
    ofCalls (before ++ s :: after) = ofCalls (before ++ after) := by
  have hmem : s.id ∈ (ofCalls before).ids := mem_ids_ofCalls.mpr h
  rw [ofCalls, ofCalls, List.foldl_append, List.foldl_append, List.foldl_cons]
  show after.foldl tryRegister ((ofCalls before).tryRegister s) = _
  rw [tryRegister_of_mem hmem]
  rfl

end Calls

/-! ### Orders in which stages can run -/

variable (r : Registry σ)

/-- A stage that can run next when the stages with the ids in `placed` have run. -/
structure Ready (placed : List String) (s : Stage σ) : Prop where
  mem : s ∈ r.stages
  not_placed : s.id ∉ placed
  dependencies : ∀ d ∈ s.dependencies, d ∈ r.ids → d ∈ placed

/-- All stages in an order in which they can run. -/
structure Topological (stages : List (Stage σ)) : Prop where
  perm : stages.Perm r.stages
  ready : ∀ before s after, stages = before ++ s :: after → r.Ready (before.map (·.id)) s

/-- At every position stands the stage with the least id among those that can run next. -/
def TakesLeast (stages : List (Stage σ)) : Prop :=
  ∀ before s after, stages = before ++ s :: after →
    r.Ready (before.map (·.id)) s ∧ ∀ t, r.Ready (before.map (·.id)) t → ¬ t.id < s.id

variable {r}

/-- Where no dependency is listed twice, the next stage is the least one that can run. -/
theorem isNext_iff (hdeps : ∀ s ∈ r.stages, s.dependencies.Nodup) {placed : List String}
    (hnodup : placed.Nodup) (hsubset : placed ⊆ r.ids) {s : Stage σ} :
    IsNext r.stages placed s ↔ r.Ready placed s ∧ ∀ t, r.Ready placed t → ¬ t.id < s.id := by
  -- for stages that are registered, to wait for nothing is to have all dependencies placed
  have hzero : ∀ t ∈ r.stages, t.remaining r.ids placed = 0 ↔
      ∀ d ∈ t.dependencies, d ∈ r.ids → d ∈ placed :=
    fun t ht => remaining_eq_zero_iff (hdeps t ht) hnodup hsubset
  constructor
  · intro h
    refine ⟨⟨h.mem, h.not_placed, (hzero s h.mem).mp h.remaining⟩, ?_⟩
    intro t ht
    exact h.least t ht.mem ht.not_placed ((hzero t ht.mem).mpr ht.dependencies)
  · rintro ⟨h, hleast⟩
    refine ⟨h.mem, h.not_placed, (hzero s h.mem).mpr h.dependencies, ?_⟩
    intro t ht hplaced hremaining
    exact hleast t ⟨ht, hplaced, (hzero t ht).mp hremaining⟩

/-- The queue places the least stage that can run, at every position. -/
theorem takesLeast_placed (hdeps : ∀ s ∈ r.stages, s.dependencies.Nodup) :
    r.TakesLeast r.placed := by
  intro before s after h
  have hsublist : (before.map (·.id)).Sublist (r.placed.map (·.id)) := by
    rw [h]
    exact (List.sublist_append_left before (s :: after)).map _
  apply (isNext_iff hdeps (r.placed_nodup.sublist hsublist)
    (List.Subset.trans hsublist.subset r.placed_ids_subset)).mp
  exact (h ▸ r.placed_takesNext).isNext

/-- Behind a common front the order of the least stages has the smaller id where it differs first
from another one. -/
theorem TakesLeast.lex_append (front : List (Stage σ)) {stages other : List (Stage σ)}
    (h : r.TakesLeast (front ++ stages)) (h' : r.Topological (front ++ other))
    (hlength : stages.length = other.length) :
    other = stages ∨ List.Lex (fun s t => s.id < t.id) stages other := by
  induction stages generalizing front other with
  | nil => exact .inl (List.length_eq_zero_iff.mp hlength.symm)
  | cons s stages ih =>
      cases other with
      | nil => cases hlength
      | cons t other =>
          obtain ⟨hs, hleast⟩ := h front s stages rfl
          have ht := h'.ready front t other rfl
          -- both stages can run here, so that the least one is not behind the other
          rcases lt_trichotomy s.id t.id with hlt | heq | hgt
          · exact .inr (.rel hlt)
          · obtain rfl : s = t := List.inj_on_of_nodup_map r.ids_nodup hs.mem ht.mem heq
            rw [List.append_cons] at h h'
            rcases ih (front ++ [s]) h h' (Nat.succ.inj hlength) with rfl | hlex
            · exact .inl rfl
            · exact .inr (.cons hlex)
          · exact absurd hgt (hleast t ht)

/-- An order that always takes the least stage is the least of all orders. -/
theorem Topological.lex {stages other : List (Stage σ)} (h' : r.Topological other)
    (h : r.TakesLeast stages) (hperm : stages.Perm r.stages) :
    other = stages ∨ List.Lex (fun s t => s.id < t.id) stages other :=
  TakesLeast.lex_append [] h h' (hperm.trans h'.perm.symm).length_eq

/-! ### Registries of the same stages -/

end Registry

/-- What a stage waits for depends on which stages are registered, and not on when. -/
theorem remaining_of_perm {registered registered' : List String} (h : registered.Perm registered')
    (s : Stage σ) (placed : List String) :
    s.remaining registered placed = s.remaining registered' placed := by
  have hcontains : (registered.contains ·) = (registered'.contains ·) := by
    funext d
    rw [Bool.eq_iff_iff, List.contains_iff_mem, List.contains_iff_mem, h.mem_iff]
  rw [Stage.remaining, Stage.remaining, hcontains]

/-- Which stage comes next does not depend on the order of the stages. -/
theorem IsNext.of_perm {stages stages' : List (Stage σ)} {placed : List String} {s : Stage σ}
    (h : IsNext stages placed s) (hperm : stages.Perm stages') : IsNext stages' placed s where
  mem := hperm.mem_iff.mp h.mem
  not_placed := h.not_placed
  remaining := by
    rw [← remaining_of_perm (hperm.map _)]
    exact h.remaining
  least := by
    intro t ht hplaced hremaining
    rw [← remaining_of_perm (hperm.map _)] at hremaining
    exact h.least t (hperm.mem_iff.mpr ht) hplaced hremaining

/-- By induction on the list, each of its stages being the next one in any order. -/
theorem TakesNext.of_perm {stages stages' : List (Stage σ)} {placed : List String}
    {l : List (Stage σ)} (h : TakesNext stages placed l) (hperm : stages.Perm stages') :
    TakesNext stages' placed l := by
  induction l generalizing placed with
  | nil =>
      intro s hs hplaced
      rw [← remaining_of_perm (hperm.map _)]
      exact h s (hperm.mem_iff.mpr hs) hplaced
  | cons s l ih => exact ⟨h.1.of_perm hperm, ih h.2⟩

namespace Registry

variable {r r' : Registry σ}

theorem eq_placed_of_order_eq_ok {ordered : List (Stage σ)} (h : r.order = .ok ordered) :
    ordered = r.placed := by
  rw [order] at h
  split at h
  · exact (Except.ok.inj h).symm
  · cases h

/-- Registries of the same stages have the same order. -/
theorem order_eq_ok_of_perm {ordered : List (Stage σ)} (h : r.order = .ok ordered)
    (hperm : r.stages.Perm r'.stages) : r'.order = .ok ordered := by
  apply r'.order_eq_ok_of_takesNext
  · rw [eq_placed_of_order_eq_ok h]
    exact r.placed_takesNext.of_perm hperm
  · exact ((perm_of_order_eq_ok r h).trans hperm).length_eq

/-- Without cyclic or repeated dependencies all stages get placed. -/
theorem missing_eq_nil (hdeps : ∀ s ∈ r.stages, s.dependencies.Nodup) (hacyclic : r.Acyclic) :
    r.missing = [] := by
  rw [List.eq_nil_iff_forall_not_mem]
  intro a ha
  exact hacyclic.not_reachesCycle a ((mem_missing_iff_reachesCycle hdeps).mp ha)

/-- Dependencies that lead down some ranking have no cycle. -/
theorem acyclic_of_rank (rank : String → Nat)
    (h : ∀ a b, r.DependsOn a b → rank b < rank a) : r.Acyclic := by
  have hlt : ∀ {a b}, Relation.TransGen r.DependsOn a b → rank b < rank a := by
    intro a b hab
    induction hab with
    | single hab => exact h _ _ hab
    | tail _ hbc ih => exact (h _ _ hbc).trans ih
  exact fun a ha => lt_irrefl _ (hlt ha)

end Registry

/-- Whatever calls have registered them, stages without cyclic or repeated dependencies run in the
least order in which they can: at each position stands the least stage that can run there, and every
other order is lexicographically larger. Calls that register the same stages in another order lead
to the same, and a call that is rejected might as well not have been made. -/
theorem order_least (calls : List (Stage σ))
    (hdeps : ∀ s ∈ (Registry.ofCalls calls).stages, s.dependencies.Nodup)
    (hacyclic : (Registry.ofCalls calls).Acyclic) :
    let r := Registry.ofCalls calls
    ∃ ordered, r.order = .ok ordered ∧ r.Topological ordered ∧ r.TakesLeast ordered ∧
      (∀ other, r.Topological other →
        other = ordered ∨ List.Lex (fun s t => s.id < t.id) ordered other) ∧
      (∀ calls', (Registry.ofCalls calls').stages.Perm r.stages →
        (Registry.ofCalls calls').order = .ok ordered) ∧
      ∀ before s after, calls = before ++ s :: after → s.id ∈ before.map (·.id) →
        (Registry.ofCalls before).register s = .error (.duplicateId s.id) ∧
          Registry.ofCalls (before ++ after) = r := by
  intro r
  have hmissing := Registry.missing_eq_nil hdeps hacyclic
  have hleast : r.TakesLeast r.placed := Registry.takesLeast_placed hdeps
  have hperm := r.placed_perm hmissing
  refine ⟨r.placed, r.order_eq_ok hmissing, ⟨hperm, ?_⟩, hleast, ?_, ?_, ?_⟩
  · intro before s after h
    exact (hleast before s after h).1
  · intro other hother
    exact hother.lex hleast hperm
  · intro calls' hcalls
    exact Registry.order_eq_ok_of_perm (r.order_eq_ok hmissing) hcalls.symm
  · rintro before s after rfl hs
    exact ⟨Registry.register_of_mem (Registry.mem_ids_ofCalls.mpr hs),
      (Registry.ofCalls_of_duplicate hs).symm⟩

/-- Three stages and a fourth call, which would close a cycle if its id were not taken. -/
def clash : List (Stage Unit) := [
  { id := "show", dependencies := ["load", "absent"], action := .idle },
  { id := "load", action := .idle },
  { id := "check", dependencies := ["load"], action := .idle },
  { id := "load", dependencies := ["show"], action := .idle }]

theorem clash_acyclic : (Registry.ofCalls clash).Acyclic := by
  apply Registry.acyclic_of_rank fun id => if id = "load" then 0 else 1
  rintro a b ⟨s, hs, rfl, hb, hid⟩
  -- the fourth call is rejected; what is left depends on the stage that loads, or on nothing
  have hstages : (Registry.ofCalls clash).stages = clash.take 3 := rfl
  have habsent : "absent" ∉ (Registry.ofCalls clash).ids := by decide
  rw [hstages] at hs
  simp only [clash, List.take, List.mem_cons, List.not_mem_nil, or_false] at hs
  rcases hs with rfl | rfl | rfl
  · rcases List.mem_pair.mp hb with rfl | rfl
    · decide
    · exact absurd hid habsent
  · exact absurd hb List.not_mem_nil
  · rw [List.mem_singleton.mp hb]
    decide

/-- The hypotheses can be met where a call is rejected. -/
theorem order_least_clash :
    (∀ s ∈ (Registry.ofCalls clash).stages, s.dependencies.Nodup) ∧
      (Registry.ofCalls clash).Acyclic ∧
      ∃ ordered, (Registry.ofCalls clash).order = .ok ordered ∧
        (Registry.ofCalls clash).TakesLeast ordered := by
  have hdeps : ∀ s ∈ (Registry.ofCalls clash).stages, s.dependencies.Nodup := by decide
  obtain ⟨ordered, horder, -, hleast, -⟩ := order_least clash hdeps clash_acyclic
  exact ⟨hdeps, clash_acyclic, ordered, horder, hleast⟩

end CellAtlas
