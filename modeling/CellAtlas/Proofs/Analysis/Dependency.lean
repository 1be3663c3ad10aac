import CellAtlas.Analysis.Stage
import Mathlib.Data.Fintype.Pigeonhole
import Mathlib.Data.Set.Finite.Basic
import Mathlib.Logic.Relation

/-!
# The dependency graph

The stages of a registry form a graph: an edge leads from a stage to each registered stage that it
depends on, and names that no stage has lead nowhere. Two facts about the stages from which a cycle
can be reached tie them to an order of stages:

* a set of stages each of which depends on one of the set reaches a cycle from each of its members
  (`reachesCycle_of_closed`);
* stages listed behind all their dependencies reach none (`not_reachesCycle_of_ordered`).
-/

namespace CellAtlas

open Relation

/-! ### Cycles in a relation -/

section Cycle

variable {α : Type} {R : α → α → Prop}

/-- Following a function along `R` follows `R`. -/
theorem transGen_iterate {f : α → α} (hf : ∀ a, R a (f a)) (a : α) {i j : Nat} (hij : i < j) :
    TransGen R (f^[i] a) (f^[j] a) := by
  induction j with
  | zero => exact absurd hij (Nat.not_lt_zero i)
  | succ j ih =>
      have hstep : R (f^[j] a) (f^[j + 1] a) := by
        rw [Function.iterate_succ_apply']
        exact hf _
      rcases Nat.lt_or_eq_of_le (Nat.le_of_lt_succ hij) with hlt | rfl
      · exact (ih hlt).tail hstep
      · exact .single hstep

/-- Any number of steps, none included, is a path. -/
theorem reflTransGen_iterate {f : α → α} (hf : ∀ a, R a (f a)) (a : α) (i : Nat) :
    ReflTransGen R a (f^[i] a) := by
  cases i with
  | zero => exact .refl
  | succ i => exact (transGen_iterate hf a (Nat.succ_pos i)).to_reflTransGen

/-- A finite set without dead ends reaches a cycle from each of its members. -/
theorem exists_cycle_of_closed {l : List α} (h : ∀ a ∈ l, ∃ b ∈ l, R a b) {a : α} (ha : a ∈ l) :
    ∃ c, ReflTransGen R a c ∧ TransGen R c c := by
  -- choose a way on inside of the set; it visits some place twice
  choose! f hmem hstep using h
  let next : {x // x ∈ l} → {x // x ∈ l} := fun x => ⟨f x.1, hmem x.1 x.2⟩
  let S : {x // x ∈ l} → {x // x ∈ l} → Prop := fun x y => R x.1 y.1
  have hnext : ∀ x, S x (next x) := fun x => hstep x.1 x.2
  -- there are more numbers of steps than places, so two numbers lead to one place
  have hfin : Finite {x // x ∈ l} := l.finite_toSet.to_subtype
  obtain ⟨i, j, hne, heq⟩ := Finite.exists_ne_map_eq_of_infinite fun n : Nat => next^[n] ⟨a, ha⟩
  have hcycle : TransGen S (next^[i] ⟨a, ha⟩) (next^[i] ⟨a, ha⟩) := by
    rcases Nat.lt_or_gt_of_ne hne with hij | hji
    · have := transGen_iterate hnext ⟨a, ha⟩ hij
      rwa [← heq] at this
    · have := transGen_iterate hnext ⟨a, ha⟩ hji
      rwa [← heq] at this
  -- what was found inside of the set is a path and a cycle outside too
  refine ⟨(next^[i] ⟨a, ha⟩).1, ?_, ?_⟩
  · exact (reflTransGen_iterate hnext ⟨a, ha⟩ i).lift Subtype.val fun _ _ hxy => hxy
  · exact hcycle.lift Subtype.val fun _ _ hxy => hxy

end Cycle

/-! ### The graph of a registry -/

namespace Registry

variable {σ : Type} (r : Registry σ)

/-- The stage with the id `a` depends on the registered stage with the id `b`. -/
def DependsOn (a b : String) : Prop :=
  ∃ s ∈ r.stages, s.id = a ∧ b ∈ s.dependencies ∧ b ∈ r.ids

/-- No stage depends on itself, directly or through others. -/
def Acyclic : Prop := ∀ a, ¬ TransGen r.DependsOn a a

/-- Following dependencies from the stage with the id `a` can come to a cycle. -/
def ReachesCycle (a : String) : Prop :=
  ∃ c, ReflTransGen r.DependsOn a c ∧ TransGen r.DependsOn c c

variable {r}

/-- Only a registered stage depends on something. -/
theorem DependsOn.mem_ids {a b : String} (h : r.DependsOn a b) : a ∈ r.ids := by
  obtain ⟨s, hs, rfl, -, -⟩ := h
  exact List.mem_map_of_mem hs

/-- The way to a cycle begins with a dependency from which the cycle can be reached. -/
theorem ReachesCycle.exists_dependsOn {a : String} (h : r.ReachesCycle a) :
    ∃ b, r.DependsOn a b ∧ r.ReachesCycle b := by
  obtain ⟨c, hac, hcc⟩ := h
  rcases hac.cases_head with rfl | ⟨b, hab, hbc⟩
  · obtain ⟨b, hab, hba⟩ := TransGen.head'_iff.mp hcc
    exact ⟨b, hab, a, hba, hcc⟩
  · exact ⟨b, hab, c, hbc, hcc⟩

theorem ReachesCycle.mem_ids {a : String} (h : r.ReachesCycle a) : a ∈ r.ids := by
  obtain ⟨b, hab, -⟩ := h.exists_dependsOn
  exact hab.mem_ids

theorem Acyclic.not_reachesCycle (h : r.Acyclic) (a : String) : ¬ r.ReachesCycle a := by
  rintro ⟨c, -, hcc⟩
  exact h c hcc

/-- Where dependencies are not acyclic, there is a cycle, which reaches itself. -/
theorem exists_reachesCycle (h : ¬ r.Acyclic) : ∃ a, r.ReachesCycle a := by
  obtain ⟨a, ha⟩ := not_forall.mp h
  exact ⟨a, a, .refl, not_not.mp ha⟩

/-- Stages that wait for one another reach a cycle. -/
theorem reachesCycle_of_closed {stuck : List String}
    (h : ∀ a ∈ stuck, ∃ b ∈ stuck, r.DependsOn a b) {a : String} (ha : a ∈ stuck) :
    r.ReachesCycle a :=
  exists_cycle_of_closed h ha

/-- Stages listed behind all their dependencies reach no cycle. -/
theorem not_reachesCycle_of_ordered {ordered : List String}
    (h : ∀ before a after, ordered = before ++ a :: after →
      ∀ b, r.DependsOn a b → b ∈ before) :
    ∀ a ∈ ordered, ¬ r.ReachesCycle a := by
  induction ordered using List.reverseRecOn with
  | nil => simp
  -- the last stage waits only for stages before it, and those reach no cycle
  | append_singleton init last ih =>
      have hinit : ∀ a ∈ init, ¬ r.ReachesCycle a := by
        apply ih
        intro before a after heq
        exact h before a (after ++ [last]) (by rw [heq]; simp)
      intro a ha
      rcases List.mem_append.mp ha with ha | ha
      · exact hinit a ha
      · intro hcycle
        obtain rfl := List.mem_singleton.mp ha
        obtain ⟨b, hab, hb⟩ := hcycle.exists_dependsOn
        exact hinit b (h init a [] rfl b hab) hb

end Registry

end CellAtlas
