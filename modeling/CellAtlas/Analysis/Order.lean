import CellAtlas.Analysis.Stage

/-!
# The order of stages

Stages run one after the other, each after the stages it depends on. Every stage has a count of the
dependencies it waits for. The stages that wait for none form a queue in the order of their ids. The
first of the queue is placed, every stage that depends on it waits for one dependency less, and
those that wait for none by that join the queue. `Registry.order` answers the stages in the order of
their placing, or those that never come up because their dependencies wait for one another.

A dependency that is not registered does not count. Of a registered one every entry counts, while
its placing takes off only one; so a stage that lists a dependency twice waits for ever.
-/

namespace CellAtlas

variable {σ : Type}

/-- A stage and the number of dependencies it waits for. -/
structure Waiting (σ : Type) where
  stage : Stage σ
  count : Int

def Stage.waiting (s : Stage σ) (registered : List String) : Waiting σ where
  stage := s
  count := (s.dependencies.filter (registered.contains ·)).length

namespace Waiting

/-- What a stage waits for once the stage with an id has been placed. -/
def lower (w : Waiting σ) (id : String) : Waiting σ :=
  if w.stage.dependencies.contains id then { w with count := w.count - 1 } else w

/-- Whether it is the placing of the stage with an id that leaves nothing to wait for. -/
def freedBy (w : Waiting σ) (id : String) : Bool :=
  w.stage.dependencies.contains id && (w.lower id).count == 0

def lowerAll (waiting : List (Waiting σ)) (id : String) : List (Waiting σ) :=
  waiting.map (·.lower id)

def freed (waiting : List (Waiting σ)) (id : String) : List (Stage σ) :=
  (waiting.filter (·.freedBy id)).map (·.stage)

def pending (waiting : List (Waiting σ)) : Nat := waiting.countP (0 < ·.count)

/-- A freed stage is pending before and is not afterwards. -/
theorem pending_lowerAll (waiting : List (Waiting σ)) (id : String) :
    (freed waiting id).length + pending (lowerAll waiting id) = pending waiting := by
  simp only [freed, lowerAll, pending, List.length_map]
  induction waiting with
  | nil => rfl
  | cons w rest ih =>
    rw [List.map_cons, List.countP_cons, List.countP_cons, List.filter_cons]
    by_cases hdep : w.stage.dependencies.contains id
    · have hlower : (w.lower id).count = w.count - 1 := by rw [lower, if_pos hdep]
      have hfreed : w.freedBy id = decide (w.count = 1) := by
        rw [freedBy, hdep, hlower, Bool.true_and, Bool.eq_iff_iff]
        simp only [beq_iff_eq, decide_eq_true_eq]
        omega
      rw [hlower, hfreed]
      by_cases hone : w.count = 1
      · have h0 : ¬ (0 : Int) < 1 - 1 := by decide
        have h1 : (0 : Int) < 1 := by decide
        simp only [hone, h0, h1, decide_true, decide_false, Bool.false_eq_true, if_true, if_false,
          List.length_cons]
        omega
      · have hiff : 0 < w.count - 1 ↔ 0 < w.count := by omega
        simp only [hone, hiff, decide_false, Bool.false_eq_true, if_false]
        omega
    · have hlower : w.lower id = w := by rw [lower, if_neg hdep]
      have hfreed : w.freedBy id = false := by
        rw [freedBy, Bool.eq_false_iff.2 hdep, Bool.false_and]
      rw [hlower, hfreed]
      simp only [Bool.false_eq_true, if_false]
      omega

end Waiting

def sortById (stages : List (Stage σ)) : List (Stage σ) :=
  stages.mergeSort fun a b => !(b.id < a.id)

def place : List (Stage σ) → List (Waiting σ) → List (Stage σ)
  | [], _ => []
  | s :: queue, waiting =>
    s :: place (sortById (queue ++ Waiting.freed waiting s.id)) (Waiting.lowerAll waiting s.id)
termination_by queue waiting => queue.length + Waiting.pending waiting
decreasing_by
  have h := Waiting.pending_lowerAll waiting s.id
  simp only [sortById, List.length_mergeSort, List.length_append, List.length_cons]
  omega

def sortIds (ids : List String) : List String := ids.mergeSort fun a b => !(b < a)

/-- The stages that get placed, in the order of their placing. -/
def Registry.placed (r : Registry σ) : List (Stage σ) :=
  let waiting := r.stages.map (·.waiting r.ids)
  place (sortById ((waiting.filter (·.count == 0)).map (·.stage))) waiting

def Registry.missing (r : Registry σ) : List String :=
  r.ids.filter fun id => !(r.placed.map (·.id)).contains id

def Registry.order (r : Registry σ) : Except RegistryError (List (Stage σ)) :=
  if r.placed.length = r.count then .ok r.placed else .error (.circular (sortIds r.missing))

end CellAtlas
