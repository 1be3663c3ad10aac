import CellAtlas.Proofs.Playback.Drift

/-!
# Which cells drift, and to what

For every cell of a grid a step of drift draws a chance from 0 up to but not including 1, and a
state. They come from the stream of the seed and the step: the chances first, then the states
(`driftDraws_eq_map`). What the cells hold and how likely they drift has no part in it.

The probability only decides which of the cells are redrawn, namely those with a chance below it
(`DriftsTo`). So the grids that come of one grid with different probabilities are related: none of
its cells is redrawn with probability 0, all are with probability 1, and what a cell is redrawn to
stays the same when the probability grows. The main statement is `drift_overlay`.
-/

namespace CellAtlas

open CellAtlas.Random

/-! ### What is drawn -/

/-- The chance that a step draws for the cell of number `i`. -/
def chanceAt (seed step i : Nat) : Binary64 := (stepGenerator seed step).uniformAt i

/-- The state that a step draws for the cell of number `i` of a grid with `n` cells. -/
def fateAt (seed step n i : Nat) : CellState :=
  .sample driftRatios.thresholds ((stepGenerator seed step).uniformAt (n + i))

/-- The states are drawn behind the chances of all cells. -/
theorem driftDraws_eq_map (n : Nat) (g : Generator) :
    driftDraws n g = (List.range n).map fun i =>
      (g.uniformAt i, .sample driftRatios.thresholds (g.uniformAt (n + i))) := by
  simp only [driftDraws, Generator.uniforms_eq_map, List.map_map, List.zip_map']
  apply List.map_congr_left
  intro i _
  rw [Function.comp_apply, Generator.uniformAt_add]

theorem stepGenerator_toNat (seed : Nat) (step : Int) :
    stepGenerator seed step.toNat = stepGenerator seed step := by
  rw [stepGenerator, stepGenerator, Int.toNat_natCast]

/-- The draw for a cell, as its chance and its fate. -/
theorem getElem_driftDraws {seed n i : Nat} {step : Int}
    (h : i < (driftDraws n (stepGenerator seed step)).length) :
    (driftDraws n (stepGenerator seed step))[i]
      = (chanceAt seed step.toNat i, fateAt seed step.toNat n i) := by
  simp only [driftDraws_eq_map, List.getElem_map, List.getElem_range, chanceAt, fateAt,
    stepGenerator_toNat]

/-! ### What becomes of a grid -/

/-- `d` is the cell `c` in a new state. Nothing else has changed, but that an empty cell has no
label. -/
structure Cell.RedrawnTo (c : Cell) (fate : CellState) (d : Cell) : Prop where
  x : d.x = c.x
  y : d.y = c.y
  note : d.note = c.note
  state : d.state = fate
  label : d.label = if fate = .empty then none else c.label

/-- This describes redrawing in full. -/
theorem Cell.redrawnTo_iff {c d : Cell} {fate : CellState} :
    c.RedrawnTo fate d ↔ d = c.redraw fate := by
  constructor
  · rintro ⟨hx, hy, hnote, hstate, hlabel⟩
    cases d
    simp_all [redraw]
  · rintro rfl
    exact ⟨rfl, rfl, rfl, rfl, rfl⟩

/-- The cells with a chance below the probability are redrawn, and the others are kept. -/
structure DriftsTo (chance : Nat → Binary64) (fate : Nat → CellState) (probability : Binary64)
    (grid later : List Cell) : Prop where
  length : later.length = grid.length
  kept : ∀ i (c d : Cell), grid[i]? = some c → later[i]? = some d → ¬ chance i < probability → d = c
  redrawn : ∀ i (c d : Cell), grid[i]? = some c → later[i]? = some d → chance i < probability →
    c.RedrawnTo (fate i) d

/-- A grid drifts cell by cell. -/
theorem drifted_driftsTo (seed : Nat) (probability : Binary64) (grid : List Cell) (step : Int) :
    DriftsTo (chanceAt seed step.toNat) (fateAt seed step.toNat grid.length) probability grid
      (drifted seed probability grid step) := by
  -- both grids have a cell at the place, of which one is drawn from the other
  have hcell : ∀ i (c d : Cell), grid[i]? = some c →
      (drifted seed probability grid step)[i]? = some d →
      d = c.drift probability
        (chanceAt seed step.toNat i, fateAt seed step.toNat grid.length i) := by
    intro i c d hc hd
    obtain ⟨hi, rfl⟩ := List.getElem?_eq_some_iff.mp hc
    obtain ⟨hi', rfl⟩ := List.getElem?_eq_some_iff.mp hd
    rw [getElem_drifted seed probability grid step i hi' hi (by simpa using hi), getElem_driftDraws]
  refine ⟨length_drifted .., ?_, ?_⟩
  · intro i c d hc hd hchance
    rw [hcell i c d hc hd, Cell.drift, if_neg hchance]
  · intro i c d hc hd hchance
    rw [Cell.redrawnTo_iff, hcell i c d hc hd, Cell.drift, if_pos hchance]

namespace DriftsTo

variable {chance : Nat → Binary64} {fate : Nat → CellState} {p q : Binary64}
  {grid later other : List Cell}

/-- No chance is below zero. -/
theorem eq_of_le_zero (h : DriftsTo chance fate p grid later) (hchance : ∀ i, 0 ≤ chance i)
    (hp : p ≤ 0) : later = grid := by
  apply List.ext_getElem h.length
  intro i hlater hgrid
  refine h.kept i _ _ (List.getElem?_eq_getElem hgrid) (List.getElem?_eq_getElem hlater) ?_
  intro hlt
  exact Binary64.not_lt_of_le (hchance i) (Binary64.lt_of_lt_of_le hlt hp)

/-- With a probability of one every cell is redrawn, if every chance is below one. -/
theorem redrawn_of_one_le (h : DriftsTo chance fate p grid later) (hchance : ∀ i, chance i < 1)
    (hp : 1 ≤ p) {i : Nat} {c d : Cell} (hc : grid[i]? = some c) (hd : later[i]? = some d) :
    c.RedrawnTo (fate i) d :=
  h.redrawn i c d hc hd (Binary64.lt_of_lt_of_le (hchance i) hp)

/-- With a greater probability, what has changed is redrawn to the same. -/
theorem redrawn_of_le (h : DriftsTo chance fate p grid later)
    (h' : DriftsTo chance fate q grid other) (hpq : p ≤ q) {i : Nat} {c d e : Cell}
    (hc : grid[i]? = some c) (hd : later[i]? = some d) (he : other[i]? = some e) (hne : d ≠ c) :
    c.RedrawnTo (fate i) e ∧ e = d := by
  have hlt : chance i < p := by
    by_contra hchance
    exact hne (h.kept i c d hc hd hchance)
  have hredrawn := h'.redrawn i c e hc he (Binary64.lt_of_lt_of_le hlt hpq)
  refine ⟨hredrawn, ?_⟩
  rw [Cell.redrawnTo_iff.mp hredrawn, Cell.redrawnTo_iff.mp (h.redrawn i c d hc hd hlt)]

end DriftsTo

/-- The chances and the states that a step draws depend on the seed, the step and the number of
cells. A grid drifts to what they make of it: to itself with probability 0, to a grid redrawn
throughout with probability 1, and whatever has changed is redrawn to the same with any greater
probability. -/
theorem drift_overlay (seed : Nat) (step : Int) (grid : List Cell) (p : Binary64) :
    let chance := chanceAt seed step.toNat
    let fate := fateAt seed step.toNat grid.length
    (∀ i, 0 ≤ chance i ∧ chance i < 1) ∧
    ∃ later, drift grid step (some (seed : Int)) p = .ok later ∧
      DriftsTo chance fate p grid later ∧
      (p ≤ 0 → later = grid) ∧
      (1 ≤ p → ∀ i (c d : Cell), grid[i]? = some c → later[i]? = some d → c.RedrawnTo (fate i) d) ∧
      ∀ q, p ≤ q → ∃ other, drift grid step (some (seed : Int)) q = .ok other ∧
        ∀ i (c d e : Cell), grid[i]? = some c → later[i]? = some d → other[i]? = some e → d ≠ c →
          c.RedrawnTo (fate i) e ∧ e = d := by
  intro chance fate
  have hbounds : ∀ i, 0 ≤ chance i ∧ chance i < 1 := fun i =>
    ⟨Generator.uniformAt_nonneg _ i, Generator.uniformAt_lt_one _ i⟩
  have hdrift := drifted_driftsTo seed p grid step
  refine ⟨hbounds, _, drift_eq_drifted seed p grid step, hdrift, ?_, ?_, ?_⟩
  · exact hdrift.eq_of_le_zero fun i => (hbounds i).1
  · intro hp i c d hc hd
    exact hdrift.redrawn_of_one_le (fun i => (hbounds i).2) hp hc hd
  -- the other grid drifts with the same chances and fates
  · intro q hpq
    refine ⟨_, drift_eq_drifted seed q grid step, ?_⟩
    intro i c d e hc hd he hne
    exact hdrift.redrawn_of_le (drifted_driftsTo seed q grid step) hpq hc hd he hne

end CellAtlas
