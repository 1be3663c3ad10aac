import CellAtlas.Playback.Drift
import CellAtlas.Proofs.Random.Generator

/-!
# Drifting twice

One step of drift is an overlay: which cells it redraws and in which states depends on the seed, the
step and the length of the grid, and never on what the cells hold (`drifted`). Two overlays on one
grid do not commute, but an overlay that comes again later leaves no trace of its first coming
(`drifted_drifted_drifted`): the later one writes the same states, and a label that the first one
cleared the later one clears as well. Along a whole list of steps it follows that whatever drifted
before is forgotten once each of its steps is drifted through again (`driftThrough_forgets`).
-/

namespace CellAtlas

open CellAtlas.Random

/-! ### One cell -/

def Cell.drift (probability : Binary64) (c : Cell) (d : Binary64 × CellState) : Cell :=
  if d.1 < probability then c.redraw d.2 else c

theorem Cell.redraw_redraw (c : Cell) (u : CellState) : (c.redraw u).redraw u = c.redraw u := by
  by_cases hu : u = .empty <;> simp [Cell.redraw, hu]

/-- A state that is drawn again later leaves no trace of its first drawing. -/
theorem Cell.redraw_redraw_redraw (c : Cell) (u v : CellState) :
    ((c.redraw u).redraw v).redraw u = (c.redraw v).redraw u := by
  by_cases hu : u = .empty <;> simp [Cell.redraw, hu]

/-- A second draw of the same kind changes nothing. -/
theorem Cell.drift_drift (p : Binary64) (c : Cell) (d : Binary64 × CellState) :
    (c.drift p d).drift p d = c.drift p d := by
  by_cases hd : d.1 < p
  · simp only [Cell.drift, if_pos hd, Cell.redraw_redraw]
  · simp only [Cell.drift, if_neg hd]

/-- A draw makes no difference before another one if it comes again behind it. -/
theorem Cell.drift_drift_drift (p : Binary64) (c : Cell) (d e : Binary64 × CellState) :
    ((c.drift p d).drift p e).drift p d = (c.drift p e).drift p d := by
  by_cases hd : d.1 < p
  · by_cases he : e.1 < p
    · simp only [Cell.drift, if_pos hd, if_pos he, Cell.redraw_redraw_redraw]
    · simp only [Cell.drift, if_pos hd, if_neg he, Cell.redraw_redraw]
  · simp only [Cell.drift, if_neg hd]

/-! ### One grid -/

def stepGenerator (seed : Nat) (step : Int) : Generator :=
  .ofWords (wordsOf seed ++ wordsOf step.toNat)

/-- The generator of a step, from the words of the seed and of the step. -/
theorem ofSeedAt_natCast (seed : Nat) (step : Int) :
    Generator.ofSeedAt (some (seed : Int)) step = .ok (stepGenerator seed step) := by
  rw [Generator.ofSeedAt, Generator.seedWordsOf_some (Int.natCast_nonneg seed)]
  rfl

@[simp] theorem length_driftDraws (n : Nat) (g : Generator) : (driftDraws n g).length = n := by
  simp [driftDraws, Generator.length_uniforms]

def drifted (seed : Nat) (probability : Binary64) (grid : List Cell) (step : Int) : List Cell :=
  grid.zipWith (Cell.drift probability) (driftDraws grid.length (stepGenerator seed step))

/-- Drift from a seed that is not negative always has a result. -/
theorem drift_eq_drifted (seed : Nat) (probability : Binary64) (grid : List Cell) (step : Int) :
    drift grid step (some (seed : Int)) probability = .ok (drifted seed probability grid step) := by
  rw [drift, ofSeedAt_natCast]
  rfl

variable (seed : Nat) (probability : Binary64)

@[simp] theorem length_drifted (grid : List Cell) (step : Int) :
    (drifted seed probability grid step).length = grid.length := by
  simp [drifted]

/-- A drifted grid position by position. -/
theorem getElem_drifted (grid : List Cell) (step : Int) (i : Nat)
    (h : i < (drifted seed probability grid step).length) (hgrid : i < grid.length)
    (hdraw : i < (driftDraws grid.length (stepGenerator seed step)).length) :
    (drifted seed probability grid step)[i] =
      grid[i].drift probability (driftDraws grid.length (stepGenerator seed step))[i] := by
  simp only [drifted, List.getElem_zipWith]

/-- A grid does not drift any further by the step it has just drifted by. -/
theorem drifted_drifted (grid : List Cell) (j : Int) :
    drifted seed probability (drifted seed probability grid j) j
      = drifted seed probability grid j := by
  apply List.ext_getElem
  · simp
  · intro i h _
    have hgrid : i < grid.length := by simpa using h
    simp [getElem_drifted, hgrid, Cell.drift_drift]

/-- A step that is drifted again later leaves no trace of its first time. -/
theorem drifted_drifted_drifted (grid : List Cell) (j k : Int) :
    drifted seed probability (drifted seed probability (drifted seed probability grid j) k) j
      = drifted seed probability (drifted seed probability grid k) j := by
  apply List.ext_getElem
  · simp
  · intro i h _
    have hgrid : i < grid.length := by simpa using h
    simp [getElem_drifted, hgrid, Cell.drift_drift_drift]

/-! ### Many steps -/

def driftThrough (grid : List Cell) (steps : List Int) : List Cell :=
  steps.foldl (drifted seed probability) grid

@[simp] theorem driftThrough_nil (grid : List Cell) :
    driftThrough seed probability grid [] = grid := rfl

@[simp] theorem driftThrough_cons (grid : List Cell) (k : Int) (steps : List Int) :
    driftThrough seed probability grid (k :: steps)
      = driftThrough seed probability (drifted seed probability grid k) steps := rfl

theorem driftThrough_append (grid : List Cell) (steps more : List Int) :
    driftThrough seed probability grid (steps ++ more)
      = driftThrough seed probability (driftThrough seed probability grid steps) more :=
  List.foldl_append

/-- A step that will be drifted through anyway can be left out before. -/
theorem driftThrough_drifted {k : Int} {steps : List Int} (hk : k ∈ steps) (grid : List Cell) :
    driftThrough seed probability (drifted seed probability grid k) steps
      = driftThrough seed probability grid steps := by
  induction steps generalizing grid with
  | nil => exact absurd hk List.not_mem_nil
  | cons j rest ih =>
      rw [driftThrough_cons, driftThrough_cons]
      rcases List.mem_cons.mp hk with rfl | hrest
      · rw [drifted_drifted]
      -- `k` is put in once more behind `j`, where it absorbs the one before `j`
      · rw [← ih hrest, drifted_drifted_drifted, ih hrest]

/-- Drifting through some steps forgets every drift of the same steps before. -/
theorem driftThrough_forgets {past steps : List Int} (h : ∀ k ∈ past, k ∈ steps)
    (grid : List Cell) :
    driftThrough seed probability (driftThrough seed probability grid past) steps
      = driftThrough seed probability grid steps := by
  induction past generalizing grid with
  | nil => rfl
  | cons k rest ih =>
      rw [driftThrough_cons, ih fun j hj => h j (List.mem_cons_of_mem k hj)]
      exact driftThrough_drifted seed probability (h k List.mem_cons_self) grid

end CellAtlas
