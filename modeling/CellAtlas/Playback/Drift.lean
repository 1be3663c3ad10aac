import CellAtlas.Classification.Classified
import CellAtlas.Grid.Cell

/-!
# Drift

A step forward lets a grid drift: every cell has a small chance to be drawn anew. Which cells are
drawn anew and what becomes of them depends on the seed, the step and the position in the list, and
not on what the cells hold.
-/

namespace CellAtlas

open CellAtlas.Random

def defaultMutationProbability : Binary64 := 0.05

/-- The chances of the states of a cell that is drawn anew. -/
def driftRatios : Ratios := { active := 0.4, pointer := 0.2, dropped := 0.2 }

/-- A cell in a new state. It loses its label when it becomes empty, and keeps its note. -/
def Cell.redraw (c : Cell) (state : CellState) : Cell :=
  { c with state, label := if state = .empty then none else c.label }

/-- For every cell of a grid of `n` cells a number that says whether it is drawn anew, and the state
it is then in. -/
def driftDraws (n : Nat) (g : Generator) : List (Binary64 × CellState) :=
  let chances := g.uniforms n
  let states := chances.2.uniforms n
  chances.1.zip (states.1.map (.sample driftRatios.thresholds))

def drift (grid : List Cell) (step : Int) (seed : Option Int := some defaultSeed)
    (probability : Binary64 := defaultMutationProbability) : Except RandomError (List Cell) :=
  (Generator.ofSeedAt seed step).map fun g =>
    grid.zipWith (fun c d => if d.1 < probability then c.redraw d.2 else c)
      (driftDraws grid.length g)

end CellAtlas
