import CellAtlas.Number.Checked

/-!
# Cells and grids

A grid is a list of cells, each with its coordinates, its state and two optional texts. The chances
of the states are three ratios, and what they leave over is the chance of an empty cell.
-/

namespace CellAtlas

inductive CellState where
  | active
  | dropped
  | pointer
  | empty
deriving DecidableEq, Repr, Inhabited

namespace CellState

def name : CellState → String
  | active => "active"
  | dropped => "dropped"
  | pointer => "pointer"
  | empty => "empty"

def all : List CellState := [active, dropped, pointer, empty]

def ofName? (name : String) : Option CellState := all.find? (·.name == name)

theorem ofName?_name (s : CellState) : ofName? s.name = some s := by
  cases s <;> decide

end CellState

structure Cell where
  x : Int
  y : Int
  state : CellState
  label : Option String := none
  note : Option String := none
deriving DecidableEq, Repr, Inhabited

/-- The chances of the states that are not empty. -/
structure Ratios where
  active : Binary64
  pointer : Binary64
  dropped : Binary64
deriving DecidableEq, Repr

namespace Ratios

def scale (r factors : Ratios) : Ratios where
  active := r.active * factors.active
  pointer := r.pointer * factors.pointer
  dropped := r.dropped * factors.dropped

/-- The ratios added up one after the other, in the order of the fields. -/
def thresholds (r : Ratios) : Ratios where
  active := r.active
  pointer := r.active + r.pointer
  dropped := r.active + r.pointer + r.dropped

end Ratios

/-- The state that a uniform number draws: the first threshold above the number decides. -/
def CellState.sample (thresholds : Ratios) (draw : Binary64) : CellState :=
  if draw < thresholds.active then .active
  else if draw < thresholds.pointer then .pointer
  else if draw < thresholds.dropped then .dropped
  else .empty

/-- The dimensions of a grid and the chances of its states. -/
structure GridConfig where
  width : Int := 12
  height : Int := 8
  activeRatio : Binary64 := 0.4
  droppedRatio : Binary64 := 0.2
  pointerRatio : Binary64 := 0.2
deriving DecidableEq, Repr

namespace GridConfig

/-- The number of cells; none unless both dimensions are positive. -/
def size (c : GridConfig) : Nat :=
  if c.width ≤ 0 ∨ c.height ≤ 0 then 0 else (c.width * c.height).toNat

def ratios (c : GridConfig) : Ratios := ⟨c.activeRatio, c.pointerRatio, c.droppedRatio⟩

instance : Inhabited GridConfig := ⟨{}⟩

end GridConfig

end CellAtlas
