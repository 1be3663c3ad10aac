import CellAtlas.Classification.Classified
import CellAtlas.Grid.Cell
import CellAtlas.Grid.Room

/-!
# Laying structures out on a grid

Structures claim whole rows of a grid, one after the other from the top, in proportion to their
instance counts; the cells of a claimed row are drawn from the chances of the states, scaled by the
category of the structure. Rows that nobody claims are filled with empty cells, and where there is
no structure at all the demo grid is drawn instead.

Every row, of whatever grid, is painted by `paintRow`, which takes one uniform number per cell. The
demo grid needs room for all its numbers at once, and the row of a structure for those of the row.
-/

namespace CellAtlas

open CellAtlas.Random

inductive LayoutError where
  | random (e : RandomError)
  | number (e : NumberError)
  | room (e : RoomError)
deriving DecidableEq, Repr

def LayoutError.message : LayoutError → String
  | random e => e.message
  | number e => e.message
  | room e => e.message

/-- What the chances of the states are multiplied by. -/
def Category.factors : Category → Ratios
  | linked => { active := 1.2, pointer := 1.5, dropped := 1.0 }
  | nested => { active := 1.0, pointer := 1.8, dropped := 1.3 }
  | simple => { active := 1.5, pointer := 0.5, dropped := 0.8 }

/-! ### Painting -/

/-- How the cell at some coordinates is made once its state is known. -/
abbrev Brush := Int → Int → CellState → Cell

def position (x y : Int) : String := "(" ++ toString x ++ ", " ++ toString y ++ ")"

/-- A label that only a cell with something in it carries. -/
def labelUnlessEmpty (state : CellState) (label : String) : Option String :=
  if state = .empty then none else some label

def demoBrush : Brush := fun x y state =>
  { x, y, state
    label := labelUnlessEmpty state ("Node_" ++ toString y ++ "_" ++ toString x)
    note := some (state.name ++ " cell at " ++ position x y) }

def structureBrush (name : String) : Brush := fun x y state =>
  { x, y, state
    label := labelUnlessEmpty state (name ++ "_" ++ toString x ++ "_" ++ toString y)
    note := some (name ++ " " ++ state.name ++ " at " ++ position x y) }

def fillerCell (x y : Int) : Cell :=
  { x, y, state := .empty, note := some ("Empty cell at " ++ position x y) }

def paintRow (brush : Brush) (ratios : Ratios) (width : Nat) (y : Int) (g : Generator) :
    List Cell × Generator :=
  let drawn := g.uniforms width
  let thresholds := ratios.thresholds
  (drawn.1.mapIdx fun x u => brush x y (.sample thresholds u), drawn.2)

/-- Paint a number of rows from `y` downwards. -/
def paintRows (brush : Brush) (ratios : Ratios) (width : Nat) (y : Int) :
    Nat → Generator → List Cell × Generator
  | 0, g => ([], g)
  | n + 1, g =>
    let first := paintRow brush ratios width y g
    let rest := paintRows brush ratios width (y + 1) n first.2
    (first.1 ++ rest.1, rest.2)

/-! ### Grids -/

variable [Machine]

/-- The demo grid, which is drawn where there is nothing to lay out. -/
def demoGrid (config : GridConfig := {}) (seed : Option Int := some defaultSeed) :
    Except LayoutError (List Cell) :=
  if config.size = 0 then .ok []
  else do
    let g ← (Generator.ofSeed seed).mapError .random
    (hasRoom .float64 [config.size]).mapError .room
    return (paintRows demoBrush config.ratios config.width.toNat 0 config.height.toNat g).1

/-- The rows that a structure with `count` instances claims, for a number of cells per instance. -/
def rowsFor (count : Int) (cellsPerInstance : Binary64) (width : Int) : Except NumberError Int := do
  let n ← Binary64.fromInt count
  let rows ← (n * cellsPerInstance).divideByInt width
  rows.ceil

/-- Paint the rows of a structure. Where there are none, no room is needed. -/
def paintStructure (config : GridConfig) (c : Classified) (y : Int) (rows : Nat) (g : Generator) :
    Except RoomError (List Cell × Generator) := do
  if 0 < rows then hasRoom .float64 [config.width]
  return paintRows (structureBrush c.name) (config.ratios.scale c.category.factors)
    config.width.toNat y rows g

/-- Lay out structures from row `cursor` downwards, until the grid is full. -/
def layStructures (config : GridConfig) (cellsPerInstance : Binary64) :
    Int → List Classified → Generator → Except LayoutError (List Cell)
  | _, [], _ => .ok []
  | cursor, c :: rest, g =>
    if config.height ≤ cursor then .ok []
    else do
      let rows ← (rowsFor c.instanceCount cellsPerInstance config.width).mapError .number
      let painted ← (paintStructure config c cursor
        (min (cursor + rows) config.height - cursor).toNat g).mapError .room
      return painted.1 ++ (← layStructures config cellsPerInstance (cursor + rows) rest painted.2)

/-- Fill a grid up to its size with unclaimed cells, in reading order. -/
def fillUp (config : GridConfig) (cells : List Cell) : List Cell :=
  cells ++ (List.range' cells.length (config.size - cells.length)).map fun (i : Nat) =>
    fillerCell (i % config.width) (i / config.width)

def layout (structures : List Classified) (config : GridConfig := {})
    (seed : Option Int := some defaultSeed) : Except LayoutError (List Cell) :=
  if config.size = 0 then .ok []
  else if structures.isEmpty then demoGrid config seed
  else do
    let g ← (Generator.ofSeed seed).mapError .random
    let total := Classified.totalInstances structures
    let cellsPerInstance ←
      (Binary64.fromQuotient config.size (if total = 0 then 1 else total)).mapError .number
    return fillUp config (← layStructures config cellsPerInstance 0 structures g)

end CellAtlas
