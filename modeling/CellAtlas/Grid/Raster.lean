import CellAtlas.Grid.Cell
import CellAtlas.Grid.Room

/-!
# Rasters

A raster holds one state for every place of a rectangle, row by row. `Raster.ofCells` makes the
smallest raster that has a place for the greatest coordinates of a list of cells; a place without a
cell is empty, and of several cells at one place the last one counts. Negative coordinates count
from the far edge. Coordinates are integers of 64 bits, and there has to be room for the raster.
-/

namespace CellAtlas

namespace CellState

def code : CellState → Nat
  | empty => 0
  | active => 1
  | pointer => 2
  | dropped => 3

def symbol : CellState → Char
  | empty => '.'
  | active => '#'
  | pointer => '>'
  | dropped => 'x'

end CellState

inductive RasterError where
  /-- There is no room for the raster that the greatest coordinates call for. -/
  | room (e : RoomError)
  /-- A coordinate is no integer of 64 bits. -/
  | notAnIndex
  /-- A coordinate lies outside of the raster; axis 0 is the vertical one. -/
  | outOfBounds (index : Int) (axis : Nat) (size : Nat)
deriving DecidableEq, Repr

def RasterError.message : RasterError → String
  | room e => e.message
  | notAnIndex =>
    "only integers, slices (`:`), ellipsis (`...`), numpy.newaxis (`None`) and integer or boolean "
      ++ "arrays are valid indices"
  | outOfBounds index axis size =>
    "index " ++ toString index ++ " is out of bounds for axis " ++ toString axis ++ " with size "
      ++ toString size

/-- One state for every place of a rectangle. -/
structure Raster where
  height : Nat
  width : Nat
  /-- The states in reading order. -/
  states : Array CellState
deriving DecidableEq, Repr

/-- The height and the width that the greatest coordinates call for. -/
def shape : List Cell → Int × Int
  | [] => (0, 0)
  | c :: cs =>
    (cs.foldl (fun m c => max m c.y) c.y + 1, cs.foldl (fun m c => max m c.x) c.x + 1)

namespace Raster

/-- The place that a coordinate names on an axis of some size. -/
def place (axis size : Nat) (index : Int) : Except RasterError Nat :=
  if -(size : Int) ≤ index ∧ index < size then
    .ok (if index < 0 then index + size else index).toNat
  else .error (.outOfBounds index axis size)

/-- The place of a cell in a rectangle, counted in reading order. -/
def placeOf (height width : Nat) (c : Cell) : Except RasterError Nat :=
  if !isWord c.y || !isWord c.x then .error .notAnIndex
  else do
    let y ← place 0 height c.y
    let x ← place 1 width c.x
    return y * width + x

/-- The raster with some states at some places and empty ones elsewhere. -/
def plot (height width : Nat) (states : List (Nat × CellState)) : Raster where
  height := height
  width := width
  states := states.foldl (fun r s => r.setIfInBounds s.1 s.2) (.replicate (height * width) .empty)

/-- The raster of a list of cells. It is made once every cell has its place. -/
def ofCells [Machine] (cells : List Cell) : Except RasterError Raster := do
  let (height, width) := shape cells
  (hasRoom .int8 [height, width]).mapError .room
  let states ← cells.mapM fun c =>
    (placeOf height.toNat width.toNat c).map fun place => (place, c.state)
  return plot height.toNat width.toNat states

def rows (r : Raster) : List (List CellState) :=
  (List.range r.height).map fun y =>
    (List.range r.width).map fun x => r.states.getD (y * r.width + x) .empty

def codes (r : Raster) : List (List Nat) := r.rows.map (·.map CellState.code)

def rowText (row : List CellState) : String :=
  " ".intercalate (row.map fun s => s.symbol.toString)

def text (r : Raster) : String := "\n".intercalate (r.rows.map rowText)

end Raster

def gridText [Machine] (cells : List Cell) : Except RasterError String :=
  (Raster.ofCells cells).map (·.text)

end CellAtlas
