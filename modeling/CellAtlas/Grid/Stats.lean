import CellAtlas.Grid.Cell

/-!
# Grid statistics

How many cells of a grid are in each state, and two percentages: the cells that are active or
pointers, and the cells that are not empty.
-/

namespace CellAtlas

/-- The counts and percentages of a grid. -/
structure GridStats where
  total : Int := 0
  active : Int := 0
  pointer : Int := 0
  dropped : Int := 0
  empty : Int := 0
  efficiency : Int := 0
  utilization : Int := 0
deriving DecidableEq, Repr, Inhabited

/-- A part of a positive total in percent, a half rounded up. The quotient, the product and the sum
are each rounded to double precision. -/
def percent (part total : Int) : Int :=
  ((Binary64.ofQuotient part total * 100 + 0.5).floor?).getD 0

def countState (cells : List Cell) (s : CellState) : Nat := cells.countP fun c => c.state = s

/-- The statistics of a grid. Both percentages of a grid without cells are zero. -/
def GridStats.ofCells (cells : List Cell) : GridStats :=
  let total : Int := cells.length
  let active : Int := countState cells .active
  let pointer : Int := countState cells .pointer
  let empty : Int := countState cells .empty
  { total, active, pointer, empty
    dropped := countState cells .dropped
    efficiency := if total = 0 then 0 else percent (active + pointer) total
    utilization := if total = 0 then 0 else percent (total - empty) total }

end CellAtlas
