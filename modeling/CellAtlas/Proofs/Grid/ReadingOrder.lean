import CellAtlas.Grid.Cell
import CellAtlas.Proofs.List

/-!
# Reading order

The places of a grid come row by row from the top, each row from left to right:

    (0, 0), (1, 0), …, (width - 1, 0), (0, 1), …, (width - 1, height - 1)

`readingOrder` says so. Proofs count along with it instead: the place of number `p` is `(p % width,
p / width)`, so that any stretch of places is an interval of numbers (`spots`), and what is painted
in turn adds up by its lengths (`spots_add`).
-/

namespace CellAtlas

def Cell.spot (c : Cell) : Int × Int := (c.x, c.y)

/-- All places of a grid, row by row. -/
def readingOrder (width height : Nat) : List (Int × Int) :=
  (List.range height).flatMap fun (y : Nat) =>
    (List.range width).map fun (x : Nat) => ((x : Int), (y : Int))

/-- The place of number `p`. -/
def spotAt (width p : Nat) : Int × Int := ((p % width : Nat), (p / width : Nat))

/-- The places from number `start` on, `n` of them. -/
def spots (width start n : Nat) : List (Int × Int) := (List.range' start n).map (spotAt width)

@[simp] theorem length_spots (width start n : Nat) : (spots width start n).length = n := by
  simp [spots]

@[simp] theorem spots_zero (width start : Nat) : spots width start 0 = [] := rfl

/-- The places that follow one another, cut in two. -/
theorem spots_add (width start m n : Nat) :
    spots width start (m + n) = spots width start m ++ spots width (start + m) n := by
  rw [spots, spots, spots, ← List.map_append, List.range'_append_1]

/-- The places of a row, by the number of the row. -/
theorem spotAt_row {width x : Nat} (y : Nat) (hx : x < width) :
    spotAt width (y * width + x) = ((x : Int), (y : Int)) := by
  have hmod : (y * width + x) % width = x := by
    rw [Nat.mul_comm, Nat.mul_add_mod, Nat.mod_eq_of_lt hx]
  have hdiv : (y * width + x) / width = y := by
    rw [Nat.mul_comm, Nat.mul_add_div (Nat.zero_lt_of_lt hx), Nat.div_eq_of_lt hx, Nat.add_zero]
  rw [spotAt, hmod, hdiv]

/-- A row is a stretch of places. -/
theorem spots_row (width y : Nat) :
    spots width (y * width) width
      = (List.range width).map fun (x : Nat) => ((x : Int), (y : Int)) := by
  rw [spots, List.range'_eq_map_range, List.map_map]
  apply List.map_congr_left
  intro x hx
  exact spotAt_row y (List.mem_range.mp hx)

/-- In reading order, the places of a grid are those of the numbers 0, 1, 2 and so on. -/
theorem readingOrder_eq_spots (width height : Nat) :
    readingOrder width height = spots width 0 (height * width) := by
  rw [spots, ← List.range_eq_range', ← flatMap_range_map_range]
  apply List.flatMap_congr
  intro y _
  apply List.map_congr_left
  intro x hx
  exact (spotAt_row y (List.mem_range.mp hx)).symm

/-- All places on the grid are read. -/
theorem mem_readingOrder {width height : Nat} {spot : Int × Int} :
    spot ∈ readingOrder width height ↔
      ∃ y < height, ∃ x < width, ((x : Int), (y : Int)) = spot := by
  simp [readingOrder]

@[simp] theorem length_readingOrder (width height : Nat) :
    (readingOrder width height).length = height * width := by
  rw [readingOrder_eq_spots, length_spots]

theorem length_of_readingOrder {cells : List Cell} {width height : Nat}
    (h : cells.map Cell.spot = readingOrder width height) : cells.length = height * width := by
  rw [← length_readingOrder, ← h, List.length_map]

/-- The place of a cell, from its number in reading order. -/
theorem spot_of_readingOrder {cells : List Cell} {width height p : Nat}
    (h : cells.map Cell.spot = readingOrder width height) (hp : p < cells.length) :
    cells[p].spot = spotAt width p := by
  have hp' : p < height * width := length_of_readingOrder h ▸ hp
  have hget : (cells.map Cell.spot)[p]? = some (spotAt width p) := by
    rw [h, readingOrder_eq_spots, spots, List.getElem?_map, List.getElem?_range' hp', Nat.zero_add,
      Nat.one_mul]
    rfl
  rw [List.getElem?_map, List.getElem?_eq_getElem hp] at hget
  exact Option.some.inj hget

end CellAtlas
