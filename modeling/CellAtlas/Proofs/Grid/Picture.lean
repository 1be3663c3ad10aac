import CellAtlas.Proofs.Grid.Raster
import CellAtlas.Proofs.Text.Blank

/-!
# What a raster shows

Cells may come in any order, leave places out and lie on top of each other. As long as no coordinate
is negative, each of them has its place in the rectangle of the greatest coordinates, and what is to
be seen at a place is the last cell there, or an empty one (`stateAt`, `rows_plot`). The text has a
line for every row and a sign for every place, which splitting it at its separators gives back
(`split_text`). So the states of a complete grid can be read off its text (`readStates_gridText`).

What can be missing is the room for the rectangle, and nothing else: a single cell may lie so far
away that there is none (`gridText_too_wide`). The main statement is `gridText_picture`.
-/

namespace CellAtlas

open CellAtlas.Text

/-- What is to be seen at a place: the state of the last cell there. -/
def stateAt (cells : List Cell) (x y : Nat) : CellState :=
  ((cells.filter (·.spot = ((x : Int), (y : Int)))).getLast?.map (·.state)).getD .empty

/-- What is to be seen in a rectangle, row by row, with a sign for every state. -/
def picture {α : Type} (sign : CellState → α) (cells : List Cell) (height width : Nat) :
    List (List α) :=
  (List.range height).map fun y => (List.range width).map fun x => sign (stateAt cells x y)

/-- A picture in other signs. -/
theorem map_map_picture {α β : Type} (f : α → β) (sign : CellState → α) (cells : List Cell)
    (height width : Nat) :
    (picture sign cells height width).map (·.map f)
      = picture (fun s => f (sign s)) cells height width := by
  simp [picture]

theorem picture_ne_nil {α : Type} (sign : CellState → α) (cells : List Cell) {height : Nat}
    (hheight : 0 < height) (width : Nat) : picture sign cells height width ≠ [] := by
  simpa [picture] using Nat.ne_of_gt hheight

theorem ne_nil_of_mem_picture {α : Type} {sign : CellState → α} {cells : List Cell}
    {height width : Nat} (hwidth : 0 < width) {row : List α}
    (hrow : row ∈ picture sign cells height width) : row ≠ [] := by
  obtain ⟨y, -, rfl⟩ := List.mem_map.mp hrow
  simpa using Nat.ne_of_gt hwidth

/-! ### Cells in a rectangle -/

/-- Coordinates that are not negative have a greatest one. -/
theorem exists_greatest {f : Cell → Int} {cells : List Cell} (hne : cells ≠ [])
    (hcells : ∀ c ∈ cells, 0 ≤ f c) :
    ∃ n : Nat, (cells.map f).max? = some (n : Int) ∧ ∀ c ∈ cells, f c ≤ n := by
  cases hmax : (cells.map f).max? with
  | none => exact absurd (List.map_eq_nil_iff.mp (List.max?_eq_none_iff.mp hmax)) hne
  | some m =>
      obtain ⟨hmem, hle⟩ := List.max?_eq_some_iff.mp hmax
      obtain ⟨c, hc, rfl⟩ := List.mem_map.mp hmem
      obtain ⟨n, hn⟩ := Int.eq_ofNat_of_zero_le (hcells c hc)
      refine ⟨n, congrArg some hn, fun d hd => ?_⟩
      rw [← hn]
      exact hle _ (List.mem_map_of_mem hd)

namespace Raster

variable {cells : List Cell} {height width : Nat}

/-- Different places have different numbers. -/
theorem indexOf_eq_iff {c : Cell} {x y : Nat} (hx : x < width)
    (hc : ∃ y < height, ∃ x < width, ((x : Int), (y : Int)) = c.spot) :
    indexOf width c = y * width + x ↔ c.spot = ((x : Int), (y : Int)) := by
  obtain ⟨y', -, x', hx', hspot⟩ := hc
  obtain ⟨hcx, hcy⟩ := Prod.mk.inj hspot
  have hindex : indexOf width c = y' * width + x' := by
    rw [indexOf, ← hcx, ← hcy]
    rfl
  rw [hindex, ← hspot]
  constructor
  · intro h
    -- a number gives back its place by division
    rw [← spotAt_row y' hx', h, spotAt_row y hx]
  · intro h
    obtain ⟨hx, hy⟩ := Prod.mk.inj h
    rw [Int.ofNat.inj hx, Int.ofNat.inj hy]

section Rectangle

variable (hcells : ∀ c ∈ cells, ∃ y < height, ∃ x < width, ((x : Int), (y : Int)) = c.spot)

include hcells

/-- The state that is written last is the one of the last cell at the place. -/
theorem lookup_indexOf {x y : Nat} (hx : x < width) :
    ((cells.map fun c => (indexOf width c, c.state)).reverse.lookup (y * width + x)).getD .empty
      = stateAt cells x y := by
  -- on the cells before the last one, which either lies at the place or does not matter to it
  induction cells using List.reverseRecOn with
  | nil => rfl
  | append_singleton cells c ih =>
      have hindex := indexOf_eq_iff (y := y) hx (hcells c (by simp))
      rw [List.map_append, List.map_singleton, List.reverse_append, List.reverse_singleton,
        List.singleton_append, List.lookup_cons, stateAt, List.filter_append]
      by_cases hspot : c.spot = ((x : Int), (y : Int))
      · have hplace : (y * width + x == indexOf width c) = true :=
          beq_iff_eq.mpr (hindex.mpr hspot).symm
        simp [hplace, hspot]
      · have hplace : (y * width + x == indexOf width c) = false :=
          beq_eq_false_iff_ne.mpr fun h => hspot (hindex.mp h.symm)
        simpa [hplace, hspot, stateAt] using ih fun d hd => hcells d (List.mem_append_left _ hd)

/-- What is plotted is what is to be seen. -/
theorem rows_plot :
    (plot height width (cells.map fun c => (indexOf width c, c.state))).rows
      = picture id cells height width := by
  apply List.map_congr_left
  intro y hy
  apply List.map_congr_left
  intro x hx
  have hy' : y < height := List.mem_range.mp hy
  have hx' : x < width := List.mem_range.mp hx
  -- the place lies in the rectangle, so that something is written for it
  have hindex : y * width + x < height * width :=
    calc y * width + x
        < (y + 1) * width := by rw [Nat.succ_mul]; omega
      _ ≤ height * width := Nat.mul_le_mul_right width hy'
  exact (states_plot _ hindex).trans (lookup_indexOf hcells hx')

/-- With room for the rectangle the cells have a raster, which shows them. -/
theorem ofCells_of_room [Machine] (hshape : shape cells = ((height : Int), (width : Int)))
    (hroom : hasRoom .int8 [(height : Int), (width : Int)] = .ok ()) :
    ∃ r, ofCells cells = .ok r ∧ r.rows = picture id cells height width :=
  ⟨_, ofCells_eq_plot hshape hcells hroom, rows_plot hcells⟩

end Rectangle

/-- Without room there is no raster, wherever the cells lie. -/
theorem ofCells_of_no_room [Machine] {e : RoomError}
    (hroom : hasRoom .int8 [(shape cells).1, (shape cells).2] = .error e) :
    ofCells cells = .error (.room e) := by
  unfold ofCells
  simp only [hroom]
  rfl

end Raster

/-! ### Signs between separators -/

namespace Raster

/-- A row is its signs with single spaces between them. -/
theorem toList_rowText (row : List CellState) :
    (rowText row).toList = [' '].intercalate (row.map fun s => [s.symbol]) := by
  rw [rowText, String.toList_intercalate, List.map_map]
  simp [Function.comp_def]

/-- A row can be split at its spaces. -/
theorem split_rowText {row : List CellState} (hne : row ≠ []) :
    split ' ' (rowText row).toList = row.map fun s => [s.symbol] := by
  rw [toList_rowText]
  apply split_intercalate (by simpa using hne)
  intro part hpart
  obtain ⟨s, -, rfl⟩ := List.mem_map.mp hpart
  cases s <;> decide

/-- No row goes over the end of its line. -/
theorem newline_not_mem_rowText (row : List CellState) : '\n' ∉ (rowText row).toList := by
  rw [toList_rowText]
  intro h
  rcases mem_or_mem_of_mem_intercalate h with h | ⟨part, hpart, h⟩
  · exact absurd h (by decide)
  · obtain ⟨s, -, rfl⟩ := List.mem_map.mp hpart
    revert h
    cases s <;> decide

/-- Splitting a text at the ends of its lines and at its spaces gives its signs. -/
theorem split_text {r : Raster} (hne : r.rows ≠ []) (hrows : ∀ row ∈ r.rows, row ≠ []) :
    (split '\n' r.text.toList).map (split ' ')
      = r.rows.map (·.map fun s => [s.symbol]) := by
  -- the lines come apart because no line end stands within one
  have hlines : split '\n' r.text.toList = r.rows.map fun row => (rowText row).toList := by
    rw [text, String.toList_intercalate, List.map_map]
    apply split_intercalate (by simpa using hne)
    intro line hline
    obtain ⟨row, -, rfl⟩ := List.mem_map.mp hline
    exact newline_not_mem_rowText row
  rw [hlines, List.map_map]
  apply List.map_congr_left
  intro row hrow
  exact split_rowText (hrows row hrow)

end Raster

/-! ### Reading a text -/

def CellState.ofSymbol? (c : Char) : Option CellState := all.find? (·.symbol = c)

/-- No two states have the same sign. -/
theorem CellState.ofSymbol?_symbol (s : CellState) : ofSymbol? s.symbol = some s := by
  cases s <;> decide

theorem CellState.ofSymbol?_of_isSeparator {c : Char} (h : isSeparator c) :
    ofSymbol? c = none := by
  rw [isSeparator, Bool.or_eq_true, decide_eq_true_eq, decide_eq_true_eq] at h
  rcases h with rfl | rfl <;> decide

def readStates (text : String) : List CellState := text.toList.filterMap CellState.ofSymbol?

/-- The text of a grid in reading order tells the states of its cells. -/
theorem readStates_gridText [Machine] {cells : List Cell} {height width : Nat} {text : String}
    (h : cells.map Cell.spot = readingOrder width height) (htext : gridText cells = .ok text) :
    readStates text = cells.map (·.state) := by
  -- what is no sign is passed over either way
  have hsigns : readStates text
      = (text.toList.filter (!isSeparator ·)).filterMap CellState.ofSymbol? := by
    rw [List.filterMap_filter]
    apply List.filterMap_congr
    intro c _
    cases hc : isSeparator c with
    | false => simp
    | true => simp [CellState.ofSymbol?_of_isSeparator hc]
  rw [hsigns, gridText_of_readingOrder h htext, List.filterMap_map]
  simp [CellState.ofSymbol?_symbol]

/-! ### Rasters and their texts -/

/-- Cells without negative coordinates have a raster and a text exactly if there is room for the
rectangle of their greatest coordinates. Both show in every place the last cell there, and the text
of a complete grid tells the states of its cells. -/
theorem gridText_picture [Machine] {cells : List Cell} (hne : cells ≠ [])
    (hcells : ∀ c ∈ cells, 0 ≤ c.x ∧ 0 ≤ c.y) :
    ∃ right bottom : Nat,
      (cells.map (·.x)).max? = some (right : Int) ∧ (cells.map (·.y)).max? = some (bottom : Int) ∧
      ((bottom + 1) * (right + 1) ≤ Machine.memory → ∃ r text,
        Raster.ofCells cells = .ok r ∧ gridText cells = .ok text ∧
        r.codes = picture CellState.code cells (bottom + 1) (right + 1) ∧
        (split '\n' text.toList).map (split ' ')
          = picture (fun s => [s.symbol]) cells (bottom + 1) (right + 1) ∧
        ∀ width height, cells.map Cell.spot = readingOrder width height →
          readStates text = cells.map (·.state)) ∧
      (Machine.memory < (bottom + 1) * (right + 1) → ∃ e,
        hasRoom .int8 [(bottom + 1 : Nat), (right + 1 : Nat)] = .error e ∧
        Raster.ofCells cells = .error (.room e) ∧ gridText cells = .error (.room e)) := by
  obtain ⟨right, hright, hx⟩ := exists_greatest hne fun c hc => (hcells c hc).1
  obtain ⟨bottom, hbottom, hy⟩ := exists_greatest hne fun c hc => (hcells c hc).2
  have hshape : shape cells = (((bottom + 1 : Nat) : Int), ((right + 1 : Nat) : Int)) :=
    shape_of_max? hbottom hright
  -- both coordinates are natural numbers, and none of them is above the greatest
  have hplaces : ∀ c ∈ cells,
      ∃ y < bottom + 1, ∃ x < right + 1, ((x : Int), (y : Int)) = c.spot := by
    intro c hc
    obtain ⟨x, hcx⟩ := Int.eq_ofNat_of_zero_le (hcells c hc).1
    obtain ⟨y, hcy⟩ := Int.eq_ofNat_of_zero_le (hcells c hc).2
    have hxc := hx c hc
    have hyc := hy c hc
    exact ⟨y, by omega, x, by omega, Prod.ext hcx.symm hcy.symm⟩
  refine ⟨right, bottom, hright, hbottom, ?_, ?_⟩
  · intro hsize
    have hroom := hasRoom_raster (Nat.succ_pos bottom) (Nat.succ_pos right) hsize
    obtain ⟨r, hr, hrows⟩ := Raster.ofCells_of_room hplaces hshape hroom
    have htext : gridText cells = .ok r.text := map_eq_ok.mpr ⟨r, hr, rfl⟩
    refine ⟨r, r.text, hr, htext, ?_, ?_, fun width height h => readStates_gridText h htext⟩
    · rw [Raster.codes, hrows, map_map_picture]
      rfl
    · rw [Raster.split_text, hrows, map_map_picture]
      · rfl
      · rw [hrows]
        exact picture_ne_nil id cells (Nat.succ_pos bottom) _
      · rw [hrows]
        exact fun row hrow => ne_nil_of_mem_picture (Nat.succ_pos right) hrow
  · intro hsize
    -- too many places leave no room, for whatever reason
    cases hroom : hasRoom .int8 [((bottom + 1 : Nat) : Int), ((right + 1 : Nat) : Int)] with
    | ok _ => exact absurd (hasRoom_raster_iff.mp hroom).2 (Nat.not_le.mpr hsize)
    | error e =>
        have hraster := Raster.ofCells_of_no_room (by rw [hshape]; exact hroom)
        refine ⟨e, rfl, hraster, ?_⟩
        rw [gridText, hraster]
        rfl

/-- Two cells lie on top of each other, and a column and a row are left out. -/
theorem gridText_picture_overlaid :
    let cells : List Cell := [{ x := 2, y := 0, state := .active },
      { x := 0, y := 2, state := .pointer }, { x := 2, y := 0, state := .dropped }]
    cells ≠ [] ∧ (∀ c ∈ cells, 0 ≤ c.x ∧ 0 ≤ c.y) ∧ ∃ text, gridText cells = .ok text ∧
      (split '\n' text.toList).map (split ' ')
        = [[['.'], ['.'], ['x']], [['.'], ['.'], ['.']], [['>'], ['.'], ['.']]] := by
  intro cells
  have hne : cells ≠ [] := List.cons_ne_nil _ _
  have hcells : ∀ c ∈ cells, 0 ≤ c.x ∧ 0 ≤ c.y := by decide
  obtain ⟨right, bottom, hright, hbottom, hshown, -⟩ := gridText_picture hne hcells
  have hmax : (cells.map (·.x)).max? = some ((2 : Nat) : Int) := by decide
  have hmax' : (cells.map (·.y)).max? = some ((2 : Nat) : Int) := by decide
  obtain rfl : right = 2 := Int.ofNat.inj (Option.some.inj (hright.symm.trans hmax))
  obtain rfl : bottom = 2 := Int.ofNat.inj (Option.some.inj (hbottom.symm.trans hmax'))
  obtain ⟨_, text, -, htext, -, hsigns, -⟩ := hshown (by decide)
  refine ⟨hne, hcells, text, htext, hsigns.trans ?_⟩
  decide

/-- A single cell that lies too far to the right for a raster of integers of 64 bits. -/
theorem gridText_too_wide :
    let cells : List Cell := [{ x := 9223372036854775807, y := 0, state := .active }]
    cells ≠ [] ∧ (∀ c ∈ cells, 0 ≤ c.x ∧ 0 ≤ c.y) ∧
      Raster.ofCells cells = .error (.room .dimensionTooLarge) ∧
      gridText cells = .error (.room .dimensionTooLarge) := by
  decide +kernel

end CellAtlas
