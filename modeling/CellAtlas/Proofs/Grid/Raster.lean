import CellAtlas.Grid.Raster
import CellAtlas.Grid.Stats
import CellAtlas.Proofs.Except
import CellAtlas.Proofs.Grid.ReadingOrder
import Mathlib.Algebra.Group.Nat.Defs

/-!
# Rasters show the cells

A raster has at each place the state of the last cell there (`states_plot`). When the cells come in
reading order there is one for each place, so that the raster has their states one after the other
and its text, but for the separators, their signs (`gridText_of_readingOrder`). What the text shows
is then what the statistics count (`count_symbol_gridText`).

Whether there is a text depends on where the cells lie and not on their states
(`Drawable.of_spots`); cells in reading order have one unless there are too many of them
(`drawable_iff_of_readingOrder`).
-/

namespace CellAtlas

/-! ### Plotting -/

namespace Raster

/-- A raster has a state for each of its places. -/
theorem size_states_plot (height width : Nat) (states : List (Nat × CellState)) :
    (plot height width states).states.size = height * width := by
  unfold plot
  induction states using List.reverseRecOn with
  | nil => simp
  | append_singleton states s ih => simpa [List.foldl_append] using ih

/-- The last state that is written to a place stays there; where none is written it is empty. -/
theorem states_plot (states : List (Nat × CellState)) {height width i : Nat}
    (hi : i < height * width) :
    (plot height width states).states.getD i .empty = (states.reverse.lookup i).getD .empty := by
  -- on the writes before the last one, which either is to the place or does not matter to it
  induction states using List.reverseRecOn with
  | nil => simp [plot, hi]
  | append_singleton states s ih =>
      obtain ⟨place, state⟩ := s
      have hsize := size_states_plot height width states
      -- writes to a place beyond the end are lost
      have hplot : (plot height width (states ++ [(place, state)])).states
          = (plot height width states).states.setIfInBounds place state := by
        simp [plot, List.foldl_append]
      rw [hplot, List.reverse_append, List.reverse_singleton, List.singleton_append]
      by_cases hplace : i = place
      · subst hplace
        simp [hsize, hi]
      · have hne : (i == place) = false := beq_eq_false_iff_ne.mpr hplace
        rw [List.lookup_cons, hne, ← ih]
        simp [Array.getElem?_setIfInBounds_ne (Ne.symm hplace)]

/-- The rows one after the other are all the states. -/
theorem flatten_rows {r : Raster} (h : r.states.size = r.height * r.width) :
    r.rows.flatten = r.states.toList := by
  rw [rows, ← List.flatMap_def,
    flatMap_range_map_range (fun i => r.states.getD i CellState.empty), ← h]
  apply List.ext_getElem
  · simp
  · intro i hi hi'
    have hsize : i < r.states.size := hi'
    simp [hsize]

end Raster

/-! ### Places -/

/-- A natural number is an integer of 64 bits if it is below 2^63. -/
theorem isWord_natCast {n : Nat} : isWord n = true ↔ n < 2 ^ 63 := by
  have hmin : Int64.minValue.toInt ≤ 0 := by decide
  have hmax : Int64.maxValue.toInt = 2 ^ 63 - 1 := by decide
  unfold isWord
  rw [hmax, Bool.and_eq_true, decide_eq_true_eq, decide_eq_true_eq]
  omega

theorem Machine.memory_lt [Machine] : memory < 2 ^ 63 := isWord_natCast.mp addressable

/-- There is room for a raster that does not have too many places. -/
theorem hasRoom_raster_iff [Machine] {height width : Nat} :
    hasRoom .int8 [(height : Int), (width : Int)] = .ok () ↔
      (height < 2 ^ 63 ∧ width < 2 ^ 63) ∧ height * width ≤ Machine.memory := by
  have hbytes : Room.bytes .int8 [(height : Int), (width : Int)] = height * width := by
    show 1 * (1 * height * width) = height * width
    rw [Nat.one_mul, Nat.one_mul]
  -- what fits into memory can be counted
  have hword : height * width ≤ Machine.memory → isWord ((height * width : Nat) : Int) = true :=
    fun h => isWord_natCast.mpr (Nat.lt_of_le_of_lt h Machine.memory_lt)
  have hnonneg : ¬ ((height : Int) < 0 ∨ (width : Int) < 0) := by omega
  rw [hasRoom, hbytes, ← isWord_natCast, ← isWord_natCast]
  generalize height * width = size at hword ⊢
  by_cases hsize : size ≤ Machine.memory
  · simp only [hword hsize, Nat.not_lt.mpr hsize]
    grind
  · grind

/-- With both dimensions positive, neither of them is above the number of places. -/
theorem hasRoom_raster [Machine] {height width : Nat} (hheight : 0 < height) (hwidth : 0 < width)
    (hsize : height * width ≤ Machine.memory) :
    hasRoom .int8 [(height : Int), (width : Int)] = .ok () := by
  have hlt : height * width < 2 ^ 63 := Nat.lt_of_le_of_lt hsize Machine.memory_lt
  have hheightLe : height ≤ height * width := Nat.le_mul_of_pos_right height hwidth
  have hwidthLe : width ≤ height * width := Nat.le_mul_of_pos_left width hheight
  exact hasRoom_raster_iff.mpr ⟨by omega, hsize⟩

/-- The shape is read off the greatest coordinates. -/
theorem shape_of_max? {cells : List Cell} {x y : Int}
    (hy : (cells.map (·.y)).max? = some y) (hx : (cells.map (·.x)).max? = some x) :
    shape cells = (y + 1, x + 1) := by
  cases cells with
  | nil => cases hy
  | cons c rest =>
      rw [List.map_cons, List.max?_cons', List.foldl_map, Option.some.injEq] at hx hy
      rw [shape, hx, hy]

namespace Raster

theorem place_natCast {axis size n : Nat} (h : n < size) : place axis size n = .ok n := by
  have hbounds : -(size : Int) ≤ n ∧ (n : Int) < size := by omega
  have hneg : ¬ (n : Int) < 0 := by omega
  rw [place, if_pos hbounds, if_neg hneg, Int.toNat_natCast]

/-- A cell that lies in the rectangle has the number of its place. -/
theorem placeOf_natCast {height width x y : Nat} {c : Cell}
    (hspot : c.spot = ((x : Int), (y : Int))) (hx : x < width) (hy : y < height)
    (hxWord : x < 2 ^ 63) (hyWord : y < 2 ^ 63) :
    placeOf height width c = .ok (y * width + x) := by
  obtain ⟨hcx, hcy⟩ := Prod.mk.inj hspot
  unfold placeOf
  rw [hcx, hcy, isWord_natCast.mpr hxWord, isWord_natCast.mpr hyWord, place_natCast hx,
    place_natCast hy]
  rfl

/-- The place of a cell in a raster of some width. -/
def indexOf (width : Nat) (c : Cell) : Nat := c.y.toNat * width + c.x.toNat

/-- Cells that lie in the rectangle of their greatest coordinates are plotted there. -/
theorem ofCells_eq_plot [Machine] {cells : List Cell} {height width : Nat}
    (hshape : shape cells = ((height : Int), (width : Int)))
    (hcells : ∀ c ∈ cells, ∃ y < height, ∃ x < width, ((x : Int), (y : Int)) = c.spot)
    (hroom : hasRoom .int8 [(height : Int), (width : Int)] = .ok ()) :
    ofCells cells = .ok (plot height width (cells.map fun c => (indexOf width c, c.state))) := by
  obtain ⟨⟨hheight, hwidth⟩, -⟩ := hasRoom_raster_iff.mp hroom
  -- the places are those of the cells, and none of them is out of bounds
  have hplace : ∀ c ∈ cells, (placeOf height width c).map (fun place => (place, c.state))
      = .ok (indexOf width c, c.state) := by
    intro c hc
    obtain ⟨y, hy, x, hx, hspot⟩ := hcells c hc
    obtain ⟨hcx, hcy⟩ := Prod.mk.inj hspot
    rw [placeOf_natCast hspot.symm hx hy (by omega) (by omega), indexOf, ← hcx, ← hcy]
    rfl
  unfold ofCells
  rw [hshape]
  simp only [Int.toNat_natCast, hroom, mapM_eq_ok hplace]
  rfl

end Raster

/-! ### Text -/

/-- The characters that stand between the signs of a text. -/
def isSeparator (c : Char) : Bool := c = ' ' || c = '\n'

/-- No sign is a space or a line end. -/
theorem isSeparator_symbol (s : CellState) : isSeparator s.symbol = false := by
  cases s <;> decide

/-- The states have different signs. -/
theorem symbol_injective {s t : CellState} (h : s.symbol = t.symbol) : s = t := by
  revert h
  cases s <;> cases t <;> decide

namespace Raster

/-- The signs of a row, without what stands between them. -/
theorem filter_rowText (row : List CellState) :
    (rowText row).toList.filter (!isSeparator ·) = row.map CellState.symbol := by
  have hsign : ∀ s : CellState, s.symbol.toString.toList.filter (!isSeparator ·) = [s.symbol] := by
    intro s
    cases s <;> decide
  rw [rowText, String.toList_intercalate, filter_intercalate (by decide), List.map_map,
    List.flatMap_map, List.map_eq_flatMap]
  apply List.flatMap_congr
  intro s _
  exact hsign s

/-- What stands between the separators are the signs of the states. -/
theorem filter_text (r : Raster) :
    r.text.toList.filter (!isSeparator ·) = r.rows.flatten.map CellState.symbol := by
  rw [text, String.toList_intercalate, filter_intercalate (by decide), List.map_map,
    List.flatMap_map, List.map_flatten, ← List.flatMap_def]
  apply List.flatMap_congr
  intro row _
  exact filter_rowText row

end Raster

/-! ### Grids that can be drawn -/

def Drawable [Machine] (cells : List Cell) : Prop := ∃ text, gridText cells = .ok text

theorem drawable_nil [Machine] : Drawable [] := ⟨"", rfl⟩

/-- A grid can be drawn if there is room for its raster and every cell has its place there. -/
theorem drawable_iff [Machine] {cells : List Cell} :
    Drawable cells ↔
      hasRoom .int8 [(shape cells).1, (shape cells).2] = .ok () ∧
      ∀ c ∈ cells, ∃ place,
        Raster.placeOf (shape cells).1.toNat (shape cells).2.toNat c = .ok place := by
  -- each cell has its place if all of them have
  have hplaces : (∀ c ∈ cells, ∃ place,
        Raster.placeOf (shape cells).1.toNat (shape cells).2.toNat c = .ok place) ↔
      ∃ states, (cells.mapM fun c =>
        (Raster.placeOf (shape cells).1.toNat (shape cells).2.toNat c).map fun place =>
          (place, c.state)) = .ok states := by
    rw [exists_mapM_eq_ok]
    simp
  rw [hplaces, Drawable, gridText, Raster.ofCells]
  simp only [map_eq_ok, bind_eq_ok, mapError_eq_ok]
  constructor
  · rintro ⟨_, _, ⟨⟨⟩, hroom, states, hstates, -⟩, -⟩
    exact ⟨hroom, states, hstates⟩
  · rintro ⟨hroom, states, hstates⟩
    exact ⟨_, _, ⟨(), hroom, states, hstates, rfl⟩, rfl⟩

/-- The shape depends on where the cells lie. -/
theorem shape_of_spots {cells later : List Cell}
    (hspots : later.map Cell.spot = cells.map Cell.spot) : shape later = shape cells := by
  have hshape : ∀ cells : List Cell, shape cells = match cells.map Cell.spot with
      | [] => (0, 0)
      | s :: rest => (rest.foldl (fun m s => max m s.2) s.2 + 1,
          rest.foldl (fun m s => max m s.1) s.1 + 1) := by
    intro cells
    cases cells with
    | nil => rfl
    | cons c rest => simp only [List.map_cons, List.foldl_map, shape, Cell.spot]
  rw [hshape, hshape, hspots]

theorem Raster.placeOf_of_spot {c d : Cell} (h : d.spot = c.spot) (height width : Nat) :
    placeOf height width d = placeOf height width c := by
  obtain ⟨hx, hy⟩ := Prod.mk.inj h
  unfold placeOf
  rw [hx, hy]

/-- Whether a grid can be drawn depends on where its cells lie, and not on their states. -/
theorem Drawable.of_spots [Machine] {cells later : List Cell} (h : Drawable cells)
    (hspots : later.map Cell.spot = cells.map Cell.spot) : Drawable later := by
  rw [drawable_iff] at h ⊢
  rw [shape_of_spots hspots]
  refine ⟨h.1, ?_⟩
  intro d hd
  obtain ⟨c, hc, hspot⟩ := List.mem_map.mp (hspots ▸ List.mem_map_of_mem hd)
  rw [← Raster.placeOf_of_spot hspot]
  exact h.2 c hc

/-! ### Reading order -/

section ReadingOrder

variable {cells : List Cell} {height width : Nat}
  (h : cells.map Cell.spot = readingOrder width height)

include h

/-- The last place has the greatest coordinates. -/
theorem shape_of_readingOrder (hheight : 0 < height) (hwidth : 0 < width) :
    shape cells = ((height : Int), (width : Int)) := by
  have hspots : ∀ spot ∈ cells.map Cell.spot,
      ∃ y < height, ∃ x < width, ((x : Int), (y : Int)) = spot := by
    intro spot hspot
    exact mem_readingOrder.mp (h ▸ hspot)
  -- the last place is on the grid, and no other one is further to the right or further down
  have hlast : (((width - 1 : Nat) : Int), ((height - 1 : Nat) : Int)) ∈ cells.map Cell.spot := by
    rw [h]
    exact mem_readingOrder.mpr ⟨height - 1, by omega, width - 1, by omega, rfl⟩
  obtain ⟨last, hmem, hspot⟩ := List.mem_map.mp hlast
  obtain ⟨hx, hy⟩ := Prod.mk.inj hspot
  have hymax : (cells.map (·.y)).max? = some last.y := by
    rw [List.max?_eq_some_iff, List.forall_mem_map]
    refine ⟨List.mem_map_of_mem hmem, ?_⟩
    intro c hc
    obtain ⟨y, hyc, x, -, heq⟩ := hspots _ (List.mem_map_of_mem hc)
    have hcy : (y : Int) = c.y := congrArg Prod.snd heq
    omega
  have hxmax : (cells.map (·.x)).max? = some last.x := by
    rw [List.max?_eq_some_iff, List.forall_mem_map]
    refine ⟨List.mem_map_of_mem hmem, ?_⟩
    intro c hc
    obtain ⟨y, -, x, hxc, heq⟩ := hspots _ (List.mem_map_of_mem hc)
    have hcx : (x : Int) = c.x := congrArg Prod.fst heq
    omega
  rw [shape_of_max? hymax hxmax, hx, hy, Prod.mk.injEq]
  omega

/-- The places of the cells are numbered in turn. -/
theorem map_indexOf_of_readingOrder :
    cells.map (Raster.indexOf width) = List.range (height * width) := by
  have hindex : cells.map (Raster.indexOf width)
      = (readingOrder width height).map fun spot => spot.2.toNat * width + spot.1.toNat := by
    rw [← h, List.map_map]
    rfl
  rw [hindex, readingOrder_eq_spots, spots, ← List.range_eq_range', List.map_map]
  conv_rhs => rw [← List.map_id (List.range (height * width))]
  apply List.map_congr_left
  intro p _
  exact Nat.div_add_mod' p width

/-- The place of number `i` is written to once, with the state of the cell of that number. -/
theorem lookup_indexOf_of_readingOrder {i : Nat} {c : Cell} (hc : cells[i]? = some c) :
    (cells.map fun c => (Raster.indexOf width c, c.state)).reverse.lookup i = some c.state := by
  have hkeys : (cells.map fun c => (Raster.indexOf width c, c.state)).map (·.1)
      = List.range (height * width) := by
    rw [List.map_map]
    exact map_indexOf_of_readingOrder h
  -- no place is written to twice, so the order of the writes does not matter
  apply lookup_of_nodup_keys
  · rw [List.map_reverse, hkeys, List.nodup_reverse]
    exact List.nodup_range
  · have hindex : Raster.indexOf width c = i := by
      have hlt : i < height * width := by
        rw [← length_of_readingOrder h]
        exact (List.getElem?_eq_some_iff.mp hc).1
      have hget := congrArg (·[i]?) (map_indexOf_of_readingOrder h)
      simp only [List.getElem?_map, hc, List.getElem?_range hlt] at hget
      exact Option.some.inj hget
    rw [List.mem_reverse]
    exact List.mem_map.mpr ⟨c, List.mem_of_getElem? hc, by rw [hindex]⟩

variable [Machine]

/-- The raster has the states of the cells one after the other. -/
theorem ofCells_of_readingOrder (hsize : height * width ≤ Machine.memory) :
    ∃ r, Raster.ofCells cells = .ok r ∧ r.rows.flatten = cells.map (·.state) := by
  have hlength := length_of_readingOrder h
  rcases Nat.eq_zero_or_pos (height * width) with hzero | hpos
  -- no cells, and a raster without rows
  · have hnil : cells = [] := List.eq_nil_of_length_eq_zero (hlength.trans hzero)
    rw [hnil]
    exact ⟨Raster.plot 0 0 [], rfl, rfl⟩
  · have hheight : 0 < height := Nat.pos_of_mul_pos_right hpos
    have hwidth : 0 < width := Nat.pos_of_mul_pos_left hpos
    have hplaces : ∀ c ∈ cells,
        ∃ y < height, ∃ x < width, ((x : Int), (y : Int)) = c.spot := by
      intro c hc
      exact mem_readingOrder.mp (h ▸ List.mem_map_of_mem hc)
    have hindex := map_indexOf_of_readingOrder h
    refine ⟨_, Raster.ofCells_eq_plot (shape_of_readingOrder h hheight hwidth) hplaces
      (hasRoom_raster hheight hwidth hsize), ?_⟩
    have hsize := Raster.size_states_plot height width
      (cells.map fun c => (Raster.indexOf width c, c.state))
    rw [Raster.flatten_rows hsize]
    -- the states are compared place by place
    apply List.ext_getElem
    · rw [List.length_map, hlength]
      exact hsize
    · intro i hi hi'
      have hlt : i < height * width := Nat.lt_of_lt_of_eq hi hsize
      have hcell : cells[i]? = some cells[i] := List.getElem?_eq_getElem _
      rw [Array.getElem_toList, Array.getElem_eq_getD .empty, Raster.states_plot _ hlt,
        lookup_indexOf_of_readingOrder h hcell, List.getElem_map]
      rfl

/-- A complete grid can be drawn unless it has more cells than there is memory. -/
theorem drawable_iff_of_readingOrder : Drawable cells ↔ height * width ≤ Machine.memory := by
  constructor
  · intro hdrawable
    rcases Nat.eq_zero_or_pos (height * width) with hzero | hpos
    · omega
    · obtain ⟨hroom, -⟩ := drawable_iff.mp hdrawable
      rw [shape_of_readingOrder h (Nat.pos_of_mul_pos_right hpos) (Nat.pos_of_mul_pos_left hpos)]
        at hroom
      exact (hasRoom_raster_iff.mp hroom).2
  · intro hsize
    obtain ⟨r, hr, -⟩ := ofCells_of_readingOrder h hsize
    exact ⟨r.text, map_eq_ok.mpr ⟨r, hr, rfl⟩⟩

variable {text : String} (htext : gridText cells = .ok text)

include htext

/-- The text shows the signs of the states, but for its separators. -/
theorem gridText_of_readingOrder :
    text.toList.filter (!isSeparator ·) = cells.map (·.state.symbol) := by
  obtain ⟨r, hr, hstates⟩ :=
    ofCells_of_readingOrder h ((drawable_iff_of_readingOrder h).mp ⟨text, htext⟩)
  rw [gridText, hr] at htext
  cases htext
  rw [Raster.filter_text, hstates, List.map_map]
  rfl

/-- A sign stands in the text as often as cells have its state. -/
theorem count_symbol_gridText (s : CellState) :
    text.toList.count s.symbol = countState cells s := by
  have hkept : (!isSeparator s.symbol) = true := by rw [isSeparator_symbol, Bool.not_false]
  rw [← List.count_filter (p := (!isSeparator ·)) hkept, gridText_of_readingOrder h htext,
    List.count, List.countP_map, countState]
  apply List.countP_congr
  intro c _
  simp only [Function.comp_apply, beq_iff_eq, decide_eq_true_eq]
  exact ⟨symbol_injective, congrArg CellState.symbol⟩

end ReadingOrder

end CellAtlas
