import CellAtlas.Grid.Layout
import CellAtlas.Proofs.Except
import CellAtlas.Proofs.Grid.ReadingOrder
import CellAtlas.Proofs.Number.Rounding
import CellAtlas.Proofs.Random.Generator

/-!
# Layouts fill the grid in reading order

Whatever the structures are and however the cells are drawn, the cells of a layout come in reading
order and leave out no place of the grid (`layout_spots`):

    rows of the 1st structure | rows of the 2nd | … | filling

Each structure paints a stretch of places that starts where the one before it ends, as long as the
numbers of rows are not negative, and the filling starts where the last one ends. A layout exists as
soon as the numbers of rows do (`layout_ok`), and they do for all instance counts below 2^53 and
grids that are not too large (`rowsFor_ok`).
-/

namespace CellAtlas

open CellAtlas.Random

/-! ### Painting -/

/-- A brush paints its cell where it is told to. -/
def Brush.Faithful (brush : Brush) : Prop := ∀ x y state, (brush x y state).spot = (x, y)

theorem demoBrush_faithful : Brush.Faithful demoBrush := fun _ _ _ => rfl

theorem structureBrush_faithful (name : String) : (structureBrush name).Faithful :=
  fun _ _ _ => rfl

section Painting

variable {brush : Brush} (hbrush : brush.Faithful) (ratios : Ratios) (width : Nat)

include hbrush

/-- A row is painted from left to right. -/
theorem paintRow_spots (y : Nat) (g : Generator) :
    (paintRow brush ratios width y g).1.map Cell.spot = spots width (y * width) width := by
  rw [spots_row]
  apply List.ext_getElem
  · simp [paintRow, Generator.length_uniforms]
  · intro x hx hx'
    simp only [paintRow, List.getElem_map, List.getElem_mapIdx, List.getElem_range]
    exact hbrush _ _ _

/-- Rows are painted from the first one downwards. -/
theorem paintRows_spots (y n : Nat) (g : Generator) :
    (paintRows brush ratios width y n g).1.map Cell.spot = spots width (y * width) (n * width) := by
  induction n generalizing y g with
  | zero =>
      rw [Nat.zero_mul]
      rfl
  | succ n ih =>
      -- the induction is on the rows below the first one
      have hrest := ih (y + 1) (paintRow brush ratios width y g).2
      rw [Nat.cast_succ] at hrest
      rw [paintRows, List.map_append, paintRow_spots hbrush, hrest, Nat.succ_mul, Nat.succ_mul,
        Nat.add_comm (n * width), spots_add]

end Painting

/-! ### Structures -/

/-- Where a structure has rows there must be room for the draws of one. -/
theorem paintStructure_eq_ok [Machine] {config : GridConfig} {c : Classified} {y : Int} {rows : Nat}
    {g : Generator} {painted : List Cell × Generator} :
    paintStructure config c y rows g = .ok painted ↔
      (0 < rows → hasRoom .float64 [config.width] = .ok ()) ∧
      paintRows (structureBrush c.name) (config.ratios.scale c.category.factors)
        config.width.toNat y rows g = painted := by
  unfold paintStructure
  by_cases hrows : 0 < rows
  · simp [hrows, pure, Except.pure, Unique.exists_iff]
  · simp [hrows, pure, Except.pure]

section Structures

variable [Machine] {config : GridConfig} {cellsPerInstance : Binary64} {cursor : Int}
  {c : Classified} {structures : List Classified} {g : Generator} {cells : List Cell}

/-- Below the grid nothing is painted. -/
theorem layStructures_of_le (h : config.height ≤ cursor) (structures : List Classified)
    (g : Generator) : layStructures config cellsPerInstance cursor structures g = .ok [] := by
  cases structures with
  | nil => rfl
  | cons c rest => rw [layStructures, if_pos h]

/-- On the grid a structure is painted, and the others after it. -/
theorem layStructures_cons_eq_ok (h : cursor < config.height) :
    layStructures config cellsPerInstance cursor (c :: structures) g = .ok cells ↔
      ∃ rows painted more, rowsFor c.instanceCount cellsPerInstance config.width = .ok rows ∧
        paintStructure config c cursor (min (cursor + rows) config.height - cursor).toNat g
          = .ok painted ∧
        layStructures config cellsPerInstance (cursor + rows) structures painted.2 = .ok more ∧
        painted.1 ++ more = cells := by
  rw [layStructures, if_neg (Int.not_le.mpr h)]
  simp [pure, Except.pure]

/-- The structures paint a stretch of whole rows from the cursor on, all of them on the grid. -/
theorem layStructures_spots {width height : Nat} (row : Nat) (hwidth : config.width = width)
    (hheight : config.height = height)
    (hrows : ∀ c ∈ structures, ∀ rows,
      rowsFor c.instanceCount cellsPerInstance config.width = .ok rows → 0 ≤ rows)
    (h : layStructures config cellsPerInstance row structures g = .ok cells) :
    ∃ n, cells.map Cell.spot = spots width (row * width) (n * width) ∧
      (n = 0 ∨ row + n ≤ height) := by
  induction structures generalizing row g cells with
  | nil =>
      cases h
      exact ⟨0, by simp, .inl rfl⟩
  | cons c rest ih =>
      rcases Int.lt_or_le (row : Int) config.height with hlt | hle
      · obtain ⟨rows, painted, more, hrow, hpainted, hmore, rfl⟩ :=
          (layStructures_cons_eq_ok hlt).mp h
        obtain ⟨count, rfl⟩ := Int.eq_ofNat_of_zero_le
          (hrows c List.mem_cons_self rows hrow)
        rw [← Nat.cast_add] at hmore
        obtain ⟨n, hspots, hn⟩ :=
          ih (row + count) (fun d hd => hrows d (List.mem_cons_of_mem _ hd)) hmore
        -- as much of the structure is painted as the grid has rows left
        have hcells : painted.1.map Cell.spot = spots width (row * width)
            ((min (row + count) height - row) * width) := by
          obtain ⟨-, rfl⟩ := paintStructure_eq_ok.mp hpainted
          rw [paintRows_spots (structureBrush_faithful c.name), hwidth, hheight]
          congr 2
          omega
        rw [hheight] at hlt
        rw [List.map_append, hcells, hspots]
        rcases Nat.le_or_ge (row + count) height with hfits | hfull
        -- all rows of the structure are on the grid
        · refine ⟨count + n, ?_, ?_⟩
          · rw [Nat.min_eq_left hfits, Nat.add_sub_cancel_left, Nat.add_mul count, spots_add,
              Nat.add_mul]
          · omega
        -- the grid ends within the structure, and the others paint nothing
        · have hnone : n = 0 := by omega
          refine ⟨height - row, ?_, ?_⟩
          · rw [Nat.min_eq_right hfull, hnone, Nat.zero_mul, spots_zero, List.append_nil]
          · omega
      · rw [layStructures_of_le hle] at h
        cases h
        exact ⟨0, by simp, .inl rfl⟩

/-- Nothing stops a layout if every structure can tell its rows and there is room to draw one. -/
theorem layStructures_ok (cursor : Int) (g : Generator)
    (hroom : hasRoom .float64 [config.width] = .ok ())
    (hrows : ∀ c ∈ structures, ∃ rows,
      rowsFor c.instanceCount cellsPerInstance config.width = .ok rows) :
    ∃ cells, layStructures config cellsPerInstance cursor structures g = .ok cells := by
  induction structures generalizing cursor g with
  | nil => exact ⟨[], rfl⟩
  | cons c rest ih =>
      rcases Int.lt_or_le cursor config.height with hlt | hle
      · obtain ⟨rows, hrow⟩ := hrows c List.mem_cons_self
        -- each row has the same width, hence the same room
        have hpainted : ∃ painted, paintStructure config c cursor
            (min (cursor + rows) config.height - cursor).toNat g = .ok painted :=
          ⟨_, paintStructure_eq_ok.mpr ⟨fun _ => hroom, rfl⟩⟩
        obtain ⟨painted, hpainted⟩ := hpainted
        obtain ⟨more, hmore⟩ :=
          ih (cursor + rows) painted.2 fun d hd => hrows d (List.mem_cons_of_mem _ hd)
        exact ⟨_, (layStructures_cons_eq_ok hlt).mpr
          ⟨rows, painted, more, hrow, hpainted, hmore, rfl⟩⟩
      · exact ⟨[], layStructures_of_le hle _ g⟩

end Structures

/-! ### Numbers of rows -/

/-- A number of rows takes two conversions and a width that is not zero. -/
theorem rowsFor_eq_ok {count width rows : Int} {cellsPerInstance : Binary64} :
    rowsFor count cellsPerInstance width = .ok rows ↔
      ∃ n w, Binary64.fromInt count = .ok n ∧ Binary64.fromInt width = .ok w ∧ width ≠ 0 ∧
        (n * cellsPerInstance / w).ceil = .ok rows := by
  simp only [rowsFor, Binary64.divideByInt, bind_eq_ok]
  constructor
  · rintro ⟨n, hn, _, ⟨w, hw, hquotient⟩, hceil⟩
    -- the conversion of the width comes before the look at whether it is zero
    split at hquotient
    next => cases hquotient
    next hne =>
      cases hquotient
      exact ⟨n, w, hn, hw, hne, hceil⟩
  · rintro ⟨n, w, hn, hw, hne, hceil⟩
    exact ⟨n, hn, _, ⟨w, hw, if_neg hne⟩, hceil⟩

/-- Numbers without a minus sign do not make a negative number of rows. -/
theorem rowsFor_nonneg {count width rows : Int} {cellsPerInstance : Binary64} (hcount : 0 ≤ count)
    (hcells : cellsPerInstance.Unsigned) (hwidth : 0 ≤ width)
    (h : rowsFor count cellsPerInstance width = .ok rows) : 0 ≤ rows := by
  obtain ⟨n, w, hn, hw, -, hceil⟩ := rowsFor_eq_ok.mp h
  have hproduct := (Binary64.unsigned_fromInt hcount hn).mul hcells
  exact (hproduct.div (Binary64.unsigned_fromInt hwidth hw)).ceil_nonneg hceil

/-- Moderate numbers are calculated without an overflow, so that there is a number of rows. -/
theorem rowsFor_ok (count width : Nat) {b : Nat} {cellsPerInstance : Binary64}
    (hcount : count < 2 ^ 53) (hwidth : width < 2 ^ 53) (hpos : 0 < width)
    (hcells : cellsPerInstance.Within b) (hb : b < 2 ^ 64) :
    ∃ rows, rowsFor count cellsPerInstance width = .ok rows := by
  obtain ⟨n, hn, hnunits⟩ := Binary64.fromInt_natCast hcount
  obtain ⟨w, hw, hwunits⟩ := Binary64.fromInt_natCast hwidth
  -- a count below 2^53 and a share below 2^64 keep the product far below the greatest number
  have hproduct : (n * cellsPerInstance).Within (2 * (2 ^ 53 * b)) := by
    have hnwithin : n.Within (2 ^ 53) :=
      ⟨count * Binary64.unitsInOne, hnunits, Nat.mul_le_mul_right _ hcount.le⟩
    exact hnwithin.mul hcells (show 2 ^ 53 * b < 2 ^ 117 by omega) (by decide)
  have hunits : Binary64.unitsInOne ≤ width * Binary64.unitsInOne := Nat.le_mul_of_pos_left _ hpos
  have hquotient := hproduct.div hwunits hunits (show 2 * (2 ^ 53 * b) < 2 ^ 118 by omega)
    (by decide)
  obtain ⟨rows, hrows⟩ := hquotient.ceil
  exact ⟨rows, rowsFor_eq_ok.mpr ⟨n, w, hn, hw, by omega, hrows⟩⟩

/-! ### Whole grids -/

/-- A grid has no cells if one of its dimensions is not positive. -/
theorem size_eq (config : GridConfig) :
    config.size = config.height.toNat * config.width.toNat := by
  unfold GridConfig.size
  split
  next h =>
    rcases h with h | h
    · rw [Int.toNat_of_nonpos h, Nat.mul_zero]
    · rw [Int.toNat_of_nonpos h, Nat.zero_mul]
  next h =>
    rw [Int.toNat_mul (by omega) (by omega), Nat.mul_comm]

theorem pos_of_size_ne_zero {config : GridConfig} (h : config.size ≠ 0) :
    0 < config.width ∧ 0 < config.height := by
  unfold GridConfig.size at h
  split at h
  · exact absurd rfl h
  · omega

/-- Filling up goes on where the cells end. -/
theorem fillUp_spots {config : GridConfig} {cells : List Cell} {n : Nat}
    (hcells : cells.map Cell.spot = spots config.width.toNat 0 n) (hn : n ≤ config.size)
    (hwidth : 0 < config.width) :
    (fillUp config cells).map Cell.spot =
      readingOrder config.width.toNat config.height.toNat := by
  have hlength : cells.length = n := by
    rw [← List.length_map Cell.spot, hcells, length_spots]
  -- a place is found by division, of integers there and of natural numbers here
  have hfill : ((List.range' n (config.size - n)).map fun (i : Nat) =>
      fillerCell (i % config.width) (i / config.width)).map Cell.spot
        = spots config.width.toNat n (config.size - n) := by
    rw [spots, List.map_map]
    apply List.map_congr_left
    intro i _
    have hw : config.width = (config.width.toNat : Int) := by omega
    show ((i : Int) % config.width, (i : Int) / config.width) = spotAt config.width.toNat i
    rw [hw, spotAt]
    simp
  have hsum : n + (config.size - n) = config.height.toNat * config.width.toNat := by
    rw [Nat.add_sub_cancel' hn, size_eq]
  rw [fillUp, List.map_append, hlength, hcells, hfill, readingOrder_eq_spots, ← hsum, spots_add,
    Nat.zero_add]

section Layout

variable {structures : List Classified} {config : GridConfig} {seed : Option Int}
  {cells : List Cell}

theorem readingOrder_of_size_eq_zero (h : config.size = 0) :
    readingOrder config.width.toNat config.height.toNat = [] := by
  rw [readingOrder_eq_spots, ← size_eq, h, spots_zero]

/-- A demo grid has a cell for every place, in reading order. -/
theorem demoGrid_spots [Machine] (h : demoGrid config seed = .ok cells) :
    cells.map Cell.spot = readingOrder config.width.toNat config.height.toNat := by
  unfold demoGrid at h
  split at h
  next hsize =>
    cases h
    exact (readingOrder_of_size_eq_zero hsize).symm
  next =>
    -- the seed and the room only matter for whether there is a grid
    simp only [bind_eq_ok, pure, Except.pure, Except.ok.injEq] at h
    obtain ⟨g, -, -, -, rfl⟩ := h
    have hspots := paintRows_spots demoBrush_faithful config.ratios config.width.toNat 0
      config.height.toNat g
    rw [Nat.zero_mul, ← readingOrder_eq_spots] at hspots
    exact hspots

/-- A sum of counts that are not negative. -/
theorem totalInstances_nonneg (h : ∀ c ∈ structures, 0 ≤ c.instanceCount) :
    0 ≤ Classified.totalInstances structures := by
  induction structures with
  | nil => exact Int.le_refl 0
  | cons c rest ih =>
      have hhead := h c List.mem_cons_self
      have hrest := ih fun d hd => h d (List.mem_cons_of_mem _ hd)
      show 0 ≤ c.instanceCount + Classified.totalInstances rest
      omega

/-- None of the counts is above the sum. -/
theorem le_totalInstances (hcounts : ∀ c ∈ structures, 0 ≤ c.instanceCount) :
    ∀ c ∈ structures, c.instanceCount ≤ Classified.totalInstances structures := by
  induction structures with
  | nil => simp
  | cons d rest ih =>
      have hd := hcounts d List.mem_cons_self
      have hrest := totalInstances_nonneg fun e he => hcounts e (List.mem_cons_of_mem d he)
      have hsum : Classified.totalInstances (d :: rest)
          = d.instanceCount + Classified.totalInstances rest := rfl
      intro c hc
      rcases List.mem_cons.mp hc with rfl | hc
      · omega
      · have := ih (fun e he => hcounts e (List.mem_cons_of_mem d he)) c hc
        omega

/-- The sum of the counts, where zero counts as one, is not below any of them. -/
theorem exists_total (hcounts : ∀ c ∈ structures, 0 ≤ c.instanceCount) :
    ∃ total : Nat, (if Classified.totalInstances structures = 0 then 1
        else Classified.totalInstances structures) = total ∧ 0 < total ∧
      ∀ c ∈ structures, c.instanceCount ≤ total := by
  have hnonneg := totalInstances_nonneg hcounts
  have hle := le_totalInstances hcounts
  split
  next hzero => exact ⟨1, rfl, Nat.one_pos, fun c hc => by have := hle c hc; omega⟩
  next => exact ⟨(Classified.totalInstances structures).toNat, by omega, by omega,
    fun c hc => by have := hle c hc; omega⟩

/-- Without structures the demo grid is laid out. -/
theorem layout_nil [Machine] (config : GridConfig) (seed : Option Int) :
    layout [] config seed = demoGrid config seed := by
  rw [layout, demoGrid]
  split <;> rfl

/-- The number of cells that an instance claims, where no instances count as one. -/
def instanceShare (config : GridConfig) (structures : List Classified) :
    Except NumberError Binary64 :=
  let total := Classified.totalInstances structures
  Binary64.fromQuotient config.size (if total = 0 then 1 else total)

/-- The layout of some structures on a grid that has a size. -/
theorem layout_eq_ok [Machine] (hsize : config.size ≠ 0) (hne : structures ≠ []) :
    layout structures config seed = .ok cells ↔
      ∃ g cellsPerInstance laid, Generator.ofSeed seed = .ok g ∧
        instanceShare config structures = .ok cellsPerInstance ∧
        layStructures config cellsPerInstance 0 structures g = .ok laid ∧
        fillUp config laid = cells := by
  have hempty : ¬ structures.isEmpty = true := by simpa using hne
  rw [layout, if_neg hsize, if_neg hempty]
  simp [instanceShare, pure, Except.pure]

/-- No structure claims a negative number of rows of a layout. -/
theorem rowsFor_nonneg_of_layout (hcounts : ∀ c ∈ structures, 0 ≤ c.instanceCount)
    {cellsPerInstance : Binary64} (hcells : instanceShare config structures = .ok cellsPerInstance)
    (hwidth : 0 ≤ config.width) : ∀ c ∈ structures, ∀ rows,
      rowsFor c.instanceCount cellsPerInstance config.width = .ok rows → 0 ≤ rows := by
  have htotal := totalInstances_nonneg hcounts
  have hunsigned : cellsPerInstance.Unsigned :=
    Binary64.unsigned_fromQuotient (Int.natCast_nonneg _) (by split <;> omega) hcells
  intro c hc rows hrow
  exact rowsFor_nonneg (hcounts c hc) hunsigned hwidth hrow

/-- A layout has a cell for every place of the grid, in reading order. -/
theorem layout_spots [Machine] (hcounts : ∀ c ∈ structures, 0 ≤ c.instanceCount)
    (h : layout structures config seed = .ok cells) :
    cells.map Cell.spot = readingOrder config.width.toNat config.height.toNat := by
  by_cases hsize : config.size = 0
  · rw [layout, if_pos hsize] at h
    cases h
    exact (readingOrder_of_size_eq_zero hsize).symm
  · obtain ⟨hwidth, hheight⟩ := pos_of_size_ne_zero hsize
    by_cases hempty : structures = []
    · subst hempty
      rw [layout, if_neg hsize, if_pos List.isEmpty_nil] at h
      exact demoGrid_spots h
    · obtain ⟨g, cellsPerInstance, laid, -, hcells, hlaid, rfl⟩ := (layout_eq_ok hsize hempty).mp h
      have hw : config.width = config.width.toNat := by omega
      have hh : config.height = config.height.toNat := by omega
      have hrows := rowsFor_nonneg_of_layout hcounts hcells hwidth.le
      -- what the structures have painted ends with a row, at the latest with the last one
      obtain ⟨n, hspots, hn⟩ := layStructures_spots 0 hw hh hrows hlaid
      rw [Nat.zero_mul] at hspots
      refine fillUp_spots hspots ?_ hwidth
      rw [size_eq]
      exact Nat.mul_le_mul_right _ (by omega)

/-- A seed that is not negative and a grid of moderate size have a demo grid. -/
theorem demoGrid_ok [Machine] {seed : Int} (hseed : 0 ≤ seed) (hsize : config.size ≤ 2 ^ 18) :
    ∃ cells, demoGrid config (some seed) = .ok cells := by
  unfold demoGrid
  split
  · exact ⟨[], rfl⟩
  · rw [Generator.ofSeed_ok hseed, hasRoom_row (Int.natCast_nonneg _) (by omega)]
    exact ⟨_, rfl⟩

/-- An instance has a share of the grid, and that is not much larger than the grid. -/
theorem instanceShare_ok (hsize : config.size ≤ 2 ^ 18)
    (hcounts : ∀ c ∈ structures, 0 ≤ c.instanceCount) :
    ∃ cellsPerInstance, instanceShare config structures = .ok cellsPerInstance ∧
      cellsPerInstance.Within (2 * config.size) := by
  obtain ⟨total, htotalEq, htotalPos, -⟩ := exists_total hcounts
  have hlt : config.size < 2 ^ 32 := by omega
  have hquotient := Binary64.fromQuotient_natCast htotalPos hlt (by decide)
  rw [← htotalEq] at hquotient
  exact hquotient

/-- Structures of moderate counts have a layout on a grid of moderate size. -/
theorem layout_ok [Machine] {seed : Int} (hseed : 0 ≤ seed) (hsize : config.size ≤ 2 ^ 18)
    (hcounts : ∀ c ∈ structures, 0 ≤ c.instanceCount ∧ c.instanceCount < 2 ^ 53) :
    ∃ cells, layout structures config (some seed) = .ok cells := by
  by_cases hempty : config.size = 0
  · exact ⟨[], by rw [layout, if_pos hempty]⟩
  · obtain ⟨hwidth, hheight⟩ := pos_of_size_ne_zero hempty
    by_cases hne : structures = []
    · subst hne
      rw [layout, if_neg hempty, if_pos List.isEmpty_nil]
      exact demoGrid_ok hseed hsize
    · have hwidthLe : config.width.toNat ≤ 2 ^ 18 := by
        rw [size_eq] at hsize
        exact Nat.le_trans (Nat.le_mul_of_pos_left _ (by omega)) hsize
      obtain ⟨cellsPerInstance, hcells, hwithin⟩ :=
        instanceShare_ok hsize fun c hc => (hcounts c hc).1
      have hroom := hasRoom_row hwidth.le (show config.width ≤ 512 * 512 by omega)
      -- the counts and the width are natural numbers
      have hrows : ∀ c ∈ structures, ∃ rows,
          rowsFor c.instanceCount cellsPerInstance config.width = .ok rows := by
        intro c hc
        obtain ⟨hnonneg, hlt⟩ := hcounts c hc
        have hrow := rowsFor_ok c.instanceCount.toNat config.width.toNat (by omega) (by omega)
          (by omega) hwithin (by omega)
        rwa [Int.toNat_of_nonneg hnonneg, Int.toNat_of_nonneg hwidth.le] at hrow
      obtain ⟨laid, hlaid⟩ := layStructures_ok 0 (.ofWords (wordsOf seed.toNat)) hroom hrows
      exact ⟨_, (layout_eq_ok hempty hne).mpr
        ⟨_, cellsPerInstance, laid, Generator.ofSeed_ok hseed, hcells, hlaid, rfl⟩⟩

end Layout

end CellAtlas
