import CellAtlas.Proofs.Grid.Bands

/-!
# Draws and places

Every cell takes one number from the stream of the seed, and the rows of structures are painted one
below the other, so that the number of a draw is the number of the cell in reading order:

    place   (0, 0)   (1, 0)   …   (x, y)
    draw    u 0      u 1      …   u (y * width + x)

A structure without rows draws nothing, and one that the grid ends within draws no more than it
paints. So the draw for a place does not depend on how the rows are divided among the structures,
and is the one that the demo grid uses there (`layout_aligned`).
-/

namespace CellAtlas

open CellAtlas.Random

/-! ### Painting -/

/-- The cell that is painted at the place of number `p`, with the draw of that number. -/
def drawnCell (brush : Brush) (ratios : Ratios) (width : Nat) (g : Generator) (p : Nat) : Cell :=
  brush (spotAt width p).1 (spotAt width p).2 (.sample ratios.thresholds (g.uniformAt p))

section Painting

variable (brush : Brush) (ratios : Ratios) (width : Nat) (g : Generator)

/-- A row that is painted after the rows above it. -/
theorem paintRow_drawn (y : Nat) :
    paintRow brush ratios width y (g.uniforms (y * width)).2 =
      ((List.range' (y * width) width).map (drawnCell brush ratios width g),
        (g.uniforms ((y + 1) * width)).2) := by
  -- the draw of the `x`-th cell is the `x`-th one after those for the rows above
  have hcells : ((g.uniforms (y * width)).2.uniforms width).1.mapIdx
        (fun x u => brush x y (.sample ratios.thresholds u))
      = (List.range' (y * width) width).map (drawnCell brush ratios width g) := by
    apply List.ext_getElem
    · simp [Generator.length_uniforms]
    · intro x hx hx'
      have hlt : x < width := by simpa [Generator.length_uniforms] using hx
      simp only [List.getElem_mapIdx, Generator.uniforms_eq_map, List.getElem_map,
        List.getElem_range, List.getElem_range', Nat.one_mul, Generator.uniformAt_add, drawnCell,
        spotAt_row y hlt]
  rw [paintRow, hcells, Nat.succ_mul, Generator.uniforms_add]

/-- Rows that are painted after the rows above them. -/
theorem paintRows_drawn (y n : Nat) :
    paintRows brush ratios width y n (g.uniforms (y * width)).2 =
      ((List.range' (y * width) (n * width)).map (drawnCell brush ratios width g),
        (g.uniforms ((y + n) * width)).2) := by
  induction n generalizing y with
  | zero => rw [paintRows, Nat.zero_mul, Nat.add_zero, List.range'_zero, List.map_nil]
  | succ n ih =>
      have hrest := ih (y + 1)
      rw [Nat.cast_succ] at hrest
      have hrange : List.range' (y * width) ((n + 1) * width)
          = List.range' (y * width) width ++ List.range' ((y + 1) * width) (n * width) := by
        rw [Nat.succ_mul n, Nat.succ_mul y, Nat.add_comm (n * width), List.range'_append_1]
      rw [paintRows, paintRow_drawn, hrest, hrange, List.map_append, Nat.add_right_comm]
      rfl

end Painting

/-- The row of a place, from the rows that its number lies in. -/
theorem row_of_mem_range' {width row n p : Nat}
    (h : p ∈ List.range' (row * width) (n * width)) : row ≤ p / width ∧ p / width < row + n := by
  obtain ⟨hle, hlt⟩ := List.mem_range'_1.mp h
  rw [← Nat.add_mul] at hlt
  have hwidth : 0 < width := Nat.pos_of_mul_pos_left (Nat.zero_lt_of_lt hlt)
  exact ⟨(Nat.le_div_iff_mul_le hwidth).mpr hle, (Nat.div_lt_iff_lt_mul hwidth).mpr hlt⟩

/-! ### Structures -/

/-- The cell is painted for the structure in whose band it lies, with the draw of its place. -/
structure Cell.DrawnIn (cell : Cell) (config : GridConfig) (structures : List Classified)
    (rows : List Int) (row : Int) (g : Generator) (i : Nat) (c : Classified) : Prop where
  structure? : structures[i]? = some c
  band : InBand rows i (cell.y - row)
  drawn : ∃ p, cell = drawnCell (structureBrush c.name) (config.ratios.scale c.category.factors)
    config.width.toNat g p

/-- A structure in front has its rows above the cell. -/
theorem Cell.DrawnIn.cons {cell : Cell} {config : GridConfig} {structures : List Classified}
    {rows : List Int} {row n : Int} {g : Generator} {i : Nat} {c d : Classified}
    (h : cell.DrawnIn config structures rows (row + n) g i d) :
    cell.DrawnIn config (c :: structures) (n :: rows) row g (i + 1) d where
  structure? := h.structure?
  band := by
    apply InBand.cons
    rw [Int.sub_sub]
    exact h.band
  drawn := h.drawn

/-- Structures that are laid out from some row on, after the draws for the rows above it, paint
every cell with the draw of its place. -/
theorem layStructures_drawn [Machine] {config : GridConfig} {cellsPerInstance : Binary64}
    {height : Nat} {structures : List Classified} {rows : List Int} {g : Generator}
    {cells : List Cell} (row : Nat)
    (hheight : config.height = height)
    (hrows : RowsReached config cellsPerInstance row structures rows) (hnonneg : ∀ n ∈ rows, 0 ≤ n)
    (h : layStructures config cellsPerInstance row structures
      (g.uniforms (row * config.width.toNat)).2 = .ok cells) :
    ∀ cell ∈ cells, ∃ i c, cell.DrawnIn config structures rows row g i c := by
  induction structures generalizing row rows cells with
  | nil =>
      cases h
      exact fun cell hcell => absurd hcell List.not_mem_nil
  | cons c rest ih =>
      rcases Int.lt_or_le (row : Int) config.height with hlt | hle
      · obtain ⟨n, painted, more, hn, hpainted, hmore, rfl⟩ := (layStructures_cons_eq_ok hlt).mp h
        obtain ⟨-, rfl⟩ := paintStructure_eq_ok.mp hpainted
        -- the numbers of rows that are reached are those that are painted
        obtain ⟨n', rowsRest, rfl, hn', hrest⟩ := hrows.of_cons hlt
        cases hn.symm.trans hn'
        rw [List.forall_mem_cons] at hnonneg
        obtain ⟨count, rfl⟩ := Int.eq_ofNat_of_zero_le hnonneg.1
        have hcount : (min ((row : Int) + count) config.height - row).toNat
            = min (row + count) height - row := by omega
        rw [hcount, paintRows_drawn] at hmore ⊢
        intro cell hcell
        rcases List.mem_append.mp hcell with hcell | hcell
        -- a cell of the first structure
        · obtain ⟨p, hp, rfl⟩ := List.mem_map.mp hcell
          obtain ⟨hle, hlt⟩ := row_of_mem_range' hp
          refine ⟨0, c, rfl, ?_, p, rfl⟩
          show InBand _ 0 ((p / config.width.toNat : Nat) - (row : Int))
          exact inBand_cons_zero (by omega) (by omega)
        · rcases Nat.le_or_ge (row + count) height with hfits | hfull
          · rw [Nat.min_eq_left hfits, Nat.add_sub_cancel_left, ← Nat.cast_add] at hmore
            rw [← Nat.cast_add] at hrest
            obtain ⟨i, d, hdrawn⟩ := ih (row + count) hrest hnonneg.2 hmore cell hcell
            rw [Nat.cast_add] at hdrawn
            exact ⟨i + 1, d, hdrawn.cons⟩
          -- the grid ends within the structure, and the others paint nothing
          · rw [layStructures_of_le (by omega)] at hmore
            cases hmore
            exact absurd hcell List.not_mem_nil
      · rw [layStructures_of_le hle] at h
        cases h
        exact fun cell hcell => absurd hcell List.not_mem_nil

section Layout

variable {structures : List Classified} {config : GridConfig} {seed : Option Int}
  {cells : List Cell}

/-- Bands are disjoint, so that a cell in the band of a structure is drawn for this structure. -/
theorem Cell.DrawnIn.drawn_of_inBand {cell : Cell} {rows : List Int} {g : Generator} {i j : Nat}
    {c d : Classified} (h : cell.DrawnIn config structures rows 0 g j d)
    (hnonneg : ∀ n ∈ rows, 0 ≤ n) (hc : structures[i]? = some c) (hband : InBand rows i cell.y) :
    ∃ p, cell = drawnCell (structureBrush c.name) (config.ratios.scale c.category.factors)
      config.width.toNat g p := by
  obtain ⟨hd, hband', hdrawn⟩ := h
  rw [Int.sub_zero] at hband'
  obtain rfl := hband.unique hnonneg hband'
  obtain rfl : c = d := Option.some.inj (hc.symm.trans hd)
  exact hdrawn

/-- Every cell of a layout is drawn for the structure in whose band it lies, or it is filling and
lies in no band. -/
theorem layout_drawn [Machine] (hne : structures ≠ [])
    (hcounts : ∀ c ∈ structures, 0 ≤ c.instanceCount)
    (hwidth : 0 < config.width) (hheight : 0 < config.height)
    (h : layout structures config seed = .ok cells) :
    ∃ g cellsPerInstance rows, Generator.ofSeed seed = .ok g ∧
      instanceShare config structures = .ok cellsPerInstance ∧
      RowsReached config cellsPerInstance 0 structures rows ∧ (∀ n ∈ rows, 0 ≤ n) ∧
      ∀ cell ∈ cells, (∃ i c, cell.DrawnIn config structures rows 0 g i c) ∨
        cell.Unclaimed ∧ ∀ i, ¬ InBand rows i cell.y := by
  have hsize : config.size ≠ 0 := by
    rw [size_eq]
    exact Nat.mul_ne_zero (by omega) (by omega)
  obtain ⟨g, cellsPerInstance, laid, hg, hcells, hlaid, rfl⟩ := (layout_eq_ok hsize hne).mp h
  have hrows := rowsFor_nonneg_of_layout hcounts hcells hwidth.le
  obtain ⟨rows, hreached, hlength, -⟩ := layStructures_bands hrows hlaid
  have hnonneg := hreached.nonneg hrows
  refine ⟨g, cellsPerInstance, rows, hg, hcells, hreached, hnonneg, fun cell hcell => ?_⟩
  rcases mem_fillUp hcell with hcell | ⟨p, hle, hlt, rfl⟩
  · left
    -- the first row comes after no draws
    have hstart : (g.uniforms (0 * config.width.toNat)).2 = g := by
      rw [Nat.zero_mul]
      rfl
    have hh : config.height = (config.height.toNat : Int) := by omega
    exact layStructures_drawn 0 hh hreached hnonneg (hstart.symm ▸ hlaid) cell hcell
  · right
    refine ⟨fillerCell_unclaimed _ _, fun i hband => ?_⟩
    have hbelow : (p : Int) / config.width < rowsBefore rows rows.length := hband.lt hnonneg
    obtain ⟨hrow, hgrid⟩ := filler_row hwidth (hlength ▸ hle) hlt
    omega

/-- The place of a drawn cell tells the number of its draw. -/
theorem drawnCell_state {brush : Brush} (hspot : brush.Faithful)
    (hstate : ∀ x y state, (brush x y state).state = state) (ratios : Ratios)
    (hwidth : 0 ≤ config.width) (g : Generator) (p : Nat) {cell : Cell}
    (h : cell = drawnCell brush ratios config.width.toNat g p) :
    cell.state = .sample ratios.thresholds
      (g.uniformAt (cell.y * config.width + cell.x).toNat) := by
  have hcell : cell.spot = spotAt config.width.toNat p := by
    rw [h]
    exact hspot _ _ _
  have hx : cell.x = (p % config.width.toNat : Nat) := congrArg Prod.fst hcell
  have hy : cell.y = (p / config.width.toNat : Nat) := congrArg Prod.snd hcell
  -- the number is made of its quotient and its remainder by the width
  have hnumber : (cell.y * config.width + cell.x).toNat = p := by
    obtain ⟨width, hw⟩ := Int.eq_ofNat_of_zero_le hwidth
    rw [hx, hy, hw, Int.toNat_natCast, ← Nat.cast_mul, ← Nat.cast_add, Int.toNat_natCast,
      Nat.div_add_mod']
  rw [hnumber, h]
  exact hstate _ _ _

/-- The cell at each place of the demo grid has the draw of this place. -/
theorem demoGrid_drawn [Machine] {g : Generator} (hg : Generator.ofSeed seed = .ok g)
    (hsize : config.size ≠ 0) (h : demoGrid config seed = .ok cells) :
    ∀ cell ∈ cells, ∃ p, cell = drawnCell demoBrush config.ratios config.width.toNat g p := by
  rw [demoGrid, if_neg hsize, hg] at h
  simp only [bind_eq_ok, mapError_eq_ok, pure, Except.pure, Except.ok.injEq] at h
  obtain ⟨_, rfl, _, -, rfl⟩ := h
  have hdrawn := paintRows_drawn demoBrush config.ratios config.width.toNat g 0 config.height.toNat
  rw [Nat.zero_mul] at hdrawn
  intro cell hcell
  rw [← Nat.cast_zero, show g = (g.uniforms 0).2 from rfl, hdrawn] at hcell
  obtain ⟨p, -, rfl⟩ := List.mem_map.mp hcell
  exact ⟨p, rfl⟩

/-- The state of every cell of a structure is drawn with the number of its place in the stream of
the seed, against the chances of the structure's category. The demo grid of the same seed covers the
same places and uses the same draw at each of them, against the chances as they are. -/
theorem layout_aligned [Machine] {seed : Int} (hne : structures ≠ [])
    (hcounts : ∀ c ∈ structures, 0 ≤ c.instanceCount) (hwidth : 0 < config.width)
    (hheight : 0 < config.height) (h : layout structures config (some seed) = .ok cells) :
    ∃ g cellsPerInstance rows, Generator.ofSeed (some seed) = .ok g ∧
      instanceShare config structures = .ok cellsPerInstance ∧
      RowsReached config cellsPerInstance 0 structures rows ∧
      (∀ cell ∈ cells, ∀ i c, structures[i]? = some c → InBand rows i cell.y →
        cell.BelongsTo c.name ∧
        cell.state = .sample (config.ratios.scale c.category.factors).thresholds
          (g.uniformAt (cell.y * config.width + cell.x).toNat)) ∧
      ∀ demo, demoGrid config (some seed) = .ok demo →
        demo.map Cell.spot = cells.map Cell.spot ∧
        ∀ cell ∈ demo, cell.state = .sample config.ratios.thresholds
          (g.uniformAt (cell.y * config.width + cell.x).toNat) := by
  have hsize : config.size ≠ 0 := by
    rw [size_eq]
    exact Nat.mul_ne_zero (by omega) (by omega)
  obtain ⟨g, cellsPerInstance, rows, hg, hcells, hreached, hnonneg, hdrawn⟩ :=
    layout_drawn hne hcounts hwidth hheight h
  refine ⟨g, cellsPerInstance, rows, hg, hcells, hreached, ?_, ?_⟩
  · intro cell hcell i c hc hband
    rcases hdrawn cell hcell with ⟨j, d, hcell⟩ | ⟨-, hnone⟩
    · obtain ⟨p, hp⟩ := hcell.drawn_of_inBand hnonneg hc hband
      refine ⟨hp ▸ structureBrush_belongsTo c.name _ _ _, ?_⟩
      exact drawnCell_state (structureBrush_faithful c.name) (fun _ _ _ => rfl) _ hwidth.le g p hp
    · exact absurd hband (hnone i)
  · intro demo hdemo
    -- both grids cover all places
    have hspots := layout_spots hcounts h
    refine ⟨(demoGrid_spots hdemo).trans hspots.symm, fun cell hcell => ?_⟩
    obtain ⟨p, hp⟩ := demoGrid_drawn hg hsize hdemo cell hcell
    exact drawnCell_state demoBrush_faithful (fun _ _ _ => rfl) _ hwidth.le g p hp

/-- On a grid of the default size, three structures of three categories use the demo's draws. -/
theorem layout_aligned_uneven :
    unevenStructures ≠ [] ∧ (∀ c ∈ unevenStructures, 0 ≤ c.instanceCount) ∧
    (0 : Int) < ({} : GridConfig).width ∧ (0 : Int) < ({} : GridConfig).height ∧
    ∃ cells demo, layout unevenStructures {} (some 7) = .ok cells ∧
      demoGrid {} (some 7) = .ok demo ∧ demo.map Cell.spot = cells.map Cell.spot ∧
    ∃ g cellsPerInstance rows, Generator.ofSeed (some 7) = .ok g ∧
      RowsReached {} cellsPerInstance 0 unevenStructures rows ∧
      (∀ cell ∈ cells, ∀ i c, unevenStructures[i]? = some c → InBand rows i cell.y →
        cell.state = .sample (({} : GridConfig).ratios.scale c.category.factors).thresholds
          (g.uniformAt (cell.y * 12 + cell.x).toNat)) ∧
      ∀ cell ∈ demo, cell.state = .sample ({} : GridConfig).ratios.thresholds
        (g.uniformAt (cell.y * 12 + cell.x).toNat) := by
  have hne : unevenStructures ≠ [] := List.cons_ne_nil _ _
  have hcounts : ∀ c ∈ unevenStructures, 0 ≤ c.instanceCount := by decide
  have hsize : ({} : GridConfig).size ≤ 2 ^ 18 := by decide
  have hlayout : ∃ cells, layout unevenStructures {} (some 7) = .ok cells :=
    layout_ok (by decide) hsize (by decide)
  have hdemo : ∃ demo, demoGrid {} (some 7) = .ok demo := demoGrid_ok (by decide) hsize
  obtain ⟨cells, hcells⟩ := hlayout
  obtain ⟨demo, hdemo⟩ := hdemo
  obtain ⟨g, cellsPerInstance, rows, hg, -, hreached, hclaimed, halldemo⟩ :=
    layout_aligned hne hcounts (by decide) (by decide) hcells
  obtain ⟨hspots, hdrawn⟩ := halldemo demo hdemo
  refine ⟨hne, hcounts, by decide, by decide, cells, demo, hcells, hdemo, hspots, g,
    cellsPerInstance, rows, hg, hreached, ?_, hdrawn⟩
  intro cell hcell i c hc hband
  exact (hclaimed cell hcell i c hc hband).2

end Layout

end CellAtlas
