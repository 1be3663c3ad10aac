import CellAtlas.Proofs.Grid.Layout

/-!
# Bands of rows

The structures that a layout reaches claim bands of whole rows, one below the other: the rows of
the `i`-th band start behind the rows of all bands before it.

    row 0            ┐
    …                ┘ rows of the 1st structure
    rowsBefore 1     ┐
    …                ┘ rows of the 2nd structure
    …
    height - 1         unclaimed, if the structures have claimed less

`layStructures_bands` says what the structures paint from some row on, and `layout_banded` puts the
filling below it: a cell belongs to the structure in whose band it lies, and to nobody if it lies in
none.
-/

namespace CellAtlas

open CellAtlas.Random

/-! ### Bands -/

/-- The number of rows before the `i`-th band. -/
def rowsBefore (rows : List Int) (i : Nat) : Int := (rows.take i).foldr (· + ·) 0

/-- Row `y` lies in the `i`-th band. -/
def InBand (rows : List Int) (i : Nat) (y : Int) : Prop :=
  ∃ n, rows[i]? = some n ∧ rowsBefore rows i ≤ y ∧ y < rowsBefore rows i + n

/-- The numbers of rows of the structures that a layout reaches from row `cursor` on: as long as
there is a row left for it, a structure is asked for its rows. -/
structure RowsReached (config : GridConfig) (cellsPerInstance : Binary64) (cursor : Int)
    (structures : List Classified) (rows : List Int) : Prop where
  claim : ∀ (i : Nat) (n : Int), rows[i]? = some n → ∃ c : Classified, structures[i]? = some c ∧
    rowsFor c.instanceCount cellsPerInstance config.width = .ok n
  reached : ∀ i < rows.length, cursor + rowsBefore rows i < config.height
  full : rows.length = structures.length ∨ config.height ≤ cursor + rowsBefore rows rows.length

section Bands

variable {rows : List Int} {n y : Int} {i j : Nat}

@[simp] theorem rowsBefore_zero (rows : List Int) : rowsBefore rows 0 = 0 := rfl

@[simp] theorem rowsBefore_cons_succ (n : Int) (rows : List Int) (i : Nat) :
    rowsBefore (n :: rows) (i + 1) = n + rowsBefore rows i := rfl

/-- A band begins where the one before it ends. -/
theorem rowsBefore_succ (h : rows[i]? = some n) :
    rowsBefore rows (i + 1) = rowsBefore rows i + n := by
  induction rows generalizing i with
  | nil => cases h
  | cons m rows ih =>
      cases i with
      | zero =>
          cases h
          simp
      | succ i => rw [rowsBefore_cons_succ, rowsBefore_cons_succ, ih h, Int.add_assoc]

/-- Bands do not begin before earlier ones if they do not take rows back. -/
theorem rowsBefore_mono (hrows : ∀ n ∈ rows, 0 ≤ n) (hij : i ≤ j) :
    rowsBefore rows i ≤ rowsBefore rows j := by
  induction j, hij using Nat.le_induction with
  | base => exact Int.le_refl _
  | succ j _ ih =>
      cases h : rows[j]? with
      | some n =>
          have := hrows n (List.mem_of_getElem? h)
          rw [rowsBefore_succ h]
          omega
      -- beyond the last band nothing is added
      | none =>
          have hlength := List.getElem?_eq_none_iff.mp h
          have hlast : rowsBefore rows (j + 1) = rowsBefore rows j := by
            rw [rowsBefore, rowsBefore, List.take_of_length_le hlength,
              List.take_of_length_le (Nat.le_succ_of_le hlength)]
          rw [hlast]
          exact ih

theorem rowsBefore_nonneg (hrows : ∀ n ∈ rows, 0 ≤ n) (i : Nat) : 0 ≤ rowsBefore rows i :=
  rowsBefore_mono hrows (Nat.zero_le i)

/-- The bands do not reach beyond their last row. -/
theorem InBand.lt (hrows : ∀ n ∈ rows, 0 ≤ n) (h : InBand rows i y) :
    y < rowsBefore rows rows.length := by
  obtain ⟨n, hn, -, hlt⟩ := h
  rw [← rowsBefore_succ hn] at hlt
  obtain ⟨hi, -⟩ := List.getElem?_eq_some_iff.mp hn
  exact hlt.trans_le (rowsBefore_mono hrows hi)

/-- No row lies in two bands. -/
theorem InBand.unique (hrows : ∀ n ∈ rows, 0 ≤ n) (hi : InBand rows i y) (hj : InBand rows j y) :
    i = j := by
  have hle : ∀ {i j}, InBand rows i y → InBand rows j y → ¬ i < j := by
    rintro i j ⟨n, hn, -, hlt⟩ ⟨-, -, hle, -⟩ hij
    have hmono := rowsBefore_mono hrows (show i + 1 ≤ j from hij)
    rw [rowsBefore_succ hn] at hmono
    omega
  have hij := hle hi hj
  have hji := hle hj hi
  omega

/-- The first band begins at row 0. -/
theorem inBand_cons_zero (h0 : 0 ≤ y) (h1 : y < n) : InBand (n :: rows) 0 y :=
  ⟨n, rfl, by simpa using h0, by simpa using h1⟩

/-- A band in front moves the others down. -/
theorem InBand.cons (h : InBand rows i (y - n)) : InBand (n :: rows) (i + 1) y := by
  obtain ⟨m, hm, h0, h1⟩ := h
  refine ⟨m, hm, ?_, ?_⟩
  · rw [rowsBefore_cons_succ]
    omega
  · rw [rowsBefore_cons_succ]
    omega

/-- The bands leave out no row before their last one. -/
theorem exists_inBand (h0 : 0 ≤ y) (h : y < rowsBefore rows rows.length) :
    ∃ i, InBand rows i y := by
  induction rows generalizing y with
  | nil =>
      rw [List.length_nil, rowsBefore_zero] at h
      omega
  | cons n rows ih =>
      rcases Int.lt_or_le y n with hlt | hle
      · exact ⟨0, inBand_cons_zero h0 hlt⟩
      · rw [List.length_cons, rowsBefore_cons_succ] at h
        obtain ⟨i, hi⟩ := ih (show 0 ≤ y - n by omega) (by omega)
        exact ⟨i + 1, hi.cons⟩

end Bands

namespace RowsReached

variable {config : GridConfig} {cellsPerInstance : Binary64} {cursor n : Int} {c : Classified}
  {structures : List Classified} {rows : List Int}

theorem of_le (h : config.height ≤ cursor) (structures : List Classified) :
    RowsReached config cellsPerInstance cursor structures [] where
  claim := fun _ _ hn => nomatch hn
  reached := fun _ hi => absurd hi (Nat.not_lt_zero _)
  full := .inr (by simpa using h)

/-- A structure that claims rows comes in front of those that are reached behind it. -/
theorem cons (hcursor : cursor < config.height)
    (hn : rowsFor c.instanceCount cellsPerInstance config.width = .ok n)
    (h : RowsReached config cellsPerInstance (cursor + n) structures rows) :
    RowsReached config cellsPerInstance cursor (c :: structures) (n :: rows) where
  claim := by
    intro i m hm
    cases i with
    | zero =>
        cases hm
        exact ⟨c, rfl, hn⟩
    | succ i => exact h.claim i m hm
  reached := by
    intro i hi
    cases i with
    | zero => simpa using hcursor
    | succ i =>
        have := h.reached i (Nat.lt_of_succ_lt_succ hi)
        rw [rowsBefore_cons_succ]
        omega
  -- either side has one structure more, or both end at the same row
  full := by
    rw [List.length_cons, List.length_cons, rowsBefore_cons_succ, ← Int.add_assoc]
    exact h.full.imp_left (congrArg (· + 1))

/-- The first structure has claimed the first rows, if there was a row left. -/
theorem of_cons (hcursor : cursor < config.height)
    (h : RowsReached config cellsPerInstance cursor (c :: structures) rows) :
    ∃ n rest, rows = n :: rest ∧
      rowsFor c.instanceCount cellsPerInstance config.width = .ok n ∧
      RowsReached config cellsPerInstance (cursor + n) structures rest := by
  cases rows with
  | nil =>
      -- without any numbers of rows either there is no structure or the grid is full, which it is
      -- not
      rcases h.full with hlength | hle
      · cases hlength
      · rw [List.length_nil, rowsBefore_zero] at hle
        omega
  | cons n rest =>
      obtain ⟨_, ⟨⟩, hn⟩ := h.claim 0 n rfl
      refine ⟨n, rest, rfl, hn, ?_, ?_, ?_⟩
      · intro i m hm
        exact h.claim (i + 1) m hm
      · intro i hi
        have := h.reached (i + 1) (Nat.succ_lt_succ hi)
        rw [rowsBefore_cons_succ] at this
        omega
      · have := h.full
        rw [List.length_cons, List.length_cons, rowsBefore_cons_succ, ← Int.add_assoc] at this
        exact this.imp_left Nat.succ.inj

/-- If no structure claims a negative number of rows then none of the numbers is negative. -/
theorem nonneg (h : RowsReached config cellsPerInstance cursor structures rows)
    (hrows : ∀ c ∈ structures, ∀ n,
      rowsFor c.instanceCount cellsPerInstance config.width = .ok n → 0 ≤ n) :
    ∀ n ∈ rows, 0 ≤ n := by
  intro n hn
  obtain ⟨i, hi⟩ := List.mem_iff_getElem?.mp hn
  obtain ⟨c, hc, hrow⟩ := h.claim i n hi
  exact hrows c (List.mem_of_getElem? hc) n hrow

end RowsReached

/-! ### Cells of structures and cells of nobody -/

/-- The texts of a cell name a structure and the place, and only a cell with something in it has a
label. -/
structure Cell.BelongsTo (cell : Cell) (name : String) : Prop where
  note : cell.note = some (name ++ " " ++ cell.state.name ++ " at " ++ position cell.x cell.y)
  label : cell.label =
    if cell.state = .empty then none
    else some (name ++ "_" ++ toString cell.x ++ "_" ++ toString cell.y)

/-- A cell is empty, has no label and says so. -/
structure Cell.Unclaimed (cell : Cell) : Prop where
  state : cell.state = .empty
  label : cell.label = none
  note : cell.note = some ("Empty cell at " ++ position cell.x cell.y)

theorem structureBrush_belongsTo (name : String) (x y : Int) (state : CellState) :
    (structureBrush name x y state).BelongsTo name := ⟨rfl, rfl⟩

theorem fillerCell_unclaimed (x y : Int) : (fillerCell x y).Unclaimed := ⟨rfl, rfl, rfl⟩

/-! ### Painting -/

/-- A row of a structure has cells of this structure, all of them in the row. -/
theorem paintRow_belongsTo (name : String) (ratios : Ratios) (width : Nat) (y : Int)
    (g : Generator) : ∀ cell ∈ (paintRow (structureBrush name) ratios width y g).1,
      cell.BelongsTo name ∧ cell.y = y := by
  intro cell hcell
  obtain ⟨x, hx, rfl⟩ := List.mem_mapIdx.mp hcell
  exact ⟨structureBrush_belongsTo name _ _ _, rfl⟩

/-- The rows of a structure have cells of this structure, in those rows. -/
theorem paintRows_belongsTo (name : String) (ratios : Ratios) (width : Nat) (y : Int) (n : Nat)
    (g : Generator) : ∀ cell ∈ (paintRows (structureBrush name) ratios width y n g).1,
      cell.BelongsTo name ∧ y ≤ cell.y ∧ cell.y < y + n := by
  induction n generalizing y g with
  | zero => exact fun cell hcell => absurd hcell List.not_mem_nil
  | succ n ih =>
      intro cell hcell
      rw [paintRows] at hcell
      -- the first row, and the rows below it
      rcases List.mem_append.mp hcell with hcell | hcell
      · obtain ⟨hname, hy⟩ := paintRow_belongsTo name ratios width y g cell hcell
        exact ⟨hname, by omega, by omega⟩
      · obtain ⟨hname, hle, hlt⟩ := ih _ _ cell hcell
        exact ⟨hname, by omega, by omega⟩

/-- Each painted row is full. -/
theorem length_paintRows (brush : Brush) (ratios : Ratios) (width : Nat) (y : Int) (n : Nat)
    (g : Generator) : (paintRows brush ratios width y n g).1.length = n * width := by
  induction n generalizing y g with
  | zero => simp [paintRows]
  | succ n ih =>
      rw [paintRows, List.length_append, ih, Nat.succ_mul, Nat.add_comm]
      simp [paintRow, Generator.length_uniforms]

/-- From row `cursor` on, every cell that is painted belongs to the structure in whose band it lies,
and the painted rows end with the last band or with the grid. -/
theorem layStructures_bands [Machine] {config : GridConfig} {cellsPerInstance : Binary64}
    {cursor : Int} {structures : List Classified} {g : Generator} {cells : List Cell}
    (hrows : ∀ c ∈ structures, ∀ n,
      rowsFor c.instanceCount cellsPerInstance config.width = .ok n → 0 ≤ n)
    (h : layStructures config cellsPerInstance cursor structures g = .ok cells) :
    ∃ rows, RowsReached config cellsPerInstance cursor structures rows ∧
      cells.length = (min (cursor + rowsBefore rows rows.length) config.height - cursor).toNat
        * config.width.toNat ∧
      ∀ cell ∈ cells, ∃ i c, structures[i]? = some c ∧ InBand rows i (cell.y - cursor) ∧
        cell.BelongsTo c.name := by
  -- where no row is painted there is no row to paint up to, either
  have length_nil : ∀ {cursor : Int}, ([] : List Cell).length
      = (min (cursor + rowsBefore [] 0) config.height - cursor).toNat * config.width.toNat := by
    intro cursor
    rw [rowsBefore_zero, Int.toNat_of_nonpos (by omega), Nat.zero_mul]
    rfl
  induction structures generalizing cursor g cells with
  | nil =>
      cases h
      refine ⟨[], ⟨nofun, nofun, .inl rfl⟩, ?_, nofun⟩
      exact length_nil
  | cons c rest ih =>
      rcases Int.lt_or_le cursor config.height with hlt | hle
      · obtain ⟨n, painted, more, hn, hpainted, hmore, rfl⟩ := (layStructures_cons_eq_ok hlt).mp h
        obtain ⟨-, rfl⟩ := paintStructure_eq_ok.mp hpainted
        obtain ⟨rows, hreached, hlength, hcells⟩ :=
          ih (fun d hd => hrows d (List.mem_cons_of_mem _ hd)) hmore
        have hn0 := hrows c List.mem_cons_self n hn
        refine ⟨n :: rows, hreached.cons hlt hn, ?_, ?_⟩
        -- the rows of the first structure and those below it end where the grid does, if not before
        · have htotal := rowsBefore_nonneg
            (hreached.nonneg fun d hd => hrows d (List.mem_cons_of_mem _ hd)) rows.length
          rw [List.length_append, length_paintRows, hlength, ← Nat.add_mul, List.length_cons,
            rowsBefore_cons_succ]
          congr 1
          omega
        -- a cell of the first structure lies in band 0, and the bands of the others move down by
        -- its rows
        · intro cell hcell
          rcases List.mem_append.mp hcell with hcell | hcell
          · obtain ⟨hname, h0, h1⟩ := paintRows_belongsTo _ _ _ _ _ _ cell hcell
            exact ⟨0, c, rfl, inBand_cons_zero (by omega) (by omega), hname⟩
          · obtain ⟨i, d, hd, hband, hname⟩ := hcells cell hcell
            refine ⟨i + 1, d, hd, ?_, hname⟩
            apply InBand.cons
            rwa [Int.sub_sub]
      · rw [layStructures_of_le hle] at h
        cases h
        exact ⟨[], .of_le hle _, length_nil, nofun⟩

/-! ### Whole grids -/

/-- The cells of a grid lie in reading order in the bands of the structures. -/
structure Banded (config : GridConfig) (structures : List Classified) (rows : List Int)
    (cells : List Cell) : Prop where
  length : (cells.length : Int) = config.width * config.height
  spot : ∀ p (hp : p < cells.length),
    cells[p].x = p % config.width ∧ cells[p].y = p / config.width
  unique : ∀ i j y, InBand rows i y → InBand rows j y → i = j
  claimed : ∀ cell ∈ cells, ∀ i c, structures[i]? = some c → InBand rows i cell.y →
    cell.BelongsTo c.name
  unclaimed : ∀ cell ∈ cells, (∀ i, ¬ InBand rows i cell.y) → cell.Unclaimed

/-- A cell of a grid has been laid out, or it fills a place behind those that have been. -/
theorem mem_fillUp {config : GridConfig} {laid : List Cell} {cell : Cell}
    (h : cell ∈ fillUp config laid) :
    cell ∈ laid ∨ ∃ p : Nat, laid.length ≤ p ∧ p < config.size ∧
      cell = fillerCell (p % config.width) (p / config.width) := by
  rcases List.mem_append.mp h with h | h
  · exact .inl h
  · obtain ⟨p, hp, rfl⟩ := List.mem_map.mp h
    have := List.mem_range'_1.mp hp
    exact .inr ⟨p, this.1, by omega, rfl⟩

/-- The filling lies on the grid and below the rows that have been painted. -/
theorem filler_row {config : GridConfig} {painted p : Nat} (hwidth : 0 < config.width)
    (hpainted : painted * config.width.toNat ≤ p) (hp : p < config.size) :
    (painted : Int) ≤ p / config.width ∧ (p : Int) / config.width < config.height := by
  have hw : ((config.width.toNat : Nat) : Int) = config.width := by omega
  constructor
  · rw [Int.le_ediv_iff_mul_le hwidth, ← hw]
    exact_mod_cast hpainted
  -- there is a place in the grid, which has a positive height therefore
  · have hh : ((config.height.toNat : Nat) : Int) = config.height := by
      rw [size_eq] at hp
      have := Nat.pos_of_mul_pos_right (Nat.zero_lt_of_lt hp)
      omega
    rw [Int.ediv_lt_iff_lt_mul hwidth, ← hw, ← hh]
    rw [size_eq] at hp
    exact_mod_cast hp

/-- Every cell of a layout belongs to the structure in whose band of rows it lies, and the cells
that lie in no band are unclaimed. -/
theorem layout_banded [Machine] {structures : List Classified} {config : GridConfig}
    {seed : Option Int} {cells : List Cell} (hne : structures ≠ [])
    (hcounts : ∀ c ∈ structures, 0 ≤ c.instanceCount)
    (hwidth : 0 < config.width) (hheight : 0 < config.height)
    (h : layout structures config seed = .ok cells) :
    ∃ cellsPerInstance rows,
      instanceShare config structures = .ok cellsPerInstance ∧
      RowsReached config cellsPerInstance 0 structures rows ∧
      Banded config structures rows cells := by
  have hsize : config.size ≠ 0 := by
    rw [size_eq]
    exact Nat.mul_ne_zero (by omega) (by omega)
  have hspots := layout_spots hcounts h
  obtain ⟨g, cellsPerInstance, laid, -, hcells, hlaid, rfl⟩ := (layout_eq_ok hsize hne).mp h
  have hrows := rowsFor_nonneg_of_layout hcounts hcells hwidth.le
  obtain ⟨rows, hreached, hlength, hpainted⟩ := layStructures_bands hrows hlaid
  have hnonneg := hreached.nonneg hrows
  -- the filling is below the painted rows, where no band reaches within the grid
  have hfiller : ∀ p : Nat, laid.length ≤ p → p < config.size →
      ∀ i, ¬ InBand rows i (p / config.width) := by
    intro p hle hlt i hband
    have hbelow := hband.lt hnonneg
    obtain ⟨hrow, hgrid⟩ := filler_row hwidth (hlength ▸ hle) hlt
    omega
  refine ⟨cellsPerInstance, rows, hcells, hreached, ?_, ?_, ?_, ?_, ?_⟩
  · have hw : ((config.width.toNat : Nat) : Int) = config.width := by omega
    have hh : ((config.height.toNat : Nat) : Int) = config.height := by omega
    rw [length_of_readingOrder hspots, Nat.cast_mul, hw, hh, Int.mul_comm]
  · intro p hp
    have hspot := spot_of_readingOrder hspots hp
    have hw : config.width = ((config.width.toNat : Nat) : Int) := by omega
    rw [hw]
    exact ⟨congrArg Prod.fst hspot, congrArg Prod.snd hspot⟩
  · intro i j y hi hj
    exact hi.unique hnonneg hj
  · intro cell hcell i c hc hband
    rcases mem_fillUp hcell with hcell | ⟨p, hle, hlt, rfl⟩
    -- bands are disjoint, so that the painted structure is the one of the band
    · obtain ⟨j, d, hd, hband', hname⟩ := hpainted cell hcell
      rw [Int.sub_zero] at hband'
      obtain rfl := hband.unique hnonneg hband'
      obtain rfl : c = d := Option.some.inj (hc.symm.trans hd)
      exact hname
    · exact absurd hband (hfiller p hle hlt i)
  · intro cell hcell hnone
    rcases mem_fillUp hcell with hcell | ⟨p, hle, hlt, rfl⟩
    · obtain ⟨i, d, -, hband, -⟩ := hpainted cell hcell
      rw [Int.sub_zero] at hband
      exact absurd hband (hnone i)
    · exact fillerCell_unclaimed _ _

def unevenStructures : List Classified :=
  [{ name := "Node", category := .linked, instanceCount := 1, nestingDepth := 1 },
   { name := "Void", category := .simple, instanceCount := 0, nestingDepth := 1 },
   { name := "Tree", category := .nested, instanceCount := 2, nestingDepth := 3 }]

theorem layout_banded_uneven :
    unevenStructures ≠ [] ∧ (∀ c ∈ unevenStructures, 0 ≤ c.instanceCount) ∧
    (0 : Int) < ({} : GridConfig).width ∧ (0 : Int) < ({} : GridConfig).height ∧
    ∃ cells, layout unevenStructures {} (some 7) = .ok cells ∧
    ∃ cellsPerInstance rows, instanceShare {} unevenStructures = .ok cellsPerInstance ∧
      RowsReached {} cellsPerInstance 0 unevenStructures rows ∧
      Banded {} unevenStructures rows cells := by
  have hne : unevenStructures ≠ [] := List.cons_ne_nil _ _
  have hcounts : ∀ c ∈ unevenStructures, 0 ≤ c.instanceCount := by decide
  have hsize : ({} : GridConfig).size ≤ 2 ^ 18 := by decide
  have hlayout : ∃ cells, layout unevenStructures {} (some 7) = .ok cells :=
    layout_ok (by decide) hsize (by decide)
  obtain ⟨cells, hcells⟩ := hlayout
  exact ⟨hne, hcounts, by decide, by decide, cells, hcells,
    layout_banded hne hcounts (by decide) (by decide) hcells⟩

end CellAtlas
