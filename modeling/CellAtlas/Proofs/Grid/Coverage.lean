import CellAtlas.Proofs.Grid.Alignment
import CellAtlas.Proofs.Grid.Shares
import Mathlib.Data.List.Forall2

/-!
# Shares cover the grid

The shares of all structures together are the height of the grid. Each is rounded up to whole rows,
so that rows can only be missing by what the roundings before have taken away, and that is less than
a row for all structures together, however many there are:

    rows of all structures ≥ (1 - 2^-51) * height > height - 1

Being whole, the rows reach down to the last one of the grid (`height_le_rowsBefore`), and nothing
is left to be filled. Where there are no instances at all, no structure is given a row. The main
statement is `layout_covered`.
-/

namespace CellAtlas

open Binary64

/-! ### Rows and shares -/

/-- Rounding up makes good for what three roundings take away, up to one part in 2^51. -/
theorem mul_le_ceil_of_near {q : Binary64} {r : ℚ} (h : q.Near 3 r) (hr : 0 ≤ r) :
    (1 - 1 / 2 ^ 51) * r ≤ (⌈q.toRat⌉ : ℤ) := by
  obtain ⟨hge, -⟩ := abs_le.mp (h.abs_sub_le hr)
  have hceil := Int.le_ceil q.toRat
  linarith

/-- What every structure is given at least for each of its instances, all are given together. -/
theorem mul_totalInstances_le {s : ℚ} {structures : List Classified} {rows : List ℤ}
    (h : List.Forall₂ (fun c n => s * c.instanceCount ≤ (n : ℤ)) structures rows) :
    s * Classified.totalInstances structures ≤ rowsBefore rows rows.length := by
  induction h with
  | nil => simp [Classified.totalInstances]
  | cons hhead _ ih =>
      -- the first structure and its rows are added on either side
      rw [List.length_cons, rowsBefore_cons_succ, Int.cast_add]
      show s * ((_ + Classified.totalInstances _ : ℤ) : ℚ) ≤ _
      rw [Int.cast_add, mul_add]
      exact add_le_add hhead ih

/-- Where all structures are reached, each stands beside its number of rows. -/
theorem RowsReached.forall₂ {config : GridConfig} {share : Binary64} {cursor : ℤ}
    {structures : List Classified} {rows : List ℤ} {p : Classified → ℤ → Prop}
    (h : RowsReached config share cursor structures rows)
    (hlength : rows.length = structures.length)
    (hp : ∀ c ∈ structures, ∀ n, rowsFor c.instanceCount share config.width = .ok n → p c n) :
    List.Forall₂ p structures rows := by
  apply List.forall₂_of_length_eq_of_get hlength.symm
  intro i hi hrow
  obtain ⟨c, hc, hn⟩ := h.claim i rows[i] (List.getElem?_eq_getElem hrow)
  rw [List.getElem?_eq_getElem hi] at hc
  obtain rfl := Option.some.inj hc
  exact hp _ (List.getElem_mem hi) _ hn

section Coverage

variable {structures : List Classified} {config : GridConfig} {share : Binary64} {rows : List ℤ}

/-- The structures that are reached are given all rows of the grid. -/
theorem height_le_rowsBefore (hpos : 0 < Classified.totalInstances structures)
    (hheight : config.height ≤ 512)
    (hgiven : ∀ c ∈ structures, ∀ n, rowsFor c.instanceCount share config.width = .ok n →
      (1 - 1 / 2 ^ 51) * rowShare config structures c ≤ n)
    (h : RowsReached config share 0 structures rows) :
    config.height ≤ rowsBefore rows rows.length := by
  -- either no structure was left out, or the rows ran out, which is what is to be shown
  rcases h.full with hlength | hle
  · have htotal : (0 : ℚ) < Classified.totalInstances structures := Int.cast_pos.mpr hpos
    have hsum : (1 - 1 / 2 ^ 51) * (config.height / Classified.totalInstances structures)
        * Classified.totalInstances structures ≤ (rowsBefore rows rows.length : ℚ) := by
      apply mul_totalInstances_le (h.forall₂ hlength fun c hc n hn => ?_)
      calc (1 - 1 / 2 ^ 51) * ((config.height : ℚ) / Classified.totalInstances structures)
            * c.instanceCount
          = (1 - 1 / 2 ^ 51) * rowShare config structures c := by rw [rowShare]; ring
        _ ≤ (n : ℚ) := hgiven c hc n hn
    rw [mul_assoc, div_mul_cancel₀ _ htotal.ne'] at hsum
    have hsmall : (config.height : ℚ) ≤ 512 := by exact_mod_cast hheight
    -- all together the structures miss less than a row, and the rows are whole
    have hlt : ((config.height - 1 : ℤ) : ℚ) < rowsBefore rows rows.length := by
      push_cast
      linarith
    have := Int.cast_lt.mp hlt
    omega
  · omega

/-- Without instances no structure is given a row. -/
theorem not_inBand (hnone : Classified.totalInstances structures = 0)
    (hgiven : ∀ c ∈ structures, ∀ n, rowsFor c.instanceCount share config.width = .ok n →
      ∃ q : Binary64, n = ⌈q.toRat⌉ ∧ q.Near 3 (rowShare config structures c))
    (h : RowsReached config share 0 structures rows) (i : ℕ) (y : ℤ) : ¬ InBand rows i y := by
  rintro ⟨n, hn, hge, hlt⟩
  obtain ⟨c, hc, hrow⟩ := h.claim i n hn
  obtain ⟨q, rfl, hq⟩ := hgiven c (List.mem_of_getElem? hc) n hrow
  have hshare : rowShare config structures c = 0 := by
    rw [rowShare, hnone, Int.cast_zero, div_zero]
  rw [hshare] at hq
  -- three roundings of zero are zero, for its bounds are
  have hzero : q.toRat = 0 := by
    have hge := hq.ge
    have hle := hq.le
    rw [mul_zero] at hge hle
    exact le_antisymm hle hge
  rw [hzero, Int.ceil_zero] at hlt
  omega

end Coverage

/-! ### Whose cell it is -/

/-- The note of no structure, whatever its name, is that of a cell that nobody claims. -/
theorem Cell.BelongsTo.note_ne {cell : Cell} {name : String} (h : cell.BelongsTo name) :
    cell.note ≠ (fillerCell cell.x cell.y).note := by
  rw [h.note]
  intro heq
  have htext : name ++ " " ++ cell.state.name ++ " at " ++ position cell.x cell.y
      = "Empty cell" ++ " at " ++ position cell.x cell.y := Option.some.inj heq
  rw [String.append_left_inj, String.append_left_inj] at htext
  -- one text in front of the place ends with the name of a state and the other with "cell"
  have hlast := congrArg (fun text => text.toList.getLast?) htext
  cases hstate : cell.state <;> simp [hstate, CellState.name] at hlast

/-- An unclaimed cell has nothing of its own but its place. -/
theorem Cell.Unclaimed.eq_fillerCell {cell : Cell} (h : cell.Unclaimed) :
    cell = fillerCell cell.x cell.y := by
  cases cell
  obtain ⟨hstate, hlabel, hnote⟩ := h
  simp_all [fillerCell]

/-- On a grid that can be asked for, all rows belong to structures as soon as there is an instance:
no cell is filling, or says that it is. Without instances every cell is filling. -/
theorem layout_covered [Machine] {structures : List Classified} {config : GridConfig} {seed : Int}
    (hne : structures ≠ []) (hcounts : ∀ c ∈ structures, 0 ≤ c.instanceCount)
    (htotal : Classified.totalInstances structures < 2 ^ 53)
    (hwidth : 1 ≤ config.width ∧ config.width ≤ 512)
    (hheight : 1 ≤ config.height ∧ config.height ≤ 512) (hseed : 0 ≤ seed) :
    ∃ cells share rows, layout structures config (some seed) = .ok cells ∧
      cells.map Cell.spot = readingOrder config.width.toNat config.height.toNat ∧
      instanceShare config structures = .ok share ∧
      RowsReached config share 0 structures rows ∧
      (0 < Classified.totalInstances structures → ∀ cell ∈ cells, ∃ i c,
        structures[i]? = some c ∧ InBand rows i cell.y ∧ cell.BelongsTo c.name ∧
        cell.note ≠ (fillerCell cell.x cell.y).note) ∧
      (Classified.totalInstances structures = 0 → ∀ cell ∈ cells,
        cell = fillerCell cell.x cell.y) := by
  have hsize : config.size ≤ 2 ^ 18 := by
    rw [size_eq]
    have hle : config.height.toNat * config.width.toNat ≤ 512 * 512 :=
      Nat.mul_le_mul (by omega) (by omega)
    omega
  -- no count is above the sum
  have hmoderate : ∀ c ∈ structures, 0 ≤ c.instanceCount ∧ c.instanceCount < 2 ^ 53 :=
    fun c hc => ⟨hcounts c hc, (le_totalInstances hcounts c hc).trans_lt htotal⟩
  obtain ⟨cells, hcells⟩ := layout_ok hseed hsize hmoderate
  have hspots := layout_spots hcounts hcells
  obtain ⟨g, share, rows, -, hshare, hreached, hnonneg, hdrawn⟩ :=
    layout_drawn hne hcounts (by omega) (by omega) hcells
  obtain ⟨share', hshare', hnear⟩ := exists_rowsFor_near hcounts htotal hwidth hheight
  obtain rfl := Except.ok.inj (hshare.symm.trans hshare')
  have hgiven : ∀ c ∈ structures, ∀ n, rowsFor c.instanceCount share config.width = .ok n →
      ∃ q : Binary64, n = ⌈q.toRat⌉ ∧ q.Near 3 (rowShare config structures c) := by
    intro c hc n hn
    obtain ⟨q, hq, hqnear, -⟩ := hnear c hc
    exact ⟨q, Except.ok.inj (hn.symm.trans hq), hqnear⟩
  refine ⟨cells, share, rows, hcells, hspots, hshare, hreached, ?_, ?_⟩
  · intro hpos cell hcell
    have hcovered : config.height ≤ rowsBefore rows rows.length := by
      apply height_le_rowsBefore hpos hheight.2 _ hreached
      intro c hc n hn
      obtain ⟨q, rfl, hq⟩ := hgiven c hc n hn
      exact mul_le_ceil_of_near hq (rowShare_nonneg hcounts (by omega) hc)
    rcases hdrawn cell hcell with ⟨i, c, hc, hband, p, rfl⟩ | ⟨-, hnone⟩
    · rw [Int.sub_zero] at hband
      have hbelongs := structureBrush_belongsTo c.name
      exact ⟨i, c, hc, hband, hbelongs _ _ _, (hbelongs _ _ _).note_ne⟩
    -- a cell outside all bands would lie in a row that the rows of the structures do not cover
    · have hmem : cell.spot ∈ readingOrder config.width.toNat config.height.toNat :=
        hspots ▸ List.mem_map_of_mem hcell
      obtain ⟨y, hy, x, -, hspot⟩ := mem_readingOrder.mp hmem
      have hrow : (y : Int) = cell.y := congrArg Prod.snd hspot
      have hband : ∃ i, InBand rows i cell.y := exists_inBand (by omega) (by omega)
      exact absurd hband (not_exists.mpr hnone)
  · intro hzero cell hcell
    rcases hdrawn cell hcell with ⟨i, c, -, hband, -⟩ | ⟨hunclaimed, -⟩
    · exact absurd hband (not_inBand hzero hgiven hreached i _)
    · exact hunclaimed.eq_fillerCell

/-- On a grid of the default size, three structures of which one has no instances leave no row over;
that one alone leaves them all. -/
theorem layout_covered_uneven :
    unevenStructures ≠ [] ∧ (∀ c ∈ unevenStructures, 0 ≤ c.instanceCount) ∧
    0 < Classified.totalInstances unevenStructures ∧
    Classified.totalInstances unevenStructures < 2 ^ 53 ∧
    (∃ cells, layout unevenStructures {} (some 7) = .ok cells ∧ cells.length = 96 ∧
      ∀ cell ∈ cells, (∃ c ∈ unevenStructures, cell.BelongsTo c.name) ∧
        cell.note ≠ (fillerCell cell.x cell.y).note) ∧
    ∃ cells, layout [{ name := "Void", category := .simple, instanceCount := 0, nestingDepth := 1 }]
        {} (some 7) = .ok cells ∧ cells.length = 96 ∧
      ∀ cell ∈ cells, cell = fillerCell cell.x cell.y := by
  have hcounts : ∀ c ∈ unevenStructures, 0 ≤ c.instanceCount := by decide
  have hpos : 0 < Classified.totalInstances unevenStructures := by decide
  have htotal : Classified.totalInstances unevenStructures < 2 ^ 53 := by decide
  obtain ⟨cells, share, rows, hcells, hspots, -, -, hclaimed, -⟩ :=
    layout_covered (List.cons_ne_nil _ _) hcounts htotal
      (show 1 ≤ ({} : GridConfig).width ∧ ({} : GridConfig).width ≤ 512 by decide)
      (show 1 ≤ ({} : GridConfig).height ∧ ({} : GridConfig).height ≤ 512 by decide)
      (show 0 ≤ (7 : Int) by decide)
  obtain ⟨filled, share', rows', hfilled, hspots', -, -, -, hfiller⟩ :=
    layout_covered
      (List.cons_ne_nil
        { name := "Void", category := .simple, instanceCount := 0, nestingDepth := 1 } [])
      (by decide) (by decide)
      (show 1 ≤ ({} : GridConfig).width ∧ ({} : GridConfig).width ≤ 512 by decide)
      (show 1 ≤ ({} : GridConfig).height ∧ ({} : GridConfig).height ≤ 512 by decide)
      (show 0 ≤ (7 : Int) by decide)
  -- both have a cell for each of the 12 by 8 places
  have hsize : ∀ {l : List Cell}, l.map Cell.spot = readingOrder 12 8 → l.length = 96 := by
    intro l hl
    rw [← List.length_map Cell.spot, hl, length_readingOrder]
  refine ⟨List.cons_ne_nil _ _, hcounts, hpos, htotal, ⟨cells, hcells, hsize hspots, ?_⟩,
    filled, hfilled, hsize hspots', hfiller rfl⟩
  intro cell hcell
  obtain ⟨i, c, hc, -, hbelongs, hnote⟩ := hclaimed hpos cell hcell
  exact ⟨⟨c, List.mem_of_getElem? hc, hbelongs⟩, hnote⟩

end CellAtlas
