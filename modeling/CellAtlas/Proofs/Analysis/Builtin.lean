import CellAtlas.Analysis.Builtin
import CellAtlas.Proofs.Analysis.Run
import CellAtlas.Proofs.Classification.Classified
import CellAtlas.Proofs.Grid.Layout
import CellAtlas.Proofs.Grid.Raster
import CellAtlas.Proofs.Service.Request

/-!
# The built-in stages go through

None of the built-in stages fails on a seed that is not negative and a grid that is not too large,
and what they find fits together:

    source ──▶ structures ──▶ classified ──▶ mapped ──▶ grid ──▶ stats, text
                   └──▶ steps

Each stage has a lemma of its own that says what it adds to the state. `Coherent` says how the parts
of a state fit together, and `run_ofSource` that they do after a run, whatever the source text is.
-/

namespace CellAtlas

open Source

/-! ### Coherent states -/

/-- The text shows each state as often as the statistics count it. -/
structure GridStats.ShownBy (stats : GridStats) (text : String) : Prop where
  active : text.toList.count '#' = stats.active
  pointer : text.toList.count '>' = stats.pointer
  dropped : text.toList.count 'x' = stats.dropped
  empty : text.toList.count '.' = stats.empty

/-- What the stages have found fits together. -/
structure Analysis.Coherent (a : Analysis) : Prop where
  structures : a.structures = scan a.source
  classified : a.classified.map (·.toStructure) = a.structures
  mapped : a.mapped.Sublist a.classified
  spots : a.grid.map Cell.spot = readingOrder a.gridConfig.width.toNat a.gridConfig.height.toNat
  length : (a.grid.length : Int) = a.gridConfig.width * a.gridConfig.height
  stats : ∃ stats, a.stats = some stats ∧ stats.total = a.gridConfig.width * a.gridConfig.height ∧
    stats.ShownBy a.gridText
  totalSteps : a.totalSteps =
    (a.structures.map fun s => 2 + s.members.length + s.methods.length).sum

/-- A text with as many symbols of each state as there are cells in it shows their statistics. -/
theorem GridStats.ofCells_shownBy {cells : List Cell} {text : String}
    (h : ∀ s : CellState, text.toList.count s.symbol = countState cells s) :
    (GridStats.ofCells cells).ShownBy text where
  active := congrArg _ (h .active)
  pointer := congrArg _ (h .pointer)
  dropped := congrArg _ (h .dropped)
  empty := congrArg _ (h .empty)

theorem length_stepsOf (s : Structure) :
    (stepsOf s).length = 2 + s.members.length + s.methods.length := by
  simp [stepsOf]
  omega

/-- The script has one step for each structure's header and closing and one for each of its
entries. -/
theorem length_script (structures : List Structure) :
    (script structures).length =
      (structures.map fun s => 2 + s.members.length + s.methods.length).sum := by
  rw [script, List.length_mergeSort, List.length_flatMap]
  simp only [length_stepsOf]

/-! ### The stages -/

theorem GridConfig.Accepted.size_le {c : GridConfig} (h : c.Accepted) : c.size ≤ 2 ^ 18 := by
  rw [size_eq]
  exact Nat.le_trans (Nat.mul_le_mul h.height_toNat_le h.width_toNat_le) (by decide)

/-- Every machine has memory for the raster of a grid that can be asked for. -/
theorem GridConfig.Accepted.size_le_memory [Machine] {c : GridConfig} (h : c.Accepted) :
    c.size ≤ Machine.memory :=
  h.size_le.trans (Nat.le_trans (by decide) Machine.enough)

theorem GridConfig.Accepted.size_eq_mul {c : GridConfig} (h : c.Accepted) :
    (c.size : Int) = c.width * c.height := by
  have hwidth := Int.toNat_of_nonneg h.width_nonneg
  have hheight := Int.toNat_of_nonneg h.height_nonneg
  rw [size_eq, Int.natCast_mul, hwidth, hheight, Int.mul_comm]

namespace Builtin

variable {a : Analysis}

/-- On a seed that is not negative the second stage completes, and it keeps the structures as they
are. -/
theorem classifyStage_work {seed : Int} (hseed : a.seed = some seed) (hnonneg : 0 ≤ seed) :
    ∃ classified, classifyStage.work a = { state := { a with classified } } ∧
      classified.map (·.toStructure) = a.structures ∧
      ∀ c ∈ classified, c.Sized defaultSizings := by
  obtain ⟨classified, hok, hstructures, hsized⟩ := classify_ok a.structures hnonneg
  refine ⟨classified, ?_, hstructures, hsized⟩
  simp only [Stage.work, classifyStage, Action.attempt, Action.onState, hseed, hok, Except.map]

/-- The layout stage completes where the sizes come from the table and the grid can be asked for. -/
theorem layoutStage_work [Machine] {seed : Int} (hseed : a.seed = some seed) (hnonneg : 0 ≤ seed)
    (hgrid : a.gridConfig.Accepted) (hmapped : ∀ c ∈ a.mapped, c.Sized defaultSizings) :
    ∃ grid, layoutStage.work a = { state := { a with grid } } ∧
      grid.map Cell.spot = readingOrder a.gridConfig.width.toNat a.gridConfig.height.toNat := by
  have hcounts : ∀ c ∈ a.mapped, 0 ≤ c.instanceCount ∧ c.instanceCount < 2 ^ 53 := by
    intro c hc
    have hbounds := (hmapped c hc).instanceCount_bounds
    omega
  obtain ⟨grid, hok⟩ := layout_ok hnonneg hgrid.size_le hcounts
  refine ⟨grid, ?_, layout_spots (fun c hc => (hcounts c hc).1) hok⟩
  simp only [Stage.work, layoutStage, Action.attempt, Action.onState, hseed, hok, Except.map]

/-- The summary stage completes on a grid in reading order, and its text shows the statistics. -/
theorem summaryStage_work [Machine] (hgrid : a.gridConfig.Accepted)
    (hspots : a.grid.map Cell.spot =
      readingOrder a.gridConfig.width.toNat a.gridConfig.height.toNat) :
    ∃ gridText, summaryStage.work a
        = { state := { a with stats := some (.ofCells a.grid), gridText } } ∧
      (GridStats.ofCells a.grid).ShownBy gridText := by
  have hsize := hgrid.size_le_memory
  rw [size_eq] at hsize
  obtain ⟨gridText, hok⟩ := (drawable_iff_of_readingOrder hspots).mpr hsize
  refine ⟨gridText, ?_, GridStats.ofCells_shownBy (count_symbol_gridText hspots hok)⟩
  simp only [Stage.work, summaryStage, Action.onState, hok]

/-! ### Runs -/

/-- No built-in stage looks at what has been recorded. -/
theorem ignoresRecord [Machine] : ∀ s ∈ stages, s.IgnoresRecord := by
  intro s hs
  simp only [stages, List.mem_cons, List.not_mem_nil, or_false] at hs
  rcases hs with rfl | rfl | rfl | rfl | rfl | rfl <;> exact fun c => rfl

theorem ids_nodup [Machine] : (stages.map (·.id)).Nodup := registry.ids_nodup

/-- The stages are listed in the order in which they run. -/
theorem stages_takesNext [Machine] : TakesNext stages [] stages := by
  refine ⟨⟨by simp [stages], ?_, ?_, ?_⟩, ⟨by simp [stages], ?_, ?_, ?_⟩,
    ⟨by simp [stages], ?_, ?_, ?_⟩, ⟨by simp [stages], ?_, ?_, ?_⟩,
    ⟨by simp [stages], ?_, ?_, ?_⟩, ⟨by simp [stages], ?_, ?_, ?_⟩,
    show ∀ s ∈ stages, _ from ?_⟩
  -- what is left is about ids and dependencies, which are the same on every machine
  all_goals
    simp only [stages, List.forall_mem_cons, List.not_mem_nil, false_implies, implies_true,
      and_true, Stage.remaining, scanStage, List.map_cons, List.map_nil, classifyStage,
      selectStage, layoutStage, summaryStage, scriptStage]
    decide

/-- The built-in stages run in the order of their registration. -/
theorem order_registry [Machine] : registry.order = .ok stages :=
  registry.order_eq_ok_of_takesNext stages_takesNext rfl

/-- Whatever the source text and the selection are, all built-in stages complete on a seed that is
not negative and a grid that can be asked for, and what they find fits together. -/
theorem run_ofSource [Machine] (config : AnalysisConfig) (source : String) (seed : Int)
    (hseed : 0 ≤ seed) (grid : GridConfig) (hgrid : grid.Accepted) (selected : List String) :
    ∃ p, registry.run (Analysis.ofSource config source (some seed) (some grid) selected) = .ok p ∧
      p.errors = [] ∧ p.completed = ["S0.01", "S1.01", "S1.02", "S2.01", "S2.02", "S3.01"] ∧
      p.state.source = source ∧ p.state.gridConfig = grid ∧ p.state.Coherent := by
  -- the states that the stages leave one after the other, and what each of them adds
  let start := Analysis.ofSource config source (some seed) (some grid) selected
  let scanned := { start with structures := scan source }
  obtain ⟨classified, hclassify, hstructures, hsized⟩ :=
    classifyStage_work (a := scanned) rfl hseed
  let mapped := { scanned with classified, mapped := Classified.select classified selected }
  have hsublist : mapped.mapped.Sublist classified := Classified.select_sublist classified selected
  obtain ⟨cells, hlayout, hspots⟩ := layoutStage_work (a := mapped) rfl hseed hgrid
    fun c hc => hsized c (hsublist.subset hc)
  let laid := { mapped with grid := cells }
  obtain ⟨gridText, hsummary, hshown⟩ := summaryStage_work (a := laid) hgrid hspots
  let final := { laid with stats := some (.ofCells cells), gridText, steps := script (scan source) }
  -- the spots alone give the number of cells
  have hlength : (cells.length : Int) = grid.width * grid.height := by
    rw [← hgrid.size_eq_mul, size_eq]
    exact congrArg Nat.cast (length_of_readingOrder hspots)
  have hcomplete : Complete stages start final :=
    ⟨scanned, rfl, _, hclassify, mapped, rfl, laid, hlayout, _, hsummary, final, rfl, rfl⟩
  -- the order is known, so that the run is that of the listed stages
  refine ⟨runStages stages { state := start }, ?_, ?_⟩
  · rw [Registry.run, Registry.runFrom, order_registry]
    rfl
  · rw [runStages_of_complete ids_nodup ignoresRecord hcomplete]
    exact ⟨rfl, rfl, rfl, rfl, {
      structures := rfl
      classified := hstructures
      mapped := hsublist
      spots := hspots
      length := hlength
      stats := ⟨.ofCells cells, rfl, hlength, hshown⟩
      totalSteps := length_script (scan source) }⟩

def pointText : String := "struct Point \x7b\n  int x;\n  int y;\n\x7d;\n"

theorem run_ofSource_point :
    (0 : Int) ≤ 7 ∧ ({} : GridConfig).Accepted ∧
    ∃ p, registry.run (Analysis.ofSource {} pointText (some 7) (some {}) []) = .ok p ∧
      p.errors = [] ∧ p.completed = ["S0.01", "S1.01", "S1.02", "S2.01", "S2.02", "S3.01"] ∧
      p.state.source = pointText ∧ p.state.gridConfig = {} ∧ p.state.Coherent :=
  ⟨by decide, GridConfig.accepted_default,
    run_ofSource {} pointText 7 (by decide) {} GridConfig.accepted_default []⟩

end Builtin

end CellAtlas
