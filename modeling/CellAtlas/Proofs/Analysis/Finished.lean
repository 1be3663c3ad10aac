import CellAtlas.Analysis.Builtin
import CellAtlas.Proofs.Analysis.Builtin
import CellAtlas.Proofs.Analysis.Run
import CellAtlas.Proofs.Classification.Classified
import CellAtlas.Proofs.Grid.Layout
import CellAtlas.Proofs.Grid.Raster

/-!
# What a completed run has found

Whatever a run of the built-in stages starts from, if none of them fails then the grid comes in
reading order and has a text, the steps are the script of the structures, and the seed is one that
starts a generator (`Builtin.finished_of_run`). A playback needs no more to go on for ever.

Even if stages fail, the structures are those of the source text (`Builtin.structures_of_run`) and
the statistics those of the grid (`Builtin.stats_of_run`).
-/

namespace CellAtlas

open CellAtlas.Random

/-- The findings are those of a completed run. -/
structure Analysis.Finished [Machine] (a : Analysis) : Prop where
  steps : a.steps = script a.structures
  spots : a.grid.map Cell.spot = readingOrder a.gridConfig.width.toNat a.gridConfig.height.toNat
  text : CellAtlas.gridText a.grid = .ok a.gridText
  seed : ∃ g, Generator.ofSeed a.seed = .ok g

/-- An attempt without a failure has had a result. -/
theorem Action.eq_ok_of_attempt {σ ε : Type} {text : ε → String} {f : σ → Except ε σ}
    {c : Context σ} {b : σ} (h : attempt text f c = { state := b }) : f c.state = .ok b := by
  simp only [attempt, onState] at h
  split at h
  · next hf => rw [hf, (Outcome.mk.inj h).1]
  · cases h

/-- Only from a seed that a generator takes do structures get their sizes. -/
theorem exists_generator_of_classify {structures : List Source.Structure} {seed : Option Int}
    {classified : List Classified} (h : classify structures seed = .ok classified) :
    ∃ g, Generator.ofSeed seed = .ok g := by
  unfold classify at h
  split at h
  · cases h
  · next g hg => exact ⟨g, hg⟩

namespace Builtin

variable {a b : Analysis}

theorem classify_of_classifyStage (h : classifyStage.work a = { state := b }) :
    ∃ classified, classify a.structures a.seed = .ok classified ∧ { a with classified } = b := by
  simp only [Stage.work, classifyStage] at h
  exact map_eq_ok.mp (Action.eq_ok_of_attempt h)

theorem layout_of_layoutStage [Machine] (h : layoutStage.work a = { state := b }) :
    ∃ grid, layout a.mapped a.gridConfig a.seed = .ok grid ∧ { a with grid } = b := by
  simp only [Stage.work, layoutStage] at h
  exact map_eq_ok.mp (Action.eq_ok_of_attempt h)

/-- If the summary stage does not fail, there is a text of the grid, and it has been stored. -/
theorem gridText_of_summaryStage [Machine] (h : summaryStage.work a = { state := b }) :
    ∃ gridText, CellAtlas.gridText a.grid = .ok gridText ∧
      { a with stats := some (.ofCells a.grid), gridText } = b := by
  simp only [Stage.work, summaryStage, Action.onState] at h
  split at h
  · next gridText htext =>
      cases h
      exact ⟨gridText, htext, rfl⟩
  · cases h

/-- When all stages complete, what they leave is finished. -/
theorem finished_of_complete [Machine] (h : Complete stages a b) : b.Finished := by
  -- from the last stage back to the first one that matters
  obtain ⟨scanned, -, sized, hsized, mapped, hmapped, laid, hlaid, summed, hsummed, final,
    hfinal, rfl⟩ := h
  cases hfinal
  obtain ⟨gridText, htext, rfl⟩ := gridText_of_summaryStage hsummed
  obtain ⟨grid, hlayout, rfl⟩ := layout_of_layoutStage hlaid
  cases hmapped
  obtain ⟨classified, hclassify, rfl⟩ := classify_of_classifyStage hsized
  -- the layout asks for counts that are not negative, and all sizes are positive
  have hcounts : ∀ c ∈ Classified.select classified scanned.selected, 0 ≤ c.instanceCount := by
    intro c hc
    have hmem := (Classified.select_sublist classified scanned.selected).subset hc
    exact (sized_of_classify hclassify c hmem).instanceCount_bounds.1.le
  exact {
    steps := rfl
    spots := layout_spots hcounts hlayout
    text := htext
    seed := exists_generator_of_classify hclassify }

/-- A run takes its state through the work of all stages. -/
theorem state_runStages [Machine] (a : Analysis) :
    (runStages stages { state := a }).state = stateAfter stages a := by
  rw [runStages_eq]
  exact state_contextAfter ignoresRecord _

/-- The built-in stages always have an order, so that every run gets to its end. -/
theorem run_eq_ok [Machine] (a : Analysis) :
    registry.run a = .ok (runStages stages { state := a }) := by
  rw [Registry.run, Registry.runFrom, order_registry]
  rfl

/-- A run that is followed ends like one that is not. -/
theorem stream_eq_ok [Machine] (a : Analysis) :
    ∃ events, registry.stream a = .ok (events, runStages stages { state := a }) := by
  rw [Registry.stream, Registry.streamFrom, order_registry]
  exact ⟨_, congrArg (fun p => Except.ok (_, p)) (streamStages_progress ..)⟩

/-- A run without errors has found all there is to find. -/
theorem finished_of_run [Machine] {p : Progress Analysis} (hrun : registry.run a = .ok p)
    (herrors : p.errors = []) : p.state.Finished := by
  cases (run_eq_ok a).symm.trans hrun
  rw [runStages_eq] at herrors
  replace herrors : (contextAfter stages { state := a }).errors = [] := herrors
  rw [errors_contextAfter ids_nodup] at herrors
  have hcomplete : Complete stages a (stateAfter stages a) :=
    complete_of_errorsIn ignoresRecord herrors
  rw [state_runStages]
  exact finished_of_complete hcomplete

/-! ### Structures -/

/-- No stage after the first one touches the structures, not even when it fails. -/
theorem structures_work [Machine] {s : Stage Analysis} (hs : s ∈ stages.tail) (a : Analysis) :
    (s.work a).state.structures = a.structures := by
  simp only [stages, List.tail_cons, List.mem_cons, List.not_mem_nil, or_false] at hs
  rcases hs with rfl | rfl | rfl | rfl | rfl
  · simp only [Stage.work, classifyStage, Action.attempt, Action.onState]
    cases classify a.structures a.seed <;> rfl
  · rfl
  · simp only [Stage.work, layoutStage, Action.attempt, Action.onState]
    cases layout a.mapped a.gridConfig a.seed <;> rfl
  · simp only [Stage.work, summaryStage, Action.onState]
    cases CellAtlas.gridText a.grid <;> rfl
  · rfl

/-- The stages behind the scanner leave the structures alone, in whatever order they come. -/
theorem structures_stateAfter [Machine] {rest : List (Stage Analysis)} (hrest : rest ⊆ stages.tail)
    (a : Analysis) : (stateAfter rest a).structures = a.structures := by
  induction rest generalizing a with
  | nil => rfl
  | cons s rest ih =>
      rw [List.cons_subset] at hrest
      exact (ih hrest.2 _).trans (structures_work hrest.1 a)

/-- Whatever a run comes to, its structures are those of the source text. -/
theorem structures_of_run [Machine] {a : Analysis} {p : Progress Analysis}
    (h : registry.run a = .ok p) : p.state.structures = Source.scan a.source := by
  cases (run_eq_ok a).symm.trans h
  have hstages : stages = scanStage :: stages.tail := rfl
  rw [state_runStages, hstages, stateAfter_cons, structures_stateAfter (List.Subset.refl _)]
  rfl

/-! ### What is laid out -/

/-- What the last three stages add to a state, whether they fail or not: they have statistics and a
script for whatever grid there is, and the grid is the layout if there is one. -/
theorem stateAfter_drawing [Machine] (a : Analysis) :
    ∃ grid gridText, stateAfter [layoutStage, summaryStage, scriptStage] a = { a with
        grid, gridText, stats := some (.ofCells grid), steps := script a.structures } ∧
      ∀ cells, layout a.mapped a.gridConfig a.seed = .ok cells → grid = cells := by
  -- the layout stage either stores a grid or fails and keeps the old one
  obtain ⟨grid, hlaid, hgrid⟩ : ∃ grid, (layoutStage.work a).state = { a with grid } ∧
      ∀ cells, layout a.mapped a.gridConfig a.seed = .ok cells → grid = cells := by
    simp only [Stage.work, layoutStage, Action.attempt, Action.onState]
    cases layout a.mapped a.gridConfig a.seed with
    | error e => exact ⟨a.grid, rfl, fun cells h => by cases h⟩
    | ok cells => exact ⟨cells, rfl, fun _ h => Except.ok.inj h⟩
  -- the statistics are stored before the text is tried
  obtain ⟨gridText, hsummed⟩ : ∃ gridText, (summaryStage.work { a with grid }).state
      = { a with grid, gridText, stats := some (.ofCells grid) } := by
    simp only [Stage.work, summaryStage, Action.onState]
    cases CellAtlas.gridText grid with
    | error e => exact ⟨a.gridText, rfl⟩
    | ok gridText => exact ⟨gridText, rfl⟩
  refine ⟨grid, gridText, ?_, hgrid⟩
  rw [stateAfter_cons, hlaid, stateAfter_cons, hsummed]
  rfl

/-- Whatever a run comes to, it has the statistics of its grid. -/
theorem stats_of_run [Machine] {a : Analysis} {p : Progress Analysis} (h : registry.run a = .ok p) :
    p.state.stats = some (.ofCells p.state.grid) := by
  cases (run_eq_ok a).symm.trans h
  obtain ⟨grid, gridText, hstate, -⟩ :=
    stateAfter_drawing (stateAfter [scanStage, classifyStage, selectStage] a)
  have hstages : stateAfter stages a = _ := hstate
  rw [state_runStages, hstages]

end Builtin

end CellAtlas
