import CellAtlas.Analysis.Builtin
import CellAtlas.Proofs.Analysis.Run
import CellAtlas.Proofs.Classification.Classified
import CellAtlas.Proofs.Grid.Layout
import CellAtlas.Proofs.Grid.Raster

/-!
# Grids that can be drawn

An analysis should not come to a grid that is too large for its raster. `Analysis.Sound` says that
it has not, and that a layout from here on would not. Every stage that keeps this can be part of any
registry: then it holds of the state at the end of every run, whichever stages have failed
(`Registry.runFrom_sound`). The built-in stages keep it.
-/

namespace CellAtlas

variable [Machine]

/-- The grid can be drawn, and any layout could be. -/
structure Analysis.Sound (a : Analysis) : Prop where
  size : a.gridConfig.size ≤ Machine.memory
  classified : ∀ c ∈ a.classified, 0 ≤ c.instanceCount
  mapped : ∀ c ∈ a.mapped, 0 ≤ c.instanceCount
  grid : Drawable a.grid

/-- An analysis starts with an empty grid, and a request of no size has that of the settings. -/
theorem Analysis.ofSource_sound {config : AnalysisConfig} {gridConfig : Option GridConfig}
    (source : String) (seed : Option Int) (selected : List String)
    (hconfig : config.grid.size ≤ Machine.memory)
    (hgrid : ∀ c ∈ gridConfig, c.size ≤ Machine.memory) :
    (ofSource config source seed gridConfig selected).Sound where
  size := by
    cases gridConfig with
    | none => exact hconfig
    | some c => exact hgrid c rfl
  classified := by simp [ofSource]
  mapped := by simp [ofSource]
  grid := drawable_nil

/-! ### Stages -/

/-- A stage leaves a sound state if it meets one, even when it fails. -/
def Action.Sound (f : Action Analysis) : Prop :=
  ∀ c : Context Analysis, c.state.Sound → (f c).state.Sound

theorem Action.idle_sound : Action.Sound .idle := fun _ h => h

/-- An attempt is sound if its results are, for a failure leaves the state as it was. -/
theorem Action.attempt_sound {ε : Type} (text : ε → String) {f : Analysis → Except ε Analysis}
    (h : ∀ a b : Analysis, a.Sound → f a = .ok b → b.Sound) : Action.Sound (.attempt text f) := by
  intro c hc
  simp only [attempt, onState]
  cases hf : f c.state with
  | ok b => exact h c.state b hc hf
  | error e => exact hc

namespace Builtin

theorem scanStage_sound : scanStage.action.Sound :=
  fun _ h => ⟨h.size, h.classified, h.mapped, h.grid⟩

/-- Counts that come out of a sizing table are positive. -/
theorem classifyStage_sound : classifyStage.action.Sound := by
  apply Action.attempt_sound
  intro a b h hb
  obtain ⟨classified, hclassify, rfl⟩ := map_eq_ok.mp hb
  refine ⟨h.size, ?_, h.mapped, h.grid⟩
  intro c hc
  exact (sized_of_classify hclassify c hc).instanceCount_bounds.1.le

theorem selectStage_sound : selectStage.action.Sound := by
  intro c h
  refine ⟨h.size, h.classified, ?_, h.grid⟩
  intro s hs
  exact h.classified s ((Classified.select_sublist _ _).subset hs)

/-- A layout has as many cells as its grid has places, and those fit. -/
theorem layoutStage_sound : layoutStage.action.Sound := by
  apply Action.attempt_sound
  intro a b h hb
  obtain ⟨grid, hlayout, rfl⟩ := map_eq_ok.mp hb
  refine ⟨h.size, h.classified, h.mapped, ?_⟩
  rw [drawable_iff_of_readingOrder (layout_spots h.mapped hlayout), ← size_eq]
  exact h.size

theorem summaryStage_sound : summaryStage.action.Sound := by
  intro c h
  simp only [summaryStage, Action.onState]
  split
  · exact ⟨h.size, h.classified, h.mapped, h.grid⟩
  · exact ⟨h.size, h.classified, h.mapped, h.grid⟩

theorem scriptStage_sound : scriptStage.action.Sound :=
  fun _ h => ⟨h.size, h.classified, h.mapped, h.grid⟩

/-- The built-in stages are sound, each for its own reason. -/
theorem stages_sound : ∀ s ∈ stages, s.action.Sound := by
  simp [stages, scanStage_sound, classifyStage_sound, selectStage_sound, layoutStage_sound,
    summaryStage_sound, scriptStage_sound]

end Builtin

/-! ### Runs -/

/-- Sound stages leave a sound state, as each of them meets what the last one left. -/
theorem contextAfter_sound {stages : List (Stage Analysis)}
    (hstages : ∀ s ∈ stages, s.action.Sound) {c : Context Analysis} (h : c.state.Sound) :
    (contextAfter stages c).state.Sound := by
  induction stages generalizing c with
  | nil => exact h
  | cons s rest ih =>
      obtain ⟨hs, hrest⟩ := List.forall_mem_cons.mp hstages
      apply ih hrest
      rw [s.state_call]
      exact hs c h

/-- Wherever a run ends, it ends in a sound state. -/
theorem Registry.runFrom_sound {r : Registry Analysis} (hstages : ∀ s ∈ r.stages, s.action.Sound)
    {a : Analysis} (h : a.Sound) : (r.runFrom { state := a }).progress.state.Sound := by
  unfold runFrom
  cases horder : r.order with
  | error e => exact h
  | ok ordered =>
      have hordered : ∀ s ∈ ordered, s.action.Sound := by
        intro s hs
        exact hstages s ((r.perm_of_order_eq_ok horder).subset hs)
      simp only [runStages_eq]
      exact contextAfter_sound hordered h

end CellAtlas
