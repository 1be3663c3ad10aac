import CellAtlas.Proofs.Grid.Alignment

/-!
# Chances at their ends

A draw lies from 0 up to but not including 1, and decides for the first threshold above it:

    0        active   active + pointer   active + pointer + dropped        1
    |  active  |   pointer   |          dropped           |     empty     |

A chance of zero moves its threshold nowhere, so that no draw falls below it that has not fallen
below the one before, and its state is never drawn. Where the last threshold reaches 1, no draw is
left for the empty state. The chances that count are those after scaling, where a zero stays what it
is. The main statement is `layout_chances`.
-/

namespace CellAtlas

open CellAtlas.Random

/-! ### A single draw -/

/-- The number falls between the thresholds of a state. -/
def CellState.FallsIn (thresholds : Ratios) (draw : Binary64) : CellState → Prop
  | .active => draw < thresholds.active
  | .pointer => ¬ draw < thresholds.active ∧ draw < thresholds.pointer
  | .dropped => ¬ draw < thresholds.pointer ∧ draw < thresholds.dropped
  | .empty => ¬ draw < thresholds.dropped

/-- The state that is drawn is the one whose thresholds the number falls between. -/
theorem CellState.sample_fallsIn (thresholds : Ratios) (draw : Binary64) :
    (CellState.sample thresholds draw).FallsIn thresholds draw := by
  unfold CellState.sample
  split
  next h => exact h
  next hactive =>
    split
    next h => exact ⟨hactive, h⟩
    next hpointer =>
      split
      next h => exact ⟨hpointer, h⟩
      next h => exact h

/-- The factors of every category are finite. -/
theorem Category.isFinite_factors (category : Category) :
    category.factors.active.isFinite = true ∧ category.factors.pointer.isFinite = true ∧
      category.factors.dropped.isFinite = true := by
  cases category <;> decide +kernel

namespace Ratios

def Excludes (r : Ratios) : CellState → Prop
  | .active => r.active.IsZero
  | .pointer => r.pointer.IsZero
  | .dropped => r.dropped.IsZero
  | .empty => False

/-- The chances, added up one after the other, leave nothing over. -/
def Exhausts (r : Ratios) : Prop := 1 ≤ r.active + r.pointer + r.dropped

instance (r : Ratios) : DecidablePred r.Excludes
  | .active => inferInstanceAs (Decidable r.active.IsZero)
  | .pointer => inferInstanceAs (Decidable r.pointer.IsZero)
  | .dropped => inferInstanceAs (Decidable r.dropped.IsZero)
  | .empty => inferInstanceAs (Decidable False)

instance (r : Ratios) : Decidable r.Exhausts := inferInstanceAs (Decidable (_ ≤ _))

variable {r : Ratios} {state : CellState} {draw : Binary64}

/-- A state without a chance leaves no room between its thresholds. -/
theorem Excludes.sample_ne (h : r.Excludes state) (hdraw : 0 ≤ draw) :
    CellState.sample r.thresholds draw ≠ state := by
  intro heq
  have hfalls := CellState.sample_fallsIn r.thresholds draw
  rw [heq] at hfalls
  -- a number below zero, or one between two thresholds that count as the same
  cases state with
  | active => exact Binary64.not_lt_of_le hdraw (Binary64.lt_of_lt_of_le hfalls h.2)
  | pointer =>
      obtain ⟨hactive, hpointer⟩ := hfalls
      exact hactive ((Binary64.lt_add_iff_of_isZero h).mp hpointer)
  | dropped =>
      obtain ⟨hpointer, hdropped⟩ := hfalls
      exact hpointer ((Binary64.lt_add_iff_of_isZero h).mp hdropped)
  | empty => exact h

/-- Every number is below one, hence below the last threshold if this is not. -/
theorem Exhausts.sample_ne_empty (h : r.Exhausts) (hdraw : draw < 1) :
    CellState.sample r.thresholds draw ≠ .empty := by
  intro heq
  have hfalls := CellState.sample_fallsIn r.thresholds draw
  rw [heq] at hfalls
  exact hfalls (Binary64.lt_of_lt_of_le hdraw h)

/-- Chances of zero stay zero in every category. -/
theorem Excludes.scale (h : r.Excludes state) (category : Category) :
    (r.scale category.factors).Excludes state := by
  obtain ⟨hactive, hpointer, hdropped⟩ := category.isFinite_factors
  cases state with
  | active => exact Binary64.IsZero.mul h hactive
  | pointer => exact Binary64.IsZero.mul h hpointer
  | dropped => exact Binary64.IsZero.mul h hdropped
  | empty => exact h

end Ratios

/-! ### Whole grids -/

section Drawn

variable {brush : Brush} (hstate : ∀ x y state, (brush x y state).state = state)
  {ratios : Ratios} (width : Nat) (g : Generator) (p : Nat)

include hstate

theorem drawnCell_state_ne {state : CellState} (h : ratios.Excludes state) :
    (drawnCell brush ratios width g p).state ≠ state := by
  rw [drawnCell, hstate]
  exact h.sample_ne (g.uniformAt_nonneg p)

theorem drawnCell_state_ne_empty (h : ratios.Exhausts) :
    (drawnCell brush ratios width g p).state ≠ .empty := by
  rw [drawnCell, hstate]
  exact h.sample_ne_empty (g.uniformAt_lt_one p)

end Drawn

section Layout

variable {structures : List Classified} {config : GridConfig} {seed : Option Int}
  {cells : List Cell}

/-- The chances of the demo grid are those of its configuration. -/
theorem demoGrid_chances [Machine] (h : demoGrid config seed = .ok cells) :
    (∀ state, config.ratios.Excludes state → ∀ cell ∈ cells, cell.state ≠ state) ∧
      (config.ratios.Exhausts → ∀ cell ∈ cells, cell.state ≠ .empty) := by
  by_cases hsize : config.size = 0
  · rw [demoGrid, if_pos hsize] at h
    cases h
    simp
  · have hg : ∃ g, Generator.ofSeed seed = .ok g := by
      have hsteps := h
      rw [demoGrid, if_neg hsize] at hsteps
      simp only [bind_eq_ok, mapError_eq_ok] at hsteps
      obtain ⟨g, hg, -⟩ := hsteps
      exact ⟨g, hg⟩
    obtain ⟨g, hg⟩ := hg
    have hdrawn := demoGrid_drawn hg hsize h
    constructor
    · intro state hstate cell hcell
      obtain ⟨p, rfl⟩ := hdrawn cell hcell
      exact drawnCell_state_ne (fun _ _ _ => rfl) _ g p hstate
    · intro hsum cell hcell
      obtain ⟨p, rfl⟩ := hdrawn cell hcell
      exact drawnCell_state_ne_empty (fun _ _ _ => rfl) _ g p hsum

/-- Where a chance is zero, no cell has its state, whatever is laid out. Where the chances leave
nothing over, no cell of the demo grid is empty, and no cell of a structure if those of its category
do. -/
theorem layout_chances [Machine] (hcounts : ∀ c ∈ structures, 0 ≤ c.instanceCount)
    (h : layout structures config seed = .ok cells) :
    (∀ state, config.ratios.Excludes state → ∀ cell ∈ cells, cell.state ≠ state) ∧
      (structures = [] → config.ratios.Exhausts → ∀ cell ∈ cells, cell.state ≠ .empty) ∧
      (structures ≠ [] → cells ≠ [] → ∃ share rows,
        instanceShare config structures = .ok share ∧
        RowsReached config share 0 structures rows ∧
        ∀ cell ∈ cells, ∀ i c, structures[i]? = some c → InBand rows i cell.y →
          cell.BelongsTo c.name ∧
          ((config.ratios.scale c.category.factors).Exhausts → cell.state ≠ .empty)) := by
  by_cases hne : structures = []
  · subst hne
    rw [layout_nil] at h
    obtain ⟨hzero, hsum⟩ := demoGrid_chances h
    exact ⟨hzero, fun _ => hsum, fun hne => absurd rfl hne⟩
  · by_cases hsize : config.size = 0
    · rw [layout, if_pos hsize] at h
      cases h
      simp
    · obtain ⟨hwidth, hheight⟩ := pos_of_size_ne_zero hsize
      obtain ⟨g, share, rows, -, hshare, hreached, hnonneg, hdrawn⟩ :=
        layout_drawn hne hcounts hwidth hheight h
      refine ⟨?_, fun hnil => absurd hnil hne, fun _ _ => ⟨share, rows, hshare, hreached, ?_⟩⟩
      · intro state hstate cell hcell
        rcases hdrawn cell hcell with ⟨i, c, -, -, p, rfl⟩ | ⟨hunclaimed, -⟩
        · exact drawnCell_state_ne (fun _ _ _ => rfl) _ g p (hstate.scale c.category)
        -- what is filled up is empty, which is no state with a chance of its own
        · rintro rfl
          rw [hunclaimed.state] at hstate
          exact hstate
      -- within a band all cells are drawn with the chances of its structure
      · intro cell hcell i c hc hband
        rcases hdrawn cell hcell with ⟨j, d, hcell⟩ | ⟨-, hnone⟩
        · obtain ⟨p, rfl⟩ := hcell.drawn_of_inBand hnonneg hc hband
          exact ⟨structureBrush_belongsTo c.name _ _ _,
            drawnCell_state_ne_empty (fun _ _ _ => rfl) _ g p⟩
        · exact absurd hband (hnone i)

/-- No pointers, and whatever is no pointer is active or dropped: the sum of the chances is one, and
larger in every category. -/
def pointerless : GridConfig := { activeRatio := 0.4, droppedRatio := 0.6, pointerRatio := 0 }

theorem layout_chances_pointerless :
    (∀ c ∈ unevenStructures, 0 ≤ c.instanceCount) ∧ pointerless.ratios.Excludes .pointer ∧
    pointerless.ratios.Exhausts ∧
    (∃ demo, layout [] pointerless (some 7) = .ok demo ∧
      ∀ cell ∈ demo, cell.state ≠ .pointer ∧ cell.state ≠ .empty) ∧
    ∃ cells share rows, layout unevenStructures pointerless (some 7) = .ok cells ∧
      instanceShare pointerless unevenStructures = .ok share ∧
      RowsReached pointerless share 0 unevenStructures rows ∧
      (∀ cell ∈ cells, cell.state ≠ .pointer) ∧
      ∀ cell ∈ cells, ∀ i c, unevenStructures[i]? = some c → InBand rows i cell.y →
        cell.state ≠ .empty := by
  have hcounts : ∀ c ∈ unevenStructures, 0 ≤ c.instanceCount := by decide
  have hpointer : pointerless.ratios.Excludes .pointer := by decide +kernel
  have hsum : pointerless.ratios.Exhausts := by decide +kernel
  have hscaled : ∀ category : Category, (pointerless.ratios.scale category.factors).Exhausts := by
    intro category
    cases category <;> decide +kernel
  have hsize : pointerless.size ≤ 2 ^ 18 := by decide
  obtain ⟨demo, hdemo⟩ : ∃ demo, layout [] pointerless (some 7) = .ok demo :=
    layout_ok (by decide) hsize (by decide)
  obtain ⟨cells, hcells⟩ : ∃ cells, layout unevenStructures pointerless (some 7) = .ok cells :=
    layout_ok (by decide) hsize (by decide)
  obtain ⟨hzero, hfull, -⟩ := layout_chances (by simp) hdemo
  obtain ⟨hzero', -, hclaimed⟩ := layout_chances hcounts hcells
  -- there are as many cells as places
  have hcells_ne : cells ≠ [] := by
    rintro rfl
    have hspots := layout_spots hcounts hcells
    have hlength := congrArg List.length hspots
    rw [length_readingOrder] at hlength
    exact absurd hlength (by decide)
  obtain ⟨share, rows, hshare, hreached, hband⟩ := hclaimed (List.cons_ne_nil _ _) hcells_ne
  refine ⟨hcounts, hpointer, hsum, ⟨demo, hdemo, ?_⟩, cells, share, rows, hcells, hshare, hreached,
    hzero' _ hpointer, ?_⟩
  · exact fun cell hcell => ⟨hzero _ hpointer cell hcell, hfull rfl hsum cell hcell⟩
  · exact fun cell hcell i c hc hin => (hband cell hcell i c hc hin).2 (hscaled c.category)

end Layout

end CellAtlas
