import CellAtlas.Proofs.Grid.Percent

/-!
# Grid statistics add up

The statistics count every cell of a grid in its state (`count_ofCells`), and in whatever order the
cells come, they are the same (`ofCells_of_perm`). The two percentages are those of two parts of the
grid (`efficiency_ofCells`, `utilization_ofCells`), of which the first lies within the second. The
main statement is `GridStats.ofCells_balanced`.
-/

namespace CellAtlas

variable {cells : List Cell}

/-! ### Counts -/

theorem countState_eq_length_filter (cells : List Cell) (s : CellState) :
    countState cells s = (cells.filter (·.state = s)).length :=
  List.countP_eq_length_filter

/-- Every cell is in one of the states. -/
theorem length_eq_countState_add (cells : List Cell) :
    cells.length = countState cells .empty + countState cells .active
      + countState cells .pointer + countState cells .dropped := by
  induction cells with
  | nil => rfl
  | cons c cells ih =>
      simp only [countState, List.countP_cons, List.length_cons] at ih ⊢
      cases c.state <;> simp <;> omega

/-- A state that no cell has is counted as none. -/
theorem countState_eq_zero {s : CellState} (h : ∀ c ∈ cells, c.state ≠ s) :
    countState cells s = 0 := by
  rw [countState, List.countP_eq_zero]
  intro c hc
  simpa using h c hc

/-! ### Parts of a grid -/

def efficientCells (cells : List Cell) : Nat :=
  countState cells .active + countState cells .pointer

def utilizedCells (cells : List Cell) : Nat := cells.length - countState cells .empty

/-- Efficient cells are not empty. -/
theorem efficientCells_le_utilizedCells (cells : List Cell) :
    efficientCells cells ≤ utilizedCells cells := by
  have hlength := length_eq_countState_add cells
  unfold efficientCells utilizedCells
  omega

theorem utilizedCells_le_length (cells : List Cell) : utilizedCells cells ≤ cells.length :=
  Nat.sub_le _ _

theorem efficientCells_le_length (cells : List Cell) : efficientCells cells ≤ cells.length :=
  (efficientCells_le_utilizedCells cells).trans (utilizedCells_le_length cells)

/-- The value is the integer part of the calculated percentage, which has one. -/
def IsPercentage (part total : Nat) (value : Int) : Prop :=
  (Binary64.ofQuotient part total * 100 + 0.5).floor? = some value

/-- The efficiency of a grid with cells is a percentage. -/
theorem efficiency_ofCells (hne : cells ≠ []) :
    (GridStats.ofCells cells).efficiency = percent (efficientCells cells) cells.length := by
  have hlength : (cells.length : Int) ≠ 0 := by simpa using hne
  exact if_neg hlength

/-- The utilization of a grid with cells is a percentage. -/
theorem utilization_ofCells (hne : cells ≠ []) :
    (GridStats.ofCells cells).utilization = percent (utilizedCells cells) cells.length := by
  have hlength : (cells.length : Int) ≠ 0 := by simpa using hne
  have hle : countState cells .empty ≤ cells.length := List.countP_le_length
  rw [utilizedCells, Nat.cast_sub hle]
  exact if_neg hlength

namespace GridStats

def count (stats : GridStats) : CellState → Int
  | .active => stats.active
  | .pointer => stats.pointer
  | .dropped => stats.dropped
  | .empty => stats.empty

/-- The statistics count the cells in each state. -/
theorem count_ofCells (cells : List Cell) (s : CellState) :
    (ofCells cells).count s = (cells.filter (·.state = s)).length := by
  rw [← countState_eq_length_filter]
  cases s <;> rfl

/-- The order of the cells makes no difference. -/
theorem ofCells_of_perm {other : List Cell} (h : cells.Perm other) :
    ofCells other = ofCells cells := by
  have hcount : countState other = countState cells := by
    funext s
    exact (h.countP_eq _).symm
  simp only [ofCells, hcount, h.length_eq]

/-- The percentages lie between 0 and 100 in this order: efficiency, utilization. -/
theorem percentages_ofCells (cells : List Cell) :
    0 ≤ (ofCells cells).efficiency ∧ (ofCells cells).efficiency ≤ (ofCells cells).utilization ∧
      (ofCells cells).utilization ≤ 100 := by
  by_cases hne : cells = []
  · subst hne
    decide
  -- both have the same total, so that the percentages are ordered like the parts
  · have hpos : 0 < cells.length := List.length_pos_iff.mpr hne
    have hefficient := efficientCells_le_length cells
    have hutilized := utilizedCells_le_length cells
    have hle := efficientCells_le_utilizedCells cells
    rw [efficiency_ofCells hne, utilization_ofCells hne]
    exact ⟨percent_nonneg hefficient hpos,
      percent_mono hefficient hpos hutilized hpos (Nat.mul_le_mul_right _ hle),
      percent_le_hundred hutilized hpos⟩

/-- The percentages of a grid are integer parts of numbers that exist. -/
theorem isPercentage_ofCells (hne : cells ≠ []) :
    IsPercentage (efficientCells cells) cells.length (ofCells cells).efficiency ∧
      IsPercentage (utilizedCells cells) cells.length (ofCells cells).utilization := by
  have hpos : 0 < cells.length := List.length_pos_iff.mpr hne
  rw [efficiency_ofCells hne, utilization_ofCells hne]
  exact ⟨floor?_percent (efficientCells_le_length cells) hpos,
    floor?_percent (utilizedCells_le_length cells) hpos⟩

/-- The counts are right and add up to the total, and the order of the cells makes no difference.
The percentages exist and lie from 0 to 100, the efficiency not above the utilization. Without cells
both are 0, and without empty ones all of a grid is utilized. -/
theorem ofCells_balanced (cells : List Cell) :
    let stats := ofCells cells
    (∀ s, stats.count s = (cells.filter (·.state = s)).length) ∧
    (stats.total = cells.length ∧
      stats.total = stats.empty + stats.active + stats.pointer + stats.dropped) ∧
    (∀ other : List Cell, cells.Perm other → ofCells other = stats) ∧
    (0 ≤ stats.efficiency ∧ stats.efficiency ≤ stats.utilization ∧ stats.utilization ≤ 100) ∧
    (cells ≠ [] → IsPercentage (efficientCells cells) cells.length stats.efficiency ∧
      IsPercentage (utilizedCells cells) cells.length stats.utilization) ∧
    (cells = [] → stats.efficiency = 0 ∧ stats.utilization = 0) ∧
    (cells ≠ [] → (∀ c ∈ cells, c.state ≠ .empty) → stats.utilization = 100) := by
  intro stats
  refine ⟨count_ofCells cells, ⟨rfl, ?_⟩, fun _ => ofCells_of_perm, percentages_ofCells cells,
    isPercentage_ofCells, ?_, ?_⟩
  -- the total is a sum of natural numbers that is read as one of integers
  · show (cells.length : Int) = countState cells .empty + countState cells .active
      + countState cells .pointer + countState cells .dropped
    exact_mod_cast length_eq_countState_add cells
  · rintro rfl
    exact ⟨rfl, rfl⟩
  · intro hne hfull
    have hutilized : utilizedCells cells = cells.length := by
      rw [utilizedCells, countState_eq_zero hfull, Nat.sub_zero]
    show (ofCells cells).utilization = 100
    rw [utilization_ofCells hne, hutilized]
    exact percent_self (List.length_pos_iff.mpr hne)

end GridStats

end CellAtlas
