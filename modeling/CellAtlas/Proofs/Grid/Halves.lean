import CellAtlas.Proofs.Grid.Stats

/-!
# Which halves are rounded up

A percentage is meant to be rounded to the nearest integer, a half up (`halfUp`), but it is the
rounded percentage that is rounded. Since it grows with its part, it is enough to look at a hundred
halves and a little to either side of each (`percent_beside`, `percent_half`):

* nothing goes wrong that is not nearer than 2^-46 to a half, so that a part of at most 2^45 cells
  can go wrong at a half only;
* at a half the percentage is rounded up, but for four of them: 14.5, 28.5, 56.5 and 57.5 are
  slightly less after the product, and are rounded down.

Which side a percentage falls on depends on its quotient as it is rounded. There is a least one that
goes up (`leastQuotient`, `lt_percent_iff`), and so nothing goes wrong exactly if the quotient
reaches it for the same halves that the percentage itself reaches. `RoundsHalves` says all this, and
the main statement is `percent_roundsHalves`.
-/

namespace CellAtlas

open Binary64

def halfUp (part total : Nat) : Nat := (200 * part + total) / (2 * total)

/-- How far the percentage lies above `k` and a half, in parts of twice the total. -/
def overHalf (part total k : Nat) : Int := 200 * part - (2 * k + 1) * total

/-- The halves that are rounded down: for 14 the one between 14 and 15. -/
def lostHalves : List Nat := [14, 28, 56, 57]

/-- The least quotient, in multiples of 2^-1074, with a percentage that is rounded to more than `k`.
A hundred times it may be less than the half by half a unit in the last place, and is rounded to the
half all the same. If the half is 0.5, the sum makes up for one more unit. -/
def leastQuotient (k : Nat) : Nat :=
  let scale := if k = 0 then 54 else 52 - k.log2
  let slack := if k = 0 then 3 else 1
  let divisor := 2 ^ (scale + 1) * 100
  (((2 * k + 1) * 2 ^ scale - slack) * unitsInOne + (divisor - 1)) / divisor

/-- What becomes of a percentage that is rounded: it is exact away from the halves, it is one of
the neighbours near to a half, and at a half it is the upper one unless the half is lost. It is
exact in general if the quotient is large enough just where the percentage is. -/
structure RoundsHalves (part total : Nat) (value : Int) : Prop where
  away : (∀ k, (total : Int) ≤ 2 ^ 45 * |overHalf part total k|) → value = halfUp part total
  near : ∀ k : Nat, 2 ^ 45 * |overHalf part total k| < total → value = k ∨ value = k + 1
  half : ∀ k : Nat, overHalf part total k = 0 →
    value = if k ∈ lostHalves then (k : Int) else k + 1
  within : |value - halfUp part total| ≤ 1
  exact_iff : value = halfUp part total ↔
    ∀ k < 100, (leastQuotient k ≤ roundedUnits part total ↔ 0 ≤ overHalf part total k)
  exact_iff_of_le : total ≤ 2 ^ 45 →
    (value = halfUp part total ↔ ∀ k ∈ lostHalves, overHalf part total k ≠ 0)

/-! ### Exact percentages -/

section Exact

variable {part total : Nat}

/-- The next half is one part in a hundred further up. -/
theorem overHalf_succ (part total k : Nat) :
    overHalf part total (k + 1) = overHalf part total k - 2 * total := by
  unfold overHalf
  push_cast
  ring

/-- A percentage is rounded to more than `k` exactly if it reaches the half above. -/
theorem lt_halfUp_iff {k : Nat} (htotal : 0 < total) :
    k < halfUp part total ↔ 0 ≤ overHalf part total k := by
  have hpos : 0 < 2 * total := by omega
  rw [halfUp, ← Nat.succ_le_iff, Nat.le_div_iff_mul_le hpos, overHalf]
  zify
  constructor <;> intro h <;> linarith

theorem halfUp_le_hundred (hpart : part ≤ total) (htotal : 0 < total) :
    halfUp part total ≤ 100 := by
  by_contra h
  have hhalf := (lt_halfUp_iff htotal).mp (Nat.lt_of_not_le h)
  unfold overHalf at hhalf
  push_cast at hhalf
  omega

/-- Less than a half away from the half above `k`, the nearest integer is `k` or the next one. -/
theorem halfUp_of_overHalf {k : Nat} (htotal : 0 < total)
    (h : |overHalf part total k| < total) : halfUp part total = k ∨ halfUp part total = k + 1 := by
  obtain ⟨hge, hle⟩ := abs_lt.mp h
  have hnext : ¬ k + 1 < halfUp part total := by
    rw [lt_halfUp_iff htotal, overHalf_succ]
    omega
  -- the half below is out of reach
  have hk : k ≤ halfUp part total := by
    cases k with
    | zero => exact Nat.zero_le _
    | succ k =>
        rw [overHalf_succ] at hge
        exact (lt_halfUp_iff htotal).mpr (by omega)
  omega

/-- At a half the nearest integer is the upper one. -/
theorem halfUp_of_half {k : Nat} (htotal : 0 < total) (h : overHalf part total k = 0) :
    halfUp part total = k + 1 := by
  have hk : k < halfUp part total := (lt_halfUp_iff htotal).mpr (Int.le_of_eq h.symm)
  have hnext : ¬ k + 1 < halfUp part total := by
    rw [lt_halfUp_iff htotal, overHalf_succ]
    omega
  omega

end Exact

/-! ### Evaluation -/

/-- `roundedUnits` for a ratio of at least 2^-60. To find the scale, this counts the bits of the
quotient from 2^-60 on instead of all of them. -/
def shortUnits (n d : Nat) : Nat :=
  let scale := (n * 2 ^ 60 / d).log2 + (unitBits - 60) - 52
  roundQuotient (n * unitsInOne) (d <<< scale) <<< scale

/-- The logarithm of a short number tells the scale. -/
theorem roundedUnits_eq_short {n d : Nat} (hd : 0 < d) (h : d ≤ n * 2 ^ 60) :
    roundedUnits n d = shortUnits n d := by
  rw [roundedUnits, scaleOf_eq hd (show 60 ≤ unitBits by decide) h, shortUnits]

/-- `percentUnits` for a quotient of at least 2^-60. -/
def percentShort (quotient : Nat) : Nat :=
  let product := shortUnits (quotient * (100 * unitsInOne)) (unitsInOne * unitsInOne)
  shortUnits (product + shortUnits 5 10) unitsInOne

/-- Nothing that is rounded for a percentage is too small to be rounded the short way. -/
theorem percentUnits_eq_short {quotient : Nat} (h : unitsInOne ≤ quotient * 2 ^ 60) :
    percentUnits quotient = percentShort quotient := by
  have hproduct : unitsInOne * unitsInOne ≤ quotient * (100 * unitsInOne) * 2 ^ 60 := by
    calc unitsInOne * unitsInOne
        ≤ quotient * 2 ^ 60 * (100 * unitsInOne) := Nat.mul_le_mul h (by omega)
      _ = quotient * (100 * unitsInOne) * 2 ^ 60 := Nat.mul_right_comm ..
  have hhalf : unitsInOne ≤ roundedUnits 5 10 * 2 ^ 60 := by decide +kernel
  have hsum : ∀ product, unitsInOne ≤ (product + roundedUnits 5 10) * 2 ^ 60 := by
    intro product
    exact hhalf.trans (Nat.mul_le_mul_right _ (Nat.le_add_left _ _))
  have hsquare : 0 < unitsInOne * unitsInOne := Nat.mul_pos unitsInOne_pos unitsInOne_pos
  rw [percentUnits, percentShort, roundedUnits_eq_short unitsInOne_pos (hsum _),
    roundedUnits_eq_short hsquare hproduct, roundedUnits_eq_short (by decide) (by decide)]

theorem percent_eq_short {part total : Nat} (hpart : part ≤ total) (htotal : 0 < total)
    (h : total ≤ part * 2 ^ 60) :
    percent part total = (percentShort (shortUnits part total) / unitsInOne : Nat) := by
  have hquotient : unitsInOne ≤ roundedUnits part total * 2 ^ 60 := by
    have hleast : unitsInOne ≤ roundedUnits 1 (2 ^ 60) * 2 ^ 60 := by decide +kernel
    refine hleast.trans (Nat.mul_le_mul_right _ (roundedUnits_mono (by decide) htotal ?_))
    rw [Nat.one_mul]
    exact h
  rw [percent_eq hpart htotal, percentUnits_eq_short hquotient, roundedUnits_eq_short htotal h]

/-! ### At the halves and beside them -/

/-- The quotients just below and at the least one. -/
theorem percentUnits_leastQuotient {k : Nat} (hk : k < 100) :
    percentUnits (leastQuotient k - 1) / unitsInOne < k + 1 ∧
      k + 1 ≤ percentUnits (leastQuotient k) / unitsInOne := by
  -- all hundred pairs are computed, with the logarithms of short numbers
  have hvalues : ∀ k < 100, unitsInOne ≤ (leastQuotient k - 1) * 2 ^ 60 ∧
      percentShort (leastQuotient k - 1) / unitsInOne < k + 1 ∧
      k + 1 ≤ percentShort (leastQuotient k) / unitsInOne := by
    decide +kernel
  obtain ⟨hrange, hvalues⟩ := hvalues k hk
  have hrange' : unitsInOne ≤ leastQuotient k * 2 ^ 60 :=
    hrange.trans (Nat.mul_le_mul_right _ (Nat.sub_le _ _))
  rw [percentUnits_eq_short hrange, percentUnits_eq_short hrange']
  exact hvalues

/-- Just below and just above each half the percentages are those on either side. -/
theorem percent_beside {k : Nat} (hk : k < 100) :
    percent ((2 ^ 45 * (2 * k + 1) - 1 : Nat) : Int) ((2 ^ 45 * 200 : Nat) : Int) = k ∧
      percent ((2 ^ 45 * (2 * k + 1) + 1 : Nat) : Int) ((2 ^ 45 * 200 : Nat) : Int) = k + 1 := by
  have hvalues : ∀ k < 100,
      percentShort (shortUnits (2 ^ 45 * (2 * k + 1) - 1) (2 ^ 45 * 200)) / unitsInOne = k ∧
      percentShort (shortUnits (2 ^ 45 * (2 * k + 1) + 1) (2 ^ 45 * 200)) / unitsInOne = k + 1 := by
    decide +kernel
  obtain ⟨hbelow, habove⟩ := hvalues k hk
  rw [percent_eq_short (by omega) (by decide) (by omega), hbelow,
    percent_eq_short (by omega) (by decide) (by omega), habove]
  exact ⟨rfl, rfl⟩

/-- At each half the percentage is the upper one, unless the half is lost. -/
theorem percent_half {k : Nat} (hk : k < 100) :
    percent ((2 * k + 1 : Nat) : Int) ((200 : Nat) : Int)
      = if k ∈ lostHalves then (k : Int) else k + 1 := by
  have hvalues : ∀ k < 100, ((percentShort (shortUnits (2 * k + 1) 200) / unitsInOne : Nat) : Int)
      = if k ∈ lostHalves then (k : Int) else k + 1 := by
    decide +kernel
  rw [percent_eq_short (by omega) (by decide) (by omega)]
  exact hvalues k hk

section Rounded

variable {part total : Nat} (hpart : part ≤ total) (htotal : 0 < total)

include hpart htotal

/-- A percentage is rounded to more than `k` if its quotient, once rounded, is large enough. -/
theorem lt_percent_iff {k : Nat} (hk : k < 100) :
    k < percent part total ↔ leastQuotient k ≤ roundedUnits part total := by
  obtain ⟨hbelow, hat⟩ := percentUnits_leastQuotient hk
  rw [percent_eq hpart htotal, Int.ofNat_lt]
  constructor
  · intro hlt
    by_contra hquotient
    have hle : percentUnits (roundedUnits part total) ≤ percentUnits (leastQuotient k - 1) :=
      percentUnits_mono (by omega)
    have hdiv := Nat.div_le_div_right (c := unitsInOne) hle
    omega
  · intro hquotient
    exact hat.trans (Nat.div_le_div_right (percentUnits_mono hquotient))

/-- A percentage that is below a half by one part in 2^45 is not rounded up, for the ratio just
below the half is not. -/
theorem percent_le_of_below {k : Nat} (h : 2 ^ 45 * overHalf part total k ≤ -total) :
    percent part total ≤ k := by
  rcases Nat.lt_or_ge k 100 with hk | hk
  -- the ratio is compared with one that has been computed
  · rw [← (percent_beside hk).1]
    apply percent_mono hpart htotal (by omega) (by decide)
    have hone : 1 ≤ 2 ^ 45 * (2 * k + 1) := by omega
    unfold overHalf at h
    zify [hone]
    linarith
  · have hle := percent_le_hundred hpart htotal
    omega

/-- A percentage that is above a half by one part in 2^45 is rounded up. -/
theorem le_percent_of_above {k : Nat} (h : total ≤ 2 ^ 45 * overHalf part total k) :
    k + 1 ≤ percent part total := by
  -- no part is above the half beyond 100 percent
  have hk : k < 100 := by
    by_contra hge
    have hmul : 100 * total ≤ k * total := Nat.mul_le_mul_right total (by omega)
    unfold overHalf at h
    zify at hmul hpart htotal
    linarith
  rw [← (percent_beside hk).2]
  apply percent_mono (by omega) (by decide) hpart htotal
  unfold overHalf at h
  zify
  linarith

/-- At a half the parts of the total do not matter, only the percentage. -/
theorem percent_eq_of_half {k : Nat} (h : overHalf part total k = 0) :
    percent part total = if k ∈ lostHalves then (k : Int) else k + 1 := by
  have heq : part * 200 = (2 * k + 1) * total := by
    unfold overHalf at h
    zify
    linarith
  have hk : k < 100 := by
    by_contra hge
    have hmul : 201 * total ≤ (2 * k + 1) * total := Nat.mul_le_mul_right total (by omega)
    omega
  rw [← percent_half hk]
  exact percent_congr hpart htotal (by omega) (by decide) heq

/-- A percentage that keeps away from all halves is on the right side of each of them. -/
theorem percent_eq_halfUp (h : ∀ k, (total : Int) ≤ 2 ^ 45 * |overHalf part total k|) :
    percent part total = halfUp part total := by
  apply Int.le_antisymm
  -- the half above the exact percentage is not reached
  · have hneg : overHalf part total (halfUp part total) < 0 :=
      Int.not_le.mp fun h => Nat.lt_irrefl _ ((lt_halfUp_iff htotal).mpr h)
    have hgap := h (halfUp part total)
    rw [abs_of_neg hneg] at hgap
    exact percent_le_of_below hpart htotal (by linarith)
  -- and the one below it is passed, if there is one
  · cases hvalue : halfUp part total with
    | zero => exact percent_nonneg hpart htotal
    | succ k =>
        have hnonneg : 0 ≤ overHalf part total k :=
          (lt_halfUp_iff htotal).mp (hvalue ▸ Nat.lt_succ_self k)
        have hgap := h k
        rw [abs_of_nonneg hnonneg] at hgap
        exact_mod_cast le_percent_of_above hpart htotal hgap

/-- Near to a half, a percentage keeps away from the halves on either side of it. -/
theorem percent_near {k : Nat} (h : 2 ^ 45 * |overHalf part total k| < total) :
    percent part total = k ∨ percent part total = k + 1 := by
  have hbounds := abs_le.mp (le_refl |overHalf part total k|)
  have hle : percent part total ≤ (k + 1 : Nat) := by
    apply percent_le_of_below hpart htotal
    rw [overHalf_succ]
    linarith
  have hge : k ≤ percent part total := by
    cases k with
    | zero => exact percent_nonneg hpart htotal
    | succ k =>
        rw [overHalf_succ] at h hbounds
        exact_mod_cast le_percent_of_above hpart htotal (k := k) (by linarith)
  push_cast at hle
  omega

/-- A percentage is never off by more than one. -/
theorem abs_percent_sub_halfUp_le : |percent part total - halfUp part total| ≤ 1 := by
  by_cases haway : ∀ k, (total : Int) ≤ 2 ^ 45 * |overHalf part total k|
  · rw [percent_eq_halfUp hpart htotal haway, sub_self, abs_zero]
    exact zero_le_one
  -- near to a half both are one of its two neighbours
  · push Not at haway
    obtain ⟨k, hk⟩ := haway
    have hlt : |overHalf part total k| < total := by
      have hnonneg := abs_nonneg (overHalf part total k)
      linarith
    have hexact := halfUp_of_overHalf htotal hlt
    have hvalue := percent_near hpart htotal hk
    rw [abs_le]
    omega

/-- A percentage is exact if it is on the right side of every half, once the quotient is rounded. -/
theorem percent_eq_halfUp_iff : percent part total = halfUp part total ↔
    ∀ k < 100, (leastQuotient k ≤ roundedUnits part total ↔ 0 ≤ overHalf part total k) := by
  constructor
  · intro h k hk
    rw [← lt_percent_iff hpart htotal hk, ← lt_halfUp_iff htotal, h, Int.ofNat_lt]
  · intro hsame
    have hlt : ∀ k : Nat, k < 100 → ((k : Int) < percent part total ↔ k < halfUp part total) := by
      intro k hk
      rw [lt_percent_iff hpart htotal hk, lt_halfUp_iff htotal]
      exact hsame k hk
    have hnonneg := percent_nonneg hpart htotal
    have hle := percent_le_hundred hpart htotal
    have hle' := halfUp_le_hundred hpart htotal
    -- the lesser of the two would be below the other one
    rcases Int.lt_trichotomy (percent part total) (halfUp part total) with h | h | h
    · have hbelow := hlt (percent part total).toNat (by omega)
      omega
    · exact h
    · have hbelow := hlt (halfUp part total) (by omega)
      omega

/-- In a total that is not too large, a percentage that is not a half is far enough from it. -/
theorem percent_eq_halfUp_iff_of_le (hsmall : total ≤ 2 ^ 45) :
    percent part total = halfUp part total ↔ ∀ k ∈ lostHalves, overHalf part total k ≠ 0 := by
  constructor
  · intro h k hk hzero
    rw [percent_eq_of_half hpart htotal hzero, if_pos hk, halfUp_of_half htotal hzero] at h
    omega
  · intro hlost
    by_cases hhalf : ∃ k, overHalf part total k = 0
    · obtain ⟨k, hzero⟩ := hhalf
      rw [percent_eq_of_half hpart htotal hzero, if_neg fun hk => hlost k hk hzero,
        halfUp_of_half htotal hzero]
      push_cast
      rfl
    · apply percent_eq_halfUp hpart htotal
      intro k
      -- what is no half is off by a whole part of twice the total, and the total is small
      have hpos := Int.one_le_abs fun hzero => hhalf ⟨k, hzero⟩
      zify at hsmall
      linarith

theorem roundsHalves_percent : RoundsHalves part total (percent part total) where
  away := percent_eq_halfUp hpart htotal
  near _ := percent_near hpart htotal
  half _ := percent_eq_of_half hpart htotal
  within := abs_percent_sub_halfUp_le hpart htotal
  exact_iff := percent_eq_halfUp_iff hpart htotal
  exact_iff_of_le := percent_eq_halfUp_iff_of_le hpart htotal

end Rounded

/-- Every part of a total that is not zero has a percentage, which is rounded as `RoundsHalves`
says. So are the percentages of the grids with as many cells. -/
theorem percent_roundsHalves {part total : Nat} (hpart : part ≤ total) (htotal : 0 < total) :
    IsPercentage part total (percent part total) ∧
    RoundsHalves part total (percent part total) ∧
    ∀ cells : List Cell, cells.length = total →
      RoundsHalves (efficientCells cells) total (GridStats.ofCells cells).efficiency ∧
      RoundsHalves (utilizedCells cells) total (GridStats.ofCells cells).utilization := by
  refine ⟨floor?_percent hpart htotal, roundsHalves_percent hpart htotal, ?_⟩
  rintro cells rfl
  have hne : cells ≠ [] := List.length_pos_iff.mp htotal
  rw [efficiency_ofCells hne, utilization_ofCells hne]
  exact ⟨roundsHalves_percent (efficientCells_le_length cells) htotal,
    roundsHalves_percent (utilizedCells_le_length cells) htotal⟩

/-- Of forty cells 23 are 57.5 percent, which is one of the lost halves. -/
theorem percent_roundsHalves_forty :
    let cells : List Cell :=
      .replicate 23 { x := 0, y := 0, state := .active } ++
        .replicate 17 { x := 0, y := 0, state := .empty }
    23 ≤ 40 ∧ 0 < 40 ∧ cells.length = 40 ∧ halfUp 23 40 = 58 ∧
      percent ((23 : Nat) : Int) ((40 : Nat) : Int) = 57 ∧
      (GridStats.ofCells cells).efficiency = 57 ∧ (GridStats.ofCells cells).utilization = 57 := by
  intro cells
  have hlength : cells.length = 40 := by decide
  obtain ⟨-, hpercent, hgrid⟩ :=
    percent_roundsHalves (show 23 ≤ 40 by decide) (show 0 < 40 by decide)
  obtain ⟨hefficiency, hutilization⟩ := hgrid cells hlength
  have hzero : overHalf 23 40 57 = 0 := by decide
  exact ⟨by decide, by decide, hlength, by decide, hpercent.half 57 hzero,
    hefficiency.half 57 hzero, hutilization.half 57 hzero⟩

end CellAtlas
