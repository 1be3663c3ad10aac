import CellAtlas.Grid.Stats
import CellAtlas.Proofs.Number.Monotone

/-!
# Percentages

A percentage is rounded three times before it is cut off: as a quotient, as a product and as a sum.
`percentUnits` goes from the quotient to the sum, counting in multiples of the smallest positive
number, and the percentage is the integer part of the sum (`floor?_percent`, `percent_eq`). As no
rounding reverses an order, a percentage grows with its part (`percent_mono`), and it depends on
nothing but the ratio (`percent_congr`). So the values at some ratios say what happens between them:
all percentages lie from 0 to 100, and those of the empty and the full part are exact.
-/

namespace CellAtlas

open Binary64

/-! ### The three roundings -/

/-- What a quotient comes to when it is multiplied by a hundred and a half is added, all of them in
multiples of 2^-1074. -/
def percentUnits (quotient : Nat) : Nat :=
  let product := roundedUnits (quotient * (100 * unitsInOne)) (unitsInOne * unitsInOne)
  roundedUnits (product + roundedUnits 5 10) unitsInOne

theorem measures_hundred : (100 : Binary64).Measures false (100 * unitsInOne) := by
  rw [← roundedUnits_one (show 100 < 2 ^ 53 by decide)]
  exact measures_ofRatio false Nat.one_pos (show 100 < 1 * 2 ^ 7 by decide) (by decide)

theorem measures_half : (0.5 : Binary64).Measures false (roundedUnits 5 10) := by
  rw [show (0.5 : Binary64) = ofRatio false 5 (Nat.pow 10 1) from if_pos rfl]
  exact measures_ofRatio false (by decide) (show 5 < 10 * 2 ^ 0 by decide) (by decide)

section Part

variable {part total : Nat} (hpart : part ≤ total) (htotal : 0 < total)

include hpart htotal

/-- The numbers on the way are too small to leave the range. -/
theorem measures_percent :
    (ofQuotient part total * 100 + 0.5).Measures false
      (percentUnits (roundedUnits part total)) := by
  have hone := unitsInOne_pos
  have hquotient : (ofQuotient part total).Measures false (roundedUnits part total) := by
    rw [ofQuotient_natCast]
    exact measures_ofRatio false htotal (show part < total * 2 ^ 1 by omega) (by decide)
  -- every number is bounded by the rounded bound of the one before it: 1, 100 and 101
  have hquotientLe : roundedUnits part total ≤ 1 * unitsInOne :=
    roundedUnits_le htotal (by decide) (by omega)
  have hfactor : roundedUnits part total * (100 * unitsInOne)
      ≤ 100 * (unitsInOne * unitsInOne) := by
    rw [Nat.mul_left_comm]
    exact Nat.mul_le_mul_left 100 (Nat.mul_le_mul_right _ (by omega))
  have hsquare : 0 < unitsInOne * unitsInOne := Nat.mul_pos hone hone
  have hproduct : (ofQuotient part total * 100).Measures false
      (roundedUnits (roundedUnits part total * (100 * unitsInOne)) (unitsInOne * unitsInOne)) := by
    rw [hquotient.mul_eq measures_hundred]
    exact measures_ofRatio false hsquare
      (show _ < unitsInOne * unitsInOne * 2 ^ 7 by omega) (by decide)
  have hproductLe := roundedUnits_le hsquare (by decide) hfactor
  have hhalfLe : roundedUnits 5 10 ≤ 1 * unitsInOne :=
    roundedUnits_le (by decide) (by decide) (by decide)
  -- the sum is below 2^7
  rw [hproduct.add_eq measures_half]
  exact measures_ofRatio false hone (show _ < unitsInOne * 2 ^ 7 by omega) (by decide)

/-- The percentage of a part is an integer part that exists. -/
theorem floor?_percent :
    (ofQuotient part total * 100 + 0.5).floor? = some (percent part total) := by
  obtain ⟨m, k, heq, -⟩ := measures_percent hpart htotal
  rw [percent, heq]
  rfl

/-- A percentage is the integer part of the calculated number. -/
theorem percent_eq :
    percent part total = (percentUnits (roundedUnits part total) / unitsInOne : Nat) := by
  obtain ⟨m, k, heq, hunits⟩ := measures_percent hpart htotal
  rw [percent, heq, ← hunits]
  rfl

end Part

/-! ### Order -/

/-- A greater quotient gives no smaller percentage, as each of the three roundings keeps the
order. -/
theorem percentUnits_mono {quotient quotient' : Nat} (h : quotient ≤ quotient') :
    percentUnits quotient ≤ percentUnits quotient' := by
  have hsquare : 0 < unitsInOne * unitsInOne := Nat.mul_pos unitsInOne_pos unitsInOne_pos
  apply roundedUnits_mono unitsInOne_pos unitsInOne_pos
  apply Nat.mul_le_mul_right
  apply Nat.add_le_add_right
  apply roundedUnits_mono hsquare hsquare
  apply Nat.mul_le_mul_right
  exact Nat.mul_le_mul_right _ h

section Order

variable {part total part' total' : Nat} (hpart : part ≤ total) (htotal : 0 < total)
  (hpart' : part' ≤ total') (htotal' : 0 < total')

include hpart htotal hpart' htotal'

/-- A smaller share has no greater percentage. -/
theorem percent_mono (h : part * total' ≤ part' * total) :
    percent part total ≤ percent part' total' := by
  rw [percent_eq hpart htotal, percent_eq hpart' htotal']
  exact_mod_cast Nat.div_le_div_right (percentUnits_mono (roundedUnits_mono htotal htotal' h))

/-- Equal shares have the same percentage. -/
theorem percent_congr (h : part * total' = part' * total) :
    percent part total = percent part' total' :=
  Int.le_antisymm (percent_mono hpart htotal hpart' htotal' (Nat.le_of_eq h))
    (percent_mono hpart' htotal' hpart htotal (Nat.le_of_eq h.symm))

end Order

section Bounds

variable {part total : Nat}

/-- Nothing is 0 percent. -/
theorem percent_zero (htotal : 0 < total) : percent ((0 : Nat) : Int) total = 0 := by
  have hvalue : percent ((0 : Nat) : Int) (1 : Nat) = 0 := by decide +kernel
  rw [percent_congr (Nat.zero_le total) htotal (Nat.zero_le 1) Nat.one_pos (by omega), hvalue]

/-- All of it is 100 percent. -/
theorem percent_self (htotal : 0 < total) : percent total total = 100 := by
  have hvalue : percent ((1 : Nat) : Int) (1 : Nat) = 100 := by decide +kernel
  rw [percent_congr (Nat.le_refl total) htotal (Nat.le_refl 1) Nat.one_pos (by omega), hvalue]

variable (hpart : part ≤ total) (htotal : 0 < total)

include hpart htotal

theorem percent_nonneg : 0 ≤ percent part total := by
  rw [← percent_zero htotal]
  exact percent_mono (Nat.zero_le total) htotal hpart htotal
    (Nat.mul_le_mul_right total (Nat.zero_le part))

/-- No part is above 100 percent, since none is above the whole. -/
theorem percent_le_hundred : percent part total ≤ 100 := by
  rw [← percent_self htotal]
  exact percent_mono hpart htotal (Nat.le_refl total) htotal (Nat.mul_le_mul_right total hpart)

end Bounds

end CellAtlas
