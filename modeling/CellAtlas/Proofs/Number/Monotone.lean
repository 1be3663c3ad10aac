import CellAtlas.Proofs.Number.Rounding
import Mathlib.Data.Nat.Log

/-!
# Rounding keeps the order

A smaller ratio is not rounded to a greater number, so that sums, products and quotients grow with
their operands (`roundedUnits_mono`), and none of them passes a whole number below 2^53. Ratios with
the same scale are rounded to multiples of the same unit, where the nearest multiple grows with the
ratio (`roundQuotient_mono`). Between ratios of different scales lies a power of two that neither of
them passes.
-/

namespace CellAtlas.Binary64

variable {n d n' d' : Nat}

/-! ### With the same scale -/

/-- A ratio is rounded alike however it is extended. -/
theorem roundQuotient_mul_right (n d : Nat) {c : Nat} (hc : 0 < c) :
    roundQuotient (n * c) (d * c) = roundQuotient n d := by
  have htwice : 2 * (n % d * c) = 2 * (n % d) * c := (Nat.mul_assoc ..).symm
  simp only [roundQuotient, Nat.mul_div_mul_right _ _ hc, Nat.mul_mod_mul_right, htwice,
    Nat.mul_lt_mul_right hc]

/-- A smaller ratio is not rounded to a greater integer. -/
theorem roundQuotient_mono (hd : 0 < d) (hd' : 0 < d') (h : n * d' ≤ n' * d) :
    roundQuotient n d ≤ roundQuotient n' d' := by
  by_contra hgt
  have habove := (roundQuotient_near n d hd).2
  have hbelow := (roundQuotient_near n' d' hd').1
  have hsucc : (roundQuotient n' d' + 1) * d ≤ roundQuotient n d * d :=
    Nat.mul_le_mul_right d (by omega)
  -- the greater ratio is at most half way to the next multiple, and the smaller one at least
  have hge : (2 * roundQuotient n' d' + 1) * d * d' ≤ 2 * n * d' :=
    Nat.mul_le_mul_right d' (by linarith)
  have hle : 2 * n' * d ≤ (2 * roundQuotient n' d' + 1) * d' * d :=
    Nat.mul_le_mul_right d (by linarith)
  -- so both are half way, where the tie is broken alike
  have heq : n * d' = n' * d := by linarith
  have hround : roundQuotient n d = roundQuotient n' d' := by
    rw [← roundQuotient_mul_right n d hd', heq, Nat.mul_comm d, roundQuotient_mul_right _ _ hd]
  omega

/-- Rounding does not go below a whole number. -/
theorem le_roundQuotient {m : Nat} (hd : 0 < d) (h : m * d ≤ n) : m ≤ roundQuotient n d := by
  rw [← roundQuotient_mul m d hd]
  exact roundQuotient_mono hd hd (Nat.mul_le_mul_right d h)

/-! ### With different scales -/

/-- A smaller ratio has no greater scale. -/
theorem scaleOf_mono (hd : 0 < d) (hd' : 0 < d') (h : n * d' ≤ n' * d) :
    scaleOf n d ≤ scaleOf n' d' := by
  have hquotient : n * unitsInOne / d ≤ n' * unitsInOne / d' := by
    rw [Nat.le_div_iff_mul_le hd']
    apply Nat.le_of_mul_le_mul_right _ hd
    calc n * unitsInOne / d * d' * d
        = n * unitsInOne / d * d * d' := Nat.mul_right_comm ..
      _ ≤ n * unitsInOne * d' := Nat.mul_le_mul_right d' (Nat.div_mul_le_self _ d)
      _ = n * d' * unitsInOne := Nat.mul_right_comm ..
      _ ≤ n' * d * unitsInOne := Nat.mul_le_mul_right _ h
      _ = n' * unitsInOne * d := Nat.mul_right_comm ..
  have hlog := Nat.log_mono_right (b := 2) hquotient
  rw [← Nat.log2_eq_log_two, ← Nat.log2_eq_log_two] at hlog
  exact Nat.sub_le_sub_right hlog 52

/-- No number with a scale is above the first one with the next scale. -/
theorem roundedUnits_le_pow (n : Nat) (hd : 0 < d) :
    roundedUnits n d ≤ 2 ^ (53 + scaleOf n d) := by
  have hpos : 0 < d <<< scaleOf n d := Nat.shiftLeft_pos_iff.mpr hd
  rw [roundedUnits, Nat.shiftLeft_eq, Nat.pow_add, ← Nat.one_shiftLeft 53]
  exact Nat.mul_le_mul_right _ (roundQuotient_le hpos (le_shiftLeft_scaleOf hd))

/-- With a scale above zero the significand takes up all its bits. -/
theorem pow_le_roundedUnits (hd : 0 < d) (hscale : 0 < scaleOf n d) :
    2 ^ (52 + scaleOf n d) ≤ roundedUnits n d := by
  have hpos : 0 < d <<< scaleOf n d := Nat.shiftLeft_pos_iff.mpr hd
  have hlog : 52 ≤ (n * unitsInOne / d).log2 := by
    unfold scaleOf at hscale
    omega
  rw [roundedUnits, Nat.shiftLeft_eq, Nat.pow_add]
  exact Nat.mul_le_mul_right _ (le_roundQuotient hpos (shiftLeft_scaleOf_le hlog))

/-- A smaller ratio is not rounded to a greater number. -/
theorem roundedUnits_mono (hd : 0 < d) (hd' : 0 < d') (h : n * d' ≤ n' * d) :
    roundedUnits n d ≤ roundedUnits n' d' := by
  rcases Nat.eq_or_lt_of_le (scaleOf_mono hd hd' h) with hscale | hscale
  -- within one scale the significands are compared, and else the powers of two between the scales
  · have hround : roundQuotient (n * unitsInOne) (d <<< scaleOf n' d')
        ≤ roundQuotient (n' * unitsInOne) (d' <<< scaleOf n' d') := by
      apply roundQuotient_mono (Nat.shiftLeft_pos_iff.mpr hd) (Nat.shiftLeft_pos_iff.mpr hd')
      rw [Nat.shiftLeft_eq, Nat.shiftLeft_eq]
      calc n * unitsInOne * (d' * 2 ^ scaleOf n' d')
          = n * d' * (unitsInOne * 2 ^ scaleOf n' d') := by ring
        _ ≤ n' * d * (unitsInOne * 2 ^ scaleOf n' d') := Nat.mul_le_mul_right _ h
        _ = n' * unitsInOne * (d * 2 ^ scaleOf n' d') := by ring
    rw [roundedUnits, roundedUnits, hscale, Nat.shiftLeft_eq (roundQuotient _ _),
      Nat.shiftLeft_eq (roundQuotient _ _)]
    exact Nat.mul_le_mul_right _ hround
  · calc roundedUnits n d
        ≤ 2 ^ (53 + scaleOf n d) := roundedUnits_le_pow n hd
      _ ≤ 2 ^ (52 + scaleOf n' d') := Nat.pow_le_pow_right (by decide) (by omega)
      _ ≤ roundedUnits n' d' := pow_le_roundedUnits hd' (by omega)

/-- Rounding does not pass a whole number below 2^53. -/
theorem roundedUnits_le {m : Nat} (hd : 0 < d) (hm : m < 2 ^ 53) (h : n ≤ m * d) :
    roundedUnits n d ≤ m * unitsInOne := by
  rw [← roundedUnits_one hm]
  exact roundedUnits_mono hd Nat.one_pos (by rwa [Nat.mul_one])

end CellAtlas.Binary64
