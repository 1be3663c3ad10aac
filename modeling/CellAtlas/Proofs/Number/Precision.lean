import CellAtlas.Proofs.Number.Monotone
import Mathlib.Algebra.Order.Field.Basic
import Mathlib.Data.Rat.Floor
import Mathlib.Tactic.FieldSimp
import Mathlib.Tactic.GCongr
import Mathlib.Tactic.NormNum
import Mathlib.Tactic.Positivity

/-!
# How precise a calculation is

Away from the smallest numbers a rounded ratio is off by one part in 2^53 at most
(`roundedUnits_near`). A calculation of several steps stands for an exact number, and it leaves that
by one such part for every rounding on the way:

    x.Near k r        (1 - 2^-53)^k * r ≤ x ≤ (1 + 2^-53)^k * r

A product or a quotient has one rounding more than its operands together (`Near.mul`, `Near.div`).
Whatever the number of roundings, none of them passes a whole number below 2^53
(`Near.mul_toRat_le`, `Near.div_toRat_le`).
-/

namespace CellAtlas.Binary64

/-! ### Exact values -/

/-- The exact value of a finite number. -/
def toRat : Binary64 → ℚ
  | finite s m k => signedUnits s m k / unitsInOne
  | _ => 0

theorem unitsInOne_cast_pos : (0 : ℚ) < unitsInOne := Nat.cast_pos.mpr unitsInOne_pos

/-- A number that is counted by units has their number as its value, in multiples of the unit. -/
theorem Measures.toRat_eq {x : Binary64} {units : ℕ} (h : x.Measures false units) :
    x.toRat = units / unitsInOne := by
  obtain ⟨m, k, rfl, rfl⟩ := h
  rfl

/-- The ceiling that is calculated is the one of the exact value. -/
theorem ceil_eq {x : Binary64} (h : x.isFinite = true) : x.ceil = .ok ⌈x.toRat⌉ := by
  cases x with
  | nan => cases h
  | infinite s => cases h
  | finite s m k => rw [toRat, Rat.ceil_intCast_div_natCast, ceil]

/-! ### One rounding -/

/-- The part of a number by which rounding may miss it. -/
def roundoff : ℚ := 1 / 2 ^ 53

/-- With 53 bits of significand, half a unit of the last place is one part in 2^53. -/
theorem roundedUnits_near {n d : ℕ} (hd : 0 < d) (hnormal : 2 ^ 52 * d ≤ n * unitsInOne) :
    2 ^ 53 * (roundedUnits n d * d) ≤ (2 ^ 53 + 1) * (n * unitsInOne) ∧
      (2 ^ 53 - 1) * (n * unitsInOne) ≤ 2 ^ 53 * (roundedUnits n d * d) := by
  have hbits : 2 ^ 52 ≤ n * unitsInOne / d := (Nat.le_div_iff_mul_le hd).mpr hnormal
  have hne : n * unitsInOne / d ≠ 0 := by omega
  have hlog : 52 ≤ (n * unitsInOne / d).log2 := (Nat.le_log2 hne).mpr hbits
  have hunit := shiftLeft_scaleOf_le hlog
  have hpos : 0 < d <<< scaleOf n d := Nat.shiftLeft_pos_iff.mpr hd
  obtain ⟨hbelow, habove⟩ := roundQuotient_near (n * unitsInOne) _ hpos
  rw [← roundedUnits_mul] at hbelow habove
  constructor <;> omega

/-- The exact value of a rounded quotient is near to that of the quotient, zero included. -/
theorem roundedUnits_div_near {n d : ℕ} (hd : 0 < d)
    (hnormal : n = 0 ∨ 2 ^ 52 * d ≤ n * unitsInOne) :
    (1 - roundoff) * (n / d) ≤ (roundedUnits n d : ℚ) / unitsInOne ∧
      (roundedUnits n d : ℚ) / unitsInOne ≤ (1 + roundoff) * (n / d) := by
  rcases hnormal with rfl | hnormal
  · simp [roundedUnits_zero hd]
  obtain ⟨habove, hbelow⟩ := roundedUnits_near hd hnormal
  have hd' : (0 : ℚ) < d := Nat.cast_pos.mpr hd
  have hone := unitsInOne_cast_pos
  -- the bounds in units, first as rational numbers and then divided by the units
  have habove' : (2 ^ 53 : ℚ) * (roundedUnits n d * d) ≤ (2 ^ 53 + 1) * (n * unitsInOne) := by
    exact_mod_cast habove
  have hbelow' : (2 ^ 53 - 1 : ℚ) * (n * unitsInOne) ≤ 2 ^ 53 * (roundedUnits n d * d) := by
    -- the cast of the difference has to be taken apart by hand, as natural numbers are subtracted
    -- in it
    have hcast : ((2 ^ 53 - 1 : ℕ) : ℚ) = 2 ^ 53 - 1 := by norm_num
    rw [← hcast]
    exact_mod_cast hbelow
  unfold roundoff
  constructor
  · rw [le_div_iff₀ hone, mul_div_assoc', div_mul_eq_mul_div, div_le_iff₀ hd']
    linarith
  · rw [div_le_iff₀ hone, mul_div_assoc', div_mul_eq_mul_div, le_div_iff₀ hd']
    linarith

/-! ### Several roundings -/

/-- The number has no minus sign and is `r` after `k` roundings. -/
structure Near (k : ℕ) (x : Binary64) (r : ℚ) : Prop where
  measures : ∃ units, x.Measures false units
  ge : (1 - roundoff) ^ k * r ≤ x.toRat
  le : x.toRat ≤ (1 + roundoff) ^ k * r

/-- Zero, or a number far away from the smallest and the greatest ones. -/
def Moderate (r : ℚ) : Prop := r = 0 ∨ 1 / 2 ^ 200 ≤ r ∧ r ≤ 2 ^ 200

theorem Moderate.nonneg {r : ℚ} (h : Moderate r) : 0 ≤ r := by
  rcases h with rfl | ⟨h, -⟩
  · exact le_rfl
  · exact le_trans (by positivity) h

/-- A ratio of numbers that are not too large is moderate. -/
theorem moderate_div {a b : ℕ} (hb : 0 < b) (ha : a ≤ 2 ^ 200) (hb' : b ≤ 2 ^ 200) :
    Moderate (a / b) := by
  have hpos : (0 : ℚ) < b := Nat.cast_pos.mpr hb
  rcases Nat.eq_zero_or_pos a with rfl | hapos
  · left
    rw [Nat.cast_zero, zero_div]
  · right
    have hone : (1 : ℚ) ≤ a := by exact_mod_cast hapos
    have hone' : (1 : ℚ) ≤ b := by exact_mod_cast hb
    have ha' : (a : ℚ) ≤ 2 ^ 200 := by exact_mod_cast ha
    have hb'' : (b : ℚ) ≤ 2 ^ 200 := by exact_mod_cast hb'
    exact ⟨div_le_div₀ (Nat.cast_nonneg a) hone hpos hb'',
      (div_le_self (Nat.cast_nonneg a) hone').trans ha'⟩

/-- Eight roundings neither halve nor double a number. -/
theorem roundoff_pow {k : ℕ} (hk : k ≤ 8) :
    1 / 2 ≤ (1 - roundoff) ^ k ∧ (1 + roundoff) ^ k ≤ 2 := by
  have hbelow : (1 - roundoff) ^ 8 ≤ (1 - roundoff) ^ k :=
    pow_le_pow_of_le_one (by norm_num [roundoff]) (by norm_num [roundoff]) hk
  have habove : (1 + roundoff) ^ k ≤ (1 + roundoff) ^ 8 :=
    pow_le_pow_right₀ (by norm_num [roundoff]) hk
  exact ⟨le_trans (by norm_num [roundoff]) hbelow, habove.trans (by norm_num [roundoff])⟩

section Ratio

variable {n d k : ℕ} {r : ℚ}

/-- Half a moderate number is still so large that its significand takes up all its bits. -/
theorem eq_zero_or_le_of_moderate (hd : 0 < d) (hr : Moderate r) (hge : 1 / 2 * r ≤ n / d)
    (hle : n / d ≤ 2 * r) : n = 0 ∨ 2 ^ 52 * d ≤ n * unitsInOne := by
  have hd' : (0 : ℚ) < d := Nat.cast_pos.mpr hd
  rcases hr with rfl | ⟨hr, -⟩
  · left
    rw [mul_zero, div_le_iff₀ hd', zero_mul] at hle
    exact_mod_cast le_antisymm hle (Nat.cast_nonneg n)
  · right
    -- half of what is at least 2^-200 is at least 2^-201, far above the 2^-1022 of the normal range
    have hratio : (1 : ℚ) / 2 ^ 201 ≤ n / d :=
      calc (1 : ℚ) / 2 ^ 201
          = 1 / 2 * (1 / 2 ^ 200) := by norm_num
        _ ≤ 1 / 2 * r := by gcongr
        _ ≤ n / d := hge
    rw [div_le_div_iff₀ (by positivity) hd', one_mul] at hratio
    have hn : d ≤ n * 2 ^ 201 := by exact_mod_cast hratio
    calc 2 ^ 52 * d
        ≤ 2 ^ 52 * (n * 2 ^ 201) := Nat.mul_le_mul_left _ hn
      _ = n * 2 ^ 253 := by ring
      _ ≤ n * unitsInOne := by
        rw [unitsInOne_eq]
        exact Nat.mul_le_mul_left n (Nat.pow_le_pow_right (by decide) (by decide))

/-- The double of a moderate number is nowhere near the greatest numbers. -/
theorem lt_of_moderate (hd : 0 < d) (hr : Moderate r) (hle : n / d ≤ 2 * r) :
    n < d * 2 ^ 202 := by
  have hr' : r ≤ 2 ^ 200 := by
    rcases hr with rfl | ⟨-, hr⟩
    · positivity
    · exact hr
  have hratio : (n : ℚ) / d < 2 ^ 202 :=
    calc (n : ℚ) / d
        ≤ 2 * r := hle
      _ ≤ 2 * 2 ^ 200 := by gcongr
      _ < 2 ^ 202 := by norm_num
  rw [div_lt_iff₀ (Nat.cast_pos.mpr hd), mul_comm] at hratio
  exact_mod_cast hratio

/-- A ratio near to a moderate number is in the normal range, where it is rounded precisely. -/
theorem near_ofRatio (hd : 0 < d) (hk : k ≤ 8) (hr : Moderate r)
    (hge : (1 - roundoff) ^ k * r ≤ n / d) (hle : n / d ≤ (1 + roundoff) ^ k * r) :
    (ofRatio false n d).Near (k + 1) r := by
  obtain ⟨hhalf, hdouble⟩ := roundoff_pow hk
  have hge' := (mul_le_mul_of_nonneg_right hhalf hr.nonneg).trans hge
  have hle' := hle.trans (mul_le_mul_of_nonneg_right hdouble hr.nonneg)
  -- after at most eight roundings the ratio is off by less than a factor of two
  have hnormal := eq_zero_or_le_of_moderate hd hr hge' hle'
  have hlt := lt_of_moderate hd hr hle'
  have hmeasures := measures_ofRatio false hd hlt (by decide)
  obtain ⟨hbelow, habove⟩ := roundedUnits_div_near hd hnormal
  -- the last rounding adds one factor to the `k` others
  refine ⟨⟨_, hmeasures⟩, ?_, ?_⟩
  · calc (1 - roundoff) ^ (k + 1) * r
        = (1 - roundoff) * ((1 - roundoff) ^ k * r) := by ring
      _ ≤ (1 - roundoff) * (n / d) := mul_le_mul_of_nonneg_left hge (by norm_num [roundoff])
      _ ≤ (ofRatio false n d).toRat := hmeasures.toRat_eq ▸ hbelow
  · calc (ofRatio false n d).toRat
        ≤ (1 + roundoff) * (n / d) := hmeasures.toRat_eq ▸ habove
      _ ≤ (1 + roundoff) * ((1 + roundoff) ^ k * r) :=
        mul_le_mul_of_nonneg_left hle (by norm_num [roundoff])
      _ = (1 + roundoff) ^ (k + 1) * r := by ring

end Ratio

/-! ### Conversions, products and quotients -/

/-- Integers below 2^53 are converted as they are. -/
theorem near_fromInt {n : ℕ} (hn : n < 2 ^ 53) : ∃ x, fromInt n = .ok x ∧ x.Near 0 n := by
  obtain ⟨x, hx, hmeasures⟩ := fromInt_natCast hn
  have hvalue : x.toRat = n := by
    rw [hmeasures.toRat_eq, Nat.cast_mul, mul_div_cancel_right₀ _ unitsInOne_cast_pos.ne']
  refine ⟨x, hx, ⟨_, hmeasures⟩, ?_, ?_⟩
  · rw [pow_zero, one_mul, hvalue]
  · rw [pow_zero, one_mul, hvalue]

/-- A quotient of integers is rounded once. -/
theorem near_fromQuotient {a b : ℕ} (hb : 0 < b) (h : Moderate (a / b)) :
    ∃ x, fromQuotient a b = .ok x ∧ x.Near 1 (a / b) := by
  have hnear : (ofRatio false a b).Near 1 (a / b) :=
    near_ofRatio hb (by decide) h (by rw [pow_zero, one_mul]) (by rw [pow_zero, one_mul])
  obtain ⟨_, hmeasures⟩ := hnear.measures
  refine ⟨ofRatio false a b, ?_, hnear⟩
  rw [fromQuotient, ofQuotient_natCast, if_pos hmeasures.isFinite]

section Operations

variable {x y : Binary64} {j k : ℕ} {r s : ℚ}

theorem Near.toRat_nonneg (hx : x.Near k r) : 0 ≤ x.toRat := by
  obtain ⟨_, hx⟩ := hx.measures
  rw [hx.toRat_eq]
  positivity

/-- Without a rounding the number is exact. -/
theorem Near.toRat_eq (hx : x.Near 0 r) : x.toRat = r := by
  have hge := hx.ge
  have hle := hx.le
  rw [pow_zero, one_mul] at hge hle
  exact le_antisymm hle hge

/-- A product is the rounded exact product. -/
theorem Near.mul_eq (hx : x.Near j r) (hy : y.Near k s) :
    ∃ n d : ℕ, 0 < d ∧ x * y = ofRatio false n d ∧ (n : ℚ) / d = x.toRat * y.toRat := by
  obtain ⟨u, hu⟩ := hx.measures
  obtain ⟨v, hv⟩ := hy.measures
  refine ⟨u * v, unitsInOne * unitsInOne, Nat.mul_pos unitsInOne_pos unitsInOne_pos,
    hu.mul_eq hv, ?_⟩
  rw [hu.toRat_eq, hv.toRat_eq, div_mul_div_comm, Nat.cast_mul, Nat.cast_mul]

/-- A quotient by an exact number is the rounded exact quotient. -/
theorem Near.div_eq (hx : x.Near k r) (hy : y.Near 0 s) (hs : 0 < s) :
    ∃ n d : ℕ, 0 < d ∧ x / y = ofRatio false n d ∧ (n : ℚ) / d = x.toRat / s := by
  obtain ⟨u, hu⟩ := hx.measures
  obtain ⟨v, hv⟩ := hy.measures
  have hvalue := hy.toRat_eq
  rw [← hvalue, hv.toRat_eq, div_pos_iff_of_pos_right unitsInOne_cast_pos] at hs
  have hpos : 0 < v := Nat.cast_pos.mp hs
  refine ⟨u, v, hpos, hu.div_eq hv hpos, ?_⟩
  rw [← hvalue, hu.toRat_eq, hv.toRat_eq, div_div_div_cancel_right₀ unitsInOne_cast_pos.ne']

/-- A product has the roundings of both factors and one more. -/
theorem Near.mul (hx : x.Near j r) (hy : y.Near k s) (hr : 0 ≤ r) (hs : 0 ≤ s)
    (hjk : j + k ≤ 8) (hrs : Moderate (r * s)) : (x * y).Near (j + k + 1) (r * s) := by
  obtain ⟨n, d, hd, heq, hexact⟩ := hx.mul_eq hy
  have hbelow : (0 : ℚ) ≤ 1 - roundoff := by norm_num [roundoff]
  have habove : (0 : ℚ) ≤ 1 + roundoff := by norm_num [roundoff]
  rw [heq]
  apply near_ofRatio hd hjk hrs
  · rw [hexact, pow_add, mul_mul_mul_comm]
    exact mul_le_mul hx.ge hy.ge (by positivity) hx.toRat_nonneg
  · rw [hexact, pow_add, mul_mul_mul_comm]
    exact mul_le_mul hx.le hy.le hy.toRat_nonneg (by positivity)

/-- A quotient by an exact number has one more rounding. -/
theorem Near.div (hx : x.Near k r) (hy : y.Near 0 s) (hs : 0 < s) (hk : k ≤ 8)
    (hrs : Moderate (r / s)) : (x / y).Near (k + 1) (r / s) := by
  obtain ⟨n, d, hd, heq, hexact⟩ := hx.div_eq hy hs
  rw [heq]
  apply near_ofRatio hd hk hrs
  · rw [hexact, mul_div_assoc']
    exact div_le_div_of_nonneg_right hx.ge hs.le
  · rw [hexact, mul_div_assoc']
    exact div_le_div_of_nonneg_right hx.le hs.le

/-- After three roundings. -/
theorem Near.abs_sub_le (hx : x.Near 3 r) (hr : 0 ≤ r) : |x.toRat - r| ≤ r / 2 ^ 51 := by
  have hbelow : 1 - 1 / 2 ^ 51 ≤ (1 - roundoff) ^ 3 := by norm_num [roundoff]
  have habove : (1 + roundoff) ^ 3 ≤ 1 + 1 / 2 ^ 51 := by norm_num [roundoff]
  have hge := (mul_le_mul_of_nonneg_right hbelow hr).trans hx.ge
  have hle := hx.le.trans (mul_le_mul_of_nonneg_right habove hr)
  rw [abs_le]
  constructor <;> linarith

end Operations

/-! ### Whole numbers -/

theorem lt_mul_of_le {n d m : ℕ} (hd : 0 < d) (hm : m < 2 ^ 53) (h : n ≤ m * d) :
    n < d * 2 ^ 53 := by
  rw [Nat.mul_comm]
  exact h.trans_lt (Nat.mul_lt_mul_of_pos_right hm hd)

/-- Rounding does not go beyond a whole number, for whole numbers below 2^53 are not rounded at
all. -/
theorem toRat_ofRatio_le {n d m : ℕ} (hd : 0 < d) (hm : m < 2 ^ 53) (h : (n : ℚ) / d ≤ m) :
    (ofRatio false n d).toRat ≤ m := by
  have hn : n ≤ m * d := by
    rw [div_le_iff₀ (Nat.cast_pos.mpr hd)] at h
    exact_mod_cast h
  have hlt := lt_mul_of_le hd hm hn
  rw [(measures_ofRatio false hd hlt (by decide)).toRat_eq, div_le_iff₀ unitsInOne_cast_pos]
  exact_mod_cast roundedUnits_le hd hm hn

theorem Near.mul_toRat_le {x y : Binary64} {j k m : ℕ} {r s : ℚ} (hx : x.Near j r)
    (hy : y.Near k s) (hm : m < 2 ^ 53) (h : x.toRat * y.toRat ≤ m) : (x * y).toRat ≤ m := by
  obtain ⟨n, d, hd, heq, hexact⟩ := hx.mul_eq hy
  rw [heq]
  exact toRat_ofRatio_le hd hm (hexact.trans_le h)

theorem Near.div_toRat_le {x y : Binary64} {k m : ℕ} {r s : ℚ} (hx : x.Near k r)
    (hy : y.Near 0 s) (hs : 0 < s) (hm : m < 2 ^ 53) (h : x.toRat / s ≤ m) :
    (x / y).toRat ≤ m := by
  obtain ⟨n, d, hd, heq, hexact⟩ := hx.div_eq hy hs
  rw [heq]
  exact toRat_ofRatio_le hd hm (hexact.trans_le h)

end CellAtlas.Binary64
