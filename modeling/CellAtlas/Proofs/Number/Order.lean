import CellAtlas.Proofs.Number.Rounding

/-!
# Comparing numbers

Finite numbers compare like the integers that count them in multiples of 2^-1074 (`Counts.lt_iff`),
so that the two zeros are alike (`isZero_iff_counts`). Adding a zero changes no comparison, whatever
the other summand is (`lt_add_iff_of_isZero`): every finite number is its own nearest one
(`measures_ofUnits`). The fractions lie from 0 up to but not including 1.
-/

namespace CellAtlas.Binary64

/-- The number is `units * 2 ^ -1074`. -/
def Counts (x : Binary64) (units : Int) : Prop :=
  ∃ s m k, x = finite s m k ∧ signedUnits s m k = units

theorem Measures.counts {x : Binary64} {units : Nat} (h : x.Measures false units) :
    x.Counts units := by
  obtain ⟨m, k, rfl, rfl⟩ := h
  exact ⟨false, m, k, rfl, rfl⟩

/-- Every finite number is counted by units. -/
theorem exists_counts {x : Binary64} (h : x.isFinite = true) : ∃ units, x.Counts units := by
  cases x with
  | nan => cases h
  | infinite s => cases h
  | finite s m k => exact ⟨_, s, m, k, rfl, rfl⟩

/-! ### The order -/

section Order

variable {x y z : Binary64} {a b : Int}

/-- Finite numbers are ordered as their units are. -/
theorem Counts.lt_iff (hx : x.Counts a) (hy : y.Counts b) : x < y ↔ a < b := by
  obtain ⟨s, m, k, rfl, rfl⟩ := hx
  obtain ⟨t, n, l, rfl, rfl⟩ := hy
  exact decide_eq_true_iff

theorem Counts.le_iff (hx : x.Counts a) (hy : y.Counts b) : x ≤ y ↔ a ≤ b := by
  obtain ⟨s, m, k, rfl, rfl⟩ := hx
  obtain ⟨t, n, l, rfl, rfl⟩ := hy
  exact decide_eq_true_iff

/-- Numbers that are counted alike stand in the same place of the order. -/
theorem Counts.lt_congr (hx : x.Counts a) (hy : y.Counts a) : z < x ↔ z < y := by
  cases z with
  | nan => exact Iff.rfl
  | infinite s =>
      obtain ⟨_, _, _, rfl, -⟩ := hx
      obtain ⟨_, _, _, rfl, -⟩ := hy
      exact Iff.rfl
  | finite s m k =>
      have hz : (finite s m k).Counts (signedUnits s m k) := ⟨s, m, k, rfl, rfl⟩
      rw [hz.lt_iff hx, hz.lt_iff hy]

protected theorem lt_of_lt_of_le (hxy : x < y) (hyz : y ≤ z) : x < z := by
  change lt x y = true at hxy
  change le y z = true at hyz
  show lt x z = true
  -- what is left over are three finite numbers, compared by their units
  cases x <;> cases y <;> cases z <;> simp_all [lt, le]
  omega

protected theorem not_lt_of_le (h : x ≤ y) : ¬ y < x := by
  intro hlt
  change le x y = true at h
  change lt y x = true at hlt
  cases x <;> cases y <;> simp_all [lt, le]
  omega

theorem counts_zero : (0 : Binary64).Counts 0 := ⟨false, 0, 0, by decide +kernel, rfl⟩

theorem counts_one : (1 : Binary64).Counts unitsInOne := by
  have hmeasures := measures_ofRatio false Nat.one_pos (show 1 < 1 * 2 ^ 1 by decide) (by decide)
  rw [roundedUnits_one (by decide), Nat.one_mul] at hmeasures
  exact hmeasures.counts

end Order

/-! ### Zeros -/

def IsZero (x : Binary64) : Prop := 0 ≤ x ∧ x ≤ 0

instance (x : Binary64) : Decidable x.IsZero := inferInstanceAs (Decidable (_ ∧ _))

/-- The zeros are the numbers without units. -/
theorem isZero_iff_counts {x : Binary64} : x.IsZero ↔ x.Counts 0 := by
  constructor
  · rintro ⟨hge, hle⟩
    obtain ⟨s, m, k, hzero, -⟩ := counts_zero
    -- only a finite number lies between two zeros
    have hfinite : x.isFinite = true := by
      rw [hzero] at hge hle
      cases x with
      | nan => cases hle
      | infinite t => cases t <;> contradiction
      | finite => rfl
    obtain ⟨units, hx⟩ := exists_counts hfinite
    have hnonneg := (counts_zero.le_iff hx).mp hge
    have hnonpos := (hx.le_iff counts_zero).mp hle
    rwa [← Int.le_antisymm hnonneg hnonpos] at hx
  · intro h
    exact ⟨(counts_zero.le_iff h).mpr le_rfl, (h.le_iff counts_zero).mpr le_rfl⟩

/-- Zero times a finite number is zero. -/
theorem IsZero.mul {x y : Binary64} (hx : x.IsZero) (hy : y.isFinite = true) : (x * y).IsZero := by
  obtain ⟨s, m, k, rfl, hunits⟩ := isZero_iff_counts.mp hx
  obtain ⟨_, t, n, l, rfl, -⟩ := exists_counts hy
  have hmagnitude : magnitude m k = 0 := by
    cases s <;> simpa [signedUnits] using hunits
  -- the product has no units, and a sign that does not matter
  have hproduct : finite s m k * finite t n l = ofRatio (s != t) 0 (unitsInOne * unitsInOne) := by
    show ofRatio (s != t) (magnitude m k * magnitude n l) _ = _
    rw [hmagnitude, Nat.zero_mul]
  have hpos : 0 < unitsInOne * unitsInOne := Nat.mul_pos unitsInOne_pos unitsInOne_pos
  have hlt : 0 < unitsInOne * unitsInOne * 2 ^ 0 := hpos
  have hmeasures := measures_ofRatio (s != t) hpos hlt (by decide)
  rw [roundedUnits_zero hpos, ← hproduct] at hmeasures
  obtain ⟨m', k', heq, hzero⟩ := hmeasures
  refine isZero_iff_counts.mpr ⟨_, m', k', heq, ?_⟩
  rw [signedUnits, hzero]
  split <;> rfl

/-! ### Finite numbers are kept -/

section Kept

variable {m k : Nat}

/-- A shifted significand is shifted at least as far as the number nearest to it. -/
theorem scaleOf_shiftLeft_le (hm : m < 1 <<< 53) : scaleOf (m <<< k) unitsInOne ≤ k := by
  have hlt : m <<< k < 2 ^ (53 + k) := by
    rw [Nat.shiftLeft_eq, Nat.pow_add]
    exact Nat.mul_lt_mul_of_pos_right hm (Nat.two_pow_pos k)
  have hlog := log2_lt_of_lt (by omega) hlt
  rw [scaleOf, Nat.mul_div_cancel _ unitsInOne_pos]
  omega

/-- The significand is shifted back by what the scale leaves of the shift. -/
theorem roundQuotient_shiftLeft (hm : m < 1 <<< 53) :
    roundQuotient (m <<< k * unitsInOne) (unitsInOne <<< scaleOf (m <<< k) unitsInOne)
      = m <<< (k - scaleOf (m <<< k) unitsInOne) := by
  have hscale := scaleOf_shiftLeft_le (k := k) hm
  have hpos : 0 < unitsInOne <<< scaleOf (m <<< k) unitsInOne :=
    Nat.shiftLeft_pos_iff.mpr unitsInOne_pos
  -- the quotient is whole, so that nothing is rounded
  have hquotient : m <<< k * unitsInOne = m <<< (k - scaleOf (m <<< k) unitsInOne)
      * (unitsInOne <<< scaleOf (m <<< k) unitsInOne) := by
    generalize scaleOf (m <<< k) unitsInOne = scale at hscale
    obtain ⟨rest, rfl⟩ := Nat.exists_eq_add_of_le hscale
    rw [Nat.add_sub_cancel_left, Nat.shiftLeft_eq, Nat.shiftLeft_eq, Nat.shiftLeft_eq, Nat.pow_add]
    ring
  rw [hquotient, roundQuotient_mul _ _ hpos]

/-- Nothing is lost when a shifted significand is rounded. -/
theorem roundedUnits_shiftLeft (hm : m < 1 <<< 53) :
    roundedUnits (m <<< k) unitsInOne = m <<< k := by
  rw [roundedUnits, roundQuotient_shiftLeft hm, ← Nat.shiftLeft_add,
    Nat.sub_add_cancel (scaleOf_shiftLeft_le hm)]

/-- A finite number is in range when it is rounded again. -/
theorem inRange_shiftLeft (hm : m < 1 <<< 53) (hk : k < 2046) :
    InRange (m <<< k) unitsInOne := by
  have hscale := scaleOf_shiftLeft_le (k := k) hm
  rw [InRange, roundQuotient_shiftLeft hm]
  split
  next => omega
  next hcarry =>
    -- with nothing to shift back, the significand would fit
    have hne : scaleOf (m <<< k) unitsInOne ≠ k := by
      intro heq
      rw [heq, Nat.sub_self, Nat.shiftLeft_zero] at hcarry
      exact hcarry hm
    omega

end Kept

/-- A finite number is the one nearest to its value. -/
theorem measures_ofUnits (s : Bool) (m : Fin (1 <<< 53)) (k : Fin 2046) :
    (ofUnits s (magnitude m k)).Measures s (magnitude m k) := by
  have hmeasures := measures_of_inRange s unitsInOne_pos (inRange_shiftLeft m.isLt k.isLt)
  rwa [roundedUnits_shiftLeft m.isLt] at hmeasures

/-- Rounding a finite number gives the same number. -/
theorem counts_ofUnits (s : Bool) (m : Fin (1 <<< 53)) (k : Fin 2046) :
    (ofUnits s (magnitude m k)).Counts (signedUnits s m k) := by
  obtain ⟨m', k', heq, hmagnitude⟩ := measures_ofUnits s m k
  refine ⟨s, m', k', heq, ?_⟩
  rw [signedUnits, hmagnitude, signedUnits]

theorem natAbs_signedUnits (s : Bool) (m : Fin (1 <<< 53)) (k : Fin 2046) :
    (signedUnits s m k).natAbs = magnitude m k := by
  cases s <;> simp [signedUnits]

/-- Nothing is lost when a zero is added. -/
theorem Counts.add_zero {x z : Binary64} {a : Int} (hx : x.Counts a) (hz : z.Counts 0) :
    (x + z).Counts a := by
  obtain ⟨s, m, k, rfl, rfl⟩ := hx
  obtain ⟨t, n, l, rfl, hz⟩ := hz
  have hsum : finite s m k + finite t n l =
      if signedUnits s m k = 0 then ofUnits (s && t) 0
      else ofUnits (signedUnits s m k < 0) (signedUnits s m k).natAbs := by
    show add _ _ = _
    rw [add, hz, Int.add_zero]
  have habs := natAbs_signedUnits s m k
  rw [hsum]
  -- the sum of two zeros has a sign of its own, but no units whatever the sign
  split
  next hzero =>
    have hcounts := counts_ofUnits (s && t) m k
    have hmagnitude : magnitude m k = 0 := by rw [← habs, hzero, Int.natAbs_zero]
    have hsigned : signedUnits (s && t) m k = 0 := by simp [signedUnits, hmagnitude]
    rwa [hsigned, hmagnitude, ← hzero] at hcounts
  next hne =>
    have hsign : decide (signedUnits s m k < 0) = s := by
      cases s <;> simp [signedUnits] at hne ⊢
      omega
    rw [hsign, habs]
    exact counts_ofUnits s m k

/-- Adding a zero changes nothing about what is below a number. -/
theorem lt_add_iff_of_isZero {u x z : Binary64} (hz : z.IsZero) : u < x + z ↔ u < x := by
  rw [isZero_iff_counts] at hz
  -- an infinity and a NaN stay what they are
  cases x with
  | nan =>
      obtain ⟨_, _, _, rfl, -⟩ := hz
      exact Iff.rfl
  | infinite s =>
      obtain ⟨_, _, _, rfl, -⟩ := hz
      exact Iff.rfl
  | finite s m k =>
      have hx : (finite s m k).Counts (signedUnits s m k) := ⟨s, m, k, rfl, rfl⟩
      exact (hx.add_zero hz).lt_congr hx

/-! ### Fractions -/

/-- A fraction has its numerator for a significand, shifted to its place. -/
theorem measures_fraction {k : Nat} (hk : k < 1 <<< 53) :
    (fraction k).Measures false (k <<< 1021) := by
  refine ⟨Fin.ofNat _ k, 1021, rfl, ?_⟩
  have hmod : k % (1 <<< 53) = k := Nat.mod_eq_of_lt hk
  show (k % (1 <<< 53)) <<< 1021 = k <<< 1021
  rw [hmod]

theorem fraction_nonneg {k : Nat} (hk : k < 1 <<< 53) : 0 ≤ fraction k := by
  rw [counts_zero.le_iff (measures_fraction hk).counts]
  exact Int.natCast_nonneg _

theorem fraction_lt_one {k : Nat} (hk : k < 1 <<< 53) : fraction k < 1 := by
  have hshift : ∀ a : Nat, k <<< a < 1 <<< (53 + a) := by
    intro a
    rw [Nat.shiftLeft_add, Nat.shiftLeft_eq, Nat.shiftLeft_eq (1 <<< 53)]
    exact Nat.mul_lt_mul_of_pos_right hk (Nat.two_pow_pos a)
  rw [(measures_fraction hk).counts.lt_iff counts_one, Nat.cast_lt]
  exact hshift 1021

end CellAtlas.Binary64
