import CellAtlas.Proofs.Number.Rounding

/-!
# Which integers are converted

A natural number has a nearest double-precision number as long as it is below `conversionLimit`,

    2^1024 - 2^970 = (2^53 - 1/2) * 2^971

which lies half way between the greatest double-precision number and 2^1024 (`inRange_one_iff`). At
the limit the tie goes to the even significand, and that carries out of range. Below it the nearest
number is at most twice as large (`fromInt_of_lt`).
-/

namespace CellAtlas.Binary64

/-- The least natural number that is too large to be converted. -/
def conversionLimit : Nat := 2 ^ 1024 - 2 ^ 970

/-- The limit lies half way between the greatest finite number and 2^1024. -/
theorem conversionLimit_eq : conversionLimit = (2 ^ 54 - 1) * 2 ^ 970 := by
  rw [conversionLimit, Nat.sub_one_mul, ← Nat.pow_add]

/-! ### Finite results -/

/-- A number is packed as a finite one if its significand and its scale have room. -/
theorem isFinite_pack {s : Bool} {m k : Nat} :
    (pack s m k).isFinite = true ↔ m < 1 <<< 53 ∧ k < 2046 := by
  unfold pack
  split
  next h => exact iff_of_true rfl h
  next h => exact iff_of_false Bool.false_ne_true h

/-- Out of range a ratio is rounded to an infinity. -/
theorem isFinite_ofRatio {s : Bool} {n d : Nat} :
    (ofRatio s n d).isFinite = true ↔ InRange n d := by
  unfold InRange
  show (if roundQuotient (n * unitsInOne) (d <<< scaleOf n d) < 1 <<< 53 then
      pack s (roundQuotient (n * unitsInOne) (d <<< scaleOf n d)) (scaleOf n d)
    else pack s (1 <<< 52) (scaleOf n d + 1)).isFinite = true ↔ _
  split
  -- without a carry the significand has room, and with one it is 2^52
  next h => rw [isFinite_pack, and_iff_right h]
  next h =>
    rw [isFinite_pack, and_iff_right (by decide)]
    omega

section Scale

variable {n d : Nat}

theorem inRange_of_lt (h : scaleOf n d < 2045) : InRange n d := by
  rw [InRange]
  split <;> omega

/-- With a scale beyond the greatest one no carry is needed to leave the range. -/
theorem not_inRange_of_le (h : 2046 ≤ scaleOf n d) : ¬ InRange n d := by
  rw [InRange]
  split <;> omega

/-- With the greatest scale it depends on the carry. -/
theorem inRange_iff_of_eq (h : scaleOf n d = 2045) :
    InRange n d ↔ roundQuotient (n * unitsInOne) (d <<< 2045) < 1 <<< 53 := by
  rw [InRange, h]
  split
  next hlt => exact iff_of_true (by decide) hlt
  next hlt => exact iff_of_false (by decide) hlt

end Scale

/-! ### Where the significand carries -/

/-- A quotient is rounded down to an odd number up to half way to the next one, where the tie goes
to the even one. -/
theorem roundQuotient_le_iff_of_odd {n d m : Nat} (hd : 0 < d) (hm : m % 2 = 1) :
    roundQuotient n d ≤ m ↔ 2 * n < (2 * m + 1) * d := by
  have hdiv := Nat.div_add_mod n d
  have hmod := Nat.mod_lt n hd
  -- half way to `m + 1` lies `(2 * m + 1) * d / 2`
  have hexpand : (2 * m + 1) * d = 2 * (d * m) + d := by ring
  rw [hexpand]
  rcases Nat.lt_trichotomy (n / d) m with hlt | heq | hgt
  -- rounding up does not pass `m`
  · have hle : d * (n / d) + d ≤ d * m := by
      rw [← Nat.mul_succ]
      exact Nat.mul_le_mul_left d hlt
    have hround : roundQuotient n d ≤ m := roundQuotient_le hd (by rw [Nat.mul_comm]; omega)
    exact iff_of_true hround (by omega)
  -- `m` is odd, so that the tie is rounded up, away from it
  · have hodd : n / d % 2 = 1 := by rw [heq, hm]
    rw [heq] at hdiv
    unfold roundQuotient
    dsimp only
    rw [heq, hm]
    split
    · omega
    · split <;> omega
  · have hle : d * m + d ≤ d * (n / d) := by
      rw [← Nat.mul_succ]
      exact Nat.mul_le_mul_left d hgt
    have hround : n / d ≤ roundQuotient n d := by
      unfold roundQuotient
      dsimp only
      split
      · omega
      · split <;> omega
    exact iff_of_false (by omega) (by omega)

/-- The scale of a natural number counts its bits. -/
theorem scaleOf_one {n : Nat} (hn : n ≠ 0) : scaleOf n 1 = n.log2 + 1022 := by
  rw [scaleOf_eq Nat.one_pos (Nat.zero_le unitBits) (by omega), Nat.pow_zero, Nat.mul_one,
    Nat.div_one, unitBits]
  omega

/-- With the greatest scale, the significand carries from half way to 2^1024 on. -/
theorem roundQuotient_lt_iff_lt_limit (n : Nat) :
    roundQuotient (n * unitsInOne) (1 <<< 2045) < 1 <<< 53 ↔ n < conversionLimit := by
  have hpos : 0 < 1 <<< 2045 := Nat.shiftLeft_pos_iff.mpr Nat.one_pos
  have hunits : 2 * (n * unitsInOne) = n * 2 ^ (unitBits + 1) := by
    rw [unitsInOne_eq, Nat.mul_left_comm, ← Nat.pow_succ']
  have hshift : ∀ a b : Nat, (2 ^ 54 - 1) * 1 <<< (a + b) = (2 ^ 54 - 1) * 2 ^ a * 2 ^ b := by
    intro a b
    rw [Nat.one_shiftLeft, Nat.pow_add, Nat.mul_assoc]
  -- the greatest significand 2^53 - 1 is odd, and half way to the next one lies the limit
  have hlimit : (2 * (2 ^ 53 - 1) + 1) * 1 <<< 2045 = conversionLimit * 2 ^ (unitBits + 1) := by
    rw [conversionLimit_eq]
    exact hshift 970 (unitBits + 1)
  have hsignificand : roundQuotient (n * unitsInOne) (1 <<< 2045) < 1 <<< 53 ↔
      roundQuotient (n * unitsInOne) (1 <<< 2045) ≤ 2 ^ 53 - 1 := by
    have h53 : 1 <<< 53 = 2 ^ 53 := Nat.one_shiftLeft 53
    omega
  rw [hsignificand, roundQuotient_le_iff_of_odd hpos (by decide), hunits, hlimit]
  exact Nat.mul_lt_mul_right (Nat.two_pow_pos _)

/-- The natural numbers below the limit are in range, and no others. -/
theorem inRange_one_iff {n : Nat} : InRange n 1 ↔ n < conversionLimit := by
  have hpositive : 0 < conversionLimit := by decide +kernel
  have hlog : ∀ k, n ≠ 0 → (n.log2 < k ↔ n < 2 ^ k) := fun k hn => Nat.log2_lt hn
  have hbelow : 2 ^ 1023 ≤ conversionLimit := by decide +kernel
  have habove : conversionLimit ≤ 2 ^ 1024 := Nat.sub_le _ _
  rcases Nat.eq_zero_or_pos n with rfl | hpos
  · have hscale : scaleOf 0 1 < 2045 := by decide +kernel
    exact iff_of_true (inRange_of_lt hscale) hpositive
  have hscale := scaleOf_one hpos.ne'
  rcases Nat.lt_trichotomy n.log2 1023 with hlt | heq | hgt
  · have hsmall : n < 2 ^ 1023 := (hlog 1023 hpos.ne').mp hlt
    exact iff_of_true (inRange_of_lt (by omega)) (hsmall.trans_le hbelow)
  -- among these numbers are those that only a carry brings out of range
  · rw [inRange_iff_of_eq (by omega), roundQuotient_lt_iff_lt_limit]
  -- all the others are above the limit
  · have hlarge : ¬ n < 2 ^ 1024 := by
      rw [← hlog 1024 hpos.ne']
      omega
    exact iff_of_false (not_inRange_of_le (by omega)) fun h => hlarge (h.trans_le habove)

/-! ### Integers and quotients of integers -/

/-- Below the limit the nearest number is at most twice as large. -/
theorem fromInt_of_lt {n : Nat} (h : n < conversionLimit) :
    ∃ x units, fromInt n = .ok x ∧ x.Measures false units ∧ units ≤ 2 * (n * unitsInOne) := by
  have hratio : ofInt n = ofRatio false n 1 := rfl
  have hmeasures := measures_of_inRange false Nat.one_pos (inRange_one_iff.mpr h)
  have hunits := roundedUnits_mul_le n Nat.one_pos
  rw [Nat.mul_one] at hunits
  refine ⟨_, _, ?_, hmeasures, hunits⟩
  rw [fromInt, hratio, if_pos hmeasures.isFinite]

/-- From the limit on there is nothing to convert to. -/
theorem fromInt_of_le {n : Nat} (h : conversionLimit ≤ n) :
    fromInt n = .error .integerTooLarge := by
  have hratio : ofInt n = ofRatio false n 1 := rfl
  have hinfinite : ¬ (ofRatio false n 1).isFinite = true := by
    rw [isFinite_ofRatio, inRange_one_iff]
    exact Nat.not_lt.mpr h
  rw [fromInt, hratio, if_neg hinfinite]

/-- A quotient of natural numbers is at most doubled. -/
theorem fromQuotient_measures {a b e : Nat} (hb : 0 < b) (ha : a < 2 ^ e) (he : e ≤ 1023) :
    ∃ x units, fromQuotient a b = .ok x ∧ x.Measures false units ∧
      units * b ≤ 2 * (a * unitsInOne) := by
  have hn : a < b * 2 ^ e := ha.trans_le (Nat.le_mul_of_pos_left _ hb)
  have hmeasures := measures_ofRatio false hb hn he
  refine ⟨_, _, ?_, hmeasures, roundedUnits_mul_le a hb⟩
  rw [fromQuotient, ofQuotient_natCast, if_pos hmeasures.isFinite]

end CellAtlas.Binary64
