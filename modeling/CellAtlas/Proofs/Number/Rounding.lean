import CellAtlas.Number.Checked
import Mathlib.Tactic.Linarith
import Mathlib.Tactic.Ring

/-!
# Rounding keeps numbers in range

The rounded value of an exact ratio `n / d` is, in multiples of the smallest positive number,

    roundedUnits n d = (the natural number nearest to n * 2^1074 / (d * 2^scale)) * 2^scale

as long as the ratio is below 2^1023 (`measures_ofRatio`). Whole numbers below 2^53 are kept as they
are (`roundedUnits_one`), and any other ratio is at most doubled (`roundedUnits_mul_le`). So a
calculation on numbers that are not too large stays clear of the infinities: `Within b` carries a
bound through sums, products and quotients. `Unsigned` says less, that there is no minus sign, and
holds without any bounds.
-/

namespace CellAtlas.Binary64

/-- The number is `± units * 2 ^ -1074`. -/
def Measures (x : Binary64) (negative : Bool) (units : Nat) : Prop :=
  ∃ m k, x = finite negative m k ∧ magnitude m k = units

theorem Measures.isFinite {x : Binary64} {s : Bool} {units : Nat} (h : x.Measures s units) :
    x.isFinite = true := by
  obtain ⟨m, k, rfl, -⟩ := h
  rfl

/-- How many halvings lead from one to the smallest positive number. -/
def unitBits : Nat := 1074

/-- How far the significand of the number nearest to `n / d` is shifted. -/
def scaleOf (n d : Nat) : Nat := (n * unitsInOne / d).log2 - 52

/-- The number nearest to `n / d` in multiples of the smallest positive number. -/
def roundedUnits (n d : Nat) : Nat :=
  roundQuotient (n * unitsInOne) (d <<< scaleOf n d) <<< scaleOf n d

theorem unitsInOne_eq : unitsInOne = 2 ^ unitBits := Nat.one_shiftLeft unitBits

theorem unitsInOne_pos : 0 < unitsInOne := by
  rw [unitsInOne_eq]
  exact Nat.two_pow_pos unitBits

/-! ### The nearest quotient -/

/-- Rounding does not pass a whole number. -/
theorem roundQuotient_le {n d m : Nat} (hd : 0 < d) (h : n ≤ m * d) : roundQuotient n d ≤ m := by
  rcases Nat.eq_or_lt_of_le h with rfl | hlt
  · exact Nat.le_of_eq (roundQuotient_mul m d hd)
  · have hq : n / d < m := (Nat.div_lt_iff_lt_mul hd).mpr hlt
    unfold roundQuotient
    dsimp only
    split
    · omega
    · split <;> omega

/-- A rounded quotient is at most twice the exact one. -/
theorem roundQuotient_mul_le (n : Nat) {d : Nat} (hd : 0 < d) : roundQuotient n d * d ≤ 2 * n := by
  have hnear := (roundQuotient_near n d hd).2
  rcases Nat.eq_zero_or_pos (roundQuotient n d) with h | h
  · rw [h]
    omega
  · have hle : d ≤ roundQuotient n d * d := Nat.le_mul_of_pos_left d h
    omega

/-! ### The significand -/

/-- What is left of a quotient after the shift has at most 53 bits. -/
theorem le_shiftLeft_scaleOf {n d : Nat} (hd : 0 < d) :
    n * unitsInOne ≤ 1 <<< 53 * (d <<< scaleOf n d) := by
  have hquotient : n * unitsInOne / d < 2 ^ ((n * unitsInOne / d).log2 + 1) := Nat.lt_log2_self
  have hbits : 2 ^ ((n * unitsInOne / d).log2 + 1) ≤ 2 ^ (53 + scaleOf n d) :=
    Nat.pow_le_pow_right (by decide) (by unfold scaleOf; omega)
  have hlt : n * unitsInOne < 2 ^ (53 + scaleOf n d) * d :=
    (Nat.div_lt_iff_lt_mul hd).mp (Nat.lt_of_lt_of_le hquotient hbits)
  rw [Nat.one_shiftLeft, Nat.shiftLeft_eq, Nat.mul_comm d, ← Nat.mul_assoc, ← Nat.pow_add]
  exact Nat.le_of_lt hlt

/-- As long as the quotient has 53 bits, so has what is left of it. -/
theorem shiftLeft_scaleOf_le {n d : Nat} (h : 52 ≤ (n * unitsInOne / d).log2) :
    2 ^ 52 * (d <<< scaleOf n d) ≤ n * unitsInOne := by
  have hne : n * unitsInOne / d ≠ 0 := by
    intro hzero
    rw [hzero, Nat.log2_zero] at h
    omega
  calc 2 ^ 52 * (d <<< scaleOf n d)
      = 2 ^ (52 + scaleOf n d) * d := by rw [Nat.shiftLeft_eq, Nat.pow_add]; ring
    _ = 2 ^ (n * unitsInOne / d).log2 * d := by rw [scaleOf, Nat.add_sub_cancel' h]
    _ ≤ n * unitsInOne / d * d := Nat.mul_le_mul_right d (Nat.log2_self_le hne)
    _ ≤ n * unitsInOne := Nat.div_mul_le_self _ d

/-- The logarithm of a number below a power of two is below the exponent. -/
theorem log2_lt_of_lt {x k : Nat} (hk : 0 < k) (h : x < 2 ^ k) : x.log2 < k := by
  rcases Nat.eq_zero_or_pos x with rfl | hx
  · exact hk
  · exact (Nat.log2_lt (Nat.ne_of_gt hx)).mpr h

/-- A ratio below 2^e needs no scale above that of 2^e. -/
theorem scaleOf_add_lt {n d e : Nat} (hd : 0 < d) (hn : n < d * 2 ^ e) :
    scaleOf n d + 52 < e + unitBits := by
  have hquotient : n * unitsInOne / d < 2 ^ (e + unitBits) := by
    rw [Nat.div_lt_iff_lt_mul hd, unitsInOne_eq, Nat.pow_add, Nat.mul_comm _ d, ← Nat.mul_assoc]
    exact Nat.mul_lt_mul_of_pos_right hn (Nat.two_pow_pos unitBits)
  have hlog := log2_lt_of_lt (by unfold unitBits; omega) hquotient
  unfold unitBits at hlog ⊢
  unfold scaleOf
  omega

/-- The scale can be told from the first bits of the quotient, unless it is very small. -/
theorem scaleOf_eq {n d m : Nat} (hd : 0 < d) (hm : m ≤ unitBits) (h : d ≤ n * 2 ^ m) :
    scaleOf n d = (n * 2 ^ m / d).log2 + (unitBits - m) - 52 := by
  have hpos : n * 2 ^ m / d ≠ 0 := (Nat.div_pos h hd).ne'
  -- the units are the shifted numerator, shifted on by what is left of the 1074 bits
  have hunits : n * unitsInOne = n * 2 ^ m * 2 ^ (unitBits - m) := by
    rw [unitsInOne_eq, Nat.mul_assoc, ← Nat.pow_add, Nat.add_sub_cancel' hm]
  have hge := (Nat.le_div_iff_mul_le hd).mp (Nat.log2_self_le hpos)
  have hlt := (Nat.div_lt_iff_lt_mul hd).mp (Nat.lt_log2_self (n := n * 2 ^ m / d))
  have hle : 2 ^ ((n * 2 ^ m / d).log2 + (unitBits - m)) ≤ n * unitsInOne / d := by
    rw [Nat.le_div_iff_mul_le hd, hunits, Nat.pow_add, Nat.mul_right_comm]
    exact Nat.mul_le_mul_right _ hge
  -- the cut off bits of the quotient do not count, so that its logarithm is shifted as it is
  have hlog : (n * unitsInOne / d).log2 = (n * 2 ^ m / d).log2 + (unitBits - m) := by
    rw [Nat.log2_eq_iff ((Nat.two_pow_pos _).trans_le hle).ne']
    refine ⟨hle, ?_⟩
    rw [Nat.div_lt_iff_lt_mul hd, hunits, Nat.add_right_comm, Nat.pow_add _ (_ + 1),
      Nat.mul_right_comm (2 ^ _)]
    exact Nat.mul_lt_mul_of_pos_right hlt (Nat.two_pow_pos _)
  rw [scaleOf, hlog]

/-- A significand and a scale in range are packed as they are. -/
theorem measures_pack {s : Bool} {m k : Nat} (hm : m < 1 <<< 53) (hk : k < 2046) :
    (pack s m k).Measures s (m <<< k) := by
  refine ⟨⟨m, hm⟩, ⟨k, hk⟩, ?_, rfl⟩
  rw [pack, dif_pos ⟨hm, hk⟩]

/-- The scale of the number nearest to `n / d` is in range, also where rounding up carries. -/
def InRange (n d : Nat) : Prop :=
  if roundQuotient (n * unitsInOne) (d <<< scaleOf n d) < 1 <<< 53 then scaleOf n d < 2046
  else scaleOf n d < 2045

/-- A ratio in range is rounded to a finite number. -/
theorem measures_of_inRange (s : Bool) {n d : Nat} (hd : 0 < d) (h : InRange n d) :
    (ofRatio s n d).Measures s (roundedUnits n d) := by
  have hpos : 0 < d <<< scaleOf n d := Nat.shiftLeft_pos_iff.mpr hd
  have hle : roundQuotient (n * unitsInOne) (d <<< scaleOf n d) ≤ 1 <<< 53 :=
    roundQuotient_le hpos (le_shiftLeft_scaleOf hd)
  by_cases hlt : roundQuotient (n * unitsInOne) (d <<< scaleOf n d) < 1 <<< 53
  · have heq : ofRatio s n d
        = pack s (roundQuotient (n * unitsInOne) (d <<< scaleOf n d)) (scaleOf n d) := if_pos hlt
    rw [InRange, if_pos hlt] at h
    rw [heq]
    exact measures_pack hlt h
  -- the carry: 2^53 is packed as 2^52 with a further shift
  · have heq : ofRatio s n d = pack s (1 <<< 52) (scaleOf n d + 1) := if_neg hlt
    have hcarry : roundQuotient (n * unitsInOne) (d <<< scaleOf n d) = 1 <<< 53 :=
      Nat.le_antisymm hle (Nat.le_of_not_lt hlt)
    have hunits : roundedUnits n d = 1 <<< 52 <<< (scaleOf n d + 1) := by
      rw [roundedUnits, hcarry, Nat.shiftLeft_eq _ (scaleOf n d),
        Nat.shiftLeft_eq _ (scaleOf n d + 1), Nat.pow_succ', ← Nat.mul_assoc]
      rfl
    rw [InRange, if_neg hlt] at h
    rw [heq, hunits]
    exact measures_pack (by decide) (by omega)

/-- A ratio below 2^1023 is rounded to a finite number. -/
theorem measures_ofRatio (s : Bool) {n d e : Nat} (hd : 0 < d) (hn : n < d * 2 ^ e)
    (he : e ≤ 1023) : (ofRatio s n d).Measures s (roundedUnits n d) := by
  have hscale := scaleOf_add_lt hd hn
  unfold unitBits at hscale
  apply measures_of_inRange s hd
  rw [InRange]
  split <;> omega

/-! ### How far rounding goes -/

/-- The rounded number as a multiple of the denominator, with the shift on either side. -/
theorem roundedUnits_mul (n d : Nat) :
    roundedUnits n d * d
      = roundQuotient (n * unitsInOne) (d <<< scaleOf n d) * (d <<< scaleOf n d) := by
  rw [roundedUnits, Nat.shiftLeft_eq _ (scaleOf n d), Nat.shiftLeft_eq d]
  ring

/-- A ratio is at most doubled. -/
theorem roundedUnits_mul_le (n : Nat) {d : Nat} (hd : 0 < d) :
    roundedUnits n d * d ≤ 2 * (n * unitsInOne) := by
  rw [roundedUnits_mul]
  exact roundQuotient_mul_le _ (Nat.shiftLeft_pos_iff.mpr hd)

theorem roundedUnits_zero {d : Nat} (hd : 0 < d) : roundedUnits 0 d = 0 := by
  have hpos : 0 < d <<< scaleOf 0 d := Nat.shiftLeft_pos_iff.mpr hd
  have hzero : roundQuotient (0 * unitsInOne) (d <<< scaleOf 0 d) = 0 :=
    Nat.le_zero.mp (roundQuotient_le hpos (by omega))
  rw [roundedUnits, hzero, Nat.zero_shiftLeft]

/-- A whole number below 2^53 is kept. -/
theorem roundedUnits_one {n : Nat} (hn : n < 2 ^ 53) : roundedUnits n 1 = n * unitsInOne := by
  have hscale : scaleOf n 1 ≤ unitBits := by
    have hlt := scaleOf_add_lt Nat.one_pos (Nat.lt_of_lt_of_eq hn (Nat.one_mul _).symm)
    omega
  -- one is divided by the shift, so nothing of the number is shifted out
  have hsplit : n * unitsInOne = n * 2 ^ (unitBits - scaleOf n 1) * 1 <<< scaleOf n 1 := by
    rw [Nat.one_shiftLeft, Nat.mul_assoc, ← Nat.pow_add, Nat.sub_add_cancel hscale, unitsInOne_eq]
  have hpos : 0 < 1 <<< scaleOf n 1 := Nat.shiftLeft_pos_iff.mpr Nat.one_pos
  unfold roundedUnits
  rw [hsplit, roundQuotient_mul _ _ hpos, Nat.shiftLeft_eq, Nat.one_shiftLeft]

/-! ### Bounded numbers -/

/-- The number is finite, has no minus sign and is at most `b`. -/
def Within (b : Nat) (x : Binary64) : Prop :=
  ∃ units, x.Measures false units ∧ units ≤ b * unitsInOne

theorem Within.isFinite {x : Binary64} {b : Nat} (h : x.Within b) : x.isFinite = true := by
  obtain ⟨_, hmeasures, -⟩ := h
  exact hmeasures.isFinite

/-- A bounded number can be rounded up. -/
theorem Within.ceil {x : Binary64} {b : Nat} (hx : x.Within b) : ∃ z, x.ceil = .ok z := by
  obtain ⟨_, ⟨m, k, rfl, rfl⟩, -⟩ := hx
  exact ⟨_, rfl⟩

/-- Rounding at most doubles a ratio. -/
theorem within_ofRatio {n d b e : Nat} (hd : 0 < d) (h : n ≤ b * d) (hb : b < 2 ^ e)
    (he : e ≤ 1023) : (ofRatio false n d).Within (2 * b) := by
  have hn : n < d * 2 ^ e := by
    apply Nat.lt_of_le_of_lt h
    rw [Nat.mul_comm]
    exact Nat.mul_lt_mul_of_pos_left hb hd
  refine ⟨roundedUnits n d, measures_ofRatio false hd hn he, ?_⟩
  apply Nat.le_of_mul_le_mul_right _ hd
  calc roundedUnits n d * d
      ≤ 2 * (n * unitsInOne) := roundedUnits_mul_le n hd
    _ ≤ 2 * (b * d * unitsInOne) := by gcongr
    _ = 2 * b * unitsInOne * d := by ring

/-- A product of numbers without a minus sign is the rounded product of their units. -/
theorem Measures.mul_eq {x y : Binary64} {u v : Nat} (hx : x.Measures false u)
    (hy : y.Measures false v) : x * y = ofRatio false (u * v) (unitsInOne * unitsInOne) := by
  obtain ⟨m, k, rfl, rfl⟩ := hx
  obtain ⟨n, l, rfl, rfl⟩ := hy
  rfl

/-- In a quotient the units cancel out. -/
theorem Measures.div_eq {x y : Binary64} {u v : Nat} (hx : x.Measures false u)
    (hy : y.Measures false v) (hv : 0 < v) : x / y = ofRatio false u v := by
  obtain ⟨m, k, rfl, rfl⟩ := hx
  obtain ⟨n, l, rfl, rfl⟩ := hy
  have hn : n.val ≠ 0 := by
    intro h
    rw [magnitude, h, Nat.zero_shiftLeft] at hv
    exact Nat.lt_irrefl 0 hv
  exact if_neg hn

/-- A product is bounded where that of the units is. -/
theorem Measures.mul_within {x y : Binary64} {u v b e : Nat} (hx : x.Measures false u)
    (hy : y.Measures false v) (huv : u * v ≤ b * (unitsInOne * unitsInOne)) (hb : b < 2 ^ e)
    (he : e ≤ 1023) : (x * y).Within (2 * b) := by
  rw [hx.mul_eq hy]
  exact within_ofRatio (Nat.mul_pos unitsInOne_pos unitsInOne_pos) huv hb he

/-- A bound of a product, whose rounding may double it. -/
theorem Within.mul {x y : Binary64} {a b e : Nat} (hx : x.Within a) (hy : y.Within b)
    (hab : a * b < 2 ^ e) (he : e ≤ 1023) : (x * y).Within (2 * (a * b)) := by
  obtain ⟨u, hx, hxle⟩ := hx
  obtain ⟨v, hy, hyle⟩ := hy
  refine hx.mul_within hy ?_ hab he
  calc u * v
      ≤ (a * unitsInOne) * (b * unitsInOne) := Nat.mul_le_mul hxle hyle
    _ = a * b * (unitsInOne * unitsInOne) := by ring

/-- A sum of numbers without a minus sign is the rounded sum of their units. -/
theorem Measures.add_eq {x y : Binary64} {u v : Nat} (hx : x.Measures false u)
    (hy : y.Measures false v) : x + y = ofUnits false (u + v) := by
  obtain ⟨m, k, rfl, rfl⟩ := hx
  obtain ⟨n, l, rfl, rfl⟩ := hy
  show (if (magnitude m k : Int) + magnitude n l = 0 then ofUnits false 0
    else ofUnits (decide ((magnitude m k : Int) + magnitude n l < 0))
      ((magnitude m k : Int) + magnitude n l).natAbs) = _
  split
  -- the exact sum is zero only if both are, and then the sign is no minus
  next h =>
    have hzero : magnitude m k + magnitude n l = 0 := by omega
    rw [hzero]
  next h =>
    rw [decide_eq_false (by omega)]
    rfl

/-- Dividing by a number that is at least one. -/
theorem Within.div {x y : Binary64} {b units e : Nat} (hx : x.Within b)
    (hy : y.Measures false units) (hunits : unitsInOne ≤ units) (hb : b < 2 ^ e) (he : e ≤ 1023) :
    (x / y).Within (2 * b) := by
  obtain ⟨u, hx, hxle⟩ := hx
  have hpos : 0 < units := Nat.lt_of_lt_of_le unitsInOne_pos hunits
  rw [hx.div_eq hy hpos]
  refine within_ofRatio hpos ?_ hb he
  exact Nat.le_trans hxle (Nat.mul_le_mul_left b hunits)

/-! ### Signs -/

/-- The number has no minus sign. -/
inductive Unsigned : Binary64 → Prop
  | nan : Unsigned nan
  | infinite : Unsigned (infinite false)
  | finite (m : Fin (1 <<< 53)) (k : Fin 2046) : Unsigned (finite false m k)

/-- Packing keeps the sign, also where the number comes out infinite. -/
theorem unsigned_pack (m k : Nat) : (pack false m k).Unsigned := by
  unfold pack
  split
  · exact .finite _ _
  · exact .infinite

theorem unsigned_ofRatio (n d : Nat) : (ofRatio false n d).Unsigned := by
  unfold ofRatio
  dsimp only
  split
  · exact unsigned_pack _ _
  · exact unsigned_pack _ _

theorem unsigned_nan_or_infinite (p : Prop) [Decidable p] :
    (if p then Binary64.nan else Binary64.infinite false).Unsigned := by
  split
  · exact .nan
  · exact .infinite

theorem Unsigned.mul {x y : Binary64} (hx : x.Unsigned) (hy : y.Unsigned) : (x * y).Unsigned := by
  -- an infinity times zero is a NaN, which counts as unsigned
  cases hx with
  | nan => exact .nan
  | infinite =>
      cases hy with
      | nan => exact .nan
      | infinite => exact .infinite
      | finite n l => exact unsigned_nan_or_infinite (n.val = 0)
  | finite m k =>
      cases hy with
      | nan => exact .nan
      | infinite => exact unsigned_nan_or_infinite (m.val = 0)
      | finite n l => exact unsigned_ofRatio (magnitude m k * magnitude n l) _

theorem Unsigned.div {x y : Binary64} (hx : x.Unsigned) (hy : y.Unsigned) : (x / y).Unsigned := by
  cases hx with
  | nan => exact .nan
  | infinite =>
      cases hy with
      | nan => exact .nan
      | infinite => exact .nan
      | finite n l => exact .infinite
  | finite m k =>
      cases hy with
      | nan => exact .nan
      | infinite => exact .finite 0 0
      | finite n l =>
          show (if n.val = 0 then if m.val = 0 then Binary64.nan else Binary64.infinite false
            else ofRatio false (magnitude m k) (magnitude n l)).Unsigned
          -- only a finite number divided by a finite one is rounded; a zero below makes it infinite
          -- or a NaN
          split
          · exact unsigned_nan_or_infinite (m.val = 0)
          · exact unsigned_ofRatio _ _

/-- Without a minus sign there is no ceiling below zero. -/
theorem Unsigned.ceil_nonneg {x : Binary64} {z : Int} (hx : x.Unsigned) (h : x.ceil = .ok z) :
    0 ≤ z := by
  cases hx with
  | nan => cases h
  | infinite => cases h
  | finite m k =>
      cases h
      have hpos : (0 : Int) < unitsInOne := Int.natCast_pos.mpr unitsInOne_pos
      -- the ceiling is minus the floor of the negated number
      have hneg : -(magnitude m k : Int) / unitsInOne ≤ 0 :=
        Int.ediv_nonpos_of_nonpos_of_neg (by omega) hpos
      show 0 ≤ -(-(magnitude m k : Int) / unitsInOne)
      omega

/-! ### Integers -/

theorem unsigned_fromInt {z : Int} {x : Binary64} (hz : 0 ≤ z) (h : fromInt z = .ok x) :
    x.Unsigned := by
  unfold fromInt at h
  split at h
  · cases h
    rw [ofInt, decide_eq_false (Int.not_lt.mpr hz)]
    exact unsigned_ofRatio _ _
  · cases h

theorem unsigned_fromQuotient {a b : Int} {x : Binary64} (ha : 0 ≤ a) (hb : 0 ≤ b)
    (h : fromQuotient a b = .ok x) : x.Unsigned := by
  unfold fromQuotient at h
  split at h
  · cases h
    rw [ofQuotient, decide_eq_false (Int.not_lt.mpr ha), decide_eq_false (Int.not_lt.mpr hb)]
    exact unsigned_ofRatio _ _
  · cases h

/-- A natural number below 2^53 is a double-precision number. -/
theorem fromInt_natCast {n : Nat} (hn : n < 2 ^ 53) :
    ∃ x, fromInt n = .ok x ∧ x.Measures false (n * unitsInOne) := by
  have hratio : ofInt n = ofRatio false n 1 := rfl
  have hmeasures : (ofRatio false n 1).Measures false (n * unitsInOne) := by
    rw [← roundedUnits_one hn]
    exact measures_ofRatio false Nat.one_pos (by rw [Nat.one_mul]; exact hn) (by decide)
  refine ⟨ofInt n, ?_, hratio ▸ hmeasures⟩
  rw [fromInt, hratio, if_pos hmeasures.isFinite]

/-- A quotient of natural numbers has no minus sign. -/
theorem ofQuotient_natCast (a b : Nat) : ofQuotient a b = ofRatio false a b := by
  rw [ofQuotient, decide_eq_false (Int.not_lt.mpr (Int.natCast_nonneg a)),
    decide_eq_false (Int.not_lt.mpr (Int.natCast_nonneg b))]
  rfl

/-- A quotient of natural numbers is at most the first one, up to rounding. -/
theorem fromQuotient_natCast {a b e : Nat} (hb : 0 < b) (ha : a < 2 ^ e) (he : e ≤ 1023) :
    ∃ x, fromQuotient a b = .ok x ∧ x.Within (2 * a) := by
  have hwithin : (ofRatio false a b).Within (2 * a) :=
    within_ofRatio hb (Nat.le_mul_of_pos_right a hb) ha he
  refine ⟨ofRatio false a b, ?_, hwithin⟩
  rw [fromQuotient, ofQuotient_natCast, if_pos hwithin.isFinite]

end CellAtlas.Binary64
