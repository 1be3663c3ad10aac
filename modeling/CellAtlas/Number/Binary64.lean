/-!
# Double-precision numbers

The IEEE 754 binary64 numbers with the operations that this library needs, each one exact arithmetic
followed by one rounding:

    exact ratio n / d ──ofRatio──▶ nearest number, a tie goes to the even significand

A finite number is a significand below 2^53 times a power of two. `units` counts it in multiples of
the smallest positive number 2^-1074, so that sums, products, comparisons and the integer parts of
finite numbers are operations on integers.
-/

namespace CellAtlas

/-- A double-precision number. `finite negative significand scale` is
`± significand * 2 ^ (scale - 1074)`. -/
inductive Binary64 where
  | nan
  | infinite (negative : Bool)
  | finite (negative : Bool) (significand : Fin (1 <<< 53)) (scale : Fin 2046)
deriving DecidableEq, Repr

namespace Binary64

/-- The number one in multiples of the smallest positive number. -/
def unitsInOne : Nat := 1 <<< 1074

/-! ### Rounding -/

/-- The natural number nearest to `n / d`; a tie goes to the even one. -/
def roundQuotient (n d : Nat) : Nat :=
  let q := n / d
  let twice := 2 * (n % d)
  if twice < d then q
  else if d < twice then q + 1
  else q + q % 2

/-- The number `± significand * 2 ^ (scale - 1074)`, or infinity where that is out of range. -/
def pack (negative : Bool) (significand scale : Nat) : Binary64 :=
  if h : significand < 1 <<< 53 ∧ scale < 2046 then
    finite negative ⟨significand, h.1⟩ ⟨scale, h.2⟩
  else infinite negative

/-- The number nearest to `± n / d`, for a positive `d`. The scale leaves 53 bits of the quotient,
or fewer where it is as small as can be; rounding up may carry into a further bit. -/
def ofRatio (negative : Bool) (n d : Nat) : Binary64 :=
  let units := n * unitsInOne
  let scale := (units / d).log2 - 52
  let significand := roundQuotient units (d <<< scale)
  if significand < 1 <<< 53 then pack negative significand scale
  else pack negative (1 <<< 52) (scale + 1)

def ofUnits (negative : Bool) (n : Nat) : Binary64 := ofRatio negative n unitsInOne

def ofInt (z : Int) : Binary64 := ofRatio (z < 0) z.natAbs 1

/-- The number nearest to the quotient of two integers, of which the second is not zero. -/
def ofQuotient (a b : Int) : Binary64 :=
  ofRatio (decide (a < 0) != decide (b < 0)) a.natAbs b.natAbs

def zero (negative : Bool) : Binary64 := finite negative 0 0

def fraction (k : Nat) : Binary64 := finite false (Fin.ofNat _ k) 1021

instance : Inhabited Binary64 := ⟨zero false⟩

instance (n : Nat) : OfNat Binary64 n := ⟨ofRatio false n 1⟩

instance : OfScientific Binary64 where
  ofScientific m negativeExponent e :=
    if negativeExponent then ofRatio false m (Nat.pow 10 e) else ofRatio false (m * Nat.pow 10 e) 1

/-! ### Views -/

def isFinite : Binary64 → Bool
  | finite .. => true
  | _ => false

def magnitude (significand : Fin (1 <<< 53)) (scale : Fin 2046) : Nat :=
  significand.val <<< scale.val

/-- A finite number in multiples of 2^-1074. -/
def signedUnits (negative : Bool) (significand : Fin (1 <<< 53)) (scale : Fin 2046) : Int :=
  if negative then -(magnitude significand scale : Int) else magnitude significand scale

def floor? : Binary64 → Option Int
  | finite s m k => some (signedUnits s m k / unitsInOne)
  | _ => none

def toInt? : Binary64 → Option Int
  | finite s m k =>
    if signedUnits s m k % unitsInOne = 0 then some (signedUnits s m k / unitsInOne) else none
  | _ => none

/-- The size of a finite number in multiples of `10 ^ -places`, rounded; a tie goes to the even
multiple. -/
def rounded (x : Binary64) (places : Nat) : Nat :=
  match x with
  | finite _ m k => roundQuotient (Nat.pow 10 places * magnitude m k) unitsInOne
  | _ => 0

/-- The interchange format: a sign bit, eleven bits of biased exponent and 52 of the significand. -/
def toBits : Binary64 → Nat
  | nan => 0x7ff8000000000000
  | infinite s => (if s then 0x8000000000000000 else 0) + 0x7ff0000000000000
  | finite s m k =>
    let sign := if s then 0x8000000000000000 else 0
    match ofUnits s (magnitude m k) with
    | finite _ m k => if m.val < 1 <<< 52 then sign + m.val else sign + (k.val <<< 52) + m.val
    | _ => sign

/-! ### Comparison -/

/-- Whether `x` is less than `y`. A NaN is not comparable. -/
def lt : Binary64 → Binary64 → Bool
  | nan, _ => false
  | _, nan => false
  | infinite s, infinite t => s && !t
  | infinite s, finite .. => s
  | finite .., infinite t => !t
  | finite s m k, finite t n l => signedUnits s m k < signedUnits t n l

/-- Whether `x` is at most `y`. A NaN is not comparable. -/
def le : Binary64 → Binary64 → Bool
  | nan, _ => false
  | _, nan => false
  | infinite s, infinite t => s || !t
  | infinite s, finite .. => s
  | finite .., infinite t => !t
  | finite s m k, finite t n l => signedUnits s m k ≤ signedUnits t n l

instance : LT Binary64 := ⟨fun x y => lt x y = true⟩
instance : LE Binary64 := ⟨fun x y => le x y = true⟩
instance (x y : Binary64) : Decidable (x < y) := inferInstanceAs (Decidable (lt x y = true))
instance (x y : Binary64) : Decidable (x ≤ y) := inferInstanceAs (Decidable (le x y = true))

/-! ### Arithmetic -/

/-- The rounded sum. Two negative zeros have a negative sum, and any other sum of zero is
positive. -/
def add : Binary64 → Binary64 → Binary64
  | nan, _ => nan
  | _, nan => nan
  | infinite s, infinite t => if s = t then infinite s else nan
  | infinite s, finite .. => infinite s
  | finite .., infinite t => infinite t
  | finite s m k, finite t n l =>
    let sum := signedUnits s m k + signedUnits t n l
    if sum = 0 then ofUnits (s && t) 0 else ofUnits (sum < 0) sum.natAbs

def mul : Binary64 → Binary64 → Binary64
  | nan, _ => nan
  | _, nan => nan
  | infinite s, infinite t => infinite (s != t)
  | infinite s, finite t n _ => if n.val = 0 then nan else infinite (s != t)
  | finite s m _, infinite t => if m.val = 0 then nan else infinite (s != t)
  | finite s m k, finite t n l =>
    ofRatio (s != t) (magnitude m k * magnitude n l) (unitsInOne * unitsInOne)

def div : Binary64 → Binary64 → Binary64
  | nan, _ => nan
  | _, nan => nan
  | infinite _, infinite _ => nan
  | infinite s, finite t _ _ => infinite (s != t)
  | finite s _ _, infinite t => zero (s != t)
  | finite s m k, finite t n l =>
    if n.val = 0 then
      if m.val = 0 then nan else infinite (s != t)
    else ofRatio (s != t) (magnitude m k) (magnitude n l)

instance : Add Binary64 := ⟨add⟩
instance : Mul Binary64 := ⟨mul⟩
instance : Div Binary64 := ⟨div⟩

/-! ### Rounding is to the nearest -/

/-- A rounded quotient is at most half a unit off. -/
theorem roundQuotient_near (n d : Nat) (hd : 0 < d) :
    2 * n ≤ 2 * (roundQuotient n d * d) + d ∧ 2 * (roundQuotient n d * d) ≤ 2 * n + d := by
  have h := Nat.div_add_mod n d
  have hlt := Nat.mod_lt n hd
  have hq : n / d * d = d * (n / d) := Nat.mul_comm ..
  simp only [roundQuotient]
  split
  · constructor <;> omega
  · split
    · rw [Nat.add_mul]
      constructor <;> omega
    · rcases Nat.mod_two_eq_zero_or_one (n / d) with h2 | h2
      · rw [h2, Nat.add_zero]
        constructor <;> omega
      · rw [h2, Nat.add_mul]
        constructor <;> omega

/-- A whole quotient is kept. -/
theorem roundQuotient_mul (q d : Nat) (hd : 0 < d) : roundQuotient (q * d) d = q := by
  simp [roundQuotient, Nat.mul_div_cancel _ hd, hd]

end Binary64

end CellAtlas
