import CellAtlas.Number.Binary64

/-!
# Arithmetic that can fail

Conversions between integers of any size and double-precision numbers, with the reason where there
is no result. A number that is out of range is an error when it comes from an integer, and infinite
when it comes from a product.
-/

namespace CellAtlas

inductive NumberError where
  /-- An integer is too large for a double-precision number. -/
  | integerTooLarge
  /-- A quotient of integers is too large for a double-precision number. -/
  | quotientTooLarge
  /-- An infinity has no integer part. -/
  | infinityToInteger
  /-- A NaN has no integer part. -/
  | nanToInteger
  /-- A number is divided by zero. -/
  | divisionByZero
deriving DecidableEq, Repr

def NumberError.message : NumberError → String
  | integerTooLarge => "int too large to convert to float"
  | quotientTooLarge => "integer division result too large for a float"
  | infinityToInteger => "cannot convert float infinity to integer"
  | nanToInteger => "cannot convert float NaN to integer"
  | divisionByZero => "float division by zero"

/-- Whether an integer is one of the signed integers of 64 bits. -/
def isWord (z : Int) : Bool := Int64.minValue.toInt ≤ z && z ≤ Int64.maxValue.toInt

namespace Binary64

def fromInt (z : Int) : Except NumberError Binary64 :=
  if (ofInt z).isFinite then .ok (ofInt z) else .error .integerTooLarge

def fromQuotient (a b : Int) : Except NumberError Binary64 :=
  if (ofQuotient a b).isFinite then .ok (ofQuotient a b) else .error .quotientTooLarge

def divideByInt (x : Binary64) (z : Int) : Except NumberError Binary64 := do
  let y ← fromInt z
  if z = 0 then .error .divisionByZero else .ok (x / y)

def ceil : Binary64 → Except NumberError Int
  | nan => .error .nanToInteger
  | infinite _ => .error .infinityToInteger
  | finite s m k => .ok (-(-signedUnits s m k / unitsInOne))

end Binary64

end CellAtlas
