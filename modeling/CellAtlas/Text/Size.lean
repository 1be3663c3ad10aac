import CellAtlas.Number.Binary64

/-!
# Sizes

How a number of bytes is written in a message: in the greatest unit that leaves a whole part, with
three digits or with all digits of the whole part. The number of units is a double-precision number,
which is then rounded to the digits shown; a tie goes to the even digit.
-/

namespace CellAtlas.Text

def sizeUnits : List String := ["bytes", "KiB", "MiB", "GiB", "TiB", "PiB", "EiB"]

/-- A decimal fraction with some digits after the point, given without the point. The digits of the
fraction keep their leading zeros because they are written behind a one, which is dropped. -/
def decimalText (places n : Nat) : String :=
  let scale := Nat.pow 10 places
  toString (n / scale) ++ "." ++ String.ofList ((toString (scale + n % scale)).toList.drop 1)

/-- A number from one upwards with three digits, or with all digits of its whole part where these
are more. The number of places is the first at which the rounded number has three digits. -/
def threeDigits (x : Binary64) : String :=
  if x.rounded 2 < 1000 then decimalText 2 (x.rounded 2)
  else if x.rounded 1 < 1000 then decimalText 1 (x.rounded 1)
  else decimalText 0 (x.rounded 0)

/-- A number of units of size `2 ^ (10 * unit)` with its unit. -/
def inUnit (x : Binary64) (unit : Nat) : String :=
  (if unit = 0 then toString (x.rounded 0) else threeDigits x) ++ " " ++ sizeUnits.getD unit ""

/-- A number of bytes in its unit. One that rounds to 1024 is one of the next unit. -/
def sizeText (n : Nat) : String :=
  let unit := n.log2 / 10
  let x := Binary64.ofRatio false n (1 <<< (10 * unit))
  if x.rounded 0 = 1024 then inUnit (x / 1024) (unit + 1) else inUnit x unit

end CellAtlas.Text
