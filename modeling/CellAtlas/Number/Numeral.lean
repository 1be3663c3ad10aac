import CellAtlas.Number.Binary64
import CellAtlas.Text.Blank

/-!
# Written numbers

A `Numeral` is a number as it was written: a decimal fraction with a power of ten, an infinity or a
NaN. `Numeral.toBinary64` rounds it once, and `Numeral.ofText?` reads one in the spellings that
numeric fields allow in text.
-/

namespace CellAtlas

/-- A number as written. `finite negative digits exponent` is `± digits * 10 ^ exponent`. -/
inductive Numeral where
  | nan
  | infinite (negative : Bool)
  | finite (negative : Bool) (digits : Nat) (exponent : Int)
deriving DecidableEq, Repr, Inhabited

namespace Numeral

/-- The nearest double-precision number. Powers of ten that are far out of range are not computed:
from 10^400 on every number but zero is infinite, and one below 2^-1100 is zero. -/
def toBinary64 : Numeral → Binary64
  | nan => .nan
  | infinite s => .infinite s
  | finite s 0 _ => .zero s
  | finite s digits (.ofNat e) =>
    if 400 ≤ e then .infinite s else .ofRatio s (digits * Nat.pow 10 e) 1
  | finite s digits (.negSucc e) =>
    if digits.log2 + 1101 < 3 * (e + 1) then .zero s else .ofRatio s digits (Nat.pow 10 (e + 1))

/-- A double-precision number written out in full. -/
def ofBinary64 : Binary64 → Numeral
  | .nan => nan
  | .infinite s => infinite s
  | .finite s m k =>
    if 1074 ≤ k.val then finite s (m.val <<< (k.val - 1074)) 0
    else finite s (m.val * Nat.pow 5 (1074 - k.val)) (k.val - 1074)

def isOutOfRange (r : Numeral) : Bool := !r.toBinary64.isFinite

end Numeral

/-! ### Reading -/

namespace Text

def digitValue (c : Char) : Nat := c.toNat - '0'.toNat

def hexValue? (c : Char) : Option Nat :=
  if c.isDigit then some (digitValue c)
  else if 'a' ≤ c.toLower && c.toLower ≤ 'f' then some (c.toLower.toNat - 'a'.toNat + 10)
  else none

def natOfDigits (cs : List Char) : Nat := cs.foldl (fun n c => 10 * n + digitValue c) 0

def readSign : List Char → Bool × List Char
  | '-' :: cs => (true, cs)
  | '+' :: cs => (false, cs)
  | cs => (false, cs)

def readDigits (cs : List Char) : List Char × List Char :=
  (cs.takeWhile Char.isDigit, cs.dropWhile Char.isDigit)

/-- Whether every underscore stands alone between two other characters. -/
def underscoresSeparate (cs : List Char) : Bool :=
  cs.head? != some '_' && cs.getLast? != some '_' && !occursIn ['_', '_'] cs

/-- A text without its underscores, if they do nothing but separate other characters. -/
def dropUnderscores? (cs : List Char) : Option (List Char) :=
  if underscoresSeparate cs then some (cs.filter (· != '_')) else none

/-- The exponent part of a real number: nothing, or a letter, a sign and digits to the end. -/
def readExponent : List Char → Option Int
  | [] => some 0
  | c :: cs =>
    if c == 'e' || c == 'E' then
      let (negative, digits) := readSign cs
      if digits.isEmpty || !digits.all Char.isDigit then none
      else some (if negative then -(natOfDigits digits : Int) else natOfDigits digits)
    else none

end Text

open Text

/-- Read the decimal form of a real number, without a sign: digits on at least one side of an
optional point, and an optional exponent. -/
def Numeral.ofUnsigned? (negative : Bool) (cs : List Char) : Option Numeral :=
  let (whole, afterWhole) := readDigits cs
  let (fraction, afterFraction) := match afterWhole with
    | '.' :: rest => readDigits rest
    | rest => ([], rest)
  if whole.isEmpty && fraction.isEmpty then none
  else (readExponent afterFraction).map fun e =>
    .finite negative (natOfDigits (whole ++ fraction)) (e - fraction.length)

/-- Read a real number that fills a text: a signed decimal form, an infinity or a NaN, in letters of
either case. -/
def Numeral.ofChars? (cs : List Char) : Option Numeral :=
  let (negative, unsigned) := readSign cs
  let word := String.ofList (unsigned.map Char.toLower)
  if word == "nan" then some .nan
  else if word == "inf" || word == "infinity" then some (.infinite negative)
  else Numeral.ofUnsigned? negative unsigned

/-- Read a real number from a text. White space may surround it, or else underscores may separate
its characters. -/
def Numeral.ofText? (text : String) : Option Numeral :=
  Numeral.ofChars? (trimBy isWhiteSpace text.toList)
    <|> (dropUnderscores? text.toList).bind Numeral.ofChars?

end CellAtlas
