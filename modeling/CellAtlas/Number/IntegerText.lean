import CellAtlas.Number.Numeral

/-!
# Integers in texts

An integer field accepts a text in two steps:

    text ──▶ plain digits?  ──no──▶ trimmed and tidied ──▶ plain digits?

A text in plain form is a minus sign or none, and digits that do not start with a zero. Any other
text is tidied before a second try: white space around it, a plus sign, leading zeros, zeros after a
point and single underscores between digits are taken off. Among leading zeros, underscores may
stand in any number, and a minus sign may follow them. A text that starts off in plain form is
refused as too long beyond `maxDigits` digits, and every other fault makes a text unreadable.
-/

namespace CellAtlas

open Text

/-- What a text says as an integer. -/
inductive IntegerText where
  | value (n : Int)
  | tooLong
  | unreadable
deriving DecidableEq, Repr

namespace IntegerText

/-- The greatest number of digits of an integer that is read. -/
def maxDigits : Nat := 4300

def readMinus : List Char → Bool × List Char
  | '-' :: cs => (true, cs)
  | cs => (false, cs)

def signed (negative : Bool) (digits : List Char) : Int :=
  if negative then -(natOfDigits digits : Int) else natOfDigits digits

/-- Read an integer in plain form. Too many digits are found before what follows them is looked
at. -/
def ofPlain (cs : List Char) : IntegerText :=
  let (negative, unsigned) := readMinus cs
  let (digits, rest) := readDigits unsigned
  match digits with
  | [] => unreadable
  | '0' :: _ => if unsigned = ['0'] then value 0 else unreadable
  | _ =>
    if maxDigits < digits.length then tooLong
    else if rest.isEmpty then value (signed negative digits)
    else unreadable

/-! ### Tidying -/

/-- What is left after a zero `last`, further zeros and underscores. The last zero stays where the
text ends or a point follows; a last underscore stays, too, and cannot be read. -/
def afterZero (last : Char) : List Char → Option (List Char)
  | [] => some [last]
  | c :: cs =>
    if c == '0' || c == '_' then afterZero c cs
    else if c.isDigit || c == '-' then some (c :: cs)
    else if c == '.' then some (last :: c :: cs)
    else none

/-- A text without its leading zeros, if it starts with a digit or a minus sign. -/
def dropLeadingZeros? : List Char → Option (List Char)
  | '0' :: cs => afterZero '0' cs
  | c :: cs => if c.isDigit || c == '-' then some (c :: cs) else none
  | [] => none

/-- A text without a point and the zeros that follow it to the end, of which there is at least
one. -/
def dropDecimalZeros (cs : List Char) : List Char :=
  match cs.dropWhile (· != '.') with
  | _ :: z :: zeros => if (z :: zeros).all (· == '0') then cs.takeWhile (· != '.') else cs
  | _ => cs

/-- A text without its sign and leading zeros; a minus sign is put back. -/
def dropSignAndZeros? : List Char → Option (List Char)
  | '-' :: cs => (dropLeadingZeros? cs).map ('-' :: ·)
  | '+' :: '-' :: _ => none
  | '+' :: cs => dropLeadingZeros? cs
  | cs => dropLeadingZeros? cs

/-- A text in which nothing is left but what plain form may have, if it is an integer at all. -/
def tidy? (cs : List Char) : Option (List Char) :=
  (dropSignAndZeros? (trimBy isWhiteSpace cs)).map fun cs =>
    let cs := dropDecimalZeros cs
    (dropUnderscores? cs).getD cs

/-- Read an integer from a text. -/
def ofText (text : String) : IntegerText :=
  match ofPlain text.toList with
  | unreadable =>
    match (tidy? text.toList).map ofPlain with
    | some (value n) => value n
    | _ => unreadable
  | answer => answer

end IntegerText

end CellAtlas
