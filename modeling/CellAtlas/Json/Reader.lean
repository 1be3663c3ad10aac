import CellAtlas.Json.Basic
import CellAtlas.Keyed
import CellAtlas.Number.IntegerText
import CellAtlas.Text.Encoding

/-!
# Reading JSON

`Json.parse` reads a whole text as one value. Where it fails, the text is no JSON from some offset
on, counted in characters, or it exceeds a limit: an integer has too many digits, or values are
nested too deep. The first fault in reading order is the one that counts. Numbers may also be
spelled `NaN`, `Infinity` and `-Infinity`. Of fields with the same key the last one counts.

A text has no half of a surrogate pair. Where an escape spells one on its own, the replacement
character is read; what becomes of a text that keeps the half is not modelled.

The readers below work on what is left of the text. A malformed text is known by what is left where
it stops making sense, so that an offset is a difference of lengths.
-/

namespace CellAtlas.Json

open Text

inductive Container where
  | array
  | object
deriving DecidableEq, Repr

inductive Fault where
  /-- The text makes no sense from here on. -/
  | malformed (rest : List Char)
  /-- An integer has more than `IntegerText.maxDigits` digits. -/
  | integerTooLong
  /-- A container stands inside of too many others. -/
  | nestedTooDeep (container : Container)
deriving DecidableEq, Repr

/-- What a reader answers: a value and the rest of the text, or a fault. -/
abbrev Reading (α : Type) := Except Fault (α × List Char)

/-- The text after leading spaces, tabs and line ends. -/
def skipSpace (cs : List Char) : List Char :=
  cs.dropWhile fun c => c == ' ' || c == '\t' || c == '\n' || c == '\r'

/-! ### Numbers -/

/-- The digits of an integer: a zero on its own, or a run that starts with no zero. -/
def readWhole : List Char → Option (List Char × List Char)
  | '0' :: rest => some (['0'], rest)
  | c :: rest => if c.isDigit then some (readDigits (c :: rest)) else none
  | [] => none

/-- The digits after a point. A point without a digit after it is left alone. -/
def readFraction : List Char → List Char × List Char
  | '.' :: rest => if rest.head?.any Char.isDigit then readDigits rest else ([], '.' :: rest)
  | cs => ([], cs)

/-- The power of ten after the letter. A letter without digits after it is left alone. -/
def readPower (cs : List Char) : Option Int × List Char :=
  match cs with
  | c :: rest =>
    if c == 'e' || c == 'E' then
      let (negative, unsigned) := readSign rest
      let (digits, after) := readDigits unsigned
      if digits.isEmpty then (none, cs)
      else (some (if negative then -(natOfDigits digits : Int) else natOfDigits digits), after)
    else (none, cs)
  | [] => (none, cs)

/-- A number. It is an integer if neither a fraction nor a power of ten follows its digits. -/
def readNumber (cs : List Char) : Reading Json :=
  let (negative, unsigned) := IntegerText.readMinus cs
  match readWhole unsigned with
  | none => .error (.malformed cs)
  | some (whole, afterWhole) =>
    let (fraction, afterFraction) := readFraction afterWhole
    let (power, rest) := readPower afterFraction
    if fraction.isEmpty && power.isNone then
      if IntegerText.maxDigits < whole.length then .error .integerTooLong
      else .ok (int (IntegerText.signed negative whole), rest)
    else
      .ok (real (.finite negative (natOfDigits (whole ++ fraction))
        (power.getD 0 - fraction.length)), rest)

def literals : List (List Char × Json) :=
  [("null".toList, null), ("true".toList, bool true), ("false".toList, bool false),
    ("NaN".toList, real .nan), ("Infinity".toList, real (.infinite false)),
    ("-Infinity".toList, real (.infinite true))]

def readScalar (cs : List Char) : Reading Json :=
  match literals.find? fun l => l.1.isPrefixOf cs with
  | some (word, value) => .ok (value, cs.drop word.length)
  | none => readNumber cs

/-! ### Texts -/

/-- Four hexadecimal digits with at least one more character after them. -/
def readUnit (cs : List Char) : Option (Nat × List Char) :=
  match cs with
  | a :: b :: c :: d :: e :: rest =>
    match hexValue? a, hexValue? b, hexValue? c, hexValue? d with
    | some a, some b, some c, some d => some (a * 4096 + b * 256 + c * 16 + d, e :: rest)
    | _, _, _, _ => none
  | _ => none

/-- The character after a backslash, if it has a short name. -/
def shortEscape? (c : Char) : Option Char :=
  [('"', '"'), ('\\', '\\'), ('/', '/'), ('b', '\x08'), ('f', '\x0c'), ('n', '\n'), ('r', '\r'),
    ('t', '\t')].lookup c

/-- The second half of a surrogate pair: a unit from the low surrogates, if one is escaped here. -/
def readLowSurrogate (cs : List Char) : Except Fault (Option (Nat × List Char)) :=
  match cs with
  | '\\' :: 'u' :: rest =>
    if rest.length < 5 then .ok none
    else match readUnit rest with
      | none => .error (.malformed ('u' :: rest))
      | some (low, after) =>
        if isLowSurrogate low then .ok (some (low, after)) else .ok none
  | _ => .ok none

/-- The character of an escape that starts with the letter u, given what follows the letter. A high
surrogate takes the low one after it along; a surrogate on its own has no character and reads as the
replacement character. -/
def readUnicodeEscape (cs : List Char) : Reading Char :=
  match readUnit cs with
  | none => .error (.malformed ('u' :: cs))
  | some (unit, rest) =>
    if isHighSurrogate unit then
      match readLowSurrogate rest with
      | .error fault => .error fault
      | .ok (some (low, after)) => .ok (charOfSurrogates unit low, after)
      | .ok none => .ok (replacement, rest)
    else .ok (charOfNat unit, rest)

/-- The characters of a text up to its closing quote. `start` is the text from the opening quote on,
where a missing quote is reported; `acc` has the characters read so far, the last one first. -/
def readText (start : List Char) : Nat → List Char → List Char → Reading String
  | 0, _, _ => .error (.malformed start)
  | _ + 1, _, [] => .error (.malformed start)
  | _ + 1, acc, '"' :: rest => .ok (String.ofList acc.reverse, rest)
  | _ + 1, _, ['\\'] => .error (.malformed start)
  | fuel + 1, acc, '\\' :: 'u' :: rest =>
    match readUnicodeEscape rest with
    | .error fault => .error fault
    | .ok (c, after) => readText start fuel (c :: acc) after
  | fuel + 1, acc, '\\' :: c :: rest =>
    match shortEscape? c with
    | none => .error (.malformed ('\\' :: c :: rest))
    | some c => readText start fuel (c :: acc) rest
  | fuel + 1, acc, c :: rest =>
    if c.toNat < 0x20 then .error (.malformed (c :: rest))
    else readText start fuel (c :: acc) rest

/-- A text in quotes, given from its opening quote on and from after it. -/
def readQuoted (start rest : List Char) : Reading String :=
  readText start (rest.length + 1) [] rest

/-! ### Values -/

mutual

/-- A value, in which containers may be nested to some depth. -/
def readValue (depth : Nat) : Nat → List Char → Reading Json
  | 0, cs => .error (.malformed cs)
  | fuel + 1, cs =>
    match cs with
    | '"' :: rest =>
      match readQuoted cs rest with
      | .error fault => .error fault
      | .ok (s, after) => .ok (str s, after)
    | '[' :: rest =>
      match depth with
      | 0 => .error (.nestedTooDeep .array)
      | depth + 1 =>
        match skipSpace rest with
        | ']' :: after => .ok (arr [], after)
        | inner => readItems depth fuel [] inner
    | '\x7b' :: rest =>
      match depth with
      | 0 => .error (.nestedTooDeep .object)
      | depth + 1 =>
        match skipSpace rest with
        | '\x7d' :: after => .ok (obj [], after)
        | inner => readFields depth fuel [] inner
    | _ => readScalar cs

/-- The items of an array up to its closing bracket; `acc` has those read so far, the last one
first. -/
def readItems (depth : Nat) : Nat → List Json → List Char → Reading Json
  | 0, _, cs => .error (.malformed cs)
  | fuel + 1, acc, cs =>
    match readValue depth fuel cs with
    | .error fault => .error fault
    | .ok (value, after) =>
      match skipSpace after with
      | ']' :: rest => .ok (arr (value :: acc).reverse, rest)
      | ',' :: rest => readItems depth fuel (value :: acc) (skipSpace rest)
      | rest => .error (.malformed rest)

/-- The fields of an object up to its closing brace. -/
def readFields (depth : Nat) : Nat → List (String × Json) → List Char → Reading Json
  | 0, _, cs => .error (.malformed cs)
  | fuel + 1, acc, cs =>
    match cs with
    | '"' :: rest =>
      match readQuoted cs rest with
      | .error fault => .error fault
      | .ok (key, after) =>
        match skipSpace after with
        | ':' :: rest =>
          match readValue depth fuel (skipSpace rest) with
          | .error fault => .error fault
          | .ok (value, after) =>
            match skipSpace after with
            | '\x7d' :: rest => .ok (obj (setKey key value acc), rest)
            | ',' :: rest => readFields depth fuel (setKey key value acc) (skipSpace rest)
            | rest => .error (.malformed rest)
        | rest => .error (.malformed rest)
    | _ => .error (.malformed cs)

end

/-- A value and the space around it, in which containers may be nested to some depth. Every
character can start at most one value and one list of items, which bounds the steps. -/
def readWholeText (depth : Nat) (cs : List Char) : Except Fault Json :=
  match readValue depth (2 * cs.length + 2) (skipSpace cs) with
  | .error fault => .error fault
  | .ok (value, after) =>
    match skipSpace after with
    | [] => .ok value
    | rest => .error (.malformed rest)

inductive ParseError where
  /-- The text makes no sense from an offset on. -/
  | malformed (offset : Nat)
  | integerTooLong
  | nestedTooDeep (container : Container)
deriving DecidableEq, Repr

def Fault.inText (length : Nat) : Fault → ParseError
  | malformed rest => .malformed (length - rest.length)
  | integerTooLong => .integerTooLong
  | nestedTooDeep container => .nestedTooDeep container

/-- How many containers may stand inside each other where no one asks for less. -/
def maxDepth : Nat := 990

/-- Read a whole text, in which containers may be nested to some depth. -/
def parse (text : String) (depth : Nat := maxDepth) : Except ParseError Json :=
  (readWholeText depth text.toList).mapError (·.inText text.toList.length)

end CellAtlas.Json
