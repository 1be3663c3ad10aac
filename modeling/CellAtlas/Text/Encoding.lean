/-!
# Encodings

A text in JSON may arrive in any of the Unicode encodings. It starts with an ASCII character, so the
zeros among its first bytes tell which one:

    bytes ──detect──▶ encoding ──decode──▶ text

`textOfBytes?` does both. Bytes that are no text in their encoding have no answer; half of a
surrogate pair has no character of its own and reads as the replacement character, as it does where
it is escaped (`Json.readUnicodeEscape`). `charsOfBytes` reads bytes one character after the other
and puts the replacement for those that belong to none.
-/

namespace CellAtlas.Text

inductive ByteOrder where
  | greatestFirst
  | leastFirst
deriving DecidableEq, Repr

/-- An encoding of texts by units of one, two or four bytes. -/
inductive Encoding where
  | utf8
  | utf16 (order : ByteOrder)
  | utf32 (order : ByteOrder)
deriving DecidableEq, Repr

def replacement : Char := '\ufffd'

/-- The character with a number below 0x110000. -/
def charOfNat (n : Nat) : Char := if n.isValidChar then Char.ofNat n else replacement

/-! ### Surrogates -/

def isHighSurrogate (unit : Nat) : Bool := 0xD800 ≤ unit && unit ≤ 0xDBFF

def isLowSurrogate (unit : Nat) : Bool := 0xDC00 ≤ unit && unit ≤ 0xDFFF

def charOfSurrogates (high low : Nat) : Char :=
  charOfNat (0x10000 + (high - 0xD800) * 0x400 + (low - 0xDC00))

/-- The characters of units of two bytes. -/
def charsOfUnits : List Nat → List Char
  | high :: low :: rest =>
    if isHighSurrogate high && isLowSurrogate low then
      charOfSurrogates high low :: charsOfUnits rest
    else charOfNat high :: charsOfUnits (low :: rest)
  | [unit] => [charOfNat unit]
  | [] => []

/-! ### Bytes -/

/-- The number with some bytes. -/
def ByteOrder.value (bytes : List UInt8) : ByteOrder → Nat
  | greatestFirst => bytes.foldl (fun n b => 256 * n + b.toNat) 0
  | leastFirst => bytes.foldr (fun b n => 256 * n + b.toNat) 0

/-- The units of two bytes that make up some bytes. -/
def ByteOrder.units16? (order : ByteOrder) : List UInt8 → Option (List Nat)
  | [] => some []
  | a :: b :: rest => (order.units16? rest).map (order.value [a, b] :: ·)
  | _ => none

/-- The units of four bytes that make up some bytes. -/
def ByteOrder.units32? (order : ByteOrder) : List UInt8 → Option (List Nat)
  | [] => some []
  | a :: b :: c :: d :: rest => (order.units32? rest).map (order.value [a, b, c, d] :: ·)
  | _ => none

/-- The encoding that the zeros among the first bytes show. -/
def Encoding.detect (bytes : List UInt8) : Encoding :=
  match bytes.map (· == 0) with
  | true :: true :: _ :: _ :: _ => utf32 .greatestFirst
  | true :: false :: _ :: _ :: _ => utf16 .greatestFirst
  | false :: true :: true :: true :: _ => utf32 .leastFirst
  | false :: true :: _ :: _ :: _ => utf16 .leastFirst
  | [true, _] => utf16 .greatestFirst
  | [false, true] => utf16 .leastFirst
  | _ => utf8

/-- A text without a byte order mark in front. -/
def dropMark (text : String) : String :=
  match text.toList with
  | '\ufeff' :: cs => .ofList cs
  | _ => text

/-- The text of some bytes. A byte order mark is passed over where units have one byte. -/
def Encoding.decode? (bytes : ByteArray) : Encoding → Option String
  | utf8 => (String.fromUTF8? bytes).map dropMark
  | utf16 order => (order.units16? bytes.toList).map fun units => .ofList (charsOfUnits units)
  | utf32 order =>
    match order.units32? bytes.toList with
    | some units => if units.all (· < 0x110000) then some (.ofList (units.map charOfNat)) else none
    | none => none

/-- The text of some bytes in the encoding that their zeros show. -/
def textOfBytes? (bytes : ByteArray) : Option String :=
  (Encoding.detect (bytes.extract 0 4).toList).decode? bytes

/-- The characters of bytes in units of one byte, from after the first `skipped` bytes on. -/
def charsOfBytes : Nat → List UInt8 → List Char
  | _, [] => []
  | skipped + 1, _ :: rest => charsOfBytes skipped rest
  | 0, b :: rest =>
    match (ByteArray.mk ((b :: rest).take 4).toArray).utf8DecodeChar? 0 with
    | some c => c :: charsOfBytes (c.utf8Size - 1) rest
    | none => replacement :: charsOfBytes 0 rest

end CellAtlas.Text
