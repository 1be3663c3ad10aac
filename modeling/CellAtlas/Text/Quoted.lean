import CellAtlas.Text.Hidden

/-!
# Quoted text

How a name is quoted in a message: between single quotes, or between double quotes if it has a
single quote in it and no double one. The quote and the backslash are escaped by a backslash, and a
character that cannot be shown by its code.
-/

namespace CellAtlas.Text

/-- `n` as hexadecimal digits, at least `width` of them. -/
def hexadecimal (width n : Nat) : List Char :=
  let digits := Nat.toDigits 16 n
  List.replicate (width - digits.length) '0' ++ digits

/-- A hidden character by its code, in as few digits as its size allows. -/
def escapeHidden (c : Char) : List Char :=
  if c = '\n' then ['\\', 'n']
  else if c = '\r' then ['\\', 'r']
  else if c = '\t' then ['\\', 't']
  else if c.toNat < 0x100 then '\\' :: 'x' :: hexadecimal 2 c.toNat
  else if c.toNat < 0x10000 then '\\' :: 'u' :: hexadecimal 4 c.toNat
  else '\\' :: 'U' :: hexadecimal 8 c.toNat

/-- A character between quotes. -/
def escapeQuoted (quote c : Char) : List Char :=
  if c = quote ∨ c = '\\' then ['\\', c]
  else if isHidden c then escapeHidden c
  else [c]

def quoted (text : String) : String :=
  let cs := text.toList
  let quote := if cs.contains '\'' && !cs.contains '"' then '"' else '\''
  String.ofList (quote :: cs.flatMap (escapeQuoted quote) ++ [quote])

end CellAtlas.Text
