import CellAtlas.Json.Basic
import CellAtlas.Text.Quoted

/-!
# Writing JSON

`Json.render` writes a value without spaces. Control characters are escaped, every other character
stands for itself, and a number that is no integer is written with its digits and its power of ten.
-/

namespace CellAtlas.Json

def escapeChar (c : Char) : String :=
  if c = '"' then "\\\""
  else if c = '\\' then "\\\\"
  else if c.toNat < 0x20 || (0x7F ≤ c.toNat && c.toNat ≤ 0x9F) then
    "\\u" ++ String.ofList (Text.hexadecimal 4 c.toNat)
  else c.toString

def quote (s : String) : String := s.foldl (fun acc c => acc ++ escapeChar c) "\"" ++ "\""

def renderNumeral : Numeral → String
  | .nan => "NaN"
  | .infinite negative => if negative then "-Infinity" else "Infinity"
  | .finite negative digits exponent =>
    (if negative then "-" else "") ++ toString digits ++ "e" ++ toString exponent

mutual

/-- Write a value after `acc`. -/
def renderAfter (acc : String) : Json → String
  | null => acc ++ "null"
  | bool b => acc ++ if b then "true" else "false"
  | int n => acc ++ toString n
  | real r => acc ++ renderNumeral r
  | str s => acc ++ quote s
  | arr [] => acc ++ "[]"
  | arr (j :: rest) => renderItemsAfter (renderAfter (acc ++ "[") j) rest ++ "]"
  | obj [] => acc ++ "\x7b\x7d"
  | obj ((k, j) :: rest) =>
    renderFieldsAfter (renderAfter (acc ++ "\x7b" ++ quote k ++ ":") j) rest ++ "\x7d"

def renderItemsAfter (acc : String) : List Json → String
  | [] => acc
  | j :: rest => renderItemsAfter (renderAfter (acc ++ ",") j) rest

def renderFieldsAfter (acc : String) : List (String × Json) → String
  | [] => acc
  | (k, j) :: rest => renderFieldsAfter (renderAfter (acc ++ "," ++ quote k ++ ":") j) rest

end

def render (j : Json) : String := renderAfter "" j

end CellAtlas.Json
