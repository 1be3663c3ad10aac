import CellAtlas.Number.Numeral
import CellAtlas.Text.Encoding

/-!
# Paths

The path that a request is for:

    path ──normal──▶ without dots ──unescape, twice──▶ plain path

A percent sign and two hexadecimal digits stand for a byte. A client may escape a path that has
escapes in it already, so they are resolved two times.
-/

namespace CellAtlas.Path

open Text

/-- The bytes of a path, in which a percent sign and two digits stand for a byte. -/
def bytes : List Char → List UInt8
  | '%' :: a :: b :: cs =>
    match hexValue? a, hexValue? b with
    | some m, some n => (16 * m + n).toUInt8 :: bytes cs
    | _, _ => 37 :: bytes (a :: b :: cs)
  | c :: cs => (String.singleton c).toUTF8.toList ++ bytes cs
  | [] => []
termination_by cs => cs.length

/-- A path with its escapes resolved. -/
def unescape (path : List Char) : List Char := charsOfBytes 0 (bytes path)

def parts (path : List Char) : List (List Char) := split '/' path

/-- Add a part to those before it, the last of which comes first. One dot stays at a place and two
dots go back from it. -/
def step (before : List (List Char)) (part : List Char) : List (List Char) :=
  if part = ['.'] then before
  else if part = ['.', '.'] then if before = [[]] then before else before.drop 1
  else part :: before

/-- A path without parts that are dots. -/
def normal (path : List Char) : List Char :=
  ['/'].intercalate ((parts path).foldl step []).reverse

def withoutSlashes (path : List Char) : List Char := (path.reverse.dropWhile (· == '/')).reverse

def withoutLineEnd (path : List Char) : List Char :=
  if path.getLast? = some '\n' then path.dropLast else path

/-- A path with its escapes and those in its escapes resolved. -/
def plain (path : List Char) : List Char := unescape (unescape path)

end CellAtlas.Path
