/-!
# Blank characters, trimming and splitting

The text operations that every reader of this library shares, over lists of characters:

* `isBlank`, the characters that separate words in source text,
* `trim` and `skipBlanks`, which remove them at both ends or in front,
* `split`, which cuts a text at every occurrence of one character.
-/

namespace CellAtlas.Text

/-- A character that separates words: the Unicode spaces, the line and paragraph separators, and the
control characters from U+0009 to U+000D and from U+001C to U+001F. -/
def isBlank (c : Char) : Bool :=
  let n := c.toNat
  (0x09 ≤ n && n ≤ 0x0D) || (0x1C ≤ n && n ≤ 0x20) || n == 0x85 || n == 0xA0 || n == 0x1680
    || (0x2000 ≤ n && n ≤ 0x200A) || n == 0x2028 || n == 0x2029 || n == 0x202F || n == 0x205F
    || n == 0x3000

/-- A character with the Unicode property White_Space: the blanks without the four information
separators U+001C to U+001F. Numerals may be surrounded by these. -/
def isWhiteSpace (c : Char) : Bool :=
  isBlank c && !(0x1C ≤ c.toNat && c.toNat ≤ 0x1F)

def skipBlanks (cs : List Char) : List Char := cs.dropWhile isBlank

/-- `cs` without the characters of `p` at either end. -/
def trimBy (p : Char → Bool) (cs : List Char) : List Char :=
  ((cs.dropWhile p).reverse.dropWhile p).reverse

def trim (cs : List Char) : List Char := trimBy isBlank cs

/-- Cut `cs` at every `sep`, which is dropped. There is one part more than there are cuts, so even
the empty text has one part. -/
def split (sep : Char) : List Char → List (List Char)
  | [] => [[]]
  | c :: cs =>
    if c = sep then [] :: split sep cs
    else match split sep cs with
      | [] => [[c]]
      | part :: parts => (c :: part) :: parts

/-- Whether `pattern` occurs in `cs` as a run of consecutive characters. -/
def occursIn (pattern : List Char) : List Char → Bool
  | [] => pattern.isEmpty
  | c :: cs => pattern.isPrefixOf (c :: cs) || occursIn pattern cs

/-! ### Facts about the operations -/

theorem split_ne_nil (sep : Char) (cs : List Char) : split sep cs ≠ [] := by
  cases cs with
  | nil => simp [split]
  | cons c cs =>
    simp only [split]
    split
    · simp
    · split <;> simp

end CellAtlas.Text
