import CellAtlas.Number.Checked
import CellAtlas.Text.Size

/-!
# Room for arrays

Rasters and draws are held in arrays, which need room. `hasRoom` says whether there is room for an
array with some dimensions, and why there is none: a dimension is no integer of 64 bits or is
negative, the bytes cannot be counted by such an integer, or the machine does not have so many of
them. The causes are looked for in this order.

How much memory there is depends on the machine. All that needs room takes a `Machine` therefore,
and what is proved about it holds on every machine.
-/

namespace CellAtlas

/-- The machine that a program runs on, as far as it matters here. -/
class Machine where
  /-- The greatest number of bytes of an array. -/
  memory : Nat
  /-- There is memory for the uniform numbers of a grid of 512 by 512 cells. -/
  enough : 8 * (512 * 512) ≤ memory
  /-- Bytes are counted by integers of 64 bits. -/
  addressable : isWord memory

/-- A machine with 16 GiB of memory, on which programs run if nothing else is said. -/
instance : Machine where
  memory := 16 * 1024 * 1024 * 1024
  enough := by decide
  addressable := by decide

inductive ItemKind where
  /-- The codes of states. -/
  | int8
  /-- Uniform numbers. -/
  | float64
deriving DecidableEq, Repr

namespace ItemKind

def bytes : ItemKind → Nat
  | int8 => 1
  | float64 => 8

def name : ItemKind → String
  | int8 => "int8"
  | float64 => "float64"

end ItemKind

/-- Why there is no room for an array. -/
inductive RoomError where
  /-- A dimension is no integer of 64 bits. -/
  | dimensionTooLarge
  /-- A dimension is negative. -/
  | negativeDimension
  /-- The number of bytes is no integer of 64 bits. -/
  | tooLarge
  /-- There is not so much memory. -/
  | outOfMemory (dimensions : List Int) (kind : ItemKind)
deriving DecidableEq, Repr

namespace Room

def items (dimensions : List Int) : Nat := dimensions.foldl (fun n d => n * d.toNat) 1

def bytes (kind : ItemKind) (dimensions : List Int) : Nat := kind.bytes * items dimensions

/-- Dimensions in parentheses; a single one is followed by a comma. -/
def shapeText (dimensions : List Int) : String :=
  let parts := ", ".intercalate (dimensions.map toString)
  "(" ++ parts ++ (if dimensions.length = 1 then ",)" else ")")

end Room

def RoomError.message : RoomError → String
  | dimensionTooLarge => "Maximum allowed dimension exceeded"
  | negativeDimension => "negative dimensions are not allowed"
  | tooLarge =>
    "array is too big; `arr.size * arr.dtype.itemsize` is larger than the maximum possible size."
  | outOfMemory dimensions kind =>
    "Unable to allocate " ++ Text.sizeText (Room.bytes kind dimensions)
      ++ " for an array with shape " ++ Room.shapeText dimensions ++ " and data type " ++ kind.name

section Room

variable [Machine]

def hasRoom (kind : ItemKind) (dimensions : List Int) : Except RoomError Unit :=
  if dimensions.any fun d => !isWord d then .error .dimensionTooLarge
  else if dimensions.any (· < 0) then .error .negativeDimension
  else if !isWord (Room.bytes kind dimensions : Nat) then .error .tooLarge
  else if Machine.memory < Room.bytes kind dimensions then .error (.outOfMemory dimensions kind)
  else .ok ()

/-- There is room for the draws of a row, or of all rows of a grid that is not too large. -/
theorem hasRoom_row {n : Int} (h0 : 0 ≤ n) (hn : n ≤ 512 * 512) :
    hasRoom .float64 [n] = .ok () := by
  have hword : isWord n = true := by
    simp only [isWord, Bool.and_eq_true, decide_eq_true_eq]
    exact ⟨Int.le_trans (by decide) h0, Int.le_trans hn (by decide)⟩
  have hbytes : Room.bytes .float64 [n] ≤ 8 * (512 * 512) := by
    simp only [Room.bytes, Room.items, ItemKind.bytes, List.foldl]
    omega
  have hbytesWord : isWord (Room.bytes .float64 [n] : Nat) = true := by
    simp only [isWord, Bool.and_eq_true, decide_eq_true_eq]
    exact ⟨Int.le_trans (by decide) (Int.natCast_nonneg _),
      Int.le_trans (Int.ofNat_le.2 hbytes) (by decide)⟩
  have hmax : ¬ Machine.memory < Room.bytes .float64 [n] :=
    Nat.not_lt.2 (Nat.le_trans hbytes Machine.enough)
  simp [hasRoom, hword, hbytesWord, hmax, Int.not_lt.2 h0]

end Room

end CellAtlas
