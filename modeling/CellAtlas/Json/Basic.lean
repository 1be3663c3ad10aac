import CellAtlas.Number.Numeral

/-!
# JSON values

The data that requests and answers carry. Integers are of any size and kept apart from other
numbers, which stay as they were written; the fields of an object keep their order.
-/

namespace CellAtlas

inductive Json where
  | null
  | bool (value : Bool)
  | int (value : Int)
  | real (value : Numeral)
  | str (value : String)
  | arr (items : List Json)
  | obj (fields : List (String × Json))
deriving Inhabited, Repr

namespace Json

def get? (j : Json) (key : String) : Option Json :=
  match j with
  | obj fields => fields.lookup key
  | _ => none

def fields : Json → List (String × Json)
  | obj fields => fields
  | _ => []

def items : Json → List Json
  | arr items => items
  | _ => []

def ofInt? : Option Int → Json
  | some n => int n
  | none => null

def ofString? : Option String → Json
  | some s => str s
  | none => null

def ofStrings (texts : List String) : Json := arr (texts.map str)

mutual

/-- Whether an infinity or a NaN occurs in the value. The text of such a value is no standard
JSON. -/
def hasOutOfRange : Json → Bool
  | real r => r.isOutOfRange
  | arr items => anyOutOfRange items
  | obj fields => anyFieldOutOfRange fields
  | _ => false

def anyOutOfRange : List Json → Bool
  | [] => false
  | j :: rest => hasOutOfRange j || anyOutOfRange rest

def anyFieldOutOfRange : List (String × Json) → Bool
  | [] => false
  | (_, j) :: rest => hasOutOfRange j || anyFieldOutOfRange rest

/-- How deep containers are nested in the value. -/
def depth : Json → Nat
  | arr items => itemsDepth items + 1
  | obj fields => fieldsDepth fields + 1
  | _ => 0

def itemsDepth : List Json → Nat
  | [] => 0
  | j :: rest => max (depth j) (itemsDepth rest)

def fieldsDepth : List (String × Json) → Nat
  | [] => 0
  | (_, j) :: rest => max (depth j) (fieldsDepth rest)

end

end Json

end CellAtlas
