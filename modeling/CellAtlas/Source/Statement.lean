import CellAtlas.Text.Blank

/-!
# Statements of a line

A line of source text is cut into statements at its braces and semicolons, and each statement knows
the brace depth at which it starts:

    line ──segments──▶ runs ending in a terminator ──trim──▶ statements with their depth

`segments` loses no character (`flatten_segments`), and from one statement to the next the depth
moves by the brace balance of the text in between (`balance_append`).
-/

namespace CellAtlas.Source

open Text

def isTerminator (c : Char) : Bool := c == '{' || c == '}' || c == ';'

/-- The number of opening braces less the number of closing braces. -/
def balance (cs : List Char) : Int := (cs.count '{' : Int) - cs.count '}'

/-- Cut a line after every terminator. Only the last segment may be without one. -/
def segments : List Char → List (List Char)
  | [] => []
  | c :: cs =>
    if isTerminator c then [c] :: segments cs
    else match segments cs with
      | [] => [[c]]
      | s :: ss => (c :: s) :: ss

/-- A trimmed statement with its terminator, and the brace depth in effect where it starts. -/
structure Statement where
  text : List Char
  depth : Int
deriving DecidableEq, Repr

/-- Whether a trimmed segment says nothing: it is empty, or a terminator on its own. -/
def isVacuous : List Char → Bool
  | [] => true
  | [c] => isTerminator c
  | _ => false

/-- The statements among consecutive segments, the first of which starts at `depth`. -/
def statementsOf (depth : Int) : List (List Char) → List Statement
  | [] => []
  | s :: ss =>
    let rest := statementsOf (depth + balance s) ss
    if isVacuous (trim s) then rest else ⟨trim s, depth⟩ :: rest

def statements (line : List Char) (depth : Int) : List Statement :=
  statementsOf depth (segments line)

/-! ### Nothing is lost -/

theorem flatten_segments (cs : List Char) : (segments cs).flatten = cs := by
  induction cs with
  | nil => rfl
  | cons c cs ih =>
    simp only [segments]
    split
    · simp [ih]
    · split <;> simp_all

theorem balance_append (a b : List Char) : balance (a ++ b) = balance a + balance b := by
  simp only [balance, List.count_append]
  omega

end CellAtlas.Source
