/-!
# Field names

Fields have names of words joined by underscores. On the wire the words are run together instead,
each but the first with a capital.
-/

namespace CellAtlas.Wire

inductive Naming where
  /-- Words run together, as in `declaredType`. -/
  | camel
  /-- Words joined by underscores, as in `declared_type`. -/
  | snake
deriving DecidableEq, Repr

/-- Run words joined by underscores together. -/
def runTogether : List Char → List Char
  | '_' :: c :: cs => c.toUpper :: runTogether cs
  | c :: cs => c :: runTogether cs
  | [] => []

/-- The form of a field name, given with underscores. -/
def Naming.key : Naming → String → String
  | camel, name => String.ofList (runTogether name.toList)
  | snake, name => name

end CellAtlas.Wire
