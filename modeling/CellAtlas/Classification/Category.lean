import CellAtlas.Source.Structure
import CellAtlas.Text.Blank

/-!
# Categories of structures

How a structure relates to the structures it is found with: `linked` if a pointer among its members
leads to its own type, else `nested` if a member has the type of another structure, else `simple`.
A member has a structure's type where the structure's name occurs in the member's declared type.
-/

namespace CellAtlas

open Source

inductive Category where
  | linked
  | nested
  | simple
deriving DecidableEq, Repr, Inhabited

namespace Category

def name : Category → String
  | linked => "linked"
  | nested => "nested"
  | simple => "simple"

def all : List Category := [linked, nested, simple]

def ofName? (name : String) : Option Category := all.find? (·.name == name)

theorem ofName?_name (c : Category) : ofName? c.name = some c := by
  cases c <;> decide

end Category

namespace Source.Structure

def mentions (m : Member) (name : String) : Bool :=
  Text.occursIn name.toList m.declaredType.toList

/-- A pointer among the members leads to a type that mentions the structure's own name. -/
def isLinked (s : Structure) : Bool := s.members.any fun m => m.isPointer && mentions m s.name

/-- The type of a member mentions the name of a structure of another name. -/
def isNested (s : Structure) (all : List Structure) : Bool :=
  s.members.any fun m => all.any fun other => other.name != s.name && mentions m other.name

def category (s : Structure) (all : List Structure) : Category :=
  if s.isLinked then .linked
  else if s.isNested all then .nested
  else .simple

end Source.Structure

end CellAtlas
