/-!
# Structures declared in source text

What a scan recovers: a `Structure` for every struct, class or union, with its members, its methods
and the lines it spans. Lines are numbered from 1.
-/

namespace CellAtlas.Source

inductive Kind where
  | struct
  | cls
  | union
deriving DecidableEq, Repr, Inhabited

namespace Kind

def keyword : Kind → String
  | struct => "struct"
  | cls => "class"
  | union => "union"

def all : List Kind := [struct, cls, union]

def ofKeyword? (word : String) : Option Kind := all.find? (·.keyword == word)

theorem ofKeyword?_keyword (k : Kind) : ofKeyword? k.keyword = some k := by
  cases k <;> decide

end Kind

structure Member where
  name : String
  /-- The type as declared, with single spaces between its words and the stars at its end. -/
  declaredType : String
  isPointer : Bool
  line : Int
deriving DecidableEq, Repr, Inhabited

/-- A method of a structure, defined in its body. -/
structure Method where
  name : String
  returnType : String
  parameters : List String := []
  line : Int := 1
deriving DecidableEq, Repr, Inhabited

/-- A structure with the lines of its first keyword and of its closing brace. -/
structure Structure where
  name : String
  kind : Kind := .struct
  startLine : Int := 1
  endLine : Int := 1
  members : List Member := []
  methods : List Method := []
deriving DecidableEq, Repr, Inhabited

end CellAtlas.Source
