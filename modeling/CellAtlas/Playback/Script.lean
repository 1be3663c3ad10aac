import CellAtlas.Source.Structure

/-!
# Scripts

The script of some structures has one step for the definition of each structure, one for each
member, one for each method, and one for its end, in the order of their source lines. Steps of one
line stay in the order of the structures.
-/

namespace CellAtlas

open Source

inductive StepKind where
  | definition
  | memberDeclaration
  | methodDeclaration
  | ending
deriving DecidableEq, Repr, Inhabited

namespace StepKind

def name : StepKind → String
  | definition => "definition"
  | memberDeclaration => "member-decl"
  | methodDeclaration => "method-decl"
  | ending => "end"

def all : List StepKind := [definition, memberDeclaration, methodDeclaration, ending]

def ofName? (name : String) : Option StepKind := all.find? (·.name == name)

theorem ofName?_name (k : StepKind) : ofName? k.name = some k := by
  cases k <;> decide

end StepKind

structure Step where
  sourceLine : Int
  description : String
  kind : StepKind
deriving DecidableEq, Repr, Inhabited

/-- The steps of a structure: its definition, its members, its methods and its end. -/
def stepsOf (s : Structure) : List Step :=
  let title := s.kind.keyword ++ " " ++ s.name
  [⟨s.startLine, "Define " ++ title, .definition⟩]
    ++ s.members.map (fun m =>
      ⟨m.line, "Declare member " ++ m.name ++ " of type " ++ m.declaredType, .memberDeclaration⟩)
    ++ s.methods.map (fun m => ⟨m.line, "Define method " ++ m.name, .methodDeclaration⟩)
    ++ [⟨s.endLine, "End " ++ title, .ending⟩]

def script (structures : List Structure) : List Step :=
  (structures.flatMap stepsOf).mergeSort fun a b => a.sourceLine ≤ b.sourceLine

end CellAtlas
