import CellAtlas.Classification.Category
import CellAtlas.Random.Generator

/-!
# Classified structures

Every structure gets its category and two numbers that size it on a grid, an instance count and a
nesting depth. The numbers are drawn from ranges that depend on the category, for one structure
after another from one generator, so that a seed always yields the same numbers.
-/

namespace CellAtlas

open Source CellAtlas.Random

def defaultSeed : Int := 7

/-- The integers from `low` up to but not including `high`. -/
structure Range where
  low : Int
  high : Int
deriving DecidableEq, Repr

structure Sizing where
  instanceCount : Range
  nestingDepth : Range
deriving DecidableEq, Repr

abbrev SizingTable := List (Category × Sizing)

def defaultSizings : SizingTable :=
  [(.linked, ⟨⟨5, 55⟩, ⟨1, 6⟩⟩), (.nested, ⟨⟨3, 33⟩, ⟨2, 9⟩⟩), (.simple, ⟨⟨1, 11⟩, ⟨1, 2⟩⟩)]

structure Classified extends Structure where
  category : Category := .simple
  instanceCount : Int := 1
  nestingDepth : Int := 1
deriving DecidableEq, Repr, Inhabited

inductive ClassifyError where
  /-- A number cannot be drawn. -/
  | random (e : RandomError)
  /-- The table has no ranges for a category. -/
  | noSizing (c : Category)
deriving DecidableEq, Repr

def ClassifyError.message : ClassifyError → String
  | random e => e.message
  | noSizing .linked => "<Category.LINKED: 'linked'>"
  | noSizing .nested => "<Category.NESTED: 'nested'>"
  | noSizing .simple => "<Category.SIMPLE: 'simple'>"

def Range.draw (r : Range) (g : Generator) : Except ClassifyError (Int × Generator) :=
  match g.integer r.low r.high with
  | .ok d => .ok d
  | .error e => .error (.random e)

namespace Classified

/-- Draw the size of a structure of known category: the count first, then the depth. -/
def size (s : Structure) (category : Category) (table : SizingTable) (g : Generator) :
    Except ClassifyError (Classified × Generator) :=
  match table.lookup category with
  | none => .error (.noSizing category)
  | some sizing => do
    let count ← sizing.instanceCount.draw g
    let depth ← sizing.nestingDepth.draw count.2
    return ({ toStructure := s, category, instanceCount := count.1, nestingDepth := depth.1 },
      depth.2)

/-- Classify structures, the categories of which depend on all the structures in `all`. -/
def sizeEach (table : SizingTable) (all : List Structure) :
    List Structure → Generator → Except ClassifyError (List Classified)
  | [], _ => .ok []
  | s :: rest, g => do
    let first ← size s (s.category all) table g
    return first.1 :: (← sizeEach table all rest first.2)

def totalInstances (classified : List Classified) : Int :=
  classified.foldr (fun c n => c.instanceCount + n) 0

/-- Keep the structures with the given names; without names, keep all. -/
def select (classified : List Classified) (names : List String) : List Classified :=
  if names.isEmpty then classified else classified.filter fun c => names.contains c.name

end Classified

/-- Classify structures. An empty table stands for the default one. -/
def classify (structures : List Structure) (seed : Option Int := some defaultSeed)
    (table : SizingTable := []) : Except ClassifyError (List Classified) :=
  match Generator.ofSeed seed with
  | .error e => .error (.random e)
  | .ok g =>
    Classified.sizeEach (if table.isEmpty then defaultSizings else table) structures structures g

end CellAtlas
