import CellAtlas.Analysis.Context
import CellAtlas.Wire.Decoder

/-!
# Reading the results

The counterpart of the JSON forms: decoders for structures, cells, statistics, steps and whole
reports. A `Report` is everything that an analysis answers.
-/

namespace CellAtlas

open Source

structure Report where
  structures : List Structure := []
  classified : List Classified := []
  grid : List Cell := []
  gridText : String := ""
  stats : GridStats := {}
  steps : List Step := []
  totalSteps : Int := 0
deriving DecidableEq, Inhabited

def Report.toJson (r : Report) (n : Wire.Naming := .camel) : Json :=
  Wire.object n [("structures", .arr (r.structures.map (·.toJson n))),
    ("classified", .arr (r.classified.map (·.toJson n))), ("grid", .ofCells r.grid n),
    ("grid_text", .str r.gridText), ("stats", r.stats.toJson),
    ("steps", .arr (r.steps.map (·.toJson n))), ("total_steps", .int r.totalSteps)]

namespace Wire

def member : Decoder Member := model "MemberModel" fun o =>
  Member.mk <$> required .camel o "name" text
    <*> required .camel o "declared_type" text
    <*> optional .camel o "is_pointer" truth false
    <*> optional .camel o "line" integer 1

def method : Decoder Method := model "MethodModel" fun o =>
  Method.mk <$> required .camel o "name" text
    <*> required .camel o "return_type" text
    <*> optional .camel o "parameters" (list text) []
    <*> optional .camel o "line" integer 1

def structureFields (o : Json) : Checked Structure :=
  Structure.mk <$> required .camel o "name" text
    <*> optional .camel o "kind" (choice Kind.keyword Kind.all) .struct
    <*> optional .camel o "start_line" integer 1
    <*> optional .camel o "end_line" integer 1
    <*> optional .camel o "members" (list member) []
    <*> optional .camel o "methods" (list method) []

def structureModel : Decoder Structure := model "StructureModel" structureFields

def category : Decoder Category := choice Category.name Category.all

def classifiedModel : Decoder Classified := model "ClassifiedModel" fun o =>
  Classified.mk <$> structureFields o
    <*> optional .camel o "category" category .simple
    <*> optional .camel o "instance_count" integer 0
    <*> optional .camel o "nesting_depth" integer 1

def cell : Decoder Cell := model "CellModel" fun o =>
  Cell.mk <$> required .camel o "x" integer
    <*> required .camel o "y" integer
    <*> required .camel o "state" (choice CellState.name CellState.all)
    <*> optional .camel o "label" (nullable text) none
    <*> optional .camel o "note" (nullable text) none

def step : Decoder Step := model "StepModel" fun o =>
  Step.mk <$> required .camel o "source_line" integer
    <*> required .camel o "description" text
    <*> required .camel o "kind" (choice StepKind.name StepKind.all)

/-- The statistics of a grid. A count or a percentage that is missing is zero. -/
def gridStats : Decoder GridStats := model "GridStats" fun o =>
  GridStats.mk <$> optional .camel o "total" integer 0
    <*> optional .camel o "active" integer 0
    <*> optional .camel o "pointer" integer 0
    <*> optional .camel o "dropped" integer 0
    <*> optional .camel o "empty" integer 0
    <*> optional .camel o "efficiency" integer 0
    <*> optional .camel o "utilization" integer 0

def report : Decoder Report := model "AnalysisOutput" fun o =>
  Report.mk <$> optional .camel o "structures" (list structureModel) []
    <*> optional .camel o "classified" (list classifiedModel) []
    <*> optional .camel o "grid" (list cell) []
    <*> optional .camel o "grid_text" text ""
    <*> optional .camel o "stats" gridStats {}
    <*> optional .camel o "steps" (list step) []
    <*> optional .camel o "total_steps" integer 0

end Wire

end CellAtlas
