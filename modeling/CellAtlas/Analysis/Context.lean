import CellAtlas.Grid.Layout
import CellAtlas.Grid.Raster
import CellAtlas.Grid.Stats
import CellAtlas.Playback.Simulator
import CellAtlas.Playback.Script
import CellAtlas.Source.Scan
import CellAtlas.Wire.Encode

/-!
# The state of an analysis

What an analysis starts from and what its stages have found so far. A stage reads what an earlier
one has found and replaces its own part as a whole.
-/

namespace CellAtlas

open Source

/-- The values that apply where a request has none of its own. -/
structure AnalysisConfig where
  grid : GridConfig := {}
  seed : Option Int := some defaultSeed
  mutationProbability : Binary64 := defaultMutationProbability
deriving DecidableEq, Repr

structure Analysis where
  source : String := ""
  seed : Option Int := some defaultSeed
  gridConfig : GridConfig := {}
  /-- The names of the structures to lay out; none stands for all. -/
  selected : List String := []
  structures : List Structure := []
  classified : List Classified := []
  /-- The classified structures that are laid out. -/
  mapped : List Classified := []
  grid : List Cell := []
  gridText : String := ""
  stats : Option GridStats := none
  steps : List Step := []
deriving Inhabited

namespace Analysis

/-- The analysis of a source text before its first stage. -/
def ofSource (config : AnalysisConfig) (source : String) (seed : Option Int := none)
    (gridConfig : Option GridConfig := none) (selected : List String := []) : Analysis where
  source := source
  seed := seed <|> config.seed
  gridConfig := gridConfig.getD config.grid
  selected := selected

def totalSteps (a : Analysis) : Nat := a.steps.length

def toJson (a : Analysis) : Json :=
  .obj [("structures", .arr (a.structures.map (·.toJson))),
    ("classified", .arr (a.classified.map (·.toJson))),
    ("grid", .ofCells a.grid),
    ("gridText", .str a.gridText),
    ("stats", (a.stats.map (·.toJson)).getD (.obj [])),
    ("steps", .arr (a.steps.map (·.toJson))),
    ("totalSteps", .int a.totalSteps)]

end Analysis

end CellAtlas
