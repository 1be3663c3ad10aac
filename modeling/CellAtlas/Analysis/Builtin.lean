import CellAtlas.Analysis.Context
import CellAtlas.Analysis.Run

/-!
# The built-in stages

    scan ──▶ classify ──▶ select ──▶ lay out ──▶ summarize
      └────▶ script

Each stage puts one function of this library to work on the state of an analysis.
-/

namespace CellAtlas.Builtin

open Source

def scanStage : Stage Analysis where
  id := "S0.01"
  phase := .scanning
  description := "Scan source for struct/class/union declarations"
  action := .onState fun a => { state := { a with structures := scan a.source } }

def classifyStage : Stage Analysis where
  id := "S1.01"
  phase := .classification
  dependencies := ["S0.01"]
  description := "Classify structures as linked, nested or simple"
  action := .attempt ClassifyError.message fun a =>
    (classify a.structures a.seed).map fun classified => { a with classified }

/-- Keep the classified structures that have been asked for. -/
def selectStage : Stage Analysis where
  id := "S1.02"
  phase := .classification
  dependencies := ["S1.01"]
  description := "Apply structure selection"
  action := .onState fun a =>
    { state := { a with mapped := Classified.select a.classified a.selected } }

/-- Lay the selected structures out on a grid. -/
def layoutStage [Machine] : Stage Analysis where
  id := "S2.01"
  phase := .mapping
  dependencies := ["S1.02"]
  description := "Map structures onto the cell grid"
  action := .attempt LayoutError.message fun a =>
    (layout a.mapped a.gridConfig a.seed).map fun grid => { a with grid }

/-- Compute the statistics and the text of the grid. The statistics stay where the text fails. -/
def summaryStage [Machine] : Stage Analysis where
  id := "S2.02"
  phase := .mapping
  dependencies := ["S2.01"]
  description := "Compute grid statistics and text rendering"
  action := .onState fun a =>
    let a := { a with stats := some (.ofCells a.grid) }
    match CellAtlas.gridText a.grid with
    | .ok gridText => { state := { a with gridText } }
    | .error e => { state := a, failure := some e.message }

/-- Write the script of all structures, whether selected or not. -/
def scriptStage : Stage Analysis where
  id := "S3.01"
  phase := .playback
  dependencies := ["S0.01"]
  description := "Build execution steps for playback"
  action := .onState fun a => { state := { a with steps := script a.structures } }

def stages [Machine] : List (Stage Analysis) :=
  [scanStage, classifyStage, selectStage, layoutStage, summaryStage, scriptStage]

def registry [Machine] : Registry Analysis where
  stages := stages
  ids_nodup := of_decide_eq_true rfl

def action? [Machine] (id : String) : Option (Action Analysis) :=
  (stages.find? (·.id == id)).map (·.action)

end CellAtlas.Builtin
