import CellAtlas.Analysis.Run
import CellAtlas.Json.Basic

/-!
# JSON forms of a run

Times are no part of a run; what a clock says is handed in where the JSON form has a field for it.
-/

namespace CellAtlas

/-- What a clock says: the present time, and how long a piece of work took in milliseconds. -/
structure Clock where
  now : String
  elapsedMs : Json
deriving Inhabited

def Json.ofTexts (texts : List (String × String)) : Json :=
  .obj (texts.map fun t => (t.1, .str t.2))

def Event.toJson (e : Event) (clock : Clock) : Json :=
  .obj [("stage_id", .str e.stageId), ("description", .str e.description),
    ("stage", .str e.phase.name), ("index", .int e.index), ("total", .int e.total),
    ("elapsed_ms", clock.elapsedMs), ("status", .str e.status.name), ("error", .str e.status.text)]

def Progress.errorsJson {σ : Type} (p : Progress σ) : Json := .ofTexts p.errors

end CellAtlas
