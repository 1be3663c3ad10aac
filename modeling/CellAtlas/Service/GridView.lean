import CellAtlas.Service.Basic
import CellAtlas.Service.Request

/-!
# Serving grids

A grid goes out with its text and its statistics, be it one that structures are laid out on for the
occasion or the one that a playback session shows.
-/

namespace CellAtlas

open Wire

variable [Machine]

/-- The JSON form of a grid with its text and its statistics, after other fields. -/
def Json.ofGrid? (fields : List (String × Json)) (cells : List Cell) : Option Json :=
  match gridText cells with
  | .error _ => none
  | .ok text =>
    some (.obj (fields ++ [("grid", .ofCells cells), ("gridText", .str text),
      ("stats", (GridStats.ofCells cells).toJson)]))

def Session.response (s : Session) : Response :=
  .ofOption (Json.ofGrid? [("analysisId", .int s.analysisId), ("step", .int s.state.step),
    ("totalSteps", .int s.state.totalSteps), ("description", .str s.description)] s.state.grid)

namespace Service

def layOut (service : Service) (r : GridRequest) : Response :=
  match layout (r.structures.map (·.toClassified)) r.config (r.seed <|> service.config.seed) with
  | .error _ => .failure
  | .ok cells => .ofOption (Json.ofGrid? [] cells)

def moveSession (store : Store) (id : Int) (m : Move) : Reply :=
  let otherwise := "Playback session not found"
  store.ifFound (store.getSession id) otherwise fun session =>
    match session.simulator.move session.state m with
    | .error _ => (.failure, store)
    | .ok state =>
      store.ifFound (store.updateState id state) otherwise fun (session, store) =>
        (session.response, store)

end Service

end CellAtlas
