import CellAtlas.Service.Basic
import CellAtlas.Wire.Progress
import CellAtlas.Wire.Report

/-!
# Serving analyses

An analysis that is asked for runs, its result goes into the store together with a playback session
of the same id, and the stored result is answered. Stages that cannot be ordered make a plain
request fail, with nothing stored; a stream has begun by then, and so the failure is recorded as an
error of the whole.
-/

namespace CellAtlas

open Wire

/-- The JSON form of a stored result, if it reads as a report. -/
def AnalysisRecord.report? (entry : AnalysisRecord) : Option Json :=
  match report entry.result with
  | .valid r => some r.toJson
  | .invalid _ => none

/-- The answer to a request for a recorded analysis. -/
def AnalysisRecord.response (entry : AnalysisRecord) : Response :=
  .ofOption (entry.report?.map fun analysis =>
    .obj [("id", .int entry.id), ("fileId", .ofInt? entry.fileId), ("status", .str entry.status),
      ("analysis", analysis), ("errors", .ofTexts entry.errors),
      ("createdAt", .str entry.createdAt)])

namespace Service

/-- Put the result of a run into the store and open a playback session for it. -/
def record (service : Service) (store : Store) (clock : Clock) (p : Progress Analysis)
    (fileId : Option Int := none) : AnalysisRecord × Store :=
  let a := p.state
  let (entry, store) := store.createAnalysis clock.now a.toJson fileId p.errors
  let simulator := Simulator.ofTotal a.totalSteps a.seed service.config.mutationProbability
  (entry, store.saveSession
    { analysisId := entry.id, simulator, state := simulator.start a.grid, steps := a.steps })

/-- The result of a run as it is answered. -/
def resultJson (clock : Clock) (p : Progress Analysis) (entry : AnalysisRecord) : Option Json :=
  entry.report?.map fun analysis =>
    .obj [("analysisId", .int entry.id), ("analysis", analysis),
      ("processingTimeMs", clock.elapsedMs), ("stagesCompleted", .int p.completed.length),
      ("stagesFailed", .int p.errors.length), ("errors", p.errorsJson)]

def analyze (service : Service) (store : Store) (clock : Clock) (a : Analysis)
    (fileId : Option Int := none) : Reply :=
  match service.registry.run a with
  | .error _ => (.failure, store)
  | .ok p =>
    let (entry, store) := service.record store clock p fileId
    (.ofOption (resultJson clock p entry), store)

/-- The event that the stages cannot be ordered. -/
def orderingEvent (e : RegistryError) : Json :=
  .obj [("stage_id", .str "pipeline"), ("status", .str "error"), ("error", .str e.message)]

/-- The events of a run and what the run has come to. -/
def follow (service : Service) (clock : Clock) (a : Analysis) : List Json × Progress Analysis :=
  match service.registry.stream a with
  | .ok (events, p) => (events.map (·.toJson clock), p)
  | .error e => ([orderingEvent e], { state := a, errors := [("pipeline", e.message)] })

/-- Run an analysis, tell about its stages, and record it. -/
def analyzeStream (service : Service) (store : Store) (clock : Clock) (a : Analysis) : Reply :=
  let (events, p) := service.follow clock a
  let (entry, store) := service.record store clock p
  match resultJson clock p entry with
  | none => (.failure, store)
  | some result =>
    (⟨200, .events (events.map (("progress", ·))
      ++ [("result", result), ("done", .obj [("type", .str "done")])])⟩, store)

end Service

end CellAtlas
