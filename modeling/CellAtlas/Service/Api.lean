import CellAtlas.Analysis.Builtin
import CellAtlas.Service.Analyze
import CellAtlas.Service.GridView
import CellAtlas.Service.Route
import CellAtlas.Service.Settings
import CellAtlas.Wire.Store

/-!
# The interface of the service

`Service.handle` answers a request and says what the store is afterwards:

    route ──▶ checks of the id and the body ──▶ endpoint ──▶ response and store

As long as a request has not passed its checks the store does not change.
-/

namespace CellAtlas

open Wire

namespace Service

/-- The service with some settings, which runs the built-in stages. -/
def ofSettings [Machine] (s : Settings) : Service where
  config := s.config
  registry := Builtin.registry
  stagesRegistered := Builtin.registry.count
  maxSourceBytes := s.maxSourceBytes

/-! ### Files -/

def createFile (service : Service) (store : Store) (clock : Clock) (r : FileRequest) : Reply :=
  service.ifWithinLimit store r.content fun _ =>
    let (file, store) := store.createFile clock.now r.name r.content
    (.ok file.toJson, store)

def deleteFile (store : Store) (id : Int) : Reply :=
  store.ifFound (store.deleteFile id) "File not found" fun store =>
    (.ok (.obj [("message", .str "File deleted successfully")]), store)

/-! ### Analyses -/

/-- The analysis of a source text, with requested values in place of configured ones. -/
def analysisOf (service : Service) (source : String) (r : AnalyzeFileRequest) : Analysis :=
  .ofSource service.config source r.seed r.grid r.structures

def analyzeFile (service : Service) (store : Store) (clock : Clock) (id : Int)
    (r : AnalyzeFileRequest) : Reply :=
  store.ifFound (store.getFile id) "File not found" fun file =>
    service.analyze store clock (service.analysisOf file.content r) id

/-- Analyze a source text of allowed length in one of two ways. -/
def analyzeSource (service : Service) (store : Store) (r : AnalyzeRequest)
    (run : Analysis → Reply) : Reply :=
  service.ifWithinLimit store r.source fun _ =>
    run (service.analysisOf r.source r.toAnalyzeFileRequest)

/-! ### Endpoints -/

/-- Go on with the request in a body that must be there. -/
def withRequest {α : Type} (store : Store) (d : Decoder α) (body : ByteArray) (next : α → Reply) :
    Reply :=
  store.ifRead body fun j => store.ifValid (requiredBody d j) next

variable [Machine]

def answer (service : Service) (store : Store) (clock : Clock) (body : ByteArray) :
    Endpoint → Reply
  | .health =>
    (.ok (.obj [("status", .str "ok"), ("version", .str "0.1.0"),
      ("stagesRegistered", .int service.stagesRegistered)]), store)
  | .analyze =>
    withRequest store analyzeRequest body fun r =>
      service.analyzeSource store r (service.analyze store clock)
  | .analyzeStream =>
    withRequest store analyzeRequest body fun r =>
      service.analyzeSource store r (service.analyzeStream store clock)
  | .layOut => withRequest store gridRequest body fun r => (service.layOut r, store)
  | .createFile => withRequest store fileRequest body (service.createFile store clock)
  | .listFiles => (.ok (.arr (store.files.map (·.toJson .camel false))), store)
  | .getFile id =>
    store.ifValid (pathId "file_id" id) fun id =>
      store.ifFound (store.getFile id) "File not found" fun file => (.ok file.toJson, store)
  | .deleteFile id => store.ifValid (pathId "file_id" id) (deleteFile store)
  | .analyzeFile id =>
    store.ifRead body fun j =>
      store.ifValid (Prod.mk <$> pathId "file_id" id <*> optionalBody analyzeFileRequest j)
        fun (id, r) => service.analyzeFile store clock id (r.getD {})
  | .latestAnalysis id =>
    store.ifValid (pathId "file_id" id) fun id =>
      store.ifFound (store.latestAnalysis id) "Analysis not found for this file" fun entry =>
        (entry.response, store)
  | .getAnalysis id =>
    store.ifValid (pathId "analysis_id" id) fun id =>
      store.ifFound (store.getAnalysis id) "Analysis not found" fun entry => (entry.response, store)
  | .showSession id =>
    store.ifValid (pathId "analysis_id" id) fun id =>
      store.ifFound (store.getSession id) "Playback session not found" fun session =>
        (session.response, store)
  | .moveSession id m => store.ifValid (pathId "analysis_id" id) fun id => moveSession store id m

def handle (service : Service) (store : Store) (clock : Clock) (r : Request) : Reply :=
  let (response, store) := match Route.resolve r.method r.path with
    | .endpoint e => service.answer store clock r.body e
    | .methodNotAllowed => (.refusal 405 "Method Not Allowed", store)
    | .notFound => (.refusal 404 "Not Found", store)
  (response.toMethod r.method, store)

end Service

end CellAtlas
