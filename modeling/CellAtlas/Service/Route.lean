import CellAtlas.Playback.Simulator
import CellAtlas.Service.Path

/-!
# Routes

Which endpoint a method and a path ask for. The path of an endpoint may contain an id, which is kept
as text here. A path may end in a line end; if it ends in slashes and leads nowhere, the client is
sent to the path without them, where it may find something.
-/

namespace CellAtlas

inductive Endpoint where
  | health
  | analyze
  | analyzeStream
  | layOut
  | createFile
  | listFiles
  | getFile (id : String)
  | deleteFile (id : String)
  | analyzeFile (id : String)
  | latestAnalysis (fileId : String)
  | getAnalysis (id : String)
  | showSession (id : String)
  | moveSession (id : String) (move : Move)
deriving DecidableEq, Repr

inductive Routing where
  | endpoint (e : Endpoint)
  | methodNotAllowed
  | notFound
deriving DecidableEq, Repr

namespace Route

/-- The endpoints at a path, given by its parts between slashes, each with its method. -/
def endpointsAt : List String → List (String × Endpoint)
  | ["", "api", "health"] => [("GET", .health)]
  | ["", "api", "analyze", "stream"] => [("POST", .analyzeStream)]
  | ["", "api", "analyze"] => [("POST", .analyze)]
  | ["", "api", "grid"] => [("POST", .layOut)]
  | ["", "api", "files"] => [("POST", .createFile), ("GET", .listFiles)]
  | ["", "api", "files", id] =>
    if id.isEmpty then [] else [("GET", .getFile id), ("DELETE", .deleteFile id)]
  | ["", "api", "files", id, "analyze"] => if id.isEmpty then [] else [("POST", .analyzeFile id)]
  | ["", "api", "analysis", "file", id] => if id.isEmpty then [] else [("GET", .latestAnalysis id)]
  | ["", "api", "analysis", id] => if id.isEmpty then [] else [("GET", .getAnalysis id)]
  | ["", "api", "playback", id] => if id.isEmpty then [] else [("GET", .showSession id)]
  | ["", "api", "playback", id, "forward"] =>
    if id.isEmpty then [] else [("POST", .moveSession id .forward)]
  | ["", "api", "playback", id, "backward"] =>
    if id.isEmpty then [] else [("POST", .moveSession id .backward)]
  | ["", "api", "playback", id, "reset"] =>
    if id.isEmpty then [] else [("POST", .moveSession id .reset)]
  | _ => []

def endpointsOf (path : List Char) : List (String × Endpoint) :=
  match endpointsAt ((Path.parts path).map String.ofList) with
  | [] => endpointsAt ((Path.parts (Path.withoutLineEnd path)).map String.ofList)
  | found => found

/-- The endpoints at a path. If there are none but some at the path without the slashes at its end,
that path is asked for in a new request, in which escapes are resolved once more. -/
def endpoints (path : List Char) : List (String × Endpoint) :=
  let shorter := Path.withoutSlashes path
  if (endpointsOf path).isEmpty && !(endpointsOf shorter).isEmpty then
    endpointsOf (Path.unescape (Path.normal shorter))
  else endpointsOf path

def resolve (method : String) (path : List Char) : Routing :=
  let found := endpoints path
  match found.lookup method with
  | some e => .endpoint e
  | none => if found.isEmpty then .notFound else .methodNotAllowed

end Route

end CellAtlas
