import CellAtlas.Wire.Report

/-!
# Requests

What a client may ask for, with the JSON forms and the decoders of each kind of request.
-/

namespace CellAtlas

open Wire

/-! ### The kinds of requests -/

/-- Analyze a stored file, with values of the request's own in place of the configured ones. -/
structure AnalyzeFileRequest where
  grid : Option GridConfig := none
  seed : Option Int := none
  structures : List String := []
deriving DecidableEq

structure AnalyzeRequest extends AnalyzeFileRequest where
  source : String
deriving DecidableEq

/-- A structure that is only known by what counts on a grid. -/
structure Share where
  name : String
  category : Category := .simple
  instanceCount : Int := 1
  nestingDepth : Int := 1
deriving DecidableEq

structure GridRequest where
  structures : List Share := []
  config : GridConfig := {}
  seed : Option Int := none
deriving DecidableEq

structure FileRequest where
  name : String
  content : String
deriving DecidableEq

/-- The structure that stands for a share. -/
def Share.toClassified (s : Share) : Classified where
  name := s.name
  category := s.category
  instanceCount := s.instanceCount
  nestingDepth := s.nestingDepth

/-! ### JSON forms -/

def AnalyzeFileRequest.toJson (r : AnalyzeFileRequest) (n : Naming) : Json :=
  object n [("grid", (r.grid.map (·.toJson n)).getD .null), ("seed", .ofInt? r.seed),
    ("structures", .ofStrings r.structures)]

def AnalyzeRequest.toJson (r : AnalyzeRequest) (n : Naming) : Json :=
  extend (object n [("source", .str r.source)]) (r.toAnalyzeFileRequest.toJson n)

def Share.toJson (s : Share) (n : Naming) : Json :=
  object n [("name", .str s.name), ("category", .str s.category.name),
    ("instance_count", .int s.instanceCount), ("nesting_depth", .int s.nestingDepth)]

def GridRequest.toJson (r : GridRequest) (n : Naming) : Json :=
  object n [("structures", .arr (r.structures.map (·.toJson n))), ("config", r.config.toJson n),
    ("seed", .ofInt? r.seed)]

def FileRequest.toJson (r : FileRequest) (n : Naming) : Json :=
  object n [("name", .str r.name), ("content", .str r.content)]

/-! ### Decoders -/

namespace Wire

/-- The configuration of a grid of at most 512 by 512 cells. -/
def gridConfig : Decoder GridConfig := model "GridConfigModel" fun o =>
  GridConfig.mk <$> optional .camel o "width" (integer (some 0) (some 512)) 12
    <*> optional .camel o "height" (integer (some 0) (some 512)) 8
    <*> optional .camel o "active_ratio" (real 0 1) 0.4
    <*> optional .camel o "dropped_ratio" (real 0 1) 0.2
    <*> optional .camel o "pointer_ratio" (real 0 1) 0.2

def seed : Decoder (Option Int) := nullable (integer (some 0))

/-- The fields of a request to analyze a stored file. -/
def analyzeFileFields (o : Json) : Checked AnalyzeFileRequest :=
  AnalyzeFileRequest.mk <$> optional .camel o "grid" (nullable gridConfig) none
    <*> optional .camel o "seed" seed none
    <*> optional .camel o "structures" (list text) []

def analyzeFileRequest : Decoder AnalyzeFileRequest := model "AnalyzeFileRequest" analyzeFileFields

def analyzeRequest : Decoder AnalyzeRequest := model "AnalyzeRequest" fun o =>
  (fun source r => { toAnalyzeFileRequest := r, source })
    <$> required .camel o "source" text <*> analyzeFileFields o

def share : Decoder Share := model "GridStructureIn" fun o =>
  Share.mk <$> required .camel o "name" (text 1)
    <*> optional .camel o "category" category .simple
    <*> optional .camel o "instance_count" (integer (some 0)) 1
    <*> optional .camel o "nesting_depth" (integer (some 1)) 1

def gridRequest : Decoder GridRequest := model "GridRequest" fun o =>
  GridRequest.mk <$> optional .camel o "structures" (list share) []
    <*> optional .camel o "config" gridConfig {}
    <*> optional .camel o "seed" seed none

def fileRequest : Decoder FileRequest := model "FileCreateRequest" fun o =>
  FileRequest.mk <$> required .camel o "name" (text 1) <*> required .camel o "content" text

end Wire

end CellAtlas
