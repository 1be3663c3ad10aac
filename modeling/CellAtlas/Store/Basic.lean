import CellAtlas.Json.Basic
import CellAtlas.Playback.Script
import CellAtlas.Playback.Simulator

/-!
# The store

Three tables in memory: files by their ids, results of analyses by their ids, and playback sessions
by the id of the analysis they belong to. Ids count up from 1 in either of the first two tables, and
the id of a deleted file is not used again.
-/

namespace CellAtlas

structure SourceFile where
  id : Int
  name : String
  content : String
  uploadedAt : String
deriving DecidableEq, Repr, Inhabited

def SourceFile.size (f : SourceFile) : Nat := f.content.utf8ByteSize

/-- The result of an analysis, with the file that was analyzed, if it was one, and the texts of the
stages that failed. -/
structure AnalysisRecord where
  id : Int
  fileId : Option Int
  result : Json
  errors : List (String × String)
  createdAt : String
deriving Inhabited

/-- An analysis has failed if one of its stages has. -/
def AnalysisRecord.status (r : AnalysisRecord) : String :=
  if r.errors.isEmpty then "completed" else "failed"

structure Session where
  analysisId : Int
  simulator : Simulator
  state : PlaybackState
  steps : List Step := []
deriving Repr

/-- The description of the step under the cursor; empty if there is none. -/
def Session.description (s : Session) : String :=
  if s.state.step < 0 then ""
  else match s.steps[s.state.step.toNat]? with
    | some step => step.description
    | none => ""

inductive StoreError where
  /-- Nothing has the id. -/
  | unknownId (id : Int)
deriving DecidableEq, Repr

def StoreError.message : StoreError → String
  | unknownId id => toString id

/-- The tables. Files and analyses are in the order of their creation. -/
structure Store where
  files : List SourceFile := []
  analyses : List AnalysisRecord := []
  sessions : List Session := []
  nextFileId : Int := 1
  nextAnalysisId : Int := 1
deriving Inhabited

namespace Store

def empty : Store := {}

/-- What was found, or else that the id is unknown. -/
def orUnknown {α : Type} (id : Int) : Option α → Except StoreError α
  | some a => .ok a
  | none => .error (.unknownId id)

/-! ### Files -/

def createFile (s : Store) (now name content : String) : SourceFile × Store :=
  let file : SourceFile := { id := s.nextFileId, name, content, uploadedAt := now }
  (file, { s with files := s.files ++ [file], nextFileId := s.nextFileId + 1 })

def getFile (s : Store) (id : Int) : Except StoreError SourceFile :=
  orUnknown id (s.files.find? (·.id == id))

def deleteFile (s : Store) (id : Int) : Except StoreError Store :=
  (s.getFile id).map fun _ => { s with files := s.files.filter (·.id != id) }

/-! ### Analyses -/

def createAnalysis (s : Store) (now : String) (result : Json) (fileId : Option Int := none)
    (errors : List (String × String) := []) : AnalysisRecord × Store :=
  let record : AnalysisRecord :=
    { id := s.nextAnalysisId, fileId, result, errors, createdAt := now }
  (record, { s with analyses := s.analyses ++ [record], nextAnalysisId := s.nextAnalysisId + 1 })

def getAnalysis (s : Store) (id : Int) : Except StoreError AnalysisRecord :=
  orUnknown id (s.analyses.find? (·.id == id))

/-- The latest analysis of a file, or of no file. -/
def latestOf? (s : Store) (fileId : Option Int) : Option AnalysisRecord :=
  s.analyses.reverse.find? (·.fileId == fileId)

/-- The latest analysis of a file, which may be deleted by now. -/
def latestAnalysis (s : Store) (fileId : Int) : Except StoreError AnalysisRecord :=
  orUnknown fileId (s.latestOf? (some fileId))

/-! ### Sessions -/

/-- Put a session into a list of sessions, in the place of the one for the same analysis. -/
def replaceSession (session : Session) : List Session → List Session
  | [] => [session]
  | other :: rest =>
    if other.analysisId = session.analysisId then session :: rest
    else other :: replaceSession session rest

def saveSession (s : Store) (session : Session) : Store :=
  { s with sessions := replaceSession session s.sessions }

def getSession (s : Store) (analysisId : Int) : Except StoreError Session :=
  orUnknown analysisId (s.sessions.find? (·.analysisId == analysisId))

def updateState (s : Store) (analysisId : Int) (state : PlaybackState) :
    Except StoreError (Session × Store) :=
  (s.getSession analysisId).map fun session =>
    let session := { session with state }
    (session, s.saveSession session)

end Store

end CellAtlas
