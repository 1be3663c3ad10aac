import CellAtlas.Analysis.Order

/-!
# Running stages

All stages of a registry run in their order, and a stage that fails does not keep the others from
running. `Progress` says how far a run has come. A run can be followed by events, one before and one
after each stage (`Registry.streamFrom`); it ends in the same progress as a run that nobody follows
(`stream_progress`). A registry whose stages have no order leaves the progress as it is.
-/

namespace CellAtlas

variable {σ : Type}

/-- How far a run has come: the context that it leaves to the next stage, and the stages that have
been called. -/
structure Progress (σ : Type) extends Context σ where
  called : List String := []

/-- How a run ends: the progress that it leaves behind, and its answer or why there is none. -/
structure Ending (σ α : Type) where
  progress : Progress σ
  answer : Except RegistryError α

def Ending.progress? {α : Type} (e : Ending σ α) : Except RegistryError (Progress σ) :=
  e.answer.map fun _ => e.progress

/-- What a stage makes of a context: the state that the stage leaves, with a record of how it has
ended. -/
def Stage.call (s : Stage σ) (c : Context σ) : Context σ :=
  let outcome := s.action c
  let left := { c with state := outcome.state }
  match outcome.failure with
  | none => left.complete s.id
  | some text => left.fail s.id text

def Stage.run (s : Stage σ) (p : Progress σ) : Progress σ :=
  { toContext := s.call p.toContext, called := p.called ++ [s.id] }

def runStages (stages : List (Stage σ)) (p : Progress σ) : Progress σ :=
  stages.foldl (fun p s => s.run p) p

def Registry.runFrom (r : Registry σ) (p : Progress σ) : Ending σ Unit :=
  match r.order with
  | .error e => { progress := p, answer := .error e }
  | .ok stages => { progress := runStages stages p, answer := .ok () }

def Registry.run (r : Registry σ) (state : σ) : Except RegistryError (Progress σ) :=
  (r.runFrom { state }).progress?

/-! ### Events -/

inductive StageStatus where
  | running
  | ok
  | error (text : String)
deriving DecidableEq, Repr

def StageStatus.name : StageStatus → String
  | running => "running"
  | ok => "ok"
  | error _ => "error"

def StageStatus.text : StageStatus → String
  | error text => text
  | _ => ""

/-- A notice that a stage has started or ended, with its position among all stages. -/
structure Event where
  stageId : String
  description : String
  phase : Phase
  index : Nat
  total : Nat
  status : StageStatus
deriving DecidableEq, Repr

def Stage.event (s : Stage σ) (index total : Nat) (status : StageStatus) : Event where
  stageId := s.id
  description := s.description
  phase := s.phase
  index := index
  total := total
  status := status

/-- Call a stage and tell about it, before and after. -/
def Stage.stream (s : Stage σ) (index total : Nat) (p : Progress σ) : List Event × Progress σ :=
  let event := s.event index total .running
  let outcome := s.action p.toContext
  let left := { p.toContext with state := outcome.state }
  match outcome.failure with
  | none =>
    ([event, { event with status := .ok }],
      { toContext := left.complete s.id, called := p.called ++ [s.id] })
  | some text =>
    ([event, { event with status := .error text }],
      { toContext := left.fail s.id text, called := p.called ++ [s.id] })

/-- Call stages one after the other and tell about it; `index` is the position of the first one. -/
def streamStages (total index : Nat) : List (Stage σ) → Progress σ → List Event × Progress σ
  | [], p => ([], p)
  | s :: rest, p =>
    let first := s.stream index total p
    let later := streamStages total (index + 1) rest first.2
    (first.1 ++ later.1, later.2)

def Registry.streamFrom (r : Registry σ) (p : Progress σ) : Ending σ (List Event) :=
  match r.order with
  | .error e => { progress := p, answer := .error e }
  | .ok stages =>
    let (events, progress) := streamStages stages.length 0 stages p
    { progress, answer := .ok events }

def Registry.stream (r : Registry σ) (state : σ) :
    Except RegistryError (List Event × Progress σ) :=
  let ending := r.streamFrom { state }
  ending.answer.map fun events => (events, ending.progress)

/-- Telling about a stage does not change what it does. -/
theorem Stage.stream_progress (s : Stage σ) (index total : Nat) (p : Progress σ) :
    (s.stream index total p).2 = s.run p := by
  simp only [Stage.stream, Stage.run, Stage.call]
  cases (s.action p.toContext).failure <;> rfl

theorem streamStages_progress (total index : Nat) (stages : List (Stage σ)) (p : Progress σ) :
    (streamStages total index stages p).2 = runStages stages p := by
  induction stages generalizing index p with
  | nil => rfl
  | cons s rest ih => simp [streamStages, runStages, ih, Stage.stream_progress]

/-- Following a run does not change where it ends. -/
theorem stream_progress (r : Registry σ) (p : Progress σ) :
    (r.streamFrom p).progress = (r.runFrom p).progress := by
  rw [Registry.streamFrom, Registry.runFrom]
  cases r.order with
  | error e => rfl
  | ok stages => exact streamStages_progress ..

end CellAtlas
