import CellAtlas.Keyed

/-!
# Stages and their registry

An analysis is made of stages, each a piece of work on a shared state. A stage is shown what the run
has recorded of the stages before it, and names the stages that have to run before it; a name that
no stage has is ignored. `Registry` keeps stages in the order of
their registration and never two of the same id.
-/

namespace CellAtlas

inductive Phase where
  | scanning
  | classification
  | mapping
  | playback
deriving DecidableEq, Repr, Inhabited

namespace Phase

def name : Phase → String
  | scanning => "SCANNING"
  | classification => "CLASSIFICATION"
  | mapping => "MAPPING"
  | playback => "PLAYBACK"

def number : Phase → Nat
  | scanning => 0
  | classification => 1
  | mapping => 2
  | playback => 3

def all : List Phase := [scanning, classification, mapping, playback]

def ofName? (name : String) : Option Phase := all.find? (·.name == name)

end Phase

/-- What the stages of a run share: a state, and the record of the run, which names the stages that
have completed and has the texts of those that have failed. -/
@[ext]
structure Context (σ : Type) where
  state : σ
  completed : List String := []
  errors : List (String × String) := []

namespace Context

variable {σ : Type}

def complete (c : Context σ) (id : String) : Context σ :=
  { c with completed := if id ∈ c.completed then c.completed else c.completed ++ [id] }

def fail (c : Context σ) (id text : String) : Context σ :=
  { c with errors := setKey id text c.errors }

end Context

/-- What a stage leaves behind: the state, and why it failed if it did. A stage that fails may have
changed the state before. -/
structure Outcome (σ : Type) where
  state : σ
  failure : Option String := none

/-- A piece of work on a state. It can look at the record of the run, which only the run writes. -/
abbrev Action (σ : Type) := Context σ → Outcome σ

namespace Action

variable {σ : Type}

def onState (f : σ → Outcome σ) : Action σ := fun c => f c.state

def idle : Action σ := onState fun s => { state := s }

def fail (text : String) : Action σ := onState fun s => { state := s, failure := some text }

/-- Change the state, or fail with the text of an error and change nothing. -/
def attempt {ε : Type} (text : ε → String) (f : σ → Except ε σ) : Action σ := onState fun s =>
  match f s with
  | .ok s => { state := s }
  | .error e => { state := s, failure := some (text e) }

end Action

structure Stage (σ : Type) where
  id : String
  phase : Phase := .scanning
  dependencies : List String := []
  description : String := ""
  action : Action σ

inductive RegistryError where
  /-- A stage with the id is there already. -/
  | duplicateId (id : String)
  /-- The stages that could not be ordered, by ascending ids. -/
  | circular (ids : List String)
deriving DecidableEq, Repr

/-- The wording of an error. The ids that could not be ordered stand one after the other by
ascending ids, without the braces and quotes of a printed set. -/
def RegistryError.message : RegistryError → String
  | duplicateId id => "Duplicate stage ID: " ++ id
  | circular ids => "Circular dependency detected among: " ++ ", ".intercalate ids

/-- Stages in the order of their registration, no two of the same id. -/
structure Registry (σ : Type) where
  stages : List (Stage σ) := []
  ids_nodup : (stages.map (·.id)).Nodup := by simp

namespace Registry

variable {σ : Type}

def empty : Registry σ := {}

instance : Inhabited (Registry σ) := ⟨empty⟩

def ids (r : Registry σ) : List String := r.stages.map (·.id)

def count (r : Registry σ) : Nat := r.stages.length

def register (r : Registry σ) (s : Stage σ) : Except RegistryError (Registry σ) :=
  if h : s.id ∈ r.ids then .error (.duplicateId s.id)
  else .ok {
    stages := r.stages ++ [s]
    ids_nodup := by
      rw [List.map_append, List.nodup_append]
      refine ⟨r.ids_nodup, by simp, ?_⟩
      intro a ha b hb hab
      simp only [List.map_cons, List.map_nil, List.mem_singleton] at hb
      exact h (by rw [← hb, ← hab]; exact ha) }

def registerAll (r : Registry σ) (stages : List (Stage σ)) : Except RegistryError (Registry σ) :=
  stages.foldlM register r

end Registry

end CellAtlas
