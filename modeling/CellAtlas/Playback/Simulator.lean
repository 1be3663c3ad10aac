import CellAtlas.Playback.Drift

/-!
# Playback

A simulator moves a cursor over a fixed number of steps. A step forward lets the grid drift; a step
backward and a reset move the cursor alone, and what has drifted stays.
-/

namespace CellAtlas

open CellAtlas.Random

structure PlaybackState where
  step : Int := 0
  totalSteps : Int := 0
  grid : List Cell := []
deriving DecidableEq, Repr, Inhabited

inductive Move where
  | forward
  | backward
  | reset
deriving DecidableEq, Repr

structure Simulator where
  totalSteps : Nat
  seed : Option Int := some defaultSeed
  mutationProbability : Binary64 := defaultMutationProbability
deriving DecidableEq, Repr

/-- The step before a step, never below 0. -/
def stepBefore (step : Int) : Int := max 0 (step - 1)

namespace Simulator

/-- A simulator over a number of steps, where a negative number counts as none. -/
def ofTotal (total : Int) (seed : Option Int := some defaultSeed)
    (mutationProbability : Binary64 := defaultMutationProbability) : Simulator :=
  { totalSteps := total.toNat, seed, mutationProbability }

def lastStep (s : Simulator) : Int := max 0 ((s.totalSteps : Int) - 1)

def clamp (s : Simulator) (step : Int) : Int := min (max step 0) s.lastStep

def start (s : Simulator) (grid : List Cell) : PlaybackState :=
  { step := 0, totalSteps := s.totalSteps, grid }

/-- One step forward; at the last step nothing changes. -/
def forward (s : Simulator) (p : PlaybackState) : Except RandomError PlaybackState :=
  if s.lastStep ≤ p.step then .ok p
  else
    let step := s.clamp (p.step + 1)
    (drift p.grid step s.seed s.mutationProbability).map fun grid => { p with step, grid }

/-- One step backward; at the first step nothing changes. -/
def backward (s : Simulator) (p : PlaybackState) : PlaybackState :=
  if p.step ≤ 0 then p else { p with step := s.clamp (stepBefore p.step) }

def reset (_ : Simulator) (p : PlaybackState) : PlaybackState := { p with step := 0 }

def move (s : Simulator) (p : PlaybackState) : Move → Except RandomError PlaybackState
  | .forward => s.forward p
  | .backward => .ok (s.backward p)
  | .reset => .ok (s.reset p)

def run (s : Simulator) (p : PlaybackState) (moves : List Move) :
    Except RandomError PlaybackState :=
  moves.foldlM s.move p

/-- The states that movements lead through, the one they start from included. -/
def states (s : Simulator) (p : PlaybackState) : List Move → Except RandomError (List PlaybackState)
  | [] => .ok [p]
  | m :: moves => do
    let q ← s.move p m
    return p :: (← s.states q moves)

end Simulator

end CellAtlas
