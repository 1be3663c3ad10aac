import CellAtlas.Playback.Simulator
import CellAtlas.Proofs.Except
import CellAtlas.Proofs.Playback.Drift

/-!
# Replaying

Neither a step backward nor a reset restores the grid, so what a playback shows depends on its whole
history. A replay does not: whatever the movements were, a reset and as many steps forward as the
cursor has ever reached lead to the state to which the same steps lead from the start
(`replay_exact`).

* `Reached` says what is known of a state on the way: its grid is the first one drifted through
  steps between 1 and the highest cursor so far. Every movement preserves it (`Reached.move`), and
  so does a run (`Reached.states`).
* Steps forward from the first step drift through `1, …, m` (`run_forward`), which forgets every
  drift before (`driftThrough_forgets`).

Steps forward that are taken back and then taken again drift through the same steps a second time,
which shows nothing new (`run_forward_again`).
-/

namespace CellAtlas

open CellAtlas.Random

namespace Simulator

variable (s : Simulator)

theorem run_cons (p : PlaybackState) (m : Move) (moves : List Move) :
    s.run p (m :: moves) = (s.move p m).bind fun q => s.run q moves := rfl

theorem run_singleton (p : PlaybackState) (m : Move) : s.run p [m] = s.move p m :=
  bind_pure (s.move p m)

theorem states_cons (p : PlaybackState) (m : Move) (moves : List Move) :
    s.states p (m :: moves) = s.move p m >>= fun q => (s.states q moves).map (p :: ·) := by
  rw [states]
  apply bind_congr
  intro q
  cases s.states q moves <;> rfl

variable {s} in
/-- The state that movements start from is the first of those that they lead through. -/
theorem exists_cons_of_states {p : PlaybackState} {moves : List Move}
    {visited : List PlaybackState} (h : s.states p moves = .ok visited) :
    ∃ rest, visited = p :: rest := by
  cases moves with
  | nil =>
      cases h
      exact ⟨[], rfl⟩
  | cons m moves =>
      rw [states_cons, bind_eq_ok] at h
      obtain ⟨q, -, hq⟩ := h
      obtain ⟨rest, -, rfl⟩ := map_eq_ok.mp hq
      exact ⟨rest, rfl⟩

theorem mem_states {p : PlaybackState} {moves : List Move} {visited : List PlaybackState}
    (h : s.states p moves = .ok visited) : p ∈ visited := by
  obtain ⟨rest, rfl⟩ := exists_cons_of_states h
  exact List.mem_cons_self

theorem lastStep_nonneg : 0 ≤ s.lastStep := Int.le_max_left ..

/-- A step of the playback is its own nearest position. -/
theorem clamp_eq_self {k : Int} (h0 : 0 ≤ k) (h1 : k ≤ s.lastStep) : s.clamp k = k := by
  rw [clamp, Int.max_eq_left h0, Int.min_eq_left h1]

variable {s} {p : PlaybackState} {seed : Nat}

/-- At the last step there is no step forward. -/
theorem forward_of_last (h : s.lastStep ≤ p.step) : s.forward p = .ok p := by
  rw [forward, if_pos h]

/-- Before the last step the cursor moves on and the grid drifts. -/
theorem forward_of_lt (hseed : s.seed = some (seed : Int)) (h0 : 0 ≤ p.step)
    (h1 : p.step < s.lastStep) :
    s.forward p = .ok { p with
      step := p.step + 1
      grid := drifted seed s.mutationProbability p.grid (p.step + 1) } := by
  have hclamp : s.clamp (p.step + 1) = p.step + 1 := s.clamp_eq_self (by omega) (by omega)
  rw [forward, if_neg (by omega)]
  simp only [hclamp, hseed, drift_eq_drifted]
  rfl

/-- A step backward leaves the grid as it is. -/
theorem backward_of_pos (h0 : 0 < p.step) (h1 : p.step ≤ s.lastStep) :
    s.backward p = { p with step := p.step - 1 } := by
  have hbefore : stepBefore p.step = p.step - 1 := Int.max_eq_right (by omega)
  rw [backward, if_neg (by omega), hbefore, s.clamp_eq_self (by omega) (by omega)]

end Simulator

/-! ### What a history leaves behind -/

/-- A state on the way from the start of a playback of `grid`, where the cursor has never been
above `top`. -/
structure Reached (s : Simulator) (seed : Nat) (grid : List Cell) (top : Int)
    (p : PlaybackState) : Prop where
  totalSteps : p.totalSteps = s.totalSteps
  step_nonneg : 0 ≤ p.step
  step_le : p.step ≤ top
  top_le : top ≤ s.lastStep
  /-- The steps that the grid has drifted through. -/
  drift : ∃ past : List Int, (∀ k ∈ past, 0 < k ∧ k ≤ top) ∧
    p.grid = driftThrough seed s.mutationProbability grid past

namespace Reached

variable {s : Simulator} {seed : Nat} {grid : List Cell} {top : Int} {p : PlaybackState}

/-- At the start the grid has not drifted at all. -/
theorem start (s : Simulator) (seed : Nat) (grid : List Cell) :
    Reached s seed grid 0 (s.start grid) where
  totalSteps := rfl
  step_nonneg := Int.le_refl 0
  step_le := Int.le_refl 0
  top_le := s.lastStep_nonneg
  drift := ⟨[], fun _ hk => absurd hk List.not_mem_nil, rfl⟩

/-- The cursor alone moves. -/
theorem withStep (h : Reached s seed grid top p) {k : Int} (h0 : 0 ≤ k) (h1 : k ≤ top) :
    Reached s seed grid top { p with step := k } :=
  ⟨h.totalSteps, h0, h1, h.top_le, h.drift⟩

/-- The cursor moves to a step and the grid drifts by it. -/
theorem advance (h : Reached s seed grid top p) {k : Int} (h0 : 0 < k) (h1 : k ≤ s.lastStep) :
    Reached s seed grid (max top k)
      { p with step := k, grid := drifted seed s.mutationProbability p.grid k } := by
  obtain ⟨past, hpast, hgrid⟩ := h.drift
  refine ⟨h.totalSteps, Int.le_of_lt h0, Int.le_max_right .., Int.max_le.2 ⟨h.top_le, h1⟩,
    past ++ [k], ?_, ?_⟩
  -- the new step is above zero, and it is the highest one or not above that
  · intro j hj
    rcases List.mem_append.mp hj with hj | hj
    · have := hpast j hj
      omega
    · have := List.mem_singleton.mp hj
      omega
  · rw [driftThrough_append, ← hgrid]
    rfl

/-- A movement leads on, and to a state of the same kind. -/
theorem move (hseed : s.seed = some (seed : Int)) (h : Reached s seed grid top p) (m : Move) :
    ∃ q, s.move p m = .ok q ∧ Reached s seed grid (max top q.step) q := by
  have hstep := h.step_le
  have htop := h.top_le
  -- only a step forward can raise the cursor
  cases m with
  | forward =>
      by_cases hlast : s.lastStep ≤ p.step
      · refine ⟨p, Simulator.forward_of_last hlast, ?_⟩
        rw [Int.max_eq_left hstep]
        exact h
      · have h0 := h.step_nonneg
        have hlt : p.step < s.lastStep := by omega
        refine ⟨_, Simulator.forward_of_lt hseed h0 hlt, ?_⟩
        exact h.advance (show 0 < p.step + 1 by omega) (show p.step + 1 ≤ s.lastStep by omega)
  | backward =>
      by_cases hfirst : p.step ≤ 0
      · refine ⟨p, by rw [Simulator.move, Simulator.backward, if_pos hfirst], ?_⟩
        rw [Int.max_eq_left hstep]
        exact h
      · refine ⟨_, congrArg Except.ok (Simulator.backward_of_pos (by omega) (by omega)), ?_⟩
        rw [Int.max_eq_left (by show p.step - 1 ≤ top; omega)]
        exact h.withStep (by omega) (by omega)
  | reset =>
      have h0 : 0 ≤ top := Int.le_trans h.step_nonneg hstep
      refine ⟨_, rfl, ?_⟩
      rw [Int.max_eq_left (show (s.reset p).step ≤ top from h0)]
      exact h.withStep (Int.le_refl 0) h0

/-- Movements lead on to a last state; `m` is the highest cursor on the way, if it was not higher
before. -/
theorem states (hseed : s.seed = some (seed : Int)) (h : Reached s seed grid top p)
    (moves : List Move) :
    ∃ visited q m, s.states p moves = .ok visited ∧ visited.getLast? = some q ∧
      Reached s seed grid m q ∧ top ≤ m ∧ (∀ r ∈ visited, r.step ≤ m) ∧
      (m = top ∨ ∃ r ∈ visited, r.step = m) := by
  induction moves generalizing top p with
  | nil => exact ⟨[p], p, top, rfl, rfl, h, Int.le_refl top, by simpa using h.step_le, .inl rfl⟩
  | cons move moves ih =>
      -- the induction goes on from the next state, with the highest cursor so far
      obtain ⟨p', hmove, h'⟩ := h.move hseed move
      obtain ⟨visited, q, m, hvisited, hlast, hq, hm, hle, hatt⟩ := ih h'
      have htop : top ≤ m := by omega
      refine ⟨p :: visited, q, m, ?_, ?_, hq, htop, ?_, ?_⟩
      · rw [Simulator.states_cons, hmove]
        show (s.states p' moves).map (p :: ·) = _
        rw [hvisited]
        rfl
      · rw [List.getLast?_cons, hlast]
        rfl
      · intro r hr
        rcases List.mem_cons.mp hr with rfl | hr
        · exact Int.le_trans h.step_le htop
        · exact hle r hr
      -- the highest cursor is that of the next state or of one behind it, unless it was before
      · rcases hatt with hatt | ⟨r, hr, hstep⟩
        · rcases Int.le_total top p'.step with hcase | hcase
          · right
            exact ⟨p', List.mem_cons_of_mem p (s.mem_states hvisited), by omega⟩
          · left
            omega
        · exact .inr ⟨r, List.mem_cons_of_mem p hr, hstep⟩

end Reached

/-! ### Steps forward -/

def stepsAfter (j : Int) : Nat → List Int
  | 0 => []
  | n + 1 => (j + 1) :: stepsAfter (j + 1) n

/-- The steps after a step are those up to as many further on. -/
theorem mem_stepsAfter {j k : Int} {n : Nat} : k ∈ stepsAfter j n ↔ j < k ∧ k ≤ j + n := by
  induction n generalizing j with
  | zero =>
      simp only [stepsAfter, List.not_mem_nil, false_iff]
      omega
  | succ n ih =>
      simp only [stepsAfter, List.mem_cons, ih]
      omega

/-- Steps forward, as far as there are steps, drift through each of them. -/
theorem run_forward {s : Simulator} {seed : Nat} (hseed : s.seed = some (seed : Int))
    {p : PlaybackState} {n : Nat} (h0 : 0 ≤ p.step) (hn : p.step + n ≤ s.lastStep) :
    s.run p (List.replicate n .forward) = .ok { p with
      step := p.step + n
      grid := driftThrough seed s.mutationProbability p.grid (stepsAfter p.step n) } := by
  induction n generalizing p with
  | zero =>
      show Except.ok p = _
      simp [stepsAfter]
  | succ n ih =>
      have hlt : p.step < s.lastStep := by omega
      rw [List.replicate_succ, Simulator.run_cons]
      show (s.forward p).bind _ = _
      rw [Simulator.forward_of_lt hseed h0 hlt]
      show s.run _ _ = _
      -- the other steps are after the first one
      rw [ih (show 0 ≤ p.step + 1 by omega) (show p.step + 1 + n ≤ s.lastStep by omega)]
      have hstep : p.step + 1 + (n : Int) = p.step + ((n + 1 : Nat) : Int) := by omega
      simp only [stepsAfter, driftThrough_cons, hstep]

/-- A reset and `m` steps forward forget every history whose cursor was never above `m`. -/
theorem Reached.replay {s : Simulator} {seed : Nat} {grid : List Cell} {q : PlaybackState} {m : Nat}
    (hseed : s.seed = some (seed : Int)) (h : Reached s seed grid m q) :
    s.run q (.reset :: List.replicate m .forward)
      = s.run (s.start grid) (List.replicate m .forward) := by
  obtain ⟨past, hpast, hgrid⟩ := h.drift
  have hm : (0 : Int) + m ≤ s.lastStep := by
    have := h.top_le
    omega
  have hreset : s.run (s.reset q) (List.replicate m .forward) = _ :=
    run_forward hseed (Int.le_refl 0) hm
  have hstart : s.run (s.start grid) (List.replicate m .forward) = _ :=
    run_forward hseed (Int.le_refl 0) hm
  -- the steps forward drift through everything that the history has drifted through
  have hmem : ∀ k ∈ past, k ∈ stepsAfter 0 m := by
    intro k hk
    have := hpast k hk
    exact mem_stepsAfter.2 (by omega)
  rw [Simulator.run_cons]
  show s.run (s.reset q) _ = _
  rw [hreset, hstart]
  simp only [Simulator.reset, Simulator.start, hgrid, h.totalSteps,
    driftThrough_forgets _ _ hmem]

/-- A replay is exact: after any movements from the start, a reset and as many steps forward as the
cursor has ever reached show what these steps show from the start. -/
theorem replay_exact (total : Int) (seed : Nat) (probability : Binary64) (grid : List Cell)
    (moves : List Move) :
    let s := Simulator.ofTotal total (some (seed : Int)) probability
    ∃ (visited : List PlaybackState) (q : PlaybackState) (m : Nat) (shown : PlaybackState),
      s.states (s.start grid) moves = .ok visited ∧ visited.getLast? = some q ∧
      ((∀ r ∈ visited, r.step ≤ m) ∧ ∃ r ∈ visited, r.step = m) ∧
      s.run q (.reset :: List.replicate m .forward) = .ok shown ∧
      s.run (s.start grid) (List.replicate m .forward) = .ok shown := by
  intro s
  have hseed : s.seed = some (seed : Int) := rfl
  obtain ⟨visited, q, m, hvisited, hlast, hq, h0, hle, hatt⟩ :=
    (Reached.start s seed grid).states hseed moves
  obtain ⟨n, rfl⟩ := Int.eq_ofNat_of_zero_le h0
  have hn : (0 : Int) + n ≤ s.lastStep := by
    have := hq.top_le
    omega
  refine ⟨visited, q, n, _, hvisited, hlast, ⟨hle, ?_⟩, (hq.replay hseed).trans ?_,
    run_forward hseed (Int.le_refl 0) hn⟩
  -- a cursor that has never been moved is at 0, where the start is
  · rcases hatt with hzero | hatt
    · exact ⟨s.start grid, s.mem_states hvisited, hzero.symm⟩
    · exact hatt
  · exact run_forward hseed (Int.le_refl 0) hn

/-! ### Back and forth -/

/-- Movements one after the other. -/
theorem Simulator.run_append (s : Simulator) (p : PlaybackState) (moves more : List Move) :
    s.run p (moves ++ more) = s.run p moves >>= fun q => s.run q more := by
  rw [run, List.foldlM_append]
  rfl

/-- Steps backward, as far as there are steps, move the cursor alone. -/
theorem run_backward {s : Simulator} {p : PlaybackState} {n : Nat} (hn : n ≤ p.step)
    (hlast : p.step ≤ s.lastStep) :
    s.run p (List.replicate n .backward) = .ok { p with step := p.step - n } := by
  induction n generalizing p with
  | zero =>
      show Except.ok p = _
      simp
  | succ n ih =>
      have hpos : 0 < p.step := by omega
      rw [List.replicate_succ, Simulator.run_cons]
      show s.run (s.backward p) _ = _
      rw [Simulator.backward_of_pos hpos hlast,
        ih (show (n : Int) ≤ p.step - 1 by omega) (show p.step - 1 ≤ s.lastStep by omega)]
      have hstep : p.step - 1 - (n : Int) = p.step - ((n + 1 : Nat) : Int) := by omega
      simp only [hstep]

/-- Steps forward show the same when they are taken back and taken again. -/
theorem run_forward_again {s : Simulator} {seed : Nat} (hseed : s.seed = some (seed : Int))
    {p : PlaybackState} {n : Nat} (h0 : 0 ≤ p.step) (hn : p.step + n ≤ s.lastStep) :
    ∃ q, s.run p (List.replicate n .forward) = .ok q ∧ q.step = p.step + n ∧
      s.run q (List.replicate n .backward ++ List.replicate n .forward) = .ok q := by
  have hagain := run_forward hseed (n := n) (p := { p with
    grid := driftThrough seed s.mutationProbability p.grid (stepsAfter p.step n) }) h0 hn
  -- the steps drift through themselves once more, and the second time forgets the first one
  simp only [driftThrough_forgets _ _ (fun _ hk => hk)] at hagain
  refine ⟨_, run_forward hseed h0 hn, rfl, ?_⟩
  rw [Simulator.run_append, run_backward (show (n : Int) ≤ p.step + n by omega) hn]
  have hback : p.step + n - n = p.step := by omega
  show s.run _ (List.replicate n .forward) = _
  simp only [hback]
  exact hagain

/-- A step forward, one back and one forward again show what the first one has shown, because a
grid that drifts twice with the same numbers is as it was after the first time. -/
theorem forward_backward_forward (total : Int) (seed : Nat) (probability : Binary64) :
    let s := Simulator.ofTotal total (some (seed : Int)) probability
    (∀ p : PlaybackState, 0 ≤ p.step → p.step < s.lastStep →
      ∃ q, s.forward p = .ok q ∧ q.step = p.step + 1 ∧ s.forward (s.backward q) = .ok q) ∧
    ∀ (grid : List Cell) (step : Int), ∃ later,
      drift grid step (some (seed : Int)) probability = .ok later ∧
      drift later step (some (seed : Int)) probability = .ok later := by
  intro s
  constructor
  · intro p h0 hlt
    have hseed : s.seed = some (seed : Int) := rfl
    obtain ⟨q, hforward, hstep, hagain⟩ := run_forward_again (n := 1) hseed h0 (by omega)
    -- this is the case of one step
    rw [List.replicate_one, Simulator.run_singleton] at hforward
    have hlast : s.run (s.backward q) [.forward] = .ok q := hagain
    rw [Simulator.run_singleton] at hlast
    exact ⟨q, hforward, hstep, hlast⟩
  · intro grid step
    refine ⟨drifted seed probability grid step, drift_eq_drifted .., ?_⟩
    rw [drift_eq_drifted, drifted_drifted]

/-- Back and forth in the middle of a playback, where every cell is drawn anew. -/
theorem forward_backward_forward_pair :
    let p : PlaybackState :=
      { step := 1
        totalSteps := 4
        grid := [⟨0, 0, .active, some "Node_0_0", none⟩, ⟨1, 0, .empty, none, none⟩] }
    let s := Simulator.ofTotal 4 (some 7) 1
    (0 ≤ p.step ∧ p.step < s.lastStep) ∧
      ∃ q, s.forward p = .ok q ∧ q.step = 2 ∧ s.forward (s.backward q) = .ok q := by
  intro p s
  have hstep : 0 ≤ p.step ∧ p.step < s.lastStep := by decide
  exact ⟨hstep, (forward_backward_forward 4 7 1).1 p hstep.1 hstep.2⟩

end CellAtlas
