import CellAtlas.Proofs.Grid.ReadingOrder
import CellAtlas.Proofs.Playback.Replay
import Mathlib.Data.List.Forall2

/-!
# What a playback can change

Movements change little. From whatever position, the cursor stays where it is or comes to lie among
the steps. The grid keeps its cells with their coordinates and notes, and of the labels it can only
lose some; no cell becomes empty and keeps its label.

`LeadsTo` says this of two states. A movement leads to its result (`move_leadsTo`), and `LeadsTo`
can be chained, so that it holds between any two states of a run, the earlier and the later one
(`states_leadsTo`). The main statement is `states_fading`.
-/

namespace CellAtlas

open CellAtlas.Random

namespace Cell

/-! ### Cells -/

/-- What can become of a cell: the state may be any other, and a label may get lost, but does not
come back. -/
structure FadesTo (c d : Cell) : Prop where
  x : d.x = c.x
  y : d.y = c.y
  note : d.note = c.note
  label : d.label = c.label ∨ d.label = none

/-- An empty cell has no label. -/
def Tidy (c : Cell) : Prop := c.state = .empty → c.label = none

instance (c : Cell) : Decidable c.Tidy := inferInstanceAs (Decidable (_ → _))

theorem FadesTo.refl (c : Cell) : c.FadesTo c := ⟨rfl, rfl, rfl, .inl rfl⟩

/-- What is lost on the way stays lost. -/
theorem FadesTo.trans {c d e : Cell} (h : c.FadesTo d) (h' : d.FadesTo e) : c.FadesTo e where
  x := h'.x.trans h.x
  y := h'.y.trans h.y
  note := h'.note.trans h.note
  label := by
    rcases h'.label with hlabel | hnone
    · rw [hlabel]
      exact h.label
    · exact .inr hnone

theorem redraw_fadesTo (c : Cell) (u : CellState) : c.FadesTo (c.redraw u) where
  x := rfl
  y := rfl
  note := rfl
  label := by by_cases hu : u = .empty <;> simp [redraw, hu]

/-- A cell that becomes empty loses its label. -/
theorem redraw_tidy (c : Cell) (u : CellState) : (c.redraw u).Tidy := by
  intro hu
  exact if_pos hu

variable (p : Binary64) (c : Cell) (d : Binary64 × CellState)

theorem drift_fadesTo : c.FadesTo (c.drift p d) := by
  by_cases hd : d.1 < p
  · simpa only [drift, if_pos hd] using c.redraw_fadesTo d.2
  · simpa only [drift, if_neg hd] using FadesTo.refl c

variable {c}

/-- A tidy cell stays tidy, redrawn or not. -/
theorem Tidy.drift (h : c.Tidy) : (c.drift p d).Tidy := by
  by_cases hd : d.1 < p
  · simpa only [Cell.drift, if_pos hd] using c.redraw_tidy d.2
  · simpa only [Cell.drift, if_neg hd] using h

end Cell

/-! ### Grids -/

/-- What can become of a grid, cell by cell. -/
def Fades (grid later : List Cell) : Prop := List.Forall₂ Cell.FadesTo grid later

theorem Fades.refl (grid : List Cell) : Fades grid grid :=
  List.forall₂_same.mpr fun c _ => Cell.FadesTo.refl c

theorem Fades.trans {g h k : List Cell} (hgh : Fades g h) (hhk : Fades h k) : Fades g k := by
  induction hgh generalizing k with
  | nil => exact hhk
  | cons hcd _ ih =>
      cases hhk with
      | cons hde hrest => exact .cons (hcd.trans hde) (ih hrest)

/-- The cells stay where they are. -/
theorem Fades.spots {g h : List Cell} (hgh : Fades g h) : h.map Cell.spot = g.map Cell.spot := by
  induction hgh with
  | nil => rfl
  | cons hcd _ ih =>
      rw [List.map_cons, List.map_cons, ih, Cell.spot, Cell.spot, hcd.x, hcd.y]

section Drift

variable {grid later : List Cell} {step : Int} {seed : Option Int} {probability : Binary64}
  (h : drift grid step seed probability = .ok later)

include h

/-- Whatever is drawn for the cells, they fade. -/
theorem fades_of_drift : Fades grid later := by
  obtain ⟨g, -, rfl⟩ := map_eq_ok.mp h
  apply List.forall₂_of_length_eq_of_get (by simp)
  intro i hgrid hlater
  rw [List.get_eq_getElem, List.get_eq_getElem, List.getElem_zipWith]
  exact Cell.drift_fadesTo ..

theorem tidy_of_drift (hgrid : ∀ c ∈ grid, c.Tidy) : ∀ c ∈ later, c.Tidy := by
  obtain ⟨g, -, rfl⟩ := map_eq_ok.mp h
  intro c hc
  obtain ⟨i, hi, rfl⟩ := List.getElem_of_mem hc
  rw [List.getElem_zipWith]
  apply Cell.Tidy.drift probability
  exact hgrid _ (List.getElem_mem _)

end Drift

/-! ### Movements -/

namespace Simulator

variable (s : Simulator)

/-- The cursor is at one of the steps, or at 0 if there are none. -/
def InRange (p : PlaybackState) : Prop := 0 ≤ p.step ∧ p.step ≤ s.lastStep

theorem clamp_nonneg (k : Int) : 0 ≤ s.clamp k :=
  Int.le_min.mpr ⟨Int.le_max_right .., s.lastStep_nonneg⟩

theorem clamp_le_lastStep (k : Int) : s.clamp k ≤ s.lastStep := Int.min_le_right ..

/-- What movements can make of a state. The cursor may be out of range as long as nothing moves. -/
structure LeadsTo (p q : PlaybackState) : Prop where
  cursor : q = p ∨ s.InRange q
  totalSteps : q.totalSteps = p.totalSteps
  fades : Fades p.grid q.grid
  tidy : (∀ c ∈ p.grid, c.Tidy) → ∀ c ∈ q.grid, c.Tidy

variable {s} {p q r : PlaybackState}

namespace LeadsTo

theorem refl (p : PlaybackState) : s.LeadsTo p p := ⟨.inl rfl, rfl, .refl p.grid, id⟩

theorem trans (h : s.LeadsTo p q) (h' : s.LeadsTo q r) : s.LeadsTo p r where
  cursor := by
    rcases h'.cursor with rfl | hr
    · exact h.cursor
    · exact .inr hr
  totalSteps := h'.totalSteps.trans h.totalSteps
  fades := h.fades.trans h'.fades
  tidy := h'.tidy ∘ h.tidy

theorem inRange (h : s.LeadsTo p q) (hp : s.InRange p) : s.InRange q := by
  rcases h.cursor with rfl | hq
  · exact hp
  · exact hq

/-- The cursor alone moves. -/
theorem withStep {k : Int} (h0 : 0 ≤ k) (h1 : k ≤ s.lastStep) :
    s.LeadsTo p { p with step := k } :=
  ⟨.inr ⟨h0, h1⟩, rfl, .refl p.grid, id⟩

/-- The cursor moves and the grid drifts. -/
theorem advance {k : Int} (h0 : 0 ≤ k) (h1 : k ≤ s.lastStep) {grid : List Cell}
    (h : drift p.grid k s.seed s.mutationProbability = .ok grid) :
    s.LeadsTo p { p with step := k, grid } :=
  ⟨.inr ⟨h0, h1⟩, rfl, fades_of_drift h, tidy_of_drift h⟩

end LeadsTo

/-- A movement leads to its result, from whatever position of the cursor. -/
theorem leadsTo_of_move {m : Move} (h : s.move p m = .ok q) : s.LeadsTo p q := by
  cases m with
  | forward =>
      -- at the last step a step forward does nothing
      by_cases hlast : s.lastStep ≤ p.step
      · cases (forward_of_last hlast).symm.trans h
        exact .refl p
      · rw [move, forward, if_neg hlast] at h
        obtain ⟨grid, hgrid, rfl⟩ := map_eq_ok.mp h
        exact .advance (s.clamp_nonneg (p.step + 1)) (s.clamp_le_lastStep _) hgrid
  | backward =>
      cases h
      by_cases hfirst : p.step ≤ 0
      · rw [backward, if_pos hfirst]
        exact .refl p
      · rw [backward, if_neg hfirst]
        exact .withStep (s.clamp_nonneg _) (s.clamp_le_lastStep _)
  | reset =>
      cases h
      exact .withStep (Int.le_refl 0) s.lastStep_nonneg

/-- With a seed that starts a generator every movement has a result. -/
theorem exists_move (hseed : ∃ g, Generator.ofSeed s.seed = .ok g) (p : PlaybackState) (m : Move) :
    ∃ q, s.move p m = .ok q := by
  cases m with
  | forward =>
      rw [move, forward]
      split
      · exact ⟨p, rfl⟩
      · obtain ⟨g, hg⟩ := Generator.exists_ofSeedAt hseed (s.clamp (p.step + 1))
        simp only [drift, hg]
        exact ⟨_, rfl⟩
  | backward => exact ⟨_, rfl⟩
  | reset => exact ⟨_, rfl⟩

theorem move_leadsTo (hseed : ∃ g, Generator.ofSeed s.seed = .ok g) (p : PlaybackState)
    (m : Move) : ∃ q, s.move p m = .ok q ∧ s.LeadsTo p q := by
  obtain ⟨q, hmove⟩ := exists_move hseed p m
  exact ⟨q, hmove, leadsTo_of_move hmove⟩

/-- Movements lead from each state on their way to all later ones. -/
theorem states_leadsTo (hseed : ∃ g, Generator.ofSeed s.seed = .ok g) (p : PlaybackState)
    (moves : List Move) :
    ∃ visited, s.states p moves = .ok visited ∧ visited.length = moves.length + 1 ∧
      (∀ q ∈ visited, s.LeadsTo p q) ∧ visited.Pairwise s.LeadsTo := by
  induction moves generalizing p with
  | nil => exact ⟨[p], rfl, rfl, by simpa using LeadsTo.refl p, List.pairwise_singleton _ p⟩
  | cons m moves ih =>
      obtain ⟨q, hmove, hpq⟩ := move_leadsTo hseed p m
      obtain ⟨visited, hvisited, hlength, hq, hpairwise⟩ := ih q
      -- the first state leads to the second one, and from there to all others
      have hp : ∀ r ∈ visited, s.LeadsTo p r := fun r hr => hpq.trans (hq r hr)
      refine ⟨p :: visited, ?_, congrArg (· + 1) hlength, ?_,
        List.pairwise_cons.mpr ⟨hp, hpairwise⟩⟩
      · rw [states_cons, hmove]
        show (s.states q moves).map (p :: ·) = _
        rw [hvisited]
        rfl
      · intro r hr
        rcases List.mem_cons.mp hr with rfl | hr
        · exact .refl r
        · exact hp r hr

end Simulator

/-- From the start on, the cursor stays among the steps and their number stays, the grid fades, and
it stays tidy if it was at first. Of two states on the way the later one shows what the earlier one
can fade to. And wherever the cursor is put, a movement leaves the state alone or brings the cursor
back among the steps. -/
theorem states_fading (total : Int) (seed : Nat) (probability : Binary64) (grid : List Cell)
    (hgrid : ∀ c ∈ grid, c.Tidy) (moves : List Move) :
    let s := Simulator.ofTotal total (some (seed : Int)) probability
    (∃ visited, s.states (s.start grid) moves = .ok visited ∧
      visited.length = moves.length + 1 ∧
      (∀ p ∈ visited, (0 ≤ p.step ∧ p.step ≤ max 0 (total - 1)) ∧ p.totalSteps = max 0 total ∧
        Fades grid p.grid ∧ ∀ c ∈ p.grid, c.Tidy) ∧
      visited.Pairwise fun p q => Fades p.grid q.grid) ∧
    ∀ (p : PlaybackState) (m : Move), ∃ q, s.move p m = .ok q ∧
      (q = p ∨ 0 ≤ q.step ∧ q.step ≤ max 0 (total - 1)) := by
  intro s
  have hseed : ∃ g, Generator.ofSeed s.seed = .ok g :=
    ⟨_, Generator.ofSeed_ok (Int.natCast_nonneg seed)⟩
  have htotal : (s.totalSteps : Int) = max 0 total := by
    show (total.toNat : Int) = _
    omega
  -- the bounds of the cursor, told by the number that was asked for
  have hlast : s.lastStep = max 0 (total - 1) := by
    rw [Simulator.lastStep, htotal]
    omega
  rw [← hlast, ← htotal]
  constructor
  · obtain ⟨visited, hvisited, hlength, hstart, hpairwise⟩ :=
      Simulator.states_leadsTo hseed (s.start grid) moves
    refine ⟨visited, hvisited, hlength, ?_, hpairwise.imp Simulator.LeadsTo.fades⟩
    intro p hp
    have h := hstart p hp
    exact ⟨h.inRange ⟨Int.le_refl 0, s.lastStep_nonneg⟩, h.totalSteps, h.fades, h.tidy hgrid⟩
  · intro p m
    obtain ⟨q, hmove, h⟩ := Simulator.move_leadsTo hseed p m
    exact ⟨q, hmove, h.cursor⟩

/-- A labelled cell beside an empty one, as a grid may look before a playback. -/
theorem states_fading_pair :
    let grid : List Cell := [⟨0, 0, .active, some "Node_0_0", some "active cell at (0, 0)"⟩,
      ⟨1, 0, .empty, none, none⟩]
    let s := Simulator.ofTotal 3 (some 7) 1
    (∀ c ∈ grid, c.Tidy) ∧
      ∃ visited, s.states (s.start grid) [.forward, .backward, .forward, .reset] = .ok visited ∧
        visited.Pairwise fun p q => Fades p.grid q.grid := by
  intro grid s
  have hgrid : ∀ c ∈ grid, c.Tidy := by decide
  obtain ⟨⟨visited, hvisited, -, -, hpairwise⟩, -⟩ :=
    states_fading 3 7 1 grid hgrid [.forward, .backward, .forward, .reset]
  exact ⟨hgrid, visited, hvisited, hpairwise⟩

end CellAtlas
