import CellAtlas.Proofs.Grid.Bands
import CellAtlas.Proofs.Playback.Fading

/-!
# Texts in a playback

A layout writes the state, the label and the note of a cell together: the note names the state, and
there is a label unless the cell is empty. A playback draws states anew and writes no texts, so that
they fall behind (`forward_texts_behind`):

* the note goes on naming the state in which the cell was laid out,
* the label goes when the cell is shown empty, and does not come back.

`Cell.Recalls` says this of one cell. A movement keeps it (`Cell.Recalls.move`), and so does a run
(`Cell.Recalls.states`); the main statement, `states_texts`, is about all cells of a grid as it is
laid out.
-/

namespace CellAtlas

open CellAtlas.Random

/-! ### Texts of a layout -/

/-- The texts that a cell is given, its label and for every state a note. -/
structure CellTexts where
  label : String
  note : CellState → String

def demoTexts (x y : Int) : CellTexts where
  label := "Node_" ++ toString y ++ "_" ++ toString x
  note state := state.name ++ " cell at " ++ position x y

def structureTexts (name : String) (x y : Int) : CellTexts where
  label := name ++ "_" ++ toString x ++ "_" ++ toString y
  note state := name ++ " " ++ state.name ++ " at " ++ position x y

/-- The texts that a layout has for a place. -/
def textsAt (structures : List Classified) (x y : Int) : List CellTexts :=
  if structures.isEmpty then [demoTexts x y]
  else structures.map fun s => structureTexts s.name x y

/-- The texts of a cell go with its state. -/
structure Cell.Bears (c : Cell) (t : CellTexts) : Prop where
  label : c.label = labelUnlessEmpty c.state t.label
  note : c.note = some (t.note c.state)

section Layout

variable {structures : List Classified} {config : GridConfig} {seed : Option Int}
  {cellsPerInstance : Binary64} {cursor : Int} {g : Generator} {grid : List Cell} {c : Cell}

/-- Every painted cell comes from the brush. -/
theorem exists_of_mem_paintRows {brush : Brush} {ratios : Ratios} {width : Nat} {y : Int} {n : Nat}
    (h : c ∈ (paintRows brush ratios width y n g).1) : ∃ x y state, c = brush x y state := by
  induction n generalizing y g with
  | zero => exact absurd h List.not_mem_nil
  | succ n ih =>
      rcases List.mem_append.mp h with h | h
      · obtain ⟨x, hx, rfl⟩ := List.mem_mapIdx.mp h
        exact ⟨_, _, _, rfl⟩
      · exact ih h

/-- A cell of a structure bears texts of this structure. -/
theorem bears_of_mem_layStructures [Machine]
    (h : layStructures config cellsPerInstance cursor structures g = .ok grid) (hc : c ∈ grid) :
    ∃ s ∈ structures, c.Bears (structureTexts s.name c.x c.y) := by
  induction structures generalizing cursor g grid with
  | nil =>
      cases h
      exact absurd hc List.not_mem_nil
  | cons s rest ih =>
      rcases Int.lt_or_le cursor config.height with hlt | hle
      · obtain ⟨rows, painted, more, -, hpainted, hmore, rfl⟩ := (layStructures_cons_eq_ok hlt).mp h
        -- a cell of the first structure, or of the others
        rcases List.mem_append.mp hc with hc | hc
        · obtain ⟨-, rfl⟩ := paintStructure_eq_ok.mp hpainted
          obtain ⟨x, y, state, rfl⟩ := exists_of_mem_paintRows hc
          exact ⟨s, List.mem_cons_self, rfl, rfl⟩
        · obtain ⟨s', hs', hbears⟩ := ih hmore hc
          exact ⟨s', List.mem_cons_of_mem s hs', hbears⟩
      · rw [layStructures_of_le hle] at h
        cases h
        exact absurd hc List.not_mem_nil

/-- A cell of the demo grid bears the texts of its place. -/
theorem bears_of_mem_demoGrid [Machine] (h : demoGrid config seed = .ok grid) (hc : c ∈ grid) :
    c.Bears (demoTexts c.x c.y) := by
  unfold demoGrid at h
  split at h
  next =>
    cases h
    exact absurd hc List.not_mem_nil
  next =>
    simp only [bind_eq_ok, pure, Except.pure, Except.ok.injEq] at h
    obtain ⟨g, -, -, -, rfl⟩ := h
    obtain ⟨x, y, state, rfl⟩ := exists_of_mem_paintRows hc
    exact ⟨rfl, rfl⟩

/-- A layout gives each cell that somebody claims texts that go with its state. -/
theorem bears_of_mem_layout [Machine] (h : layout structures config seed = .ok grid)
    (hc : c ∈ grid) :
    c.Unclaimed ∨ ∃ t ∈ textsAt structures c.x c.y, c.Bears t := by
  by_cases hempty : structures = []
  · subst hempty
    rw [layout_nil] at h
    exact .inr ⟨demoTexts c.x c.y, by simp [textsAt], bears_of_mem_demoGrid h hc⟩
  · by_cases hsize : config.size = 0
    · rw [layout, if_pos hsize] at h
      cases h
      exact absurd hc List.not_mem_nil
    · obtain ⟨g, cellsPerInstance, laid, -, -, hlaid, rfl⟩ := (layout_eq_ok hsize hempty).mp h
      -- what has been laid out is claimed, and the filling is not
      rcases mem_fillUp hc with hc | ⟨p, -, -, rfl⟩
      · obtain ⟨s, hs, hbears⟩ := bears_of_mem_layStructures hlaid hc
        refine .inr ⟨_, ?_, hbears⟩
        simpa [textsAt, hempty] using ⟨s, hs, rfl⟩
      · exact .inl (fillerCell_unclaimed _ _)

end Layout

/-! ### Cells -/

/-- A cell as it was laid out, but for its state and for a label that is gone once the cell has been
empty. -/
structure Cell.Recalls (c : Cell) (t : CellTexts) (first : Cell) (emptied : Bool) : Prop where
  x : c.x = first.x
  y : c.y = first.y
  note : c.note = some (t.note first.state)
  label : c.label = if emptied then none else some t.label
  emptied_of_empty : c.state = .empty → emptied = true

namespace Cell

variable {c first : Cell} {t : CellTexts} {emptied : Bool}

/-- A cell that has just been laid out recalls its texts. -/
theorem Bears.recalls (h : c.Bears t) : c.Recalls t c (c.state == .empty) where
  x := rfl
  y := rfl
  note := h.note
  label := by simpa [labelUnlessEmpty] using h.label
  emptied_of_empty := by simp

/-- Redrawing takes the label away where the new state is the empty one. -/
theorem Recalls.redraw (h : c.Recalls t first emptied) (u : CellState) :
    (c.redraw u).Recalls t first (emptied || u == .empty) where
  x := h.x
  y := h.y
  note := h.note
  label := by
    by_cases hu : u = .empty
    · simp [Cell.redraw, hu]
    · simp [Cell.redraw, hu, h.label]
  emptied_of_empty := by
    intro hu
    have hu : u = .empty := hu
    simp [hu]

/-- A cell that is empty has been empty. -/
theorem Recalls.or_empty (h : c.Recalls t first emptied) :
    (emptied || c.state == .empty) = emptied := by
  by_cases hempty : c.state = .empty
  · simp [h.emptied_of_empty hempty]
  · simp [hempty]

theorem Recalls.drift (h : c.Recalls t first emptied) (p : Binary64) (d : Binary64 × CellState) :
    (c.drift p d).Recalls t first (emptied || (c.drift p d).state == .empty) := by
  by_cases hd : d.1 < p
  · rw [Cell.drift, if_pos hd]
    exact h.redraw d.2
  · rw [Cell.drift, if_neg hd, h.or_empty]
    exact h

end Cell

/-! ### Movements -/

/-- Whether a state shows the cell at a place empty. -/
def PlaybackState.showsEmpty (i : Nat) (p : PlaybackState) : Bool :=
  p.grid[i]?.any (·.state == .empty)

section Movements

variable {s : Simulator} {p q : PlaybackState} {m : Move} {moves : List Move}
  {visited : List PlaybackState} {i k : Nat} {c first : Cell} {t : CellTexts} {emptied : Bool}

theorem PlaybackState.showsEmpty_eq (h : p.grid[i]? = some c) :
    p.showsEmpty i = (c.state == .empty) := by
  rw [showsEmpty, h, Option.any_some]

namespace Simulator

/-- A movement leaves a cell alone or lets it drift. -/
theorem getElem?_of_move (h : s.move p m = .ok q) (hc : p.grid[i]? = some c) :
    q.grid[i]? = some c ∨ ∃ d, q.grid[i]? = some (c.drift s.mutationProbability d) := by
  cases m with
  | forward =>
      by_cases hlast : s.lastStep ≤ p.step
      · cases (forward_of_last hlast).symm.trans h
        exact .inl hc
      · rw [move, forward, if_neg hlast] at h
        obtain ⟨grid, hgrid, rfl⟩ := map_eq_ok.mp h
        obtain ⟨g, -, rfl⟩ := map_eq_ok.mp hgrid
        obtain ⟨hi, rfl⟩ := List.getElem?_eq_some_iff.mp hc
        -- there is a draw for every cell
        have hdraw : i < (driftDraws p.grid.length g).length := by simpa using hi
        right
        refine ⟨(driftDraws p.grid.length g)[i], ?_⟩
        simp [Cell.drift, hi]
  | backward =>
      cases h
      left
      rw [backward]
      split <;> exact hc
  | reset =>
      cases h
      exact .inl hc

end Simulator

namespace Cell.Recalls

theorem move (hrecalls : c.Recalls t first emptied) (h : s.move p m = .ok q)
    (hc : p.grid[i]? = some c) :
    ∃ d, q.grid[i]? = some d ∧ d.Recalls t first (emptied || d.state == .empty) := by
  rcases Simulator.getElem?_of_move h hc with hsame | ⟨d, hdrift⟩
  · exact ⟨c, hsame, by rwa [hrecalls.or_empty]⟩
  · exact ⟨_, hdrift, hrecalls.drift _ d⟩

/-- In every state on the way a cell recalls its texts, less the label once it has been shown
empty. -/
theorem states (hrecalls : c.Recalls t first emptied) (h : s.states p moves = .ok visited)
    (hc : p.grid[i]? = some c) (hk : visited[k]? = some q) :
    ∃ d, q.grid[i]? = some d ∧
      d.Recalls t first (emptied || (visited.take (k + 1)).any (·.showsEmpty i)) := by
  induction moves generalizing p c emptied visited k with
  | nil =>
      cases h
      obtain ⟨rfl, rfl⟩ : k = 0 ∧ p = q := by simpa [List.getElem?_singleton] using hk
      refine ⟨c, hc, ?_⟩
      simpa [PlaybackState.showsEmpty_eq hc, hrecalls.or_empty] using hrecalls
  | cons m moves ih =>
      rw [Simulator.states_cons, bind_eq_ok] at h
      obtain ⟨p', hmove, h⟩ := h
      obtain ⟨rest, hrest, rfl⟩ := map_eq_ok.mp h
      -- the first state shows the cell itself
      cases k with
      | zero =>
          cases hk
          refine ⟨c, hc, ?_⟩
          simpa [PlaybackState.showsEmpty_eq hc, hrecalls.or_empty] using hrecalls
      | succ k =>
          obtain ⟨c', hc', hrecalls'⟩ := hrecalls.move hmove hc
          obtain ⟨d, hd, hd'⟩ := ih hrecalls' hrest hc' hk
          refine ⟨d, hd, ?_⟩
          -- what this state shows is known already, and what the next one shows counts twice
          obtain ⟨rest, rfl⟩ := Simulator.exists_cons_of_states hrest
          simpa [PlaybackState.showsEmpty_eq hc, PlaybackState.showsEmpty_eq hc', ← Bool.or_assoc,
            hrecalls.or_empty] using hd'

end Cell.Recalls

end Movements

/-- From a grid as it was laid out, every sequence of movements leads through states in which the
cells that somebody claims are where they were. Their notes name the states in which they were laid
out. They have their labels as long as they have not been shown empty, and none from then on. -/
theorem states_texts [Machine] {structures : List Classified} {config : GridConfig}
    {seed : Option Int} {grid : List Cell}
    (hgrid : layout structures config seed = .ok grid ∨
      structures = [] ∧ demoGrid config seed = .ok grid)
    (s : Simulator) (hseed : ∀ n ∈ s.seed, 0 ≤ n) (moves : List Move) :
    ∃ visited, s.states (s.start grid) moves = .ok visited ∧
      visited.length = moves.length + 1 ∧
      ∀ (i : Nat) (c : Cell), grid[i]? = some c → c.Unclaimed ∨
        ∃ t ∈ textsAt structures c.x c.y, c.Bears t ∧
          ∀ (k : Nat) (p : PlaybackState), visited[k]? = some p →
            ∃ d, p.grid[i]? = some d ∧ d.x = c.x ∧ d.y = c.y ∧
              d.note = some (t.note c.state) ∧
              d.label = if (visited.take (k + 1)).any (·.showsEmpty i) then none
                else some t.label := by
  have hlaid : layout structures config seed = .ok grid := by
    rcases hgrid with hlaid | ⟨rfl, hdemo⟩
    · exact hlaid
    · rwa [layout_nil]
  have hgenerator : ∃ g, Generator.ofSeed s.seed = .ok g := by
    cases hs : s.seed with
    | none => exact ⟨_, rfl⟩
    | some n => exact ⟨_, Generator.ofSeed_ok (hseed n hs)⟩
  obtain ⟨visited, hvisited, hlength, -⟩ :=
    Simulator.states_leadsTo hgenerator (s.start grid) moves
  refine ⟨visited, hvisited, hlength, fun i c hc => ?_⟩
  rcases bears_of_mem_layout hlaid (List.mem_of_getElem? hc) with hunclaimed | ⟨t, ht, hbears⟩
  · exact .inl hunclaimed
  · refine .inr ⟨t, ht, hbears, fun k p hk => ?_⟩
    obtain ⟨d, hd, hrecalls⟩ := hbears.recalls.states hvisited hc hk
    -- whether the first state shows the cell empty has been counted twice
    have hstart : (s.start grid).showsEmpty i = (c.state == .empty) :=
      PlaybackState.showsEmpty_eq hc
    obtain ⟨rest, rfl⟩ := Simulator.exists_cons_of_states hvisited
    refine ⟨d, hd, hrecalls.x, hrecalls.y, hrecalls.note, ?_⟩
    have hlabel := hrecalls.label
    rwa [List.take_succ_cons, List.any_cons, hstart, ← Bool.or_assoc, Bool.or_self, ← hstart,
      ← List.any_cons, ← List.take_succ_cons] at hlabel

/-- Two cells of one structure, of which one is empty from the first. -/
theorem states_texts_pair :
    let structures : List Classified := [{ name := "Node" }]
    let grid : List Cell :=
      [⟨0, 0, .active, some "Node_0_0", some "Node active at (0, 0)"⟩,
       ⟨1, 0, .empty, none, some "Node empty at (1, 0)"⟩]
    let s := Simulator.ofTotal 3 (some 7) 1
    (layout structures { width := 2, height := 1 } (some 1) = .ok grid ∨
      structures = [] ∧ demoGrid { width := 2, height := 1 } (some 1) = .ok grid) ∧
    (∀ n ∈ s.seed, 0 ≤ n) ∧
    ∃ visited, s.states (s.start grid) [.forward, .reset, .forward] = .ok visited ∧
      ∀ (k : Nat) (p : PlaybackState), visited[k]? = some p →
        ∃ d, p.grid[1]? = some d ∧ d.note = some "Node empty at (1, 0)" ∧
          d.label = if (visited.take (k + 1)).any (·.showsEmpty 1) then none
            else some "Node_1_0" := by
  intro structures grid s
  have hlayout : layout structures { width := 2, height := 1 } (some 1) = .ok grid := by
    decide +kernel
  have hseed : ∀ n ∈ s.seed, 0 ≤ n := by decide
  obtain ⟨visited, hvisited, -, hcells⟩ :=
    states_texts (.inl hlayout) s hseed [.forward, .reset, .forward]
  refine ⟨.inl hlayout, hseed, visited, hvisited, fun k p hk => ?_⟩
  rcases hcells 1 _ rfl with hunclaimed | ⟨t, ht, -, hshown⟩
  · exact absurd hunclaimed.note (by decide +kernel)
  · obtain rfl := List.mem_singleton.mp ht
    obtain ⟨d, hd, -, -, hnote, hlabel⟩ := hshown k p hk
    exact ⟨d, hd, hnote, hlabel⟩

/-- A cell of the demo grid that is empty at first and is drawn anew has no label then, and its note
does not name its state. -/
theorem forward_texts_behind :
    let s := Simulator.ofTotal 2 (some 7) 1
    let c : Cell := ⟨0, 0, .empty, none, some "empty cell at (0, 0)"⟩
    let d : Cell := { c with state := .active }
    demoGrid { width := 1, height := 1, activeRatio := 0, droppedRatio := 0, pointerRatio := 0 }
        (some 7) = .ok [c] ∧
      s.states (s.start [c]) [.forward] = .ok [⟨0, 2, [c]⟩, ⟨1, 2, [d]⟩] ∧
      c.Bears (demoTexts 0 0) ∧ d.state ≠ .empty ∧ d.label = none ∧
      d.note ≠ some ((demoTexts 0 0).note d.state) := by
  intro s c d
  refine ⟨by decide +kernel, by decide +kernel, ⟨rfl, ?_⟩, by decide, rfl, ?_⟩
  · decide +kernel
  · decide +kernel

end CellAtlas
