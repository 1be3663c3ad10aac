import CellAtlas.Proofs.Analysis.Builtin
import CellAtlas.Proofs.Analysis.Finished
import CellAtlas.Proofs.Playback.Texts

/-!
# Names that nobody has

A selection is a list of names, of which the empty one stands for all structures. A name that no
structure has is no reason to keep any (`select_adding`), so that it makes no difference beside
other names. Alone it does: the empty selection keeps all structures and the selection of that name
none (`select_adding_eq_iff`).

Only one of the built-in stages looks at the selection. What a run finds is what it finds for the
structures that this stage keeps (`run_selecting`), and where it keeps none the demo grid is drawn,
which shows itself to be no layout of structures by the note of any of its cells
(`demoGrid_ne_layout`). The main statement, `run_adding`, compares the runs of two selections that
differ in a name that nobody has.
-/

namespace CellAtlas

open Source

/-! ### Selections -/

/-- A selection has the names of another one and the name `u`. -/
def Adds (u : String) (names more : List String) : Prop := ∀ n, n ∈ more ↔ n = u ∨ n ∈ names

section

variable {names more : List String} {u : String}

theorem Adds.ne_nil (h : Adds u names more) : more ≠ [] :=
  List.ne_nil_of_mem ((h u).mpr (.inl rfl))

namespace Classified

variable {cs : List Classified}

theorem select_nil (cs : List Classified) : select cs [] = cs := rfl

theorem select_of_ne_nil (h : names ≠ []) (cs : List Classified) :
    select cs names = cs.filter fun c => names.contains c.name := by
  rw [select, if_neg (by simpa using h)]

/-- Added to a selection, a name that no structure has leaves those that the names select. -/
theorem select_adding (hadds : Adds u names more) (hunknown : ∀ c ∈ cs, c.name ≠ u) :
    select cs more = cs.filter fun c => names.contains c.name := by
  rw [select_of_ne_nil hadds.ne_nil]
  apply List.filter_congr
  intro c hc
  have hmem : c.name ∈ more ↔ c.name ∈ names :=
    (hadds c.name).trans (or_iff_right (hunknown c hc))
  rw [Bool.eq_iff_iff, List.contains_iff_mem, List.contains_iff_mem]
  exact hmem

/-- Beside other names a name that nobody has makes no difference. -/
theorem select_adding_of_ne_nil (hadds : Adds u names more) (hunknown : ∀ c ∈ cs, c.name ≠ u)
    (hne : names ≠ []) : select cs more = select cs names := by
  rw [select_adding hadds hunknown, select_of_ne_nil hne]

/-- Alone, a name that nobody has keeps nothing. -/
theorem select_only (hadds : Adds u [] more) (hunknown : ∀ c ∈ cs, c.name ≠ u) :
    select cs more = [] := by
  simp [select_adding hadds hunknown]

/-- A name that no structure has makes no difference exactly if it is not the only one, or there are
no structures. -/
theorem select_adding_eq_iff (hadds : Adds u names more) (hunknown : ∀ c ∈ cs, c.name ≠ u) :
    select cs more = select cs names ↔ names ≠ [] ∨ cs = [] := by
  by_cases hnames : names = []
  · subst hnames
    simp [select_only hadds hunknown, select_nil, eq_comm]
  · simp [select_adding_of_ne_nil hadds hunknown hnames, hnames]

end Classified

end

/-! ### Notes -/

/-- No note of a structure's cell is one of the demo grid. -/
theorem structureTexts_note_ne (name : String) (x y : Int) (s t : CellState) :
    (structureTexts name x y).note s ≠ (demoTexts x y).note t := by
  intro h
  have hcell : " cell at ".toList = " cell".toList ++ " at ".toList := rfl
  have hfront := congrArg String.toList h
  simp only [structureTexts, demoTexts, String.toList_append, hcell, ← List.append_assoc,
    List.append_cancel_right_eq] at hfront
  -- in front of the place one note ends with the name of a state and the other with "cell"
  have hlast := congrArg List.getLast? hfront
  rw [List.getLast?_append, List.getLast?_append] at hlast
  cases s <;> exact absurd hlast (by simp [CellState.name])

/-- The note of a cell that nobody claims is none that the demo grid has. -/
theorem Cell.Unclaimed.note_ne {c : Cell} (h : c.Unclaimed) (x y : Int) (t : CellState) :
    c.note ≠ some ((demoTexts x y).note t) := by
  intro hnote
  rw [h.note, Option.some_inj] at hnote
  have hhead := congrArg (List.head? ∘ String.toList) hnote
  cases t <;> exact absurd hhead (by simp [demoTexts, CellState.name])

/-- A layout of structures has no cell of a demo grid. -/
theorem note_ne_of_mem_layout [Machine] {structures : List Classified} {config : GridConfig}
    {seed : Option Int} {grid : List Cell} {c : Cell} (hne : structures ≠ [])
    (h : layout structures config seed = .ok grid) (hc : c ∈ grid) (t : CellState) :
    c.note ≠ some ((demoTexts c.x c.y).note t) := by
  rcases bears_of_mem_layout h hc with hunclaimed | ⟨texts, htexts, hbears⟩
  · exact hunclaimed.note_ne c.x c.y t
  · rw [textsAt, if_neg (by simpa using hne)] at htexts
    obtain ⟨s, -, rfl⟩ := List.mem_map.mp htexts
    rw [hbears.note, ne_eq, Option.some_inj]
    exact structureTexts_note_ne s.name c.x c.y c.state t

/-- The demo grid is the layout of no structures alone, wherever there is room for a cell. -/
theorem demoGrid_ne_layout [Machine] {structures : List Classified} {config : GridConfig}
    {seed : Option Int} {demo grid : List Cell} (hne : structures ≠ []) (hsize : config.size ≠ 0)
    (hdemo : demoGrid config seed = .ok demo) (h : layout structures config seed = .ok grid) :
    demo ≠ grid := by
  rintro rfl
  have hlength : demo.length = config.size := by
    rw [size_eq]
    exact length_of_readingOrder (demoGrid_spots hdemo)
  obtain ⟨c, hc⟩ := List.exists_mem_of_length_pos (by omega : 0 < demo.length)
  exact note_ne_of_mem_layout hne h hc c.state (bears_of_mem_demoGrid hdemo hc).note

/-! ### Stages -/

def Progress.selecting (p : Progress Analysis) (names : List String) : Progress Analysis :=
  { p with state := { p.state with selected := names } }

/-- The progress once the selection has kept the structures `mapped`. -/
def Progress.keeping (p : Progress Analysis) (mapped : List Classified) : Progress Analysis where
  toContext :=
    { p.toContext with state := { p.state with mapped } }.complete Builtin.selectStage.id
  called := p.called ++ [Builtin.selectStage.id]

/-- An action does not look at the selection and leaves it as it is. -/
def Action.IgnoresSelection (f : Action Analysis) : Prop :=
  ∀ (c : Context Analysis) (names : List String),
    f { c with state := { c.state with selected := names } }
      = { f c with state := { (f c).state with selected := names } }

/-- A stage that does not look at the selection runs as it would with another one. -/
theorem Stage.run_selecting {s : Stage Analysis} (h : Action.IgnoresSelection s.action)
    (p : Progress Analysis) (names : List String) :
    s.run (p.selecting names) = (s.run p).selecting names := by
  simp only [Stage.run, Stage.call, Progress.selecting]
  rw [h]
  cases (s.action p.toContext).failure <;> rfl

theorem runStages_selecting {stages : List (Stage Analysis)}
    (h : ∀ s ∈ stages, Action.IgnoresSelection s.action) (p : Progress Analysis)
    (names : List String) :
    runStages stages (p.selecting names) = (runStages stages p).selecting names := by
  induction stages generalizing p with
  | nil => rfl
  | cons s rest ih =>
      rw [List.forall_mem_cons] at h
      rw [runStages_cons, runStages_cons, Stage.run_selecting h.1, ih h.2]

namespace Builtin

/-- The stages before the selection. -/
def preparing : List (Stage Analysis) := [scanStage, classifyStage]

/-- The scanner and the classifier do not look at the selection. -/
theorem ignoresSelection_of_mem_preparing :
    ∀ s ∈ preparing, Action.IgnoresSelection s.action := by
  simp only [preparing, List.forall_mem_cons, List.not_mem_nil, false_implies, implies_true,
    and_true]
  refine ⟨fun c names => rfl, fun c names => ?_⟩
  simp only [classifyStage, Action.attempt, Action.onState]
  cases classify c.state.structures c.state.seed <;> rfl

section

variable [Machine]

def drawing : List (Stage Analysis) := [layoutStage, summaryStage, scriptStage]

theorem stages_eq : stages = preparing ++ selectStage :: drawing := rfl

/-- The stages that draw do not look at the selection. -/
theorem ignoresSelection_of_mem_drawing :
    ∀ s ∈ drawing, Action.IgnoresSelection s.action := by
  simp only [drawing, List.forall_mem_cons, List.not_mem_nil, false_implies, implies_true,
    and_true]
  refine ⟨fun c names => ?_, fun c names => ?_, fun c names => rfl⟩
  · simp only [layoutStage, Action.attempt, Action.onState]
    cases layout c.state.mapped c.state.gridConfig c.state.seed <;> rfl
  · simp only [summaryStage, Action.onState]
    cases CellAtlas.gridText c.state.grid <;> rfl

/-! ### Runs -/

/-- How far a run has come when it gets to the selection. -/
def prepared (a : Analysis) : Progress Analysis := runStages preparing { state := a }

/-- How a run ends if the selection keeps the structures `mapped`. -/
def drawn (p : Progress Analysis) (mapped : List Classified) : Progress Analysis :=
  runStages drawing (p.keeping mapped)

/-- A run depends on its selection through the structures that are kept. -/
theorem run_selecting (a : Analysis) (names : List String) :
    registry.run { a with selected := names } = .ok ((drawn (prepared a)
      (Classified.select (prepared a).state.classified names)).selecting names) := by
  -- the selection can be put off until its own stage, and again until the end
  have hprepared : runStages preparing { state := { a with selected := names } }
      = (prepared a).selecting names :=
    runStages_selecting ignoresSelection_of_mem_preparing { state := a } names
  have hselect (p : Progress Analysis) : selectStage.run (p.selecting names)
      = (p.keeping (Classified.select p.state.classified names)).selecting names := rfl
  rw [run_eq_ok, stages_eq, runStages_append, hprepared, runStages_cons, hselect,
    runStages_selecting ignoresSelection_of_mem_drawing, drawn]

/-- Up to the selection a run adds structures and what has been classified, and nothing else. -/
theorem prepared_state (a : Analysis) :
    ∃ classified, (prepared a).state = { a with structures := scan a.source, classified } ∧
      ∀ cs, classify (scan a.source) a.seed = .ok cs → classified = cs := by
  have hignores : ∀ s ∈ preparing, s.IgnoresRecord := by
    intro s hs
    exact ignoresRecord s (stages_eq ▸ List.mem_append_left _ hs)
  simp only [prepared, runStages_eq, state_contextAfter hignores]
  simp only [preparing, stateAfter_cons, Stage.work, scanStage, classifyStage, Action.attempt,
    Action.onState]
  cases classify (scan a.source) a.seed with
  | error e => exact ⟨a.classified, rfl, fun cs h => by cases h⟩
  | ok cs => exact ⟨cs, rfl, fun _ h => Except.ok.inj h⟩

/-- Behind the selection a run lays out what has been kept. -/
theorem drawn_state (p : Progress Analysis) (mapped : List Classified) :
    ∃ grid gridText, (drawn p mapped).state = { p.state with
        mapped, grid, gridText
        stats := some (.ofCells grid)
        steps := script p.state.structures } ∧
      ∀ cells, layout mapped p.state.gridConfig p.state.seed = .ok cells → grid = cells := by
  have hignores : ∀ s ∈ drawing, s.IgnoresRecord := by
    intro s hs
    exact ignoresRecord s (stages_eq ▸ List.mem_append_right _ (List.mem_cons_of_mem _ hs))
  simp only [drawn, runStages_eq, state_contextAfter hignores]
  exact stateAfter_drawing { p.state with mapped }

theorem drawn_classified (p : Progress Analysis) (mapped : List Classified) :
    (drawn p mapped).state.classified = p.state.classified := by
  obtain ⟨grid, gridText, hdrawn, -⟩ := drawn_state p mapped
  rw [hdrawn]

theorem drawn_mapped (p : Progress Analysis) (mapped : List Classified) :
    (drawn p mapped).state.mapped = mapped := by
  obtain ⟨grid, gridText, hdrawn, -⟩ := drawn_state p mapped
  rw [hdrawn]

section Layout

variable {a : Analysis} {seed : Int} (hseed : a.seed = some seed) (hnonneg : 0 ≤ seed)
  (hgrid : a.gridConfig.Accepted)

include hseed hnonneg hgrid

/-- A seed that is not negative and a grid that can be asked for have the kept structures laid
out. -/
theorem layout_of_drawn {mapped : List Classified}
    (hmapped : mapped ⊆ (prepared a).state.classified) :
    layout mapped a.gridConfig a.seed = .ok (drawn (prepared a) mapped).state.grid := by
  obtain ⟨classified, hprepared, hclassified⟩ := prepared_state a
  obtain ⟨cs, hclassify, -, hsized⟩ := classify_ok (scan a.source) hnonneg
  obtain ⟨grid, gridText, hdrawn, hlaid⟩ := drawn_state (prepared a) mapped
  rw [hprepared] at hmapped hdrawn hlaid
  obtain rfl := hclassified cs (hseed ▸ hclassify)
  -- classified with the default ranges, the structures have counts that can be laid out
  have hcounts : ∀ c ∈ mapped, 0 ≤ c.instanceCount ∧ c.instanceCount < 2 ^ 53 := by
    intro c hc
    have hbounds := (hsized c (hmapped hc)).instanceCount_bounds
    omega
  obtain ⟨cells, hcells⟩ := layout_ok hnonneg hgrid.size_le hcounts
  rw [hdrawn, hseed, hcells, hlaid cells (hseed ▸ hcells)]

/-- The grids of selections that keep all structures and none differ, if they have structures and
cells at all. -/
theorem grid_drawn_nil_eq_iff :
    (drawn (prepared a) []).state.grid
        = (drawn (prepared a) (prepared a).state.classified).state.grid ↔
      (prepared a).state.classified = [] ∨ a.gridConfig.size = 0 := by
  have hnone := layout_of_drawn hseed hnonneg hgrid (List.nil_subset _)
  have hall := layout_of_drawn hseed hnonneg hgrid (List.Subset.refl _)
  constructor
  · intro h
    -- with structures and cells, the demo grid would be a layout
    by_contra hneither
    rw [not_or] at hneither
    rw [layout_nil] at hnone
    exact demoGrid_ne_layout hneither.1 hneither.2 hnone hall h
  · rintro (hclassified | hsize)
    · rw [hclassified]
    · rw [layout, if_pos hsize] at hnone hall
      exact (Except.ok.inj hnone).symm.trans (Except.ok.inj hall)

end Layout

/-- A run classifies the structures of the source text if the seed is not negative. -/
theorem map_toStructure_of_run {a : Analysis} {seed : Int} (hseed : a.seed = some seed)
    (hnonneg : 0 ≤ seed) {p : Progress Analysis} (h : registry.run a = .ok p) :
    p.state.classified.map (·.toStructure) = scan a.source := by
  cases (run_selecting a a.selected).symm.trans h
  obtain ⟨classified, hprepared, hclassified⟩ := prepared_state a
  obtain ⟨cs, hclassify, hstructures, -⟩ := classify_ok (scan a.source) hnonneg
  rw [Progress.selecting, drawn_classified, hprepared, hclassified cs (hseed ▸ hclassify)]
  exact hstructures

/-- Two selections of which the second has a name more, one that no classified structure has. If the
first one has names then the runs differ in nothing else. If it is empty then it keeps all
structures and the other one none, so that the demo grid is drawn: the runs agree neither in what is
laid out nor in the grid, unless there are no structures, or no cells. -/
theorem run_adding (a : Analysis) {names more : List String} {u : String}
    (hadds : Adds u names more) :
    (∀ cs : List Classified, (∀ c ∈ cs, c.name ≠ u) →
      (Classified.select cs more = Classified.select cs names ↔ names ≠ [] ∨ cs = [])) ∧
    ∃ p q, registry.run { a with selected := names } = .ok p ∧
      registry.run { a with selected := more } = .ok q ∧
      q.state.classified = p.state.classified ∧
      ((∀ c ∈ p.state.classified, c.name ≠ u) →
        (names ≠ [] → q = p.selecting more) ∧
        (names = [] → p.state.mapped = p.state.classified ∧ q.state.mapped = []) ∧
        (q.state.mapped = p.state.mapped ↔ names ≠ [] ∨ p.state.classified = []) ∧
        ∀ seed, a.seed = some seed → 0 ≤ seed → a.gridConfig.Accepted →
          (names = [] → demoGrid a.gridConfig a.seed = .ok q.state.grid) ∧
          (q.state.grid = p.state.grid ↔
            names ≠ [] ∨ p.state.classified = [] ∨ a.gridConfig.size = 0)) := by
  refine ⟨fun cs => Classified.select_adding_eq_iff hadds, _, _, run_selecting a names,
    run_selecting a more, ?_, ?_⟩
  · simp only [Progress.selecting, drawn_classified]
  · simp only [Progress.selecting, drawn_classified, drawn_mapped]
    intro hunknown
    refine ⟨?_, ?_, Classified.select_adding_eq_iff hadds hunknown, ?_⟩
    · intro hnames
      rw [Classified.select_adding_of_ne_nil hadds hunknown hnames]
    · rintro rfl
      exact ⟨rfl, Classified.select_only hadds hunknown⟩
    · intro seed hseed hnonneg hgrid
      -- next to another name nothing changes; alone, it takes all structures out of the layout
      by_cases hnames : names = []
      · subst hnames
        rw [Classified.select_only hadds hunknown, Classified.select_nil]
        refine ⟨fun _ => ?_, ?_⟩
        · rw [← layout_nil]
          exact layout_of_drawn hseed hnonneg hgrid (List.nil_subset _)
        · rw [grid_drawn_nil_eq_iff hseed hnonneg hgrid]
          simp
      · rw [Classified.select_adding_of_ne_nil hadds hunknown hnames]
        simp [hnames]

end

/-- The empty selection lays out the only structure of a text, and a name that it does not have the
demo grid. -/
theorem run_adding_missing :
    let a := Analysis.ofSource {} pointText (some 7) (some {})
    Adds "Missing" [] ["Missing"] ∧ a.seed = some 7 ∧ (0 : Int) ≤ 7 ∧ a.gridConfig.Accepted ∧
    ∃ p q, registry.run { a with selected := [] } = .ok p ∧
      registry.run { a with selected := ["Missing"] } = .ok q ∧
      (∀ c ∈ p.state.classified, c.name ≠ "Missing") ∧
      p.state.mapped.map (·.name) = ["Point"] ∧ q.state.mapped = [] ∧
      demoGrid {} (some 7) = .ok q.state.grid ∧ q.state.grid ≠ p.state.grid := by
  intro a
  have hadds : Adds "Missing" [] ["Missing"] := by simp [Adds]
  obtain ⟨-, p, q, hp, hq, -, hrest⟩ := run_adding a hadds
  have hstructures := map_toStructure_of_run rfl (by decide : (0 : Int) ≤ 7) hp
  -- the text declares one structure, and classifying keeps its name
  have hnames : p.state.classified.map (·.name) = ["Point"] := by
    have hscan : (scan pointText).map (·.name) = ["Point"] := by decide +kernel
    rw [← hscan]
    exact (List.map_map ..).symm.trans (congrArg (List.map (·.name)) hstructures)
  have hunknown : ∀ c ∈ p.state.classified, c.name ≠ "Missing" := by
    intro c hc
    have hname : c.name ∈ ["Point"] := hnames ▸ List.mem_map_of_mem hc
    rw [List.mem_singleton.mp hname]
    decide
  obtain ⟨-, hempty, -, hgrid⟩ := hrest hunknown
  obtain ⟨hall, hnone⟩ := hempty rfl
  obtain ⟨hdemo, hiff⟩ := hgrid 7 rfl (by decide) GridConfig.accepted_default
  refine ⟨hadds, rfl, by decide, GridConfig.accepted_default, p, q, hp, hq, hunknown,
    hall ▸ hnames, hnone, hdemo rfl, fun hsame => ?_⟩
  rcases hiff.mp hsame with hnil | hnil | hsize
  · exact hnil rfl
  · rw [hnil] at hnames
    cases hnames
  · exact absurd hsize (by decide)

end Builtin

end CellAtlas
