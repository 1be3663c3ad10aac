import CellAtlas.Proofs.Analysis.Builtin
import CellAtlas.Proofs.Number.Conversion

/-!
# Mapping structures of any size

The instance counts of a request have no upper bound. Their sum is exact and the quotient with the
size of the grid is rounded once, but a count is converted before it is multiplied, and a conversion
fails from `Binary64.conversionLimit` on. Nothing else can fail: a count that is converted is not
above the sum of the counts, so that its product with the share of one instance stays near the size
of the grid (`rowsFor_of_convertible`).

The count of a structure is only looked at while there are rows left (`reached`). Hence a layout of
what can be asked for has all its cells if every structure that is reached has a count below the
limit, and fails for the size of an integer otherwise (`mapping_outcome`).
-/

namespace CellAtlas

open CellAtlas.Random

/-- The instance count can be converted. -/
def Classified.Convertible (c : Classified) : Prop := c.instanceCount < Binary64.conversionLimit

instance (c : Classified) : Decidable c.Convertible := inferInstanceAs (Decidable (_ < _))

/-- The structures that are asked for their rows from row `cursor` on. After one that cannot tell
its rows no other is asked. -/
def reachedFrom (config : GridConfig) (cellsPerInstance : Binary64) :
    Int → List Classified → List Classified
  | _, [] => []
  | cursor, c :: rest =>
    if config.height ≤ cursor then []
    else c :: (rowsFor c.instanceCount cellsPerInstance config.width).toOption.elim [] fun rows =>
      reachedFrom config cellsPerInstance (cursor + rows) rest

/-- The structures that a layout asks for their rows. -/
def reached (config : GridConfig) (structures : List Classified) : List Classified :=
  if config.size = 0 then []
  else (instanceShare config structures).toOption.elim [] fun cellsPerInstance =>
    reachedFrom config cellsPerInstance 0 structures

/-- A layout has as many cells as the grid, unless it reaches a count that is too large. -/
def MapsOrOverflows [Machine] (structures : List Classified) (config : GridConfig) (seed : Int) :
    Prop :=
  ((∀ c ∈ reached config structures, c.Convertible) ∧
    ∃ cells, layout structures config (some seed) = .ok cells ∧
      (cells.length : Int) = config.width * config.height) ∨
  ((∃ c ∈ reached config structures, ¬ c.Convertible) ∧
    layout structures config (some seed) = .error (.number .integerTooLarge))

section Rows

variable {config : GridConfig} {structures : List Classified}

/-- A count that is converted gives a number of rows, as it is not above the total. -/
theorem rowsFor_of_lt {count total width size units : Nat} {share : Binary64}
    (hcount : count < Binary64.conversionLimit) (hle : count ≤ total)
    (hshare : share.Measures false units)
    (hunits : units * total ≤ 2 * (size * Binary64.unitsInOne)) (hsize : size ≤ 2 ^ 18)
    (hpos : 0 < width) (hwidth : width < 2 ^ 53) :
    ∃ rows, rowsFor count share width = .ok rows := by
  obtain ⟨n, countUnits, hn, hcountUnits, hcountLe⟩ := Binary64.fromInt_of_lt hcount
  obtain ⟨w, hw, hwunits⟩ := Binary64.fromInt_natCast hwidth
  -- a count is at most the total, so that its share of the cells is at most twice their number
  have hproductUnits : countUnits * units
      ≤ 4 * size * (Binary64.unitsInOne * Binary64.unitsInOne) :=
    calc countUnits * units
        ≤ 2 * (count * Binary64.unitsInOne) * units := Nat.mul_le_mul_right _ hcountLe
      _ ≤ 2 * (total * Binary64.unitsInOne) * units := by gcongr
      _ = 2 * Binary64.unitsInOne * (units * total) := by ring
      _ ≤ 2 * Binary64.unitsInOne * (2 * (size * Binary64.unitsInOne)) :=
        Nat.mul_le_mul_left _ hunits
      _ = 4 * size * (Binary64.unitsInOne * Binary64.unitsInOne) := by ring
  have hproduct := hcountUnits.mul_within hshare hproductUnits
    (show 4 * size < 2 ^ 34 by omega) (by decide)
  -- dividing by a width of at least one does not make it larger
  have hone : Binary64.unitsInOne ≤ width * Binary64.unitsInOne := Nat.le_mul_of_pos_left _ hpos
  have hquotient := hproduct.div hwunits hone (show 2 * (4 * size) < 2 ^ 35 by omega) (by decide)
  obtain ⟨rows, hrows⟩ := hquotient.ceil
  exact ⟨rows, rowsFor_eq_ok.mpr ⟨n, w, hn, hw, by omega, hrows⟩⟩

/-- A count that is not converted gives an error. -/
theorem rowsFor_of_not_convertible {c : Classified} (h : ¬ c.Convertible) (share : Binary64)
    (width : Int) : rowsFor c.instanceCount share width = .error .integerTooLarge := by
  have hle : Binary64.conversionLimit ≤ c.instanceCount.toNat := by
    unfold Classified.Convertible at h
    omega
  have hnat : c.instanceCount = (c.instanceCount.toNat : Int) := by
    unfold Classified.Convertible at h
    omega
  rw [rowsFor, hnat, Binary64.fromInt_of_le hle]
  rfl

/-- There is a share of one instance, and with it every structure whose count is converted can tell
its rows. -/
theorem rowsFor_of_convertible (hsize : config.size ≤ 2 ^ 18) (hwidth : 0 < config.width)
    (hheight : 0 < config.height) (hcounts : ∀ c ∈ structures, 0 ≤ c.instanceCount) :
    ∃ share, instanceShare config structures = .ok share ∧
      ∀ c ∈ structures, c.Convertible →
        ∃ rows, rowsFor c.instanceCount share config.width = .ok rows := by
  obtain ⟨total, htotal, hpos, hle⟩ := exists_total hcounts
  have hlt : config.size < 2 ^ 32 := by omega
  obtain ⟨share, units, hshare, hmeasures, hunits⟩ :=
    Binary64.fromQuotient_measures hpos hlt (by decide)
  rw [← htotal] at hshare
  refine ⟨share, hshare, fun c hc hconvertible => ?_⟩
  -- a row is not longer than the grid is large
  have hwidthLe : config.width.toNat ≤ 2 ^ 18 := by
    rw [size_eq] at hsize
    exact Nat.le_trans (Nat.le_mul_of_pos_left _ (by omega)) hsize
  have hcount := hcounts c hc
  have hcountLe := hle c hc
  unfold Classified.Convertible at hconvertible
  have hrow : ∃ rows, rowsFor c.instanceCount.toNat share config.width.toNat = .ok rows :=
    rowsFor_of_lt (by omega) (by omega) hmeasures hunits hsize (by omega) (by omega)
  rwa [Int.toNat_of_nonneg hcount, Int.toNat_of_nonneg hwidth.le] at hrow

end Rows

section Layout

variable {config : GridConfig} {structures : List Classified} {share : Binary64}

/-- Below the grid no structure is asked for its rows. -/
theorem reachedFrom_of_le {cursor : Int} (h : config.height ≤ cursor)
    (structures : List Classified) : reachedFrom config share cursor structures = [] := by
  cases structures with
  | nil => rfl
  | cons c rest => rw [reachedFrom, if_pos h]

/-- A structure that can tell its rows hands on to the next one. -/
theorem reachedFrom_of_ok {cursor rows : Int} {c : Classified} (h : cursor < config.height)
    (hrows : rowsFor c.instanceCount share config.width = .ok rows) (rest : List Classified) :
    reachedFrom config share cursor (c :: rest)
      = c :: reachedFrom config share (cursor + rows) rest := by
  rw [reachedFrom, if_neg (Int.not_le.mpr h), hrows]
  rfl

theorem reachedFrom_of_error {cursor : Int} {c : Classified} {e : NumberError}
    (h : cursor < config.height)
    (hrows : rowsFor c.instanceCount share config.width = .error e) (rest : List Classified) :
    reachedFrom config share cursor (c :: rest) = [c] := by
  rw [reachedFrom, if_neg (Int.not_le.mpr h), hrows]
  rfl

theorem reached_of_ok (h : config.size ≠ 0) (hshare : instanceShare config structures = .ok share) :
    reached config structures = reachedFrom config share 0 structures := by
  rw [reached, if_neg h, hshare]
  rfl

variable [Machine]

/-- From any row on, the structures are laid out if the counts of those that are reached are
converted, and else the first one that is not converted is the error. -/
theorem layStructures_outcome (hroom : hasRoom .float64 [config.width] = .ok ())
    (hrows : ∀ c ∈ structures, c.Convertible →
      ∃ rows, rowsFor c.instanceCount share config.width = .ok rows) (cursor : Int)
    (g : Generator) :
    ((∀ c ∈ reachedFrom config share cursor structures, c.Convertible) ∧
      ∃ cells, layStructures config share cursor structures g = .ok cells) ∨
    ((∃ c ∈ reachedFrom config share cursor structures, ¬ c.Convertible) ∧
      layStructures config share cursor structures g = .error (.number .integerTooLarge)) := by
  induction structures generalizing cursor g with
  | nil => exact .inl ⟨fun _ hc => absurd hc List.not_mem_nil, [], rfl⟩
  | cons c rest ih =>
      -- the same steps as the layout takes: past the last row, a count that is too large, or the
      -- rest
      rcases Int.lt_or_le cursor config.height with hlt | hle
      · by_cases hc : c.Convertible
        · obtain ⟨rows, hrow⟩ := hrows c List.mem_cons_self hc
          rw [reachedFrom_of_ok hlt hrow]
          -- there is room for a row, so that painting cannot fail
          have hpainted : ∃ painted, paintStructure config c cursor
              (min (cursor + rows) config.height - cursor).toNat g = .ok painted :=
            ⟨_, paintStructure_eq_ok.mpr ⟨fun _ => hroom, rfl⟩⟩
          obtain ⟨painted, hpainted⟩ := hpainted
          rcases ih (fun d hd => hrows d (List.mem_cons_of_mem c hd)) (cursor + rows) painted.2 with
            ⟨hall, more, hmore⟩ | ⟨⟨d, hd, hlarge⟩, herror⟩
          · left
            refine ⟨List.forall_mem_cons.mpr ⟨hc, hall⟩, painted.1 ++ more, ?_⟩
            exact (layStructures_cons_eq_ok hlt).mpr
              ⟨rows, painted, more, hrow, hpainted, hmore, rfl⟩
          · right
            refine ⟨⟨d, List.mem_cons_of_mem c hd, hlarge⟩, ?_⟩
            rw [layStructures, if_neg (Int.not_le.mpr hlt), hrow]
            show (Except.mapError LayoutError.room _).bind _ = _
            rw [hpainted]
            show (layStructures config share (cursor + rows) rest painted.2).bind _ = _
            rw [herror]
            rfl
        · have herror := rowsFor_of_not_convertible hc share config.width
          right
          refine ⟨⟨c, ?_, hc⟩, ?_⟩
          · rw [reachedFrom_of_error hlt herror]
            exact List.mem_singleton_self c
          · rw [layStructures, if_neg (Int.not_le.mpr hlt), herror]
            rfl
      · rw [reachedFrom_of_le hle]
        exact .inl ⟨fun _ hc => absurd hc List.not_mem_nil, [], layStructures_of_le hle _ g⟩

theorem length_of_layout {seed : Option Int} {cells : List Cell} (hconfig : config.Accepted)
    (hcounts : ∀ c ∈ structures, 0 ≤ c.instanceCount)
    (h : layout structures config seed = .ok cells) :
    (cells.length : Int) = config.width * config.height := by
  rw [length_of_readingOrder (layout_spots hcounts h), ← hconfig.size_eq_mul, size_eq]

/-- With a generator and a share a layout is what the structures lay out, filled up. -/
theorem layout_eq_map {seed : Option Int} {g : Generator} (hempty : config.size ≠ 0)
    (hne : structures ≠ []) (hg : Generator.ofSeed seed = .ok g)
    (hshare : instanceShare config structures = .ok share) :
    layout structures config seed = (layStructures config share 0 structures g).map
      (fillUp config) := by
  have hnonempty : ¬ structures.isEmpty = true := by simpa using hne
  unfold instanceShare at hshare
  dsimp only at hshare
  rw [layout, if_neg hempty, if_neg hnonempty, hg]
  dsimp only
  rw [hshare]
  show (layStructures config share 0 structures g).bind (fun laid => .ok (fillUp config laid)) = _
  cases layStructures config share 0 structures g <;> rfl

/-- What can become of a layout on a grid that can be asked for. -/
theorem mapsOrOverflows {seed : Int} (hconfig : config.Accepted)
    (hcounts : ∀ c ∈ structures, 0 ≤ c.instanceCount) (hseed : 0 ≤ seed) :
    MapsOrOverflows structures config seed := by
  have hok : (∃ cells, layout structures config (some seed) = .ok cells) →
      ∃ cells, layout structures config (some seed) = .ok cells ∧
        (cells.length : Int) = config.width * config.height := by
    rintro ⟨cells, hcells⟩
    exact ⟨cells, hcells, length_of_layout hconfig hcounts hcells⟩
  -- without cells, or without structures, no count is looked at
  by_cases hempty : config.size = 0
  · have hreached : reached config structures = [] := if_pos hempty
    refine .inl ⟨?_, hok ⟨[], by rw [layout, if_pos hempty]⟩⟩
    rw [hreached]
    exact fun _ hc => absurd hc List.not_mem_nil
  obtain ⟨hwidth, hheight⟩ := pos_of_size_ne_zero hempty
  obtain ⟨share, hshare, hrows⟩ := rowsFor_of_convertible hconfig.size_le hwidth hheight hcounts
  rw [MapsOrOverflows, reached_of_ok hempty hshare]
  by_cases hne : structures = []
  · subst hne
    refine .inl ⟨fun _ hc => absurd hc List.not_mem_nil, hok ?_⟩
    rw [layout, if_neg hempty, if_pos List.isEmpty_nil]
    exact demoGrid_ok hseed hconfig.size_le
  have hwidthLe := hconfig.width_le
  have hroom := hasRoom_row hwidth.le (show config.width ≤ 512 * 512 by omega)
  have hg := Generator.ofSeed_ok hseed
  have hlayout := layout_eq_map hempty hne hg hshare
  rcases layStructures_outcome hroom hrows 0 (.ofWords (wordsOf seed.toNat)) with
    ⟨hall, laid, hlaid⟩ | ⟨hlarge, herror⟩
  · rw [hlaid] at hlayout
    exact .inl ⟨hall, hok ⟨_, hlayout⟩⟩
  · rw [herror] at hlayout
    exact .inr ⟨hlarge, hlayout⟩

end Layout

/-- Structures of any size on a grid that can be asked for, in particular those of a request that
passes its check, with its seed or else the configured one: there is a cell for every place of the
grid, unless a count that is reached is too large to be converted. -/
theorem mapping_outcome [Machine] (configured : Int) (hconfigured : 0 ≤ configured) :
    (∀ (structures : List Classified) (config : GridConfig) (seed : Int),
      (∀ c ∈ structures, 0 ≤ c.instanceCount) → config.Accepted → 0 ≤ seed →
        MapsOrOverflows structures config seed) ∧
    ∀ (j : Json) (r : GridRequest), Wire.gridRequest j = .valid r →
      MapsOrOverflows (r.structures.map (·.toClassified)) r.config (r.seed.getD configured) := by
  constructor
  · intro structures config seed hcounts hconfig hseed
    exact mapsOrOverflows hconfig hcounts hseed
  · intro j r hr
    have haccepted := Wire.gridRequest_accepted hr
    apply mapsOrOverflows haccepted.config
    · intro c hc
      obtain ⟨s, hs, rfl⟩ := List.mem_map.mp hc
      exact (haccepted.structures s hs).instanceCount_nonneg
    · cases hseed : r.seed with
      | none => exact hconfigured
      | some n => exact haccepted.seed n hseed

/-- A request with a count of 2^1024 passes its check and cannot be laid out. -/
theorem mapping_outcome_overflow :
    let j : Json := .obj [
      ("structures", .arr [.obj [("name", .str "Node"), ("instanceCount", .int (2 ^ 1024))]]),
      ("config", .obj [("width", .int 1), ("height", .int 1)])]
    let r : GridRequest :=
      { structures := [{ name := "Node", instanceCount := 2 ^ 1024 }]
        config := { width := 1, height := 1 } }
    (0 : Int) ≤ 7 ∧ Wire.gridRequest j = .valid r ∧
      layout (r.structures.map (·.toClassified)) r.config (some 7)
        = .error (.number .integerTooLarge) := by
  intro j r
  have hr : Wire.gridRequest j = .valid r := by
    rw [← Wire.Checked.value?_eq_some]
    decide +kernel
  -- the first structure is always asked for its rows
  have hreached : reached r.config (r.structures.map (·.toClassified))
      = r.structures.map (·.toClassified) := by
    decide +kernel
  refine ⟨by decide, hr, ?_⟩
  rcases (mapping_outcome 7 (by decide)).2 j r hr with ⟨hall, -⟩ | ⟨-, herror⟩
  · rw [hreached] at hall
    have hlarge : ¬ ∀ c ∈ r.structures.map (·.toClassified), c.Convertible := by decide +kernel
    exact absurd hall hlarge
  · exact herror

end CellAtlas
