import CellAtlas.Classification.Classified
import CellAtlas.Proofs.Except
import CellAtlas.Proofs.Random.Generator

/-!
# Classifying loses no structure

With a table that has sound ranges for their categories, structures can be classified
(`sizeEach_ok`): they stay as they are and in their order, each gets its category, and the numbers
drawn for it lie in the ranges of that category. The default table has sound ranges for every
category (`defaultSizings_complete`).
-/

namespace CellAtlas

open Source CellAtlas.Random

/-! ### Ranges -/

/-- The range is not empty and its bounds have 64 bits. -/
structure Range.Valid (r : Range) : Prop where
  low : Int64.minValue.toInt ≤ r.low
  high : r.high ≤ Int64.maxValue.toInt + 1
  lt : r.low < r.high

instance (r : Range) : Decidable r.Valid :=
  decidable_of_iff
    (Int64.minValue.toInt ≤ r.low ∧ r.high ≤ Int64.maxValue.toInt + 1 ∧ r.low < r.high)
    ⟨fun ⟨low, high, lt⟩ => ⟨low, high, lt⟩, fun ⟨low, high, lt⟩ => ⟨low, high, lt⟩⟩

def Range.Has (r : Range) (z : Int) : Prop := r.low ≤ z ∧ z < r.high

/-- A valid range is drawn from, and the draw is in it. -/
theorem Range.draw_ok {r : Range} (hr : r.Valid) (g : Generator) :
    ∃ z g', r.draw g = .ok (z, g') ∧ r.Has z := by
  obtain ⟨z, g', hdraw, hlow, hhigh⟩ := g.integer_ok hr.low hr.high hr.lt
  refine ⟨z, g', ?_, hlow, hhigh⟩
  rw [Range.draw, hdraw]

/-- The table has sound ranges for a category. -/
def SizingTable.Sound (table : SizingTable) (category : Category) : Prop :=
  ∃ sizing, table.lookup category = some sizing ∧
    sizing.instanceCount.Valid ∧ sizing.nestingDepth.Valid

/-- The table has sound ranges for every category. -/
def SizingTable.Complete (table : SizingTable) : Prop :=
  ∀ category, table.Sound category

theorem defaultSizings_complete : SizingTable.Complete defaultSizings := by
  intro category
  cases category with
  | linked => exact ⟨⟨⟨5, 55⟩, ⟨1, 6⟩⟩, rfl, by decide, by decide⟩
  | nested => exact ⟨⟨⟨3, 33⟩, ⟨2, 9⟩⟩, rfl, by decide, by decide⟩
  | simple => exact ⟨⟨⟨1, 11⟩, ⟨1, 2⟩⟩, rfl, by decide, by decide⟩

/-! ### Sizes -/

namespace Classified

/-- The numbers of a structure lie in the ranges of its category. -/
def Sized (table : SizingTable) (c : Classified) : Prop :=
  ∃ sizing, table.lookup c.category = some sizing ∧
    sizing.instanceCount.Has c.instanceCount ∧ sizing.nestingDepth.Has c.nestingDepth

variable {table : SizingTable}

/-- Sound ranges size a structure, which stays as it is. -/
theorem size_ok {category : Category} (h : table.Sound category) (s : Structure) (g : Generator) :
    ∃ c g', size s category table g = .ok (c, g') ∧ c.toStructure = s ∧ c.category = category ∧
      c.Sized table := by
  obtain ⟨sizing, hlookup, hcounts, hdepths⟩ := h
  obtain ⟨count, g₁, hcount, hcountHas⟩ := Range.draw_ok hcounts g
  obtain ⟨depth, g₂, hdepth, hdepthHas⟩ := Range.draw_ok hdepths g₁
  refine ⟨{ toStructure := s, category, instanceCount := count, nestingDepth := depth }, g₂, ?_,
    rfl, rfl, sizing, hlookup, hcountHas, hdepthHas⟩
  unfold size
  rw [hlookup]
  simp only [bind_eq_ok]
  exact ⟨(count, g₁), hcount, (depth, g₂), hdepth, rfl⟩

/-- Every structure is classified, in its turn. -/
theorem sizeEach_ok {all structures : List Structure}
    (h : ∀ s ∈ structures, table.Sound (s.category all)) (g : Generator) :
    ∃ cs, sizeEach table all structures g = .ok cs ∧
      cs.map (fun c => (c.toStructure, c.category))
        = structures.map (fun s => (s, s.category all)) ∧
      ∀ c ∈ cs, c.Sized table := by
  induction structures generalizing g with
  | nil => exact ⟨[], rfl, rfl, fun _ hc => absurd hc List.not_mem_nil⟩
  | cons s rest ih =>
      rw [List.forall_mem_cons] at h
      obtain ⟨c, g', hsize, hstructure, hcategory, hsized⟩ := size_ok h.1 s g
      obtain ⟨cs, hcs, hmap, hall⟩ := ih h.2 g'
      refine ⟨c :: cs, ?_, ?_, ?_⟩
      · simp only [sizeEach, bind_eq_ok]
        exact ⟨(c, g'), hsize, cs, hcs, rfl⟩
      · rw [List.map_cons, List.map_cons, hmap, hstructure, hcategory]
      · intro d hd
        rcases List.mem_cons.mp hd with rfl | hd
        · exact hsized
        · exact hall d hd

end Classified

/-- With the default ranges every list of structures can be classified. -/
theorem classify_ok (structures : List Structure) {seed : Int} (hseed : 0 ≤ seed) :
    ∃ cs, classify structures (some seed) = .ok cs ∧
      cs.map (·.toStructure) = structures ∧ ∀ c ∈ cs, c.Sized defaultSizings := by
  obtain ⟨cs, hcs, hmap, hsized⟩ := Classified.sizeEach_ok
    (fun s _ => defaultSizings_complete (s.category structures)) (.ofWords (wordsOf seed.toNat))
  refine ⟨cs, ?_, ?_, hsized⟩
  · rw [classify, Generator.ofSeed_ok hseed]
    exact hcs
  · have hfst := congrArg (List.map Prod.fst) hmap
    rw [List.map_map, List.map_map] at hfst
    exact hfst.trans (List.map_id structures)

/-- Whatever the seed is, the numbers that are drawn lie in their ranges. -/
theorem sized_of_classify {structures : List Structure} {seed : Option Int} {cs : List Classified}
    (h : classify structures seed = .ok cs) : ∀ c ∈ cs, c.Sized defaultSizings := by
  unfold classify at h
  split at h
  · cases h
  · next g _ =>
      obtain ⟨_, hcs, -, hsized⟩ := Classified.sizeEach_ok
        (fun s _ => defaultSizings_complete (s.category structures)) g
      cases hcs.symm.trans h
      exact hsized

/-- The default ranges give a structure at least one instance and fewer than 55. -/
theorem Classified.Sized.instanceCount_bounds {c : Classified} (h : c.Sized defaultSizings) :
    0 < c.instanceCount ∧ c.instanceCount < 55 := by
  obtain ⟨sizing, hlookup, ⟨hlow, hhigh⟩, -⟩ := h
  have hbounds : 0 < sizing.instanceCount.low ∧ sizing.instanceCount.high ≤ 55 := by
    revert hlookup
    cases c.category <;> rintro ⟨⟩ <;> decide
  omega

/-- A selection keeps the order. -/
theorem Classified.select_sublist (cs : List Classified) (names : List String) :
    (Classified.select cs names).Sublist cs := by
  unfold Classified.select
  split
  · exact List.Sublist.refl cs
  · exact List.filter_sublist

end CellAtlas
