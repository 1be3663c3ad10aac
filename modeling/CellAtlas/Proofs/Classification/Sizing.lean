import CellAtlas.Proofs.Classification.Classified

/-!
# When structures can be classified

Structures are classified one after another, and nothing but a range that no number can be drawn
from stops this. A range counts only if a structure has the category it is meant for, so that
unsound ranges of other categories do no harm:

    the ranges of all categories that occur are sound  ⟺  all structures are classified
    one of them is not                                 ⟺  the error of a range

`sizeEach_eq_error` is the counterpart of `sizeEach_ok`, and `classify_outcome` puts the two sides
together.
-/

namespace CellAtlas

open Source CellAtlas.Random

/-- An invalid range is refused, whatever the generator, and not for the sake of a seed. -/
theorem Range.draw_eq_error {r : Range} (hr : ¬ r.Valid) (g : Generator) :
    ∃ e : RandomError, e ≠ .negativeSeed ∧ r.draw g = .error (.random e) := by
  obtain ⟨e, he, hdraw⟩ : ∃ e : RandomError, e ≠ .negativeSeed ∧
      g.integer r.low r.high = .error e := by
    apply g.integer_eq_error
    rintro ⟨hlow, hhigh, hlt⟩
    exact hr ⟨hlow, hhigh, hlt⟩
  refine ⟨e, he, ?_⟩
  rw [Range.draw, hdraw]

/-- Every category has ranges in the table, sound or not. -/
def SizingTable.Covers (table : SizingTable) : Prop :=
  ∀ category, ∃ sizing, table.lookup category = some sizing

namespace Classified

variable {table : SizingTable} (htable : table.Covers)

include htable

/-- Of the two ranges the first unsound one is to blame. -/
theorem size_eq_error {category : Category} (h : ¬ table.Sound category) (s : Structure)
    (g : Generator) :
    ∃ e : RandomError, e ≠ .negativeSeed ∧ size s category table g = .error (.random e) := by
  obtain ⟨sizing, hlookup⟩ := htable category
  unfold size
  rw [hlookup]
  -- the count is drawn first, so that the depth is tried only with a valid range of counts
  by_cases hcounts : sizing.instanceCount.Valid
  · have hdepths : ¬ sizing.nestingDepth.Valid := fun hdepths =>
      h ⟨sizing, hlookup, hcounts, hdepths⟩
    obtain ⟨count, g', hcount, -⟩ := Range.draw_ok hcounts g
    obtain ⟨e, he, hdepth⟩ := Range.draw_eq_error hdepths g'
    refine ⟨e, he, ?_⟩
    simp only [hcount, bind, Except.bind, hdepth]
  · obtain ⟨e, he, hcount⟩ := Range.draw_eq_error hcounts g
    refine ⟨e, he, ?_⟩
    simp only [hcount, bind, Except.bind]

/-- The structures before the first one without sound ranges are classified for nothing. -/
theorem sizeEach_eq_error {all structures : List Structure}
    (h : ∃ s ∈ structures, ¬ table.Sound (s.category all)) (g : Generator) :
    ∃ e : RandomError, e ≠ .negativeSeed ∧
      sizeEach table all structures g = .error (.random e) := by
  induction structures generalizing g with
  | nil =>
      obtain ⟨s, hs, -⟩ := h
      exact absurd hs List.not_mem_nil
  | cons s rest ih =>
      -- a sound structure in front is sized, and the unsound one is among the rest
      by_cases hsound : table.Sound (s.category all)
      · have hrest : ∃ t ∈ rest, ¬ table.Sound (t.category all) := by
          obtain ⟨t, ht, hunsound⟩ := h
          rcases List.mem_cons.mp ht with rfl | ht
          · exact absurd hsound hunsound
          · exact ⟨t, ht, hunsound⟩
        obtain ⟨c, g', hsize, -⟩ := size_ok hsound s g
        obtain ⟨e, he, herror⟩ := ih hrest g'
        refine ⟨e, he, ?_⟩
        simp only [sizeEach, hsize, bind, Except.bind, herror]
      · obtain ⟨e, he, herror⟩ := size_eq_error htable hsound s g
        refine ⟨e, he, ?_⟩
        simp only [sizeEach, herror, bind, Except.bind]

end Classified

theorem SizingTable.Covers.isEmpty_eq_false {table : SizingTable} (h : table.Covers) :
    table.isEmpty = false := by
  obtain ⟨sizing, hlookup⟩ := h .simple
  cases table with
  | nil => cases hlookup
  | cons _ _ => rfl

section Table

variable {structures : List Structure} {seed : Int} (hseed : 0 ≤ seed) {table : SizingTable}
  (htable : table.Covers)

include hseed htable

theorem classify_eq_sizeEach : classify structures (some seed) table =
    Classified.sizeEach table structures structures (.ofWords (wordsOf seed.toNat)) := by
  rw [classify, Generator.ofSeed_ok hseed, htable.isEmpty_eq_false]
  rfl

/-- Sound ranges for the categories that occur are enough, other categories do not matter. -/
theorem classify_of_sound (h : ∀ s ∈ structures, table.Sound (s.category structures)) :
    ∃ cs, classify structures (some seed) table = .ok cs ∧
      cs.map (fun c => (c.toStructure, c.category))
        = structures.map (fun s => (s, s.category structures)) ∧
      ∀ c ∈ cs, c.Sized table := by
  rw [classify_eq_sizeEach hseed htable]
  exact Classified.sizeEach_ok h _

/-- One structure without sound ranges is enough to fail. -/
theorem classify_of_unsound (h : ∃ s ∈ structures, ¬ table.Sound (s.category structures)) :
    ∃ e : RandomError, e ≠ .negativeSeed ∧
      classify structures (some seed) table = .error (.random e) := by
  rw [classify_eq_sizeEach hseed htable]
  exact Classified.sizeEach_eq_error htable h _

/-- Having been classified, all structures have sound ranges. -/
theorem sound_of_classify {cs : List Classified}
    (h : classify structures (some seed) table = .ok cs) :
    ∀ s ∈ structures, table.Sound (s.category structures) := by
  intro s hs
  apply Classical.byContradiction
  intro hunsound
  obtain ⟨e, -, herror⟩ := classify_of_unsound hseed htable ⟨s, hs, hunsound⟩
  cases h.symm.trans herror

end Table

theorem Classified.Sized.pos {c : Classified} (h : c.Sized defaultSizings) :
    1 ≤ c.instanceCount ∧ 1 ≤ c.nestingDepth := by
  obtain ⟨sizing, hlookup, ⟨hcount, -⟩, hdepth, -⟩ := h
  have hbounds : 1 ≤ sizing.instanceCount.low ∧ 1 ≤ sizing.nestingDepth.low := by
    revert hlookup
    cases c.category <;> rintro ⟨⟩ <;> decide
  omega

/-- Structures can be classified exactly if the ranges of their categories are sound, and otherwise
there is the error of a range. They stay as they are and in their order, each gets its category
among all of them, and its numbers lie in the ranges of that category. With the default ranges
classifying always succeeds, and the numbers are positive. -/
theorem classify_outcome (structures : List Structure) {seed : Int} (hseed : 0 ≤ seed)
    {table : SizingTable} (htable : table.Covers) :
    ((∃ cs, classify structures (some seed) table = .ok cs) ↔
      ∀ s ∈ structures, table.Sound (s.category structures)) ∧
    ((∃ s ∈ structures, ¬ table.Sound (s.category structures)) →
      ∃ e : RandomError, e ≠ .negativeSeed ∧
        classify structures (some seed) table = .error (.random e)) ∧
    (∀ cs, classify structures (some seed) table = .ok cs →
      cs.map (fun c => (c.toStructure, c.category)) = structures.map (fun s =>
        (s, if s.isLinked then .linked else if s.isNested structures then .nested else .simple)) ∧
      ∀ c ∈ cs, c.Sized table) ∧
    ∃ cs, classify structures (some seed) = .ok cs ∧
      ∀ c ∈ cs, 1 ≤ c.instanceCount ∧ 1 ≤ c.nestingDepth := by
  refine ⟨⟨?_, ?_⟩, classify_of_unsound hseed htable, ?_, ?_⟩
  · rintro ⟨cs, hcs⟩
    exact sound_of_classify hseed htable hcs
  · intro h
    obtain ⟨cs, hcs, -⟩ := classify_of_sound hseed htable h
    exact ⟨cs, hcs⟩
  · intro cs hcs
    obtain ⟨cs', hcs', hmap, hsized⟩ :=
      classify_of_sound hseed htable (sound_of_classify hseed htable hcs)
    cases hcs.symm.trans hcs'
    exact ⟨hmap, hsized⟩
  -- the default ranges are sound for every category
  · obtain ⟨cs, hcs, -, hsized⟩ := classify_ok structures hseed
    exact ⟨cs, hcs, fun c hc => (hsized c hc).pos⟩

/-- A list node and a holder of it. -/
def chained : List Structure :=
  [{ name := "Node", members := [⟨"next", "Node*", true, 1⟩] },
   { name := "List", members := [⟨"head", "Node", false, 2⟩] }]

/-- The counts of linked structures are drawn from all integers with 64 bits, the depths of nested
ones are fixed, and simple structures have nothing to be drawn from. -/
def lopsided : SizingTable :=
  [(.linked, ⟨⟨Int64.minValue.toInt, Int64.maxValue.toInt + 1⟩, ⟨1, 6⟩⟩),
   (.nested, ⟨⟨3, 33⟩, ⟨2, 3⟩⟩),
   (.simple, ⟨⟨4, 4⟩, ⟨1, 2⟩⟩)]

theorem lopsided_covers : lopsided.Covers := by
  intro category
  cases category <;> exact ⟨_, rfl⟩

theorem chained_sound : ∀ s ∈ chained, lopsided.Sound (s.category chained) := by
  have hlinked : lopsided.Sound .linked := ⟨_, rfl, by decide, by decide⟩
  have hnested : lopsided.Sound .nested := ⟨_, rfl, by decide, by decide⟩
  intro s hs
  rcases List.mem_cons.mp hs with rfl | hs
  · exact hlinked
  · rcases List.mem_singleton.mp hs with rfl
    exact hnested

/-- A list node and its holder can be classified where simple structures cannot: of the table only
the ranges that are needed count. -/
theorem classify_outcome_lopsided :
    (0 : Int) ≤ 7 ∧ lopsided.Covers ∧ ¬ lopsided.Sound .simple ∧
      (∃ cs, classify chained (some 7) lopsided = .ok cs) ∧
      ∃ e : RandomError, e ≠ .negativeSeed ∧
        classify [{ name := "Point" }] (some 7) lopsided = .error (.random e) := by
  have hsimple : ¬ lopsided.Sound .simple := by
    rintro ⟨sizing, ⟨⟩, hcounts, -⟩
    exact absurd hcounts.lt (by decide)
  have hseed : (0 : Int) ≤ 7 := by decide
  refine ⟨hseed, lopsided_covers, hsimple, ?_, ?_⟩
  · exact (classify_outcome chained hseed lopsided_covers).1.mpr chained_sound
  · exact (classify_outcome [{ name := "Point" }] hseed lopsided_covers).2.1
      ⟨_, List.mem_singleton_self _, hsimple⟩

end CellAtlas
