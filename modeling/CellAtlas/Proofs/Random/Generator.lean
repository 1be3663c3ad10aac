import CellAtlas.Proofs.Except
import CellAtlas.Proofs.Number.Order
import CellAtlas.Random.Generator

/-!
# When numbers can be drawn

A seed starts a generator if it is not negative (`ofSeed_ok`), and then one for every step
(`exists_ofSeedAt`). An integer can be drawn from a range if the range is not empty and its bounds
have 64 bits (`integer_ok`), and from no other (`integer_eq_error`).

The uniform numbers of a generator form one stream, `uniformAt 0`, `uniformAt 1`, …, and it makes no
difference whether they are drawn at once or in turns (`uniforms_eq_map`, `uniformAt_add`). All of
them lie from 0 up to but not including 1.
-/

namespace CellAtlas.Random.Generator

/-- A seed that is not negative is taken as it is. -/
theorem seedWordsOf_some {seed : Int} (h : 0 ≤ seed) :
    seedWordsOf (some seed) = .ok (wordsOf seed.toNat) := by
  rw [seedWordsOf, if_neg (Int.not_lt.mpr h)]

/-- Such a seed has a generator. -/
theorem ofSeed_ok {seed : Int} (h : 0 ≤ seed) :
    ofSeed (some seed) = .ok (ofWords (wordsOf seed.toNat)) := by
  rw [ofSeed, seedWordsOf_some h]
  rfl

/-- A seed that starts a generator starts one for every step. -/
theorem exists_ofSeedAt {seed : Option Int} (h : ∃ g, ofSeed seed = .ok g) (step : Int) :
    ∃ g, ofSeedAt seed step = .ok g := by
  obtain ⟨g, hg⟩ := h
  obtain ⟨words, hwords, -⟩ := map_eq_ok.mp hg
  exact ⟨_, map_eq_ok.mpr ⟨words, hwords, rfl⟩⟩

/-- An integer that is drawn lies in its range. -/
theorem integer_ok {low high : Int} (g : Generator) (hlow : Int64.minValue.toInt ≤ low)
    (hhigh : high ≤ Int64.maxValue.toInt + 1) (h : low < high) :
    ∃ z g', g.integer low high = .ok (z, g') ∧ low ≤ z ∧ z < high := by
  have hlt : (g.below (high - low).toNat).1 < (high - low).toNat := g.below_lt (by omega)
  refine ⟨low + (g.below (high - low).toNat).1, (g.below (high - low).toNat).2, ?_, ?_, ?_⟩
  · rw [integer, if_neg (Int.not_lt.mpr hlow), if_neg (Int.not_lt.mpr hhigh),
      if_neg (Int.not_le.mpr h)]
  · omega
  · omega

/-- What keeps an integer from being drawn is not the seed. -/
theorem integer_eq_error {low high : Int} (g : Generator)
    (h : ¬ (Int64.minValue.toInt ≤ low ∧ high ≤ Int64.maxValue.toInt + 1 ∧ low < high)) :
    ∃ e : RandomError, e ≠ .negativeSeed ∧ g.integer low high = .error e := by
  -- the bounds are looked at in turn: the lower one, the upper one, and whether anything is between
  -- them
  unfold integer
  split
  next => exact ⟨.lowOutOfBounds, by decide, rfl⟩
  next hlow =>
    split
    next => exact ⟨.highOutOfBounds, by decide, rfl⟩
    next hhigh =>
      split
      next => exact ⟨.emptyRange, by decide, rfl⟩
      next hlt => exact absurd ⟨Int.not_lt.mp hlow, Int.not_lt.mp hhigh, Int.not_le.mp hlt⟩ h

/-! ### The stream of uniform numbers -/

/-- The uniform number that is drawn after `n` others. -/
def uniformAt (g : Generator) (n : Nat) : Binary64 := (g.uniforms n).2.uniform.1

/-- The stream goes on where it was left. -/
theorem uniformAt_add (g : Generator) (m n : Nat) :
    (g.uniforms m).2.uniformAt n = g.uniformAt (m + n) := by
  rw [uniformAt, uniformAt, uniforms_add]

/-- The uniform numbers are those that are drawn one after the other. -/
theorem uniforms_eq_map (g : Generator) (n : Nat) :
    (g.uniforms n).1 = (List.range n).map g.uniformAt := by
  induction n with
  | zero => rfl
  | succ n ih =>
      have hone : ((g.uniforms n).2.uniforms 1).1 = [g.uniformAt n] := rfl
      rw [uniforms_add, ih, hone, List.range_succ, List.map_append, List.map_singleton]

/-- Uniform numbers are fractions, of which none is negative. -/
theorem uniformAt_nonneg (g : Generator) (n : Nat) : 0 ≤ g.uniformAt n := by
  obtain ⟨k, hk, heq⟩ := uniform_eq (g.uniforms n).2
  rw [uniformAt, heq]
  exact Binary64.fraction_nonneg hk

/-- Uniform numbers are fractions, of which none is one. -/
theorem uniformAt_lt_one (g : Generator) (n : Nat) : g.uniformAt n < 1 := by
  obtain ⟨k, hk, heq⟩ := uniform_eq (g.uniforms n).2
  rw [uniformAt, heq]
  exact Binary64.fraction_lt_one hk

end CellAtlas.Random.Generator
