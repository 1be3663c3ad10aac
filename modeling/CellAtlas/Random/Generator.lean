import CellAtlas.Number.Binary64
import CellAtlas.Random.Entropy
import CellAtlas.Random.Stream

/-!
# Random numbers

A permuted congruential generator with 128 bits of state and 64 bits of output, and the two kinds of
numbers drawn from it:

* `uniforms`, double-precision numbers from 0 up to but not including 1,
* `integer`, integers from a half-open range.

Drawing some numbers and then more is drawing all of them (`uniforms_add`), and every uniform number
is a multiple of 2^-53 below 1 (`uniform_eq`).
-/

namespace CellAtlas.Random

inductive RandomError where
  /-- A seed is negative. -/
  | negativeSeed
  /-- The lower bound of a range has no 64 bits. -/
  | lowOutOfBounds
  /-- The upper bound of a range has no 64 bits. -/
  | highOutOfBounds
  /-- A range is empty. -/
  | emptyRange
deriving DecidableEq, Repr

def RandomError.message : RandomError → String
  | negativeSeed => "expected non-negative integer"
  | lowOutOfBounds => "low is out of bounds for int64"
  | highOutOfBounds => "high is out of bounds for int64"
  | emptyRange => "low >= high"

/-- The state of a generator. Half an output may be kept for the next half-width draw. -/
structure Generator where
  state : BitVec 128
  increment : BitVec 128
  kept : Option UInt32 := none
deriving DecidableEq, Repr

namespace Generator

/-! ### The generator -/

def step (g : Generator) : Generator :=
  { g with state := g.state * 0x2360ed051fc65da44385df649fccf645#128 + g.increment }

def ofWords (words : List UInt32) : Generator :=
  match (Pool.ofWords words).seedWords with
  | [a, b, c, d] =>
    let increment := ((c.toBitVec ++ d.toBitVec : BitVec 128) <<< 1) ||| 1#128
    let g := step { state := 0, increment }
    step { g with state := g.state + (a.toBitVec ++ b.toBitVec : BitVec 128) }
  | _ => { state := 0, increment := 1 }

/-- The words of a seed. Without a seed any stream of numbers will do; here it is the one of no
words. -/
def seedWordsOf : Option Int → Except RandomError (List UInt32)
  | none => .ok []
  | some seed => if seed < 0 then .error .negativeSeed else .ok (wordsOf seed.toNat)

def ofSeed (seed : Option Int) : Except RandomError Generator :=
  (seedWordsOf seed).map ofWords

/-- The generator of a seed and a step number, so that every step has a stream of its own. A
negative step counts as step 0. -/
def ofSeedAt (seed : Option Int) (step : Int) : Except RandomError Generator :=
  (seedWordsOf seed).map fun words =>
    ofWords (if seed.isSome then words ++ wordsOf step.toNat else words)

/-- The next 64 bits: the two halves of the state combined, and rotated by its top six bits. -/
def next64 (g : Generator) : UInt64 × Generator :=
  let g := g.step
  let folded := (g.state >>> 64).truncate 64 ^^^ g.state.truncate 64
  (.ofBitVec (folded.rotateRight (g.state >>> 122).toNat), g)

/-- The next 32 bits: the half that was kept, or else the lower half of a new output, of which the
upper half is kept. -/
def next32 (g : Generator) : UInt32 × Generator :=
  match g.kept with
  | some half => (half, { g with kept := none })
  | none =>
    let d := g.next64
    (d.1.toUInt32, { d.2 with kept := some (d.1 >>> 32).toUInt32 })

/-! ### Uniform numbers -/

/-- A uniform number: the top 53 bits of an output, as a multiple of 2^-53. -/
def uniform (g : Generator) : Binary64 × Generator :=
  let d := g.next64
  (.fraction (d.1 >>> 11).toNat, d.2)

def uniforms (g : Generator) (n : Nat) : List Binary64 × Generator := collect uniform n g

/-! ### Integers -/

/-- A number below `n` made of words below `size`: a word is scaled to `n`, and refused where that
would favour some numbers. A word is refused with a chance below one half; should `fuel` words be
refused in turn, the next one is taken as it is. -/
def scaled (next : Generator → Nat × Generator) (size n : Nat) : Nat → Generator → Nat × Generator
  | 0, g =>
    let d := next g
    (d.1 * n / size, d.2)
  | fuel + 1, g =>
    let d := next g
    if d.1 * n % size < (size - n) % n then scaled next size n fuel d.2
    else (d.1 * n / size, d.2)

def refusals : Nat := 1000

/-- A number below `n`, for `n` from 1 to 2^64. For `n = 1` nothing is drawn. -/
def below (g : Generator) (n : Nat) : Nat × Generator :=
  if n ≤ 1 then (0, g)
  else if n ≤ UInt32.size then
    scaled (fun g => (g.next32.1.toNat, g.next32.2)) UInt32.size n refusals g
  else
    scaled (fun g => (g.next64.1.toNat, g.next64.2)) UInt64.size n refusals g

/-- An integer from `low` up to but not including `high`; both bounds must be 64-bit. -/
def integer (g : Generator) (low high : Int) : Except RandomError (Int × Generator) :=
  if low < Int64.minValue.toInt then .error .lowOutOfBounds
  else if Int64.maxValue.toInt + 1 < high then .error .highOutOfBounds
  else if high ≤ low then .error .emptyRange
  else
    let d := g.below (high - low).toNat
    .ok (low + d.1, d.2)

/-! ### Facts about draws -/

theorem length_uniforms (g : Generator) (n : Nat) : (uniforms g n).1.length = n :=
  length_collect uniform n g

/-- Drawing some numbers and then more is drawing all of them. -/
theorem uniforms_add (g : Generator) (m n : Nat) :
    uniforms g (m + n) =
      ((uniforms g m).1 ++ (uniforms (uniforms g m).2 n).1, (uniforms (uniforms g m).2 n).2) :=
  collect_add uniform m n g

/-- A uniform number is a multiple of 2^-53 below 1. -/
theorem uniform_eq (g : Generator) : ∃ k < 1 <<< 53, g.uniform.1 = .fraction k := by
  refine ⟨(g.next64.1 >>> 11).toNat, ?_, rfl⟩
  have h := g.next64.1.toNat_lt
  rw [UInt64.toNat_shiftRight, show (11 : UInt64).toNat % 64 = 11 from rfl]
  omega

/-- A scaled word stays below `n`. -/
theorem scaled_lt {next : Generator → Nat × Generator} {size n : Nat}
    (hnext : ∀ g, (next g).1 < size) (hn : 0 < n) (fuel : Nat) (g : Generator) :
    (scaled next size n fuel g).1 < n := by
  have hlt (g : Generator) : (next g).1 * n / size < n := by
    have h := hnext g
    rw [Nat.div_lt_iff_lt_mul (by omega), Nat.mul_comm n]
    exact Nat.mul_lt_mul_of_pos_right h hn
  induction fuel generalizing g with
  | zero => exact hlt g
  | succ fuel ih =>
    simp only [scaled]
    split
    · exact ih _
    · exact hlt g

theorem below_lt (g : Generator) {n : Nat} (hn : 0 < n) : (g.below n).1 < n := by
  simp only [below]
  split
  · exact hn
  · split
    · exact scaled_lt (fun g => (g.next32).1.toNat_lt) hn _ _
    · exact scaled_lt (fun g => (g.next64).1.toNat_lt) hn _ _

end Generator

end CellAtlas.Random
