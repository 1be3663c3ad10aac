/-!
# Entropy

How the words of a seed become the 256 bits that start a generator: a pool of four words is filled
by hashing, its words are mixed with one another and with what is left of the seed, and a second
hash draws the bits out of the pool. All arithmetic is modulo 2^32.
-/

namespace CellAtlas.Random

/-- The 32-bit words of a number, the least significant one first. Zero has one word. -/
def wordsOf (n : Nat) : List UInt32 :=
  if n < UInt32.size then [n.toUInt32] else n.toUInt32 :: wordsOf (n / UInt32.size)
termination_by n
decreasing_by simp only [UInt32.size] at *; omega

/-- Fold the upper half of a word into its lower half. -/
def foldHalves (v : UInt32) : UInt32 := v ^^^ (v >>> 16)

/-- Combine a word of the pool with a hashed word. -/
def blend (x y : UInt32) : UInt32 := foldHalves (0xca01f9dd * x - 0x4973f715 * y)

/-- Four words, and the constant that the next hash uses. -/
structure Pool where
  words : Vector UInt32 4
  constant : UInt32

namespace Pool

def hash (p : Pool) (v : UInt32) : UInt32 × Pool :=
  let constant := p.constant * 0x931e8875
  (foldHalves ((v ^^^ p.constant) * constant), { p with constant })

def fill (p : Pool) (i : Fin 4) (v : UInt32) : Pool :=
  let (h, p) := p.hash v
  { p with words := p.words.set i h }

/-- Blend a hashed word into one word of the pool. -/
def stir (p : Pool) (i : Fin 4) (v : UInt32) : Pool :=
  let (h, p) := p.hash v
  { p with words := p.words.set i (blend p.words[i] h) }

/-- Blend every word of the pool into every other one. -/
def mixAll (p : Pool) : Pool :=
  (List.finRange 4).foldl (fun p src =>
    ((List.finRange 4).filter (· ≠ src)).foldl (fun p dst => p.stir dst p.words[src]) p) p

/-- The pool of a seed. Words beyond the fourth are blended into all four words of the pool. -/
def ofWords (words : List UInt32) : Pool :=
  let empty : Pool := { words := .replicate 4 0, constant := 0x43b0d7e5 }
  let filled := (List.finRange 4).foldl (fun p i => p.fill i (words[i.val]?.getD 0)) empty
  (words.drop 4).foldl (fun p w => (List.finRange 4).foldl (fun p i => p.stir i w) p) filled.mixAll

/-- The word that the output hash makes of a word of the pool and a constant, and the next
constant. -/
def outputWord (v constant : UInt32) : UInt32 × UInt32 :=
  let next := constant * 0x58f38ded
  (foldHalves ((v ^^^ constant) * next), next)

/-- `n` double words drawn from the pool, which is read around and around; `i` double words have
been drawn before. -/
def drawWords (p : Pool) (constant : UInt32) (i : Fin 4) : Nat → List UInt64
  | 0 => []
  | n + 1 =>
    let (low, constant) := outputWord p.words[i] constant
    let (high, constant) := outputWord p.words[i + 1] constant
    (low.toUInt64 ||| (high.toUInt64 <<< 32)) :: drawWords p constant (i + 2) n

def seedWords (p : Pool) : List UInt64 := p.drawWords 0x8b51f9dd 0 4

end Pool

end CellAtlas.Random
