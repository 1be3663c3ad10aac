/-!
# Drawing from a state

`collect next n s` draws `n` values one after another, each from the state that the one before it
left behind. Collecting some values and then more is collecting all of them (`collect_add`).
-/

namespace CellAtlas.Random

variable {α σ : Type}

/-- Draw `n` further values; `acc` has those before, the last one first. -/
def collectAfter (next : σ → α × σ) (acc : List α) : Nat → σ → List α × σ
  | 0, s => (acc.reverse, s)
  | n + 1, s =>
    let d := next s
    collectAfter next (d.1 :: acc) n d.2

def collect (next : σ → α × σ) (n : Nat) (s : σ) : List α × σ := collectAfter next [] n s

theorem collectAfter_eq (next : σ → α × σ) (acc : List α) (n : Nat) (s : σ) :
    collectAfter next acc n s = (acc.reverse ++ (collect next n s).1, (collect next n s).2) := by
  induction n generalizing acc s with
  | zero => simp [collect, collectAfter]
  | succ n ih =>
    simp only [collect, collectAfter]
    rw [ih, ih [_]]
    simp

@[simp] theorem collect_zero (next : σ → α × σ) (s : σ) : collect next 0 s = ([], s) := rfl

theorem collect_succ (next : σ → α × σ) (n : Nat) (s : σ) :
    collect next (n + 1) s =
      ((next s).1 :: (collect next n (next s).2).1, (collect next n (next s).2).2) := by
  simp only [collect, collectAfter]
  rw [collectAfter_eq]
  simp [collect]

@[simp] theorem length_collect (next : σ → α × σ) (n : Nat) (s : σ) :
    (collect next n s).1.length = n := by
  induction n generalizing s with
  | zero => rfl
  | succ n ih => simp [collect_succ, ih]

/-- Collecting some values and then more is collecting all of them. -/
theorem collect_add (next : σ → α × σ) (m n : Nat) (s : σ) :
    collect next (m + n) s =
      ((collect next m s).1 ++ (collect next n (collect next m s).2).1,
        (collect next n (collect next m s).2).2) := by
  induction m generalizing s with
  | zero => simp
  | succ m ih =>
    rw [Nat.succ_add, collect_succ, ih, collect_succ]
    simp

end CellAtlas.Random
