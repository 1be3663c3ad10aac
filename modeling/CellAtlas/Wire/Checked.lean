import CellAtlas.Wire.Issue

/-!
# Checked values

The outcome of checking a value is the value itself or all that is wrong with it. Checks are
combined with `<$>` and `<*>`, which go on after a fault, so that an object with two faulty fields
has two issues, in the order of its fields.
-/

namespace CellAtlas.Wire

/-- A value, or all that is wrong. -/
inductive Checked (α : Type) where
  | valid (value : α)
  | invalid (issues : List Issue)

namespace Checked

variable {α β : Type}

def map (f : α → β) : Checked α → Checked β
  | valid a => valid (f a)
  | invalid issues => invalid issues

def ap : Checked (α → β) → Checked α → Checked β
  | valid f, valid a => valid (f a)
  | valid _, invalid issues => invalid issues
  | invalid issues, valid _ => invalid issues
  | invalid issues, invalid more => invalid (issues ++ more)

instance : Applicative Checked where
  pure := valid
  map f x := map f x
  seq f x := ap f (x ())

def fault (complaint : Complaint) (input : Json) : Checked α := invalid [⟨[], complaint, input⟩]

/-- A check of a part, seen from the whole. -/
def inside (place : Place) : Checked α → Checked α
  | valid a => valid a
  | invalid issues => invalid (issues.map fun i => { i with path := place :: i.path })

@[simp] theorem pure_eq (a : α) : (pure a : Checked α) = valid a := rfl

@[simp] theorem map_valid (f : α → β) (a : α) : f <$> valid a = valid (f a) := rfl

@[simp] theorem valid_seq_valid (f : α → β) (a : α) : valid f <*> valid a = valid (f a) := rfl

@[simp] theorem inside_valid (place : Place) (a : α) : inside place (valid a) = valid a := rfl

end Checked

end CellAtlas.Wire
