import CellAtlas.Wire.Decoder

/-!
# What a check lets through

A value that has passed a check is put together from parts that have passed theirs, and a number
that has passed a check of bounds lies within them.
-/

namespace CellAtlas.Wire

variable {α β : Type}

namespace Checked

def value? : Checked α → Option α
  | valid a => some a
  | invalid _ => none

@[simp] theorem value?_eq_some {x : Checked α} {a : α} : x.value? = some a ↔ x = valid a := by
  cases x with
  | valid b => simp [value?]
  | invalid issues => exact ⟨nofun, nofun⟩

@[simp] theorem map_eq_valid {f : α → β} {x : Checked α} {b : β} :
    f <$> x = valid b ↔ ∃ a, x = valid a ∧ f a = b := by
  cases x with
  | valid a => simp
  | invalid issues => exact ⟨nofun, nofun⟩

/-- Two checks pass together exactly if both do. -/
@[simp] theorem seq_eq_valid {f : Checked (α → β)} {x : Checked α} {b : β} :
    f <*> x = valid b ↔ ∃ g a, f = valid g ∧ x = valid a ∧ g a = b := by
  cases f with
  | valid g =>
      cases x with
      | valid a => simp
      | invalid issues => exact ⟨nofun, nofun⟩
  | invalid issues =>
      cases x with
      | valid a => exact ⟨nofun, nofun⟩
      | invalid more => exact ⟨nofun, nofun⟩

@[simp] theorem inside_eq_valid {place : Place} {x : Checked α} {a : α} :
    x.inside place = valid a ↔ x = valid a := by
  cases x with
  | valid b => rfl
  | invalid issues => exact ⟨nofun, nofun⟩

end Checked

/-- A field that may be missing has its default or has passed its check. -/
theorem eq_default_or_of_optional {n : Naming} {object : Json} {name : String} {d : Decoder α}
    {default a : α} (h : optional n object name d default = .valid a) :
    a = default ∨ ∃ j, d j = .valid a := by
  unfold optional at h
  split at h
  · exact .inr ⟨_, Checked.inside_eq_valid.mp h⟩
  · cases h
    exact .inl rfl

/-- What holds of the default and of all that passes the check holds of the field. -/
theorem of_optional {p : α → Prop} {n : Naming} {object : Json} {name : String} {d : Decoder α}
    {default a : α} (h : optional n object name d default = .valid a) (hdefault : p default)
    (hd : ∀ j a, d j = .valid a → p a) : p a := by
  rcases eq_default_or_of_optional h with rfl | ⟨j, hj⟩
  · exact hdefault
  · exact hd j a hj

/-- An integer that passes a check of both bounds is between them. -/
theorem withinInt_bounds {least greatest n m : Int} {j : Json}
    (h : withinInt (some least) (some greatest) j n = .valid m) : least ≤ m ∧ m ≤ greatest := by
  unfold withinInt at h
  split at h
  · cases h
  · cases h
  · next hgreatest hleast =>
    cases h
    simp only [Option.filter_eq_none_iff] at hgreatest hleast
    simpa using And.intro hleast hgreatest

/-- However an integer is written, a check of both bounds puts its value between them. -/
theorem integer_bounds {least greatest n : Int} {j : Json}
    (h : integer (some least) (some greatest) j = .valid n) : least ≤ n ∧ n ≤ greatest := by
  unfold integer at h
  dsimp only at h
  split at h
  · exact withinInt_bounds h
  · cases h

/-- Without an upper bound, too, an integer is not below its lower one. -/
theorem integer_least {least n : Int} {greatest : Option Int} {j : Json}
    (h : integer (some least) greatest j = .valid n) : least ≤ n := by
  unfold integer at h
  dsimp only at h
  split at h
  · unfold withinInt at h
    split at h
    · cases h
    · cases h
    -- it was not refused for being too small
    · next hleast =>
      cases h
      simpa using Option.filter_eq_none_iff.mp hleast
  · cases h

/-- A text that passes its check has the least length. -/
theorem text_least {least : Nat} {s : String} {j : Json} (h : text least j = .valid s) :
    least ≤ s.length := by
  unfold text at h
  split at h
  · split at h
    · cases h
    · next hlength =>
      cases h
      exact Nat.le_of_not_lt hlength
  · cases h

/-- What holds of all that passes the check of an item holds of the items of a list. -/
theorem of_list {p : α → Prop} {d : Decoder α} (hd : ∀ j a, d j = .valid a → p a) {j : Json}
    {items : List α} (h : list d j = .valid items) : ∀ a ∈ items, p a := by
  -- the index only tells where an issue is, so that the statement is about lists from any index on
  have hfrom : ∀ (js : List Json) (i : Nat) (items : List α),
      itemsFrom d i js = .valid items → ∀ a ∈ items, p a := by
    intro js
    induction js with
    | nil =>
        intro i items h
        cases h
        simp
    | cons j js ih =>
        intro i items h
        simp only [itemsFrom, Checked.seq_eq_valid, Checked.map_eq_valid,
          Checked.inside_eq_valid] at h
        obtain ⟨_, rest, ⟨a, ha, rfl⟩, hrest, rfl⟩ := h
        exact List.forall_mem_cons.mpr ⟨hd j a ha, ih (i + 1) rest hrest⟩
  unfold list at h
  split at h
  · exact hfrom _ 0 items h
  · cases h

/-- A number that passes its check is between the bounds. -/
theorem real_bounds {least greatest : Int} {x : Binary64} {j : Json}
    (h : real least greatest j = .valid x) : .ofInt least ≤ x ∧ x ≤ .ofInt greatest := by
  unfold real at h
  dsimp only at h
  split at h
  · unfold withinReal at h
    split at h
    · cases h
    · split at h
      · cases h
      · next hgreatest hleast =>
        cases h
        exact ⟨Decidable.not_not.mp hleast, Decidable.not_not.mp hgreatest⟩
  · cases h

end CellAtlas.Wire
