/-!
# Values under keys

A list of keys with values stands for a dictionary that remembers the order in which its keys came.
-/

namespace CellAtlas

variable {α : Type}

/-- Bind a key, in its old place if it is bound already. -/
def setKey (key : String) (value : α) : List (String × α) → List (String × α)
  | [] => [(key, value)]
  | (k, v) :: rest => if k = key then (key, value) :: rest else (k, v) :: setKey key value rest

/-- A new key comes last. -/
theorem setKey_of_notMem {key : String} {entries : List (String × α)}
    (h : key ∉ entries.map (·.1)) (value : α) :
    setKey key value entries = entries ++ [(key, value)] := by
  induction entries with
  | nil => rfl
  | cons entry rest ih =>
      rw [List.map_cons, List.mem_cons, not_or] at h
      rw [setKey, if_neg (Ne.symm h.1), ih h.2]
      rfl

@[simp] theorem lookup_setKey_self (key : String) (value : α) (entries : List (String × α)) :
    (setKey key value entries).lookup key = some value := by
  induction entries with
  | nil => simp [setKey]
  | cons entry rest ih =>
      by_cases h : entry.1 = key
      · simp [setKey, h]
      · have hne : (key == entry.1) = false := beq_false_of_ne (Ne.symm h)
        rw [setKey, if_neg h, List.lookup_cons, hne, ih]

/-- Among keys with a property, a key that has it is bound, and no other key makes a difference. -/
theorem filter_setKey (p : String → Bool) (key : String) (value : α)
    (entries : List (String × α)) :
    (setKey key value entries).filter (fun entry => p entry.1) =
      if p key then setKey key value (entries.filter fun entry => p entry.1)
      else entries.filter fun entry => p entry.1 := by
  induction entries with
  | nil => cases hkey : p key <;> simp [setKey, hkey]
  | cons entry rest ih =>
      by_cases h : entry.1 = key
      · subst h
        cases hkey : p entry.1 <;> simp [setKey, hkey]
      · rw [setKey, if_neg h, List.filter_cons, ih, List.filter_cons]
        cases hkey : p key <;> cases hentry : p entry.1 <;> simp [setKey, h]

end CellAtlas
