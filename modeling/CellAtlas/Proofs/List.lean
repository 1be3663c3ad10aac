import Mathlib.Data.List.Flatten
import Mathlib.Data.List.Nodup
import Mathlib.Data.List.Range

/-!
# Lists

What the proofs need to know about lists in general: keys that occur once, separators between lists,
numbers in rows, front and back parts that end where a property does, what is left behind an
element, filters that make no difference, and patterns within the parts of a list.
-/

namespace CellAtlas

variable {α β : Type}

/-- The entries of other keys make no difference to a lookup. -/
theorem lookup_filter_key [DecidableEq α] (key : α) (entries : List (α × β)) :
    (entries.filter (·.1 = key)).lookup key = entries.lookup key := by
  induction entries with
  | nil => rfl
  | cons entry rest ih =>
      obtain ⟨k, value⟩ := entry
      by_cases h : k = key
      · simp [h]
      · have hne : (key == k) = false := beq_false_of_ne (Ne.symm h)
        rw [List.filter_cons, if_neg (by simpa using h), ih, List.lookup_cons, hne]

/-- Where no key occurs twice, looking up a key finds its entry. -/
theorem lookup_of_nodup_keys [BEq α] [LawfulBEq α] {entries : List (α × β)}
    (h : (entries.map (·.1)).Nodup) {key : α} {value : β} (hmem : (key, value) ∈ entries) :
    entries.lookup key = some value := by
  obtain ⟨before, after, rfl⟩ := List.append_of_mem hmem
  rw [List.map_append, List.nodup_append] at h
  rw [List.lookup_eq_some_iff]
  refine ⟨before, after, rfl, ?_⟩
  intro entry hentry
  rw [bne_iff_ne]
  exact (h.2.2 entry.1 (List.mem_map_of_mem hentry) key List.mem_cons_self).symm

/-- With keys that differ, looking for a key finds its only entry. -/
theorem find?_of_nodup_keys [BEq β] [LawfulBEq β] {key : α → β} {l : List α}
    (h : (l.map key).Nodup) {a : α} (hmem : a ∈ l) : l.find? (key · == key a) = some a := by
  obtain ⟨before, after, rfl⟩ := List.append_of_mem hmem
  rw [List.map_append, List.nodup_append] at h
  rw [List.find?_eq_some_iff_append]
  refine ⟨beq_self_eq_true _, before, after, rfl, ?_⟩
  intro b hb
  have hne := h.2.2 (key b) (List.mem_map_of_mem hb) (key a) List.mem_cons_self
  simpa using hne

theorem find?_of_notMem_keys [BEq β] [LawfulBEq β] {key : α → β} {l : List α} {k : β}
    (h : k ∉ l.map key) : l.find? (key · == k) = none := by
  rw [List.find?_eq_none]
  intro a ha hk
  exact h (eq_of_beq hk ▸ List.mem_map_of_mem ha)

/-- A filter that drops the separator keeps what it keeps of the parts. -/
theorem filter_intercalate {p : α → Bool} {separator : List α} (h : separator.filter p = [])
    (parts : List (List α)) :
    (separator.intercalate parts).filter p = parts.flatMap (·.filter p) := by
  induction parts with
  | nil => rfl
  | cons part rest ih =>
      cases rest with
      | nil => rw [List.intercalate_singleton, List.flatMap_singleton]
      | cons next rest =>
          rw [List.intercalate_cons_cons, List.filter_append, List.filter_append, h, ih,
            List.append_nil]
          rfl

theorem mem_or_mem_of_mem_intercalate {a : α} {separator : List α} {parts : List (List α)}
    (h : a ∈ separator.intercalate parts) : a ∈ separator ∨ ∃ part ∈ parts, a ∈ part := by
  induction parts with
  | nil => exact absurd h List.not_mem_nil
  | cons part rest ih =>
      -- a separator stands only in front of a next part
      cases rest with
      | nil =>
          rw [List.intercalate_singleton] at h
          exact .inr ⟨part, List.mem_cons_self, h⟩
      | cons next rest =>
          rw [List.intercalate_cons_cons, List.mem_append, List.mem_append] at h
          rcases h with (h | h) | h
          · exact .inr ⟨part, List.mem_cons_self, h⟩
          · exact .inl h
          · rcases ih h with h | ⟨p, hp, h⟩
            · exact .inl h
            · exact .inr ⟨p, List.mem_cons_of_mem part hp, h⟩

/-- Rows of consecutive numbers, one after the other, are all the numbers. -/
theorem flatMap_range_map_range (f : Nat → α) (width height : Nat) :
    ((List.range height).flatMap fun y => (List.range width).map fun x => f (y * width + x))
      = (List.range (height * width)).map f := by
  induction height with
  | zero =>
      rw [Nat.zero_mul]
      rfl
  | succ height ih =>
      rw [List.range_succ, List.flatMap_append, ih, List.flatMap_singleton, Nat.succ_mul,
        List.range_add, List.map_append, List.map_map]
      rfl

section FrontPart

variable {p : α → Bool} {front rest : List α}

/-- A front part with a property is what is taken, if the rest does not go on with it. -/
theorem takeWhile_append_eq (hfront : ∀ a ∈ front, p a) (hrest : ∀ a ∈ rest.head?, p a = false) :
    (front ++ rest).takeWhile p = front := by
  rw [List.takeWhile_append_of_pos hfront]
  cases rest with
  | nil => simp
  | cons a rest => simp [hrest a rfl]

theorem dropWhile_append_eq (hfront : ∀ a ∈ front, p a) (hrest : ∀ a ∈ rest.head?, p a = false) :
    (front ++ rest).dropWhile p = rest := by
  rw [List.dropWhile_append_of_pos hfront]
  cases rest with
  | nil => rfl
  | cons a rest => simp [hrest a rfl]

/-- What has the property throughout is at the front of a list exactly if it is at the front of its
first run. -/
theorem prefix_takeWhile_iff (hfront : ∀ a ∈ front, p a) :
    front <+: rest.takeWhile p ↔ front <+: rest := by
  constructor
  · intro h
    exact h.trans (List.takeWhile_prefix p)
  · rintro ⟨back, rfl⟩
    rw [List.takeWhile_append_of_pos hfront]
    exact List.prefix_append _ _

end FrontPart

/-- Either no element has a property, or there is a last one that has it. -/
theorem forall_or_exists_last (p : α → Bool) (l : List α) :
    (∀ a ∈ l, p a = false) ∨
      ∃ before a after, l = before ++ a :: after ∧ p a ∧ ∀ b ∈ after, p b = false := by
  induction l with
  | nil => exact .inl (List.forall_mem_nil _)
  | cons a l ih =>
      rcases ih with hnone | ⟨before, b, after, rfl, hb, hafter⟩
      · cases ha : p a with
        | false => exact .inl (List.forall_mem_cons.mpr ⟨ha, hnone⟩)
        | true => exact .inr ⟨[], a, l, rfl, ha, hnone⟩
      · exact .inr ⟨a :: before, b, after, rfl, hb, hafter⟩

/-- A back part with a property stands behind every front part that ends without it. -/
theorem exists_of_append_eq_append {p : α → Bool} {front front' back back' : List α}
    (h : front ++ back = front' ++ back') (hback : ∀ a ∈ back, p a)
    (hfront' : ∀ a ∈ front'.getLast?, p a = false) :
    ∃ middle, front = front' ++ middle ∧ back' = middle ++ back := by
  rcases List.append_eq_append_iff.mp h with ⟨rest, rfl, rfl⟩ | ⟨middle, hfront, hback'⟩
  -- the other front part reaches into the back part, so that it ends there or takes nothing of it
  · cases hlast : rest.getLast? with
    | none =>
        obtain rfl := List.getLast?_eq_none_iff.mp hlast
        exact ⟨[], by simp, rfl⟩
    | some a =>
        have hno := hfront' a (by simp [List.getLast?_append, hlast])
        have hyes := hback a (List.mem_append_left _ (List.mem_of_getLast? hlast))
        rw [hyes] at hno
        cases hno
  · exact ⟨middle, hfront, hback'⟩

/-- What ends without a property is a front part of a list with a run behind it and one element more
in two ways only. -/
theorem concat_prefix_iff {p : α → Bool} {l front run : List α} {a b : α} (hrun : ∀ c ∈ run, p c)
    (ha : p a = false) :
    front ++ [a] <+: l ++ (run ++ [b]) ↔ front ++ [a] <+: l ∨ front = l ++ run ∧ a = b := by
  constructor
  · rintro ⟨rest, h⟩
    -- it takes in the last element, or it ends before it and so before the run
    rcases List.eq_nil_or_concat' rest with rfl | ⟨rest, c, rfl⟩
    · right
      rw [List.append_nil, ← List.append_assoc] at h
      obtain ⟨hfront, hlast⟩ := List.append_inj' h rfl
      exact ⟨hfront, List.singleton_inj.mp hlast⟩
    · left
      rw [← List.append_assoc, ← List.append_assoc l] at h
      obtain ⟨h, -⟩ := List.append_inj' h rfl
      obtain ⟨middle, rfl, -⟩ := exists_of_append_eq_append h.symm hrun (by simp [ha])
      exact List.prefix_append _ _
  · rintro (h | ⟨rfl, rfl⟩)
    · exact h.trans (List.prefix_append _ _)
    · exact ⟨[], by rw [List.append_nil, List.append_assoc]⟩

/-- The first element of what is left of a list, and what is left behind it. -/
theorem of_drop_eq_cons {l rest : List α} {k : Nat} {a : α} (h : l.drop k = a :: rest) :
    l[k]? = some a ∧ l.drop (k + 1) = rest := by
  constructor
  · rw [← List.head?_drop, h]
    rfl
  · rw [← List.tail_drop, h]
    rfl

/-- A stricter filter makes no difference exactly if what it drops in addition is mapped to
nothing. -/
theorem filterMap_filter_eq_iff {p q : α → Bool} (hpq : ∀ a, p a → q a) (f : α → Option β)
    (l : List α) :
    (l.filter q).filterMap f = (l.filter p).filterMap f ↔
      ∀ a ∈ l, q a → p a = false → f a = none := by
  induction l with
  | nil => simp
  | cons a l ih =>
      have hsublist : ((l.filter p).filterMap f).Sublist ((l.filter q).filterMap f) :=
        (List.monotone_filter_right l hpq).filterMap f
      rw [List.forall_mem_cons, ← ih]
      cases hp : p a with
      | true => cases hf : f a <;> simp [hp, hpq a hp, hf]
      | false =>
          cases hq : q a with
          | false => simp [hp, hq]
          | true =>
              cases hf : f a with
              | none => simp [hp, hq, hf]
              | some b =>
                  -- the wider filter keeps one more
                  have hne : b :: (l.filter q).filterMap f ≠ (l.filter p).filterMap f := by
                    intro h
                    have hlength := hsublist.length_le
                    rw [← h, List.length_cons] at hlength
                    omega
                  simp [hp, hq, hf, hne]

section Parts

variable {p : α → Bool}

/-- The first part is the run before the first separator. -/
theorem exists_splitOnP_eq_cons (p : α → Bool) (l : List α) :
    ∃ parts, l.splitOnP p = l.takeWhile (!p ·) :: parts := by
  induction l with
  | nil => exact ⟨[], rfl⟩
  | cons a l ih =>
      obtain ⟨parts, hparts⟩ := ih
      rw [List.splitOnP_cons_eq_if_modifyHead, hparts]
      cases ha : p a with
      | true => exact ⟨l.takeWhile (!p ·) :: parts, by simp [ha]⟩
      | false => exact ⟨parts, by simp [ha]⟩

/-- A pattern without separators occurs in a list exactly if it occurs in one of its parts. -/
theorem infix_iff_exists_splitOnP {pattern : List α} (hne : pattern ≠ [])
    (hpattern : ∀ a ∈ pattern, p a = false) (l : List α) :
    pattern <:+: l ↔ ∃ part ∈ l.splitOnP p, pattern <:+: part := by
  induction l with
  | nil => simp
  | cons a l ih =>
      obtain ⟨parts, hparts⟩ := exists_splitOnP_eq_cons p l
      rw [List.infix_cons_iff, ih, List.splitOnP_cons_eq_if_modifyHead, hparts]
      cases ha : p a with
      -- the pattern does not begin with a separator
      | true =>
          have hfront : ¬ pattern <+: a :: l := by
            intro h
            obtain ⟨b, pattern', rfl⟩ := List.exists_cons_of_ne_nil hne
            obtain ⟨rfl, -⟩ := List.cons_prefix_cons.mp h
            rw [hpattern b List.mem_cons_self] at ha
            cases ha
          simp [hfront, hne]
      -- at the front it cannot go beyond the first part
      | false =>
          have hfront : pattern <+: a :: l ↔ pattern <+: a :: l.takeWhile (!p ·) := by
            have htake : (a :: l).takeWhile (!p ·) = a :: l.takeWhile (!p ·) := by simp [ha]
            rw [← htake]
            exact (prefix_takeWhile_iff fun b hb => by simp [hpattern b hb]).symm
          simp only [Bool.false_eq_true, if_false, List.modifyHead_cons, List.exists_mem_cons_iff,
            List.infix_cons_iff (a := a), hfront, or_assoc]

end Parts

end CellAtlas
