import CellAtlas.Source.Statement

/-!
# Segments and their depths

A segment goes up to the next terminator (`segments_append_cons`), which cuts a line for good: what
stands up to it and what stands behind it are segmented, and read as statements, each by itself
(`segments_append_terminator`, `statements_append_terminator`).
The depth of a statement is the one that the braces in front of it lead to (`standsIn_of_mem`).
-/

namespace CellAtlas.Source

open Text

variable {t : Char} {depth : Int} {s : Statement}

theorem segments_ne_nil {cs : List Char} (h : cs ≠ []) : segments cs ≠ [] := by
  intro hnil
  apply h
  rw [← flatten_segments cs, hnil]
  rfl

/-- A text without terminators is part of the segment that the next terminator ends. -/
theorem segments_append_cons {cs : List Char} (h : ∀ c ∈ cs, isTerminator c = false)
    (ht : isTerminator t) (rest : List Char) :
    segments (cs ++ t :: rest) = (cs ++ [t]) :: segments rest := by
  induction cs with
  | nil => rw [List.nil_append, segments, if_pos ht, List.nil_append]
  | cons c cs ih =>
      obtain ⟨hc, hcs⟩ := List.forall_mem_cons.mp h
      rw [List.cons_append, segments, if_neg (by simp [hc]), ih hcs]
      rfl

/-- A terminator cuts a line for good. -/
theorem segments_append_terminator (ht : isTerminator t) (cs rest : List Char) :
    segments (cs ++ t :: rest) = segments (cs ++ [t]) ++ segments rest := by
  induction cs with
  | nil =>
      rw [List.nil_append, List.nil_append, segments, if_pos ht, segments, if_pos ht]
      rfl
  | cons c cs ih =>
      rw [List.cons_append, List.cons_append, segments, segments, ih]
      split
      next => rw [List.cons_append]
      next =>
        obtain ⟨part, parts, hparts⟩ :=
          List.exists_cons_of_ne_nil (segments_ne_nil (by simp : cs ++ [t] ≠ []))
        rw [hparts]
        rfl

/-! ### Statements of consecutive segments -/

/-- Later segments start at the depth that the earlier ones lead to. -/
theorem statementsOf_append (depth : Int) (ss ss' : List (List Char)) :
    statementsOf depth (ss ++ ss')
      = statementsOf depth ss ++ statementsOf (depth + balance ss.flatten) ss' := by
  induction ss generalizing depth with
  | nil => rw [List.nil_append, List.flatten_nil, show balance [] = 0 from rfl, Int.add_zero]; rfl
  | cons s ss ih =>
      rw [List.cons_append, statementsOf, statementsOf, List.flatten_cons, balance_append,
        ← Int.add_assoc, ih]
      split
      next => rfl
      next => rw [List.cons_append]

/-- The statements behind a terminator start at the depth that the text up to it leads to. -/
theorem statements_append_terminator (ht : isTerminator t) (cs rest : List Char) (depth : Int) :
    statements (cs ++ t :: rest) depth
      = statements (cs ++ [t]) depth ++ statements rest (depth + balance (cs ++ [t])) := by
  rw [statements, segments_append_terminator ht, statementsOf_append, flatten_segments]
  rfl

/-! ### Depths -/

/-- A statement is a trimmed segment of a text that starts at `depth`, and its own depth is what the
braces in front of the segment make of that. -/
def Statement.StandsIn (s : Statement) (depth : Int) (text : List Char) : Prop :=
  ∃ before segment after, text = before ++ (segment ++ after) ∧ s.text = trim segment ∧
    s.depth = depth + balance before

/-- A text in front counts with its braces. -/
theorem Statement.StandsIn.behind {text : List Char} (front : List Char)
    (h : s.StandsIn (depth + balance front) text) : s.StandsIn depth (front ++ text) := by
  obtain ⟨before, segment, after, rfl, htext, hdepth⟩ := h
  refine ⟨front ++ before, segment, after, ?_, htext, ?_⟩
  · rw [List.append_assoc]
  · rw [hdepth, balance_append, Int.add_assoc]

theorem Statement.StandsIn.append {text : List Char} (h : s.StandsIn depth text)
    (rest : List Char) : s.StandsIn depth (text ++ rest) := by
  obtain ⟨before, segment, after, rfl, htext, hdepth⟩ := h
  refine ⟨before, segment, after ++ rest, ?_, htext, hdepth⟩
  simp only [List.append_assoc]

/-- By induction on the segments, each of which adds its braces to the depth of those behind it. -/
theorem standsIn_of_mem_statementsOf {ss : List (List Char)} (h : s ∈ statementsOf depth ss) :
    s.StandsIn depth ss.flatten := by
  induction ss generalizing depth with
  | nil => exact absurd h List.not_mem_nil
  | cons segment ss ih =>
      have hrest : s ∈ statementsOf (depth + balance segment) ss →
          s.StandsIn depth (segment :: ss).flatten := by
        intro hs
        rw [List.flatten_cons]
        exact (ih hs).behind segment
      rw [statementsOf] at h
      split at h
      next => exact hrest h
      next =>
        rcases List.mem_cons.mp h with rfl | hs
        · refine ⟨[], segment, ss.flatten, rfl, rfl, ?_⟩
          rw [show balance [] = 0 from rfl, Int.add_zero]
        · exact hrest hs

theorem standsIn_of_mem {line : List Char} (h : s ∈ statements line depth) :
    s.StandsIn depth line := by
  rw [← flatten_segments line]
  exact standsIn_of_mem_statementsOf h

end CellAtlas.Source
