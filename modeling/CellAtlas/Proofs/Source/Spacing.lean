import CellAtlas.Proofs.Source.Padding

/-!
# The layout of a text

How a text is laid out makes no difference to what it declares: runs of blanks without a line feed
may stand at the ends of its lines and on both sides of its terminators (`scan_spacing`).

    struct Node{int data;Node*next;};        struct Node { int data ; Node*next ; } ;

A spacing of a text has a run of blanks for every place between two of its characters. A run changes
one line of the text, into one that is read alike (`scan_insert`), and so the runs go in one after
the other, from the front of the text to its end (`scan_spread`).
-/

namespace CellAtlas.Source

open Text

/-- What ends a line or a statement. -/
def isEdge (c : Char) : Bool := c == '\n' || isTerminator c

/-- The place between two parts of a text is one at an end of a line or next to a terminator. -/
def AtEdge (before after : List Char) : Prop :=
  (∀ c ∈ before.getLast?, isEdge c) ∨ ∀ c ∈ after.head?, isEdge c

/-- Runs of blanks for the places in a text, of which place `i` has `i` characters in front of it.
None of them breaks a line, and only places at edges have any. -/
structure Spacing (cs : List Char) where
  run : Nat → Blanks
  newline_not_mem : ∀ i, '\n' ∉ (run i).val
  edge : ∀ i, (run i).val ≠ [] → AtEdge (cs.take i) (cs.drop i)

/-- A text with a run of blanks at each place, the first of which is place `i`. -/
def spread (run : Nat → Blanks) (i : Nat) : List Char → List Char
  | [] => run i
  | c :: cs => run i ++ c :: spread run (i + 1) cs

def Spacing.text {cs : List Char} (s : Spacing cs) : String := String.ofList (spread s.run 0 cs)

/-! ### One run of blanks -/

/-- Lines that cannot be told apart may replace each other. -/
theorem scanLines_replace {line line' : List Char} (h : Alike line line')
    (current : Option OpenStructure) (number : Int) (before after : List (List Char)) :
    scanLines current number (before ++ line :: after)
      = scanLines current number (before ++ line' :: after) := by
  simp only [scanLines_append, scanLines, h.scanLine_eq]

theorem isTerminator_of_isEdge {c : Char} (h : isEdge c) (hne : c ≠ '\n') : isTerminator c := by
  simpa [isEdge, hne] using h

/-- Inside a line a place at an edge is one at an end of the line or next to a terminator. -/
theorem AtEdge.in_line {before after left right : List Char} (h : AtEdge before after)
    (hbefore : left <:+ before) (hafter : right <+: after) (hleft : '\n' ∉ left)
    (hright : '\n' ∉ right) :
    (∀ c ∈ left.getLast?, isTerminator c) ∨ ∀ c ∈ right.head?, isTerminator c := by
  obtain ⟨front, rfl⟩ := hbefore
  obtain ⟨back, rfl⟩ := hafter
  rcases h with h | h
  -- what ends the part of the line is no line feed, so that it is a terminator
  · left
    intro c hc
    have hedge : isEdge c := by
      apply h
      rw [List.getLast?_append, Option.mem_def.mp hc]
      rfl
    exact isTerminator_of_isEdge hedge (ne_of_mem_of_not_mem (List.mem_of_mem_getLast? hc) hleft)
  · right
    intro c hc
    have hedge : isEdge c := by
      apply h
      rw [List.head?_append, Option.mem_def.mp hc]
      rfl
    exact isTerminator_of_isEdge hedge (ne_of_mem_of_not_mem (List.mem_of_mem_head? hc) hright)

/-- Blanks at an edge make no difference. -/
theorem scan_insert {before after : List Char} (w : Blanks) (hw : '\n' ∉ w.val)
    (h : w.val ≠ [] → AtEdge before after) :
    scan (String.ofList (before ++ (w ++ after))) = scan (String.ofList (before ++ after)) := by
  by_cases hne : w.val = []
  · rw [hne, List.nil_append]
  obtain ⟨upper, left, hleft, hnone, hbefore⟩ := exists_split_append '\n' before
  obtain ⟨right, lower, hright, hnone', hafter⟩ := exists_append_split '\n' after
  -- the place is in one line, between its left and its right part
  have hlines : ∀ w : List Char, '\n' ∉ w →
      linesOf (String.ofList (before ++ (w ++ after)))
        = upper.map trim ++ trim (left ++ (w ++ right)) :: lower.map trim := by
    intro w hw
    have hfront : '\n' ∉ left ++ w := by
      rw [List.mem_append, not_or]
      exact ⟨hnone, hw⟩
    rw [linesOf, String.toList_ofList, hbefore, ← List.append_assoc, hafter _ hfront,
      List.map_append, List.map_cons, List.append_assoc]
  have hplain := hlines [] List.not_mem_nil
  rw [List.nil_append] at hplain
  -- trimmed, the line with the blanks and the one without them cannot be told apart
  have halike : Alike (trim (left ++ (w ++ right))) (trim (left ++ right)) :=
    Alike.trim_blanks w ((h hne).in_line hleft hright hnone hnone')
  rw [scan, scan, hlines w hw, hplain]
  exact congrArg Prod.fst (scanLines_replace halike _ _ _ _)

/-! ### A run at each place -/

theorem AtEdge.of_cons {before before' upper lower : List Char} {c : Char}
    (h : AtEdge (before ++ c :: upper) lower) : AtEdge (before' ++ [c] ++ upper) lower := by
  have hlast : (before' ++ [c] ++ upper).getLast? = (before ++ c :: upper).getLast? := by
    simp [List.getLast?_append, List.getLast?_cons]
  rwa [AtEdge, hlast]

/-- Blanks at edges make no difference. Others may have been put in before them. -/
theorem scan_spread {run : Nat → Blanks} (hrun : ∀ i, '\n' ∉ (run i).val)
    (before after : List Char) (i : Nat)
    (hedge : ∀ upper lower, after = upper ++ lower → (run (i + upper.length)).val ≠ [] →
      AtEdge (before ++ upper) lower) :
    scan (String.ofList (before ++ spread run i after))
      = scan (String.ofList (before ++ after)) := by
  induction after generalizing before i with
  | nil =>
      have hinsert := scan_insert (run i) (hrun i) (hedge [] [] rfl)
      rwa [List.append_nil, List.append_nil] at hinsert
  | cons c cs ih =>
      have hinsert := scan_insert (run i) (hrun i) (hedge [] (c :: cs) rfl)
      rw [List.append_nil] at hinsert
      have hshift : ∀ cs : List Char,
          before ++ (run i ++ c :: cs) = before ++ run i ++ [c] ++ cs := by simp
      -- the places behind this one have the run and the character in front of them too
      have hrest : ∀ upper lower, cs = upper ++ lower →
          (run (i + 1 + upper.length)).val ≠ [] →
            AtEdge (before ++ run i ++ [c] ++ upper) lower := by
        intro upper lower hcs hne
        have hplace : i + 1 + upper.length = i + (c :: upper).length := by
          rw [List.length_cons]
          omega
        rw [hplace] at hne
        exact (hedge (c :: upper) lower (by rw [hcs]; rfl) hne).of_cons
      rw [spread, hshift, ih _ _ hrest, ← hshift, hinsert]

/-! ### Texts -/

/-- A spacing makes no difference. -/
theorem Spacing.scan_eq {text : String} (s : Spacing text.toList) : scan s.text = scan text := by
  have hedge : ∀ upper lower, text.toList = upper ++ lower →
      (s.run (0 + upper.length)).val ≠ [] → AtEdge ([] ++ upper) lower := by
    intro upper lower htext hne
    have hplace := s.edge _ hne
    rwa [Nat.zero_add, htext, List.take_left, List.drop_left] at hplace
  have hspread := scan_spread s.newline_not_mem [] text.toList 0 hedge
  rwa [List.nil_append, List.nil_append, String.ofList_toList] at hspread

def withReturn (c : Char) : List Char := if c = '\n' then ['\r', '\n'] else [c]

/-- A text with a carriage return in front of each line feed. -/
def withReturns (text : String) : String := String.ofList (text.toList.flatMap withReturn)

/-- The carriage returns as a spacing. -/
def returns (cs : List Char) : Spacing cs where
  run i :=
    if cs[i]? = some '\n' then ⟨['\r'], List.forall_mem_singleton.mpr (by decide)⟩
    else ⟨[], List.forall_mem_nil _⟩
  newline_not_mem i := by
    split <;> decide
  edge i h := by
    split at h
    next hi =>
      right
      rw [List.head?_drop, hi]
      rintro c ⟨⟩
      rfl
    next => exact absurd rfl h

/-- The carriage returns are at places that have a line feed behind them. -/
theorem spread_returns (before after : List Char) :
    spread (returns (before ++ after)).run before.length after = after.flatMap withReturn := by
  induction after generalizing before with
  | nil => simp [spread, returns]
  | cons c cs ih =>
      have hrest := ih (before ++ [c])
      rw [List.length_append, List.append_assoc] at hrest
      have hrun : ((returns (before ++ c :: cs)).run before.length).val ++ [c] = withReturn c := by
        by_cases hc : c = '\n' <;> simp [returns, withReturn, hc]
      rw [spread, List.flatMap_cons, ← hrest, List.append_cons, hrun]
      rfl

theorem returns_text (text : String) : (returns text.toList).text = withReturns text :=
  congrArg String.ofList (spread_returns [] text.toList)

/-- The layout of a text makes no difference: blanks other than line feeds may stand at the ends of
its lines and on both sides of its terminators. So may a carriage return in front of each line
feed. -/
theorem scan_spacing (text : String) :
    (∀ s : Spacing text.toList, scan s.text = scan text) ∧ scan (withReturns text) = scan text := by
  refine ⟨Spacing.scan_eq, ?_⟩
  rw [← returns_text, Spacing.scan_eq]

end CellAtlas.Source
