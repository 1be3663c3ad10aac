import CellAtlas.Proofs.Source.Padding
import CellAtlas.Source.Scan
import Mathlib.Data.List.Infix

/-!
# Cutting a line character by character

A line falls into full segments, each of which ends with the only terminator it has, and a rest
without terminators. There is one way to do this (`Cut.unique`), and its segments are those of
`segments`.

`Cutting` gets there by taking in one character after the other. It keeps the characters since the
last terminator, and a depth that every brace moves by one:

    line ──feed──▶ statements so far, pending characters, depth ──finish──▶ statements

`Follows` is the invariant that ties all three to the part of the line that has been read. Main
statement: `statements_cut`.
-/

namespace CellAtlas.Source

open Text

variable {line rest : List Char} {full : List (List Char)} {depth : Int}

/-! ### The cuts of a line -/

/-- A segment ends with a terminator and has no other one. -/
def IsFull (segment : List Char) : Prop :=
  ∃ front t, segment = front ++ [t] ∧ isTerminator t ∧ ∀ c ∈ front, isTerminator c = false

/-- A line is made of full segments and a rest without terminators. -/
structure Cut (line : List Char) (full : List (List Char)) (rest : List Char) : Prop where
  line_eq : line = full.flatten ++ rest
  full : ∀ s ∈ full, IsFull s
  rest : ∀ c ∈ rest, isTerminator c = false

theorem IsFull.any_isTerminator {s : List Char} (h : IsFull s) : s.any isTerminator := by
  obtain ⟨front, t, rfl, ht, -⟩ := h
  simp [ht]

/-- Without terminators a line is one segment. -/
theorem segments_of_forall (hne : line ≠ []) (h : ∀ c ∈ line, isTerminator c = false) :
    segments line = [line] := by
  induction line with
  | nil => exact absurd rfl hne
  | cons c cs ih =>
      obtain ⟨hc, hcs⟩ := List.forall_mem_cons.mp h
      rw [segments, if_neg (by simp [hc])]
      by_cases hnil : cs = []
      · subst hnil
        rfl
      · rw [ih hnil hcs]

/-- Without braces there is nothing to balance. -/
theorem balance_of_forall {cs : List Char} (h : ∀ c ∈ cs, isTerminator c = false) :
    balance cs = 0 := by
  have hcount : ∀ t, isTerminator t → cs.count t = 0 := by
    intro t ht
    rw [List.count_eq_zero]
    intro hmem
    rw [h t hmem] at ht
    cases ht
  rw [balance, hcount '{' rfl, hcount '}' rfl]
  rfl

namespace Cut

/-- The segments are the full ones, and the rest if there is one. -/
theorem segments_eq (h : Cut line full rest) :
    segments line = full ++ if rest = [] then [] else [rest] := by
  obtain ⟨rfl, hfull, hrest⟩ := h
  induction full with
  | nil =>
      rw [List.flatten_nil, List.nil_append, List.nil_append]
      split
      next hnil => rw [hnil]; rfl
      next hne => exact segments_of_forall hne hrest
  | cons s full ih =>
      obtain ⟨⟨front, t, rfl, ht, hfront⟩, hmore⟩ := List.forall_mem_cons.mp hfull
      have hline : ((front ++ [t]) :: full).flatten ++ rest
          = front ++ t :: (full.flatten ++ rest) := by simp
      rw [hline, segments_append_cons hfront ht, ih hmore]
      rfl

/-- The full segments are the segments that have a terminator. -/
theorem full_eq (h : Cut line full rest) :
    full = (segments line).filter (·.any isTerminator) := by
  have hfull : full.filter (·.any isTerminator) = full :=
    List.filter_eq_self.mpr fun s hs => (h.full s hs).any_isTerminator
  have hrest : rest.any isTerminator = false := by
    simpa using h.rest
  rw [h.segments_eq, List.filter_append, hfull]
  split <;> simp [hrest]

/-- The segments are determined, since one ends at every terminator. -/
theorem unique {full' : List (List Char)} {rest' : List Char} (h : Cut line full rest)
    (h' : Cut line full' rest') : full' = full ∧ rest' = rest := by
  obtain rfl : full' = full := h'.full_eq.trans h.full_eq.symm
  exact ⟨rfl, List.append_cancel_left (h'.line_eq.symm.trans h.line_eq)⟩

/-- A rest that is empty says nothing. -/
theorem statements_eq (h : Cut line full rest) (depth : Int) :
    statements line depth = statementsOf depth (full ++ [rest]) := by
  rw [statements, h.segments_eq, statementsOf_append, statementsOf_append]
  split
  next hnil => rw [hnil]; rfl
  next => rfl

theorem balance_eq (h : Cut line full rest) : balance line = balance full.flatten := by
  rw [h.line_eq, balance_append, balance_of_forall h.rest, Int.add_zero]

theorem nil : Cut [] [] [] := ⟨rfl, List.forall_mem_nil _, List.forall_mem_nil _⟩

/-- A terminator ends a segment. -/
theorem concat_terminator (h : Cut line full rest) {c : Char} (hc : isTerminator c) :
    Cut (line ++ [c]) (full ++ [rest ++ [c]]) [] where
  line_eq := by simp [h.line_eq]
  full := List.forall_mem_append.mpr
    ⟨h.full, List.forall_mem_singleton.mpr ⟨rest, c, rfl, hc, h.rest⟩⟩
  rest := List.forall_mem_nil _

/-- Any other character goes to the rest. -/
theorem concat_other (h : Cut line full rest) {c : Char} (hc : isTerminator c = false) :
    Cut (line ++ [c]) full (rest ++ [c]) where
  line_eq := by rw [h.line_eq, List.append_assoc]
  full := h.full
  rest := List.forall_mem_append.mpr ⟨h.rest, List.forall_mem_singleton.mpr hc⟩

end Cut

/-! ### Statements and what stands before them -/

/-- What a segment says behind some text: nothing if it is blank or a terminator on its own. -/
def saying (depth : Int) (before segment : List Char) : Option Statement :=
  if trim segment = [] ∨ trim segment ∈ [['{'], ['}'], [';']] then none
  else some ⟨trim segment, depth + before.count '{' - before.count '}'⟩

theorem isVacuous_iff (cs : List Char) : isVacuous cs ↔ cs = [] ∨ cs ∈ [['{'], ['}'], [';']] := by
  match cs with
  | [] => simp [isVacuous]
  | [c] => simp [isVacuous, isTerminator, or_assoc]
  | _ :: _ :: _ => simp [isVacuous]

/-- Without terminators a text is vacuous only if there is none of it. -/
theorem isVacuous_of_forall {cs : List Char} (h : ∀ c ∈ cs, isTerminator c = false) :
    isVacuous cs ↔ cs = [] := by
  match cs with
  | [] => simp [isVacuous]
  | [c] => simp [isVacuous, h c List.mem_cons_self]
  | _ :: _ :: _ => simp [isVacuous]

theorem saying_append (depth : Int) (front before segment : List Char) :
    saying depth (front ++ before) segment = saying (depth + balance front) before segment := by
  have hdepth : depth + (front ++ before).count '{' - (front ++ before).count '}' =
      depth + balance front + before.count '{' - before.count '}' := by
    rw [balance, List.count_append, List.count_append]
    omega
  rw [saying, saying, hdepth]

/-- Each segment is paired with the segments before it. -/
theorem statementsOf_eq_filterMap (depth : Int) (ss : List (List Char)) :
    statementsOf depth ss =
      (ss.inits.zip ss).filterMap fun p => saying depth p.1.flatten p.2 := by
  induction ss generalizing depth with
  | nil => rfl
  | cons s ss ih =>
      -- what is in front of the other segments is one more segment, which only adds to the depth
      have hshift : (fun p : List (List Char) × List Char =>
          saying depth (s :: p.1).flatten p.2) =
            fun p => saying (depth + balance s) p.1.flatten p.2 :=
        funext fun p => saying_append depth s p.1.flatten p.2
      have hfirst : saying depth [] s =
          if isVacuous (trim s) then none else some ⟨trim s, depth⟩ := by
        simp [saying, isVacuous_iff]
      rw [statementsOf, List.inits_cons, List.zip_cons_cons, List.filterMap_cons, List.zip_map_left,
        List.filterMap_map]
      simp only [Function.comp_def, Prod.map_fst, Prod.map_snd, id_eq, List.flatten_nil, hshift,
        ← ih, hfirst]
      cases isVacuous (trim s) <;> rfl

theorem mem_of_mem_trim {c : Char} {cs : List Char} (h : c ∈ trim cs) : c ∈ cs := by
  have h' := (List.dropWhile_sublist _).subset (List.mem_reverse.mp h)
  exact (List.dropWhile_sublist _).subset (List.mem_reverse.mp h')

/-- A text says something, and of its characters only the last may be a terminator. -/
def Statement.IsWhole (s : Statement) : Prop :=
  s.text ≠ [] ∧ ∀ c ∈ s.text.dropLast, isTerminator c = false

theorem mem_of_mem_statementsOf {s : Statement} {ss : List (List Char)}
    (h : s ∈ statementsOf depth ss) : s.text ≠ [] ∧ ∃ segment ∈ ss, s.text = trim segment := by
  rw [statementsOf_eq_filterMap, List.mem_filterMap] at h
  obtain ⟨⟨before, segment⟩, hmem, hsaying⟩ := h
  rw [saying] at hsaying
  split at hsaying
  next => cases hsaying
  next hvacuous =>
    cases hsaying
    exact ⟨mt .inl hvacuous, segment, (List.of_mem_zip hmem).2, rfl⟩

/-- Trimming a segment keeps its terminator at the end, for it is no blank. -/
theorem Cut.isWhole (h : Cut line full rest) {s : Statement} (hs : s ∈ statements line depth) :
    s.IsWhole := by
  rw [h.statements_eq] at hs
  obtain ⟨hne, segment, hsegment, htext⟩ := mem_of_mem_statementsOf hs
  refine ⟨hne, ?_⟩
  rw [htext]
  -- a full segment has its only terminator at its end, the rest has none
  rcases List.mem_append.mp hsegment with hfull | hrest
  · obtain ⟨front, t, rfl, ht, hfront⟩ := h.full segment hfull
    rw [trim_append_cons (isBlank_of_isTerminator ht) front []]
    intro c hc
    rw [show trimEnd [] = [] from rfl, List.dropLast_concat] at hc
    exact hfront c ((List.dropWhile_sublist _).subset hc)
  · obtain rfl := List.mem_singleton.mp hrest
    intro c hc
    exact h.rest c (mem_of_mem_trim (List.mem_of_mem_dropLast hc))

/-! ### One character after the other -/

/-- A line of which some characters have been taken in: the statements that have ended, the
characters since the last terminator, and the depth in effect. -/
structure Cutting where
  statements : List Statement := []
  pending : List Char := []
  depth : Int

namespace Cutting

/-- Take in a character. A terminator ends a statement, which counts if it is not all there is. -/
def feed (r : Cutting) (c : Char) : Cutting :=
  if isTerminator c then
    let text := trim (r.pending ++ [c])
    { statements := if 1 < text.length then r.statements ++ [⟨text, r.depth⟩] else r.statements
      depth := if c = '{' then r.depth + 1 else if c = '}' then r.depth - 1 else r.depth }
  else { r with pending := r.pending ++ [c] }

def finish (r : Cutting) : List Statement :=
  if trim r.pending = [] then r.statements else r.statements ++ [⟨trim r.pending, r.depth⟩]

/-- Everything is as the part of a line that has been read says, which starts at `depth`. -/
def Follows (r : Cutting) (depth : Int) (line : List Char) : Prop :=
  ∃ full, Cut line full r.pending ∧ r.statements = statementsOf depth full ∧
    r.depth = depth + balance line

variable {r : Cutting}

theorem follows_start (depth : Int) : Follows { depth } depth [] :=
  ⟨[], .nil, rfl, (Int.add_zero depth).symm⟩

/-- A segment that ends with a terminator says something if there is more to it. -/
theorem statementsOf_full {x : List Char} {t : Char} (ht : isTerminator t) :
    statementsOf depth [x ++ [t]] =
      if 1 < (trim (x ++ [t])).length then [⟨trim (x ++ [t]), depth⟩] else [] := by
  have htrim : trim (x ++ [t]) = skipBlanks x ++ [t] :=
    trim_append_cons (isBlank_of_isTerminator ht) x []
  have hlength : 1 < (skipBlanks x ++ [t]).length ↔ ¬ isVacuous (skipBlanks x ++ [t]) := by
    rw [isVacuous_concat ht, List.length_append, ← List.length_eq_zero_iff, List.length_singleton]
    omega
  rw [statementsOf, htrim]
  simp only [hlength, ite_not]
  rfl

theorem balance_terminator {c : Char} (hc : isTerminator c) :
    balance [c] = if c = '{' then 1 else if c = '}' then -1 else 0 := by
  simp only [isTerminator, Bool.or_eq_true, beq_iff_eq] at hc
  rcases hc with (rfl | rfl) | rfl <;> rfl

/-- One character preserves the invariant: a terminator makes a full segment of what is pending, and
any other character is pending too. -/
theorem Follows.feed (h : r.Follows depth line) (c : Char) :
    (r.feed c).Follows depth (line ++ [c]) := by
  obtain ⟨full, hcut, hstatements, hdepth⟩ := h
  cases hc : isTerminator c with
  | true =>
      have hbalance : balance (line ++ [c]) = balance line + balance [c] := balance_append _ _
      refine ⟨full ++ [r.pending ++ [c]], ?_, ?_, ?_⟩
      · rw [Cutting.feed, if_pos hc]
        exact hcut.concat_terminator hc
      · rw [statementsOf_append, ← hcut.balance_eq, ← hdepth, ← hstatements, statementsOf_full hc,
          Cutting.feed, if_pos hc]
        dsimp only
        split
        next => rfl
        next => rw [List.append_nil]
      · rw [hbalance, balance_terminator hc, Cutting.feed, if_pos hc]
        dsimp only
        rw [hdepth]
        split
        next => omega
        next => split <;> omega
  | false =>
      have hbalance : balance (line ++ [c]) = balance line := by
        rw [balance_append, balance_of_forall (List.forall_mem_singleton.mpr hc), Int.add_zero]
      rw [Cutting.feed, if_neg (by simp [hc])]
      exact ⟨full, hcut.concat_other hc, hstatements, hbalance ▸ hdepth⟩

/-- By induction on the line, the invariant holds when all of it has been taken in. -/
theorem Follows.foldl (h : r.Follows depth line) (more : List Char) :
    (more.foldl Cutting.feed r).Follows depth (line ++ more) := by
  induction more generalizing r line with
  | nil => rwa [List.append_nil]
  | cons c more ih =>
      rw [List.foldl_cons, ← List.concat_append, List.concat_eq_append]
      exact ih (h.feed c)

/-- At the end of the line what is pending is the rest. -/
theorem Follows.finish (h : r.Follows depth line) : r.finish = Source.statements line depth := by
  obtain ⟨full, hcut, hstatements, hdepth⟩ := h
  have hvacuous : isVacuous (trim r.pending) ↔ trim r.pending = [] :=
    isVacuous_of_forall fun c hc => hcut.rest c (mem_of_mem_trim hc)
  rw [hcut.statements_eq, statementsOf_append, ← hcut.balance_eq, ← hdepth, ← hstatements,
    Cutting.finish, statementsOf]
  simp only [hvacuous]
  split
  next => exact (List.append_nil _).symm
  next => rfl

end Cutting

/-- A line is cut behind its terminators and nowhere else, with no character lost. Its statements
are what the segments say, each at the depth that the braces before it lead to, and a terminator
stands at the end of a statement only. Taking in one character after the other comes to the same
statements, and at the end of the line to the depth at which an open structure goes on. -/
theorem statements_cut (line : List Char) (depth : Int) :
    ∃ full rest, Cut line full rest ∧
      (∀ full' rest', Cut line full' rest' → full' = full ∧ rest' = rest) ∧
      (statements line depth = ((full ++ [rest]).inits.zip (full ++ [rest])).filterMap fun p =>
        saying depth p.1.flatten p.2) ∧
      (∀ s ∈ statements line depth, s.IsWhole) ∧
      let last := line.foldl Cutting.feed { depth }
      last.finish = statements line depth ∧
      last.depth = depth + line.count '{' - line.count '}' ∧
      ∀ (o : OpenStructure) (number : Int),
        ({ o with depth }.absorb number line).depth = last.depth := by
  let last := line.foldl Cutting.feed { depth }
  have hfollows : last.Follows depth line := (Cutting.follows_start depth).foldl line
  have hfinish := hfollows.finish
  obtain ⟨full, hcut, -, hdepth⟩ := hfollows
  refine ⟨full, last.pending, hcut, fun _ _ => hcut.unique, ?_, fun _ => hcut.isWhole,
    hfinish, ?_, fun _ _ => hdepth.symm⟩
  · rw [hcut.statements_eq]
    exact statementsOf_eq_filterMap depth _
  · rw [hdepth, balance]
    omega

/-- A method on one line, whose body starts at depth two. -/
example : statements "class A \x7b void f() \x7b n++; \x7d int k \x7d;".toList 0 =
    [⟨"class A \x7b".toList, 0⟩, ⟨"void f() \x7b".toList, 1⟩, ⟨"n++;".toList, 2⟩,
      ⟨"int k \x7d".toList, 1⟩] := by decide

end CellAtlas.Source
