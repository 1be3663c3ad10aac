import CellAtlas.Proofs.Source.Body
import CellAtlas.Proofs.Source.Composition
import CellAtlas.Proofs.Source.RoundTrip

/-!
# Forward declarations

A line that opens a structure does so whether or not a body follows. A forward declaration has none,
and so the next lines are taken for one, up to the first that has a closing brace and balances the
braces (`scan_forward`):

    struct Node;                      opens Node
    struct List { Node* head; };      closes Node, with a member head

What stands in these lines is not found for itself. Hence the text below a forward declaration
declares what it declares by itself exactly if it declares nothing and no line of it closes the
structure.
-/

namespace CellAtlas.Source

open Text

def forwardLine (kind : Kind) (name : WrittenName) : List Char := titleText kind name ++ [';']

def forward (kind : Kind) (name : WrittenName) (text : String) : String :=
  String.ofList (forwardLine kind name) ++ "\n" ++ text

/-! ### Where an open structure is closed -/

section Closing

variable {lines rest : List (List Char)} {start stop k : Nat} {kind : Kind} {name : String}

/-- An open structure goes as far as the first line that closes it. -/
theorem scanLines_of_firstClosing (h : FirstClosing lines start stop) (hpos : 0 < start)
    (hstart : start ≤ k + 1) (hstop : k < stop) (hrest : lines.drop k = rest) :
    (scanLines (some (openBetween lines start k kind name)) ((k : Int) + 1) rest).1
      = structureBetween lines start stop kind name
        :: (scanLines none ((stop : Int) + 1) (lines.drop stop)).1 := by
  induction rest generalizing k with
  | nil =>
      have hlength := h.closes.le_length (by omega)
      have := List.drop_eq_nil_iff.mp hrest
      omega
  | cons line rest ih =>
      obtain ⟨hline, hdrop⟩ := of_drop_eq_cons hrest
      rw [scanLines]
      rcases scanLine_openBetween kind name hline hpos hstart with
        ⟨hcloses, hscan⟩ | ⟨hcloses, hscan⟩
      -- the line closes, so that it is the first one that does
      · have heq : k + 1 = stop := by
          rcases Nat.lt_or_eq_of_le (Nat.succ_le_of_lt hstop) with hlt | heq
          · exact absurd hcloses (h.first (k + 1) hstart hlt)
          · exact heq
        subst heq
        rw [hscan, hdrop]
        rfl
      · have hne : k + 1 ≠ stop := by
          rintro rfl
          exact hcloses h.closes
        rw [hscan]
        exact ih (by omega) (by omega) hdrop

/-- An open structure that no line closes is dropped, and all lines with it. -/
theorem scanLines_of_not_closesAt (h : ∀ stop, k < stop → ¬ ClosesAt lines start stop)
    (hpos : 0 < start) (hstart : start ≤ k + 1) (hrest : lines.drop k = rest) :
    (scanLines (some (openBetween lines start k kind name)) ((k : Int) + 1) rest).1 = [] := by
  induction rest generalizing k with
  | nil => rfl
  | cons line rest ih =>
      obtain ⟨hline, hdrop⟩ := of_drop_eq_cons hrest
      rw [scanLines]
      rcases scanLine_openBetween kind name hline hpos hstart with
        ⟨hcloses, -⟩ | ⟨-, hscan⟩
      · exact absurd hcloses (h (k + 1) (Nat.lt_succ_self k))
      · rw [hscan]
        exact ih (fun stop hstop => h stop (by omega)) (by omega) hdrop

/-- If any line closes a structure, there is a first one. -/
theorem exists_firstClosing (hstart : start ≤ k) (h : ClosesAt lines start k) :
    ∃ stop, FirstClosing lines start stop := by
  induction k using Nat.strongRecOn with
  | ind k ih =>
      by_cases hbefore : ∃ i, start ≤ i ∧ i < k ∧ ClosesAt lines start i
      · obtain ⟨i, hi, hik, hcloses⟩ := hbefore
        exact ih i hik hi hcloses
      · exact ⟨k, hstart, h, fun i hi hik hcloses => hbefore ⟨i, hi, hik, hcloses⟩⟩

end Closing

/-! ### Lines below a forward declaration -/

section Forward

variable (kind : Kind) (name : WrittenName) (text : String)

theorem isLine_forwardLine : IsLine (forwardLine kind name) := by
  refine ⟨?_, trim_titleText_append kind name rfl (by decide)⟩
  rw [forwardLine, List.mem_append, not_or]
  exact ⟨(unbroken_titleText kind name).newline_not_mem, by decide⟩

/-- The declaration is a line of its own. -/
theorem linesOf_forward :
    linesOf (forward kind name text) = forwardLine kind name :: linesOf text := by
  have hline := linesOf_intercalate (List.cons_ne_nil (forwardLine kind name) [])
    (List.forall_mem_singleton.mpr (isLine_forwardLine kind name))
  rw [List.intercalate_singleton] at hline
  rw [forward, linesOf_append, hline]
  rfl

/-- A structure without a body has no braces, so that it leaves the depth alone. -/
theorem count_forwardLine {c : Char} (hc : isTerminator c) (hne : c ≠ ';') :
    (forwardLine kind name).count c = 0 := by
  apply List.count_eq_zero.mpr
  rw [forwardLine, List.mem_append, List.mem_singleton, not_or]
  exact ⟨(unbroken_titleText kind name).not_mem hc, hne⟩

variable {kind name text}

/-- The line of a structure without a body does not close what it opens. -/
theorem not_closesAt_forwardLine (lines : List (List Char)) :
    ¬ ClosesAt (forwardLine kind name :: lines) 1 1 := by
  rintro ⟨⟨line, hline, hmem⟩, -⟩
  obtain rfl : forwardLine kind name = line := Option.some.inj hline
  exact List.count_eq_zero.mp (count_forwardLine kind name (by decide) (by decide)) hmem

/-- From the next line on the braces are those of the text. -/
theorem closesAt_forwardLine_succ {lines : List (List Char)} {k : Nat} (hk : 1 ≤ k) :
    ClosesAt (forwardLine kind name :: lines) 1 (k + 1) ↔ ClosesAt lines 1 k := by
  obtain ⟨j, rfl⟩ := Nat.exists_eq_add_of_le' hk
  have htext : textBetween (forwardLine kind name :: lines) 1 (j + 1 + 1)
      = forwardLine kind name ++ textBetween lines 1 (j + 1) := rfl
  rw [ClosesAt, ClosesAt, htext, List.count_append, List.count_append,
    count_forwardLine kind name (by decide) (by decide),
    count_forwardLine kind name (by decide) (by decide), Nat.zero_add, Nat.zero_add]
  rfl

/-- A forward declaration has no braces, so that it is closed by the lines below it alone. -/
theorem closesAt_forwardLine_iff {lines : List (List Char)} {k : Nat} (hk : 1 ≤ k) :
    ClosesAt (forwardLine kind name :: lines) 1 k ↔
      ∃ stop, 1 ≤ stop ∧ k = stop + 1 ∧ ClosesAt lines 1 stop := by
  constructor
  · intro hcloses
    rcases Nat.lt_or_eq_of_le hk with hlt | rfl
    · obtain ⟨stop, rfl⟩ := Nat.exists_eq_add_of_le' hk
      have hstop : 1 ≤ stop := Nat.le_of_lt_succ hlt
      exact ⟨stop, hstop, rfl, (closesAt_forwardLine_succ hstop).mp hcloses⟩
    · exact absurd hcloses (not_closesAt_forwardLine lines)
  · rintro ⟨stop, hstop, rfl, hcloses⟩
    exact (closesAt_forwardLine_succ hstop).mpr hcloses

theorem FirstClosing.behind_forwardLine (kind : Kind) (name : WrittenName)
    {lines : List (List Char)} {stop : Nat} (h : FirstClosing lines 1 stop) :
    FirstClosing (forwardLine kind name :: lines) 1 (stop + 1) := by
  refine ⟨Nat.le_add_left 1 stop, (closesAt_forwardLine_succ h.start_le).mpr h.closes, ?_⟩
  intro k hk hkstop hcloses
  obtain ⟨stop', hstop', rfl, hcloses'⟩ := (closesAt_forwardLine_iff hk).mp hcloses
  exact h.first stop' hstop' (Nat.lt_of_succ_lt_succ hkstop) hcloses'

/-- Scanning starts with the structure that the forward declaration opens. -/
theorem scan_forward_eq : scan (forward kind name text)
    = (scanLines (some (openBetween (linesOf (forward kind name text)) 1 0 kind
        (String.ofList name.text))) (((0 : Nat) : Int) + 1)
        (linesOf (forward kind name text))).1 := by
  have hopens : OpenStructure.ofLine? (((0 : Nat) : Int) + 1) (forwardLine kind name)
      = some { name := String.ofList name.text, kind, startLine := 1 } := by
    apply ofLine?_titleText_append
    rintro c ⟨⟩
    decide
  have hopen := openBetween_of_ofLine? (linesOf (forward kind name text)) hopens
  rw [← hopen, linesOf_forward, scanLines, ← scanLine_none_of_ofLine? hopens, ← scanLines,
    ← linesOf_forward]
  rfl

/-- The lines below a forward declaration are taken for the body of the structure, up to the first
that closes it. -/
theorem scan_forward_of_firstClosing {stop : Nat} (h : FirstClosing (linesOf text) 1 stop) :
    scan (forward kind name text)
      = structureBetween (linesOf (forward kind name text)) 1 (stop + 1) kind
          (String.ofList name.text)
        :: (scanLines none 1 ((linesOf text).drop stop)).1.map (·.shift ((stop : Int) + 1)) := by
  have hwhole := h.behind_forwardLine kind name
  rw [← linesOf_forward] at hwhole
  have hdrop : (linesOf (forward kind name text)).drop (stop + 1) = (linesOf text).drop stop := by
    rw [linesOf_forward, List.drop_succ_cons]
  have hnumber : ((stop + 1 : Nat) : Int) + 1 = 1 + ((stop : Int) + 1) := by omega
  have hrest : (scanLines none (1 + ((stop : Int) + 1)) ((linesOf text).drop stop)).1
      = (scanLines none 1 ((linesOf text).drop stop)).1.map (·.shift ((stop : Int) + 1)) :=
    congrArg Prod.fst (scanLines_shift ((stop : Int) + 1) 1 none ((linesOf text).drop stop))
  rw [scan_forward_eq, scanLines_of_firstClosing hwhole Nat.one_pos (Nat.le_refl 1)
    (Nat.succ_pos stop) List.drop_zero, hdrop, hnumber, hrest]

/-- Without a closing line everything below the declaration is lost. -/
theorem scan_forward_of_not_closesAt (h : ∀ stop, 1 ≤ stop → ¬ ClosesAt (linesOf text) 1 stop) :
    scan (forward kind name text) = [] := by
  have hwhole : ∀ k, 0 < k → ¬ ClosesAt (linesOf (forward kind name text)) 1 k := by
    rw [linesOf_forward]
    intro k hk hcloses
    obtain ⟨stop, hstop, -, hcloses'⟩ := (closesAt_forwardLine_iff hk).mp hcloses
    exact h stop hstop hcloses'
  rw [scan_forward_eq]
  exact scanLines_of_not_closesAt hwhole Nat.one_pos (Nat.le_refl 1) List.drop_zero

theorem start_pos_of_mem_scan {s : Structure} (h : s ∈ scan text) : 0 < s.startLine := by
  obtain ⟨start, stop, hpos, heq⟩ := madeOf_of_mem_scan h
  rw [heq]
  exact Int.natCast_pos.mpr hpos

/-- A structure on the first line is none of the text below it. -/
theorem scan_forward_ne_of_firstClosing {stop : Nat} (h : FirstClosing (linesOf text) 1 stop) :
    scan (forward kind name text) ≠ (scan text).map (·.shift 1) := by
  intro hshift
  rw [scan_forward_of_firstClosing h] at hshift
  obtain ⟨s, hs, hfirst⟩ := List.mem_map.mp (hshift ▸ List.mem_cons_self)
  have hpos := start_pos_of_mem_scan hs
  have hline : s.startLine + 1 = 1 := congrArg Structure.startLine hfirst
  omega

/-- A forward declaration takes the lines below it for the body of the structure, up to the first
line that has a closing brace and balances the braces, and without such a line nothing is declared.
So the text below a forward declaration declares what it declares by itself exactly if it declares
nothing and has no such line. -/
theorem scan_forward (kind : Kind) (name : WrittenName) (text : String) :
    (∀ stop, FirstClosing (linesOf text) 1 stop →
      scan (forward kind name text)
        = structureBetween (linesOf (forward kind name text)) 1 (stop + 1) kind
            (String.ofList name.text)
          :: (scanLines none 1 ((linesOf text).drop stop)).1.map (·.shift ((stop : Int) + 1))) ∧
    ((∀ stop, 1 ≤ stop → ¬ ClosesAt (linesOf text) 1 stop) →
      scan (forward kind name text) = []) ∧
    (scan (forward kind name text) = (scan text).map (·.shift 1) ↔
      (∀ stop, 1 ≤ stop → ¬ ClosesAt (linesOf text) 1 stop) ∧ scan text = []) := by
  refine ⟨fun stop => scan_forward_of_firstClosing, scan_forward_of_not_closesAt, ?_⟩
  constructor
  · intro hshift
    have hnever : ∀ stop, 1 ≤ stop → ¬ ClosesAt (linesOf text) 1 stop := by
      intro k hk hcloses
      obtain ⟨stop, hfirst⟩ := exists_firstClosing hk hcloses
      exact scan_forward_ne_of_firstClosing hfirst hshift
    rw [scan_forward_of_not_closesAt hnever] at hshift
    exact ⟨hnever, List.map_eq_nil_iff.mp hshift.symm⟩
  · rintro ⟨hnever, hnone⟩
    rw [scan_forward_of_not_closesAt hnever, hnone]
    rfl

end Forward

/-- A structure below a forward declaration of another one. -/
def listText : String := "struct List \x7b Node* head; \x7d;"

/-- The member of the second structure counts as one of the first, and the second is lost. -/
theorem scan_forward_list : FirstClosing (linesOf listText) 1 1 ∧
    scan (forward .struct { text := "Node".toList } listText) = [{
      name := "Node", startLine := 1, endLine := 2, members := [⟨"head", "Node*", true, 2⟩] }] ∧
    scan (forward .struct { text := "Node".toList } listText)
      ≠ (scan listText).map (·.shift 1) := by
  have hfirst : FirstClosing (linesOf listText) 1 1 :=
    ⟨Nat.le_refl 1, ⟨⟨_, rfl, by decide⟩, by decide⟩,
      fun i hi hi' => absurd hi (Nat.not_le.mpr hi')⟩
  obtain ⟨hclosed, -, hsame⟩ := scan_forward .struct { text := "Node".toList } listText
  refine ⟨hfirst, (hclosed 1 hfirst).trans (by decide +kernel), ?_⟩
  intro hshift
  exact (hsame.mp hshift).1 1 (Nat.le_refl 1) hfirst.closes

end CellAtlas.Source
