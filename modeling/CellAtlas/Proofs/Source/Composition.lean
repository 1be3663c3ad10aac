import CellAtlas.Proofs.Text.Blank
import CellAtlas.Source.Scan

/-!
# Scanning text piece by piece

Text below another text never changes what the upper one declares. Where the upper text leaves no
structure open, the lower one declares what it declares by itself, further down (`scan_append`):

    scan (upper ++ "\n" ++ lower) = scan upper ++ scan lower, shifted by the lines of upper

The scanner knows a line only by its number, so that scanning commutes with shifting all numbers
(`scanLines_shift`).
-/

namespace CellAtlas.Source

open Text

/-! ### Shifting line numbers

What is declared some lines further down is the same but for the numbers of its lines. -/

def Member.shift (n : Int) (m : Member) : Member := { m with line := m.line + n }

def Method.shift (n : Int) (m : Method) : Method := { m with line := m.line + n }

def Structure.shift (n : Int) (s : Structure) : Structure :=
  { s with
    startLine := s.startLine + n
    endLine := s.endLine + n
    members := s.members.map (·.shift n)
    methods := s.methods.map (·.shift n) }

def Declaration.shift (n : Int) : Declaration → Declaration
  | member m => member (m.shift n)
  | method m => method (m.shift n)

def OpenStructure.shift (n : Int) (o : OpenStructure) : OpenStructure :=
  { o with
    startLine := o.startLine + n
    declarations := o.declarations.map (·.shift n) }

section Shift

variable (n k : Int) (line statement : List Char)

/-- The number of a line goes into the member and nowhere else. -/
theorem member?_shift :
    member? statement line (k + n) = (member? statement line k).map (·.shift n) := by
  unfold member?
  split
  · rfl
  · split
    · rfl
    · split
      · rfl
      · split <;> rfl

theorem method?_shift :
    method? statement line (k + n) = (method? statement line k).map (·.shift n) := by
  unfold method?
  split
  · rfl
  · split
    · rfl
    · split
      · split <;> rfl
      · rfl

theorem declaration?_shift :
    declaration? statement line (k + n) = (declaration? statement line k).map (·.shift n) := by
  rw [declaration?, declaration?, member?_shift, method?_shift]
  cases member? statement line k with
  | some m => rfl
  | none => cases method? statement line k <;> rfl

namespace OpenStructure

/-- Shifting the lines shifts what they declare. -/
theorem declarationsOf_shift (depth : Int) :
    declarationsOf (k + n) line depth = (declarationsOf k line depth).map (·.shift n) := by
  rw [declarationsOf, declarationsOf, List.map_filterMap]
  apply List.filterMap_congr
  intro s _
  split
  · exact declaration?_shift n k line s.text
  · rfl

theorem ofLine?_shift : ofLine? (k + n) line = (ofLine? k line).map (·.shift n) := by
  rw [ofLine?, ofLine?, List.map_findSome?]
  congr 1
  funext kind
  simp only [Function.comp_apply]
  split
  · split
    · rfl
    · split <;> rfl
  · rfl

theorem depth_shift (o : OpenStructure) : (o.shift n).depth = o.depth := rfl

theorem absorb_shift (o : OpenStructure) :
    (o.shift n).absorb (k + n) line = (o.absorb k line).shift n := by
  simp only [absorb, shift, declarationsOf_shift, List.map_append]

/-- A structure that is closed further down ends further down. -/
theorem close_shift (o : OpenStructure) : (o.shift n).close (k + n) = (o.close k).shift n := by
  simp only [close, shift, Structure.shift, Structure.mk.injEq, true_and]
  rw [List.filterMap_map, List.filterMap_map, List.map_filterMap, List.map_filterMap]
  constructor
  · apply List.filterMap_congr
    intro d _
    cases d <;> rfl
  · apply List.filterMap_congr
    intro d _
    cases d <;> rfl

end OpenStructure

/-- Neither opening nor closing depends on the number of the line. -/
theorem scanLine_shift (current : Option OpenStructure) :
    scanLine (current.map (·.shift n)) (k + n) line =
      ((scanLine current k line).1.map (·.shift n),
        (scanLine current k line).2.map (·.shift n)) := by
  have hopen : (current.map (·.shift n) <|> OpenStructure.ofLine? (k + n) line)
      = (current <|> OpenStructure.ofLine? k line).map (·.shift n) := by
    rw [OpenStructure.ofLine?_shift]
    cases current <;> rfl
  rw [scanLine, scanLine, hopen]
  cases current <|> OpenStructure.ofLine? k line with
  | none => rfl
  | some o =>
      simp only [Option.map_some, OpenStructure.absorb_shift, OpenStructure.depth_shift,
        OpenStructure.close_shift]
      split <;> rfl

end Shift

/-- Shifting the numbers of all lines shifts what is found in them. -/
theorem scanLines_shift (n k : Int) (current : Option OpenStructure) (lines : List (List Char)) :
    scanLines (current.map (·.shift n)) (k + n) lines =
      ((scanLines current k lines).1.map (·.shift n),
        (scanLines current k lines).2.map (·.shift n)) := by
  induction lines generalizing current k with
  | nil => rfl
  | cons line lines ih =>
      have hnext : k + n + 1 = k + 1 + n := Int.add_right_comm k n 1
      simp only [scanLines, scanLine_shift, hnext, ih, List.map_append]
      cases (scanLine current k line).1 <;> rfl

/-! ### Texts below one another -/

/-- A line break between two texts separates their lines. -/
theorem linesOf_append (upper lower : String) :
    linesOf (upper ++ "\n" ++ lower) = linesOf upper ++ linesOf lower := by
  have htext : (upper ++ "\n" ++ lower).toList = upper.toList ++ '\n' :: lower.toList := by
    simp
  rw [linesOf, htext, split_append, List.map_append]
  rfl

def leftOpen (text : String) : Option OpenStructure := (scanLines none 1 (linesOf text)).2

/-- What a text declares it declares whatever is written below, and where it leaves no structure
open, the text below declares the same as by itself. -/
theorem scan_append (upper lower : String) :
    scan upper <+: scan (upper ++ "\n" ++ lower) ∧
    (leftOpen upper = none →
      scan (upper ++ "\n" ++ lower)
        = scan upper ++ (scan lower).map (·.shift (linesOf upper).length)) := by
  have hscan : scan (upper ++ "\n" ++ lower) = scan upper ++
      (scanLines (leftOpen upper) (1 + (linesOf upper).length) (linesOf lower)).1 := by
    rw [scan, linesOf_append, scanLines_append]
    rfl
  constructor
  · rw [hscan]
    exact List.prefix_append _ _
  · intro hclosed
    rw [hscan, hclosed]
    exact congrArg (scan upper ++ ·)
      (congrArg Prod.fst (scanLines_shift (linesOf upper).length 1 none (linesOf lower)))

/-- A structure that is closed on the last line leaves nothing open. -/
theorem scan_append_closed :
    leftOpen "struct Node \x7b\n\x7d;" = none ∧
      scan ("struct Node \x7b\n\x7d;" ++ "\n" ++ "union Word \x7b \x7d;")
        = scan "struct Node \x7b\n\x7d;" ++ (scan "union Word \x7b \x7d;").map (·.shift 2) := by
  have hclosed : leftOpen "struct Node \x7b\n\x7d;" = none := by decide
  exact ⟨hclosed, (scan_append _ _).2 hclosed⟩

end CellAtlas.Source
