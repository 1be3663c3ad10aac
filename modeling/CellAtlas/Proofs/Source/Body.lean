import CellAtlas.Proofs.List
import CellAtlas.Proofs.Source.Segment
import CellAtlas.Proofs.Source.Span

/-!
# What the body of a structure declares

The members and methods of a structure are what the statements of its lines declare, line after
line, and every statement counts that starts at a positive depth (`scan_declares`):

    struct List {              depth 0
    Node* head;                depth 1   a member
    void clear() {             depth 1   a method
    int left = 0;              depth 2   a member, too
    }
    };

So a structure has the declarations right inside its own braces and no others exactly if the
statements further inside declare nothing (`declares_filter_iff`).

While a structure is open it is what the lines since its first one have made of it (`GrownTo`). One
more line keeps this and closes nothing else (`GrownTo.step`), and hence whatever is closed in a run
is what lines have made of it (`GrownTo.madeOf_of_mem`).
-/

namespace CellAtlas.Source

open Text

/-! ### Statements and their lines -/

/-- A statement with the line that it is part of. -/
structure PlacedStatement extends Statement where
  line : List Char
  number : Int

namespace PlacedStatement

/-- What the statement declares, whatever depth it starts at. -/
def declaration? (p : PlacedStatement) : Option Declaration :=
  Source.declaration? p.text p.line p.number

def member? (p : PlacedStatement) : Option Member := p.declaration?.bind (·.member?)

def method? (p : PlacedStatement) : Option Method := p.declaration?.bind (·.method?)

theorem declaration?_eq_none_iff {p : PlacedStatement} :
    p.declaration? = none ↔ p.member? = none ∧ p.method? = none := by
  cases h : p.declaration? with
  | none => simp [member?, method?, h]
  | some d => cases d <;> simp [member?, method?, h, Declaration.member?, Declaration.method?]

end PlacedStatement

def placedOn (number : Int) (line : List Char) (depth : Int) : List PlacedStatement :=
  (statements line depth).map fun s => { s with line, number }

/-- The statements of consecutive lines. The first line has the given number and starts at
`depth`. -/
def placedFrom (number depth : Int) : List (List Char) → List PlacedStatement
  | [] => []
  | line :: lines =>
    placedOn number line depth ++ placedFrom (number + 1) (depth + balance line) lines

/-- A line more adds its statements, at the depth that the lines before it lead to. -/
theorem placedFrom_concat (number depth : Int) (lines : List (List Char)) (line : List Char) :
    placedFrom number depth (lines ++ [line]) = placedFrom number depth lines
      ++ placedOn (number + lines.length) line (depth + balance lines.flatten) := by
  induction lines generalizing number depth with
  | nil =>
      rw [List.length_nil, List.flatten_nil, show balance [] = 0 from rfl, Int.natCast_zero,
        Int.add_zero, Int.add_zero]
      exact List.append_nil _
  | cons first lines ih =>
      have hnumber : number + 1 + lines.length = number + (first :: lines).length := by
        rw [List.length_cons]
        omega
      rw [List.cons_append, placedFrom, ih, hnumber, List.flatten_cons, balance_append,
        ← Int.add_assoc, ← List.append_assoc]
      rfl

/-- Every statement stands where the braces in front of it say. -/
theorem standsIn_of_mem_placedFrom {number depth : Int} {lines : List (List Char)}
    {p : PlacedStatement} (h : p ∈ placedFrom number depth lines) :
    p.StandsIn depth lines.flatten := by
  induction lines generalizing number depth with
  | nil => exact absurd h List.not_mem_nil
  | cons line lines ih =>
      rw [List.flatten_cons]
      rcases List.mem_append.mp h with h | h
      · obtain ⟨s, hs, rfl⟩ := List.mem_map.mp h
        exact (standsIn_of_mem hs).append lines.flatten
      · exact (ih h).behind line

def declaredBy (ps : List PlacedStatement) : List Declaration :=
  (ps.filter (0 < ·.depth)).filterMap (·.declaration?)

theorem declaredBy_append (ps qs : List PlacedStatement) :
    declaredBy (ps ++ qs) = declaredBy ps ++ declaredBy qs := by
  rw [declaredBy, List.filter_append, List.filterMap_append]
  rfl

/-- A line declares what its statements at positive depth do. -/
theorem declarationsOf_eq (number : Int) (line : List Char) (depth : Int) :
    OpenStructure.declarationsOf number line depth
      = declaredBy (placedOn number line depth) := by
  rw [declaredBy, placedOn, List.filter_map, List.filterMap_map, List.filterMap_filter,
    OpenStructure.declarationsOf]
  congr 1
  funext s
  simp only [Function.comp_apply, decide_eq_true_eq]
  rfl

/-! ### What lines make of a structure -/

section Between

variable (lines : List (List Char)) (start k : Nat) (kind : Kind) (name : String)

/-- The statements of lines `start` to `k`, with their depth since the first of these lines. -/
def statementsBetween : List PlacedStatement :=
  placedFrom start 0 ((lines.take k).drop (start - 1))

/-- What is open behind line `k` where line `start` has opened it. -/
def openBetween : OpenStructure where
  name
  kind
  startLine := start
  depth := balance (textBetween lines start k)
  declarations := declaredBy (statementsBetween lines start k)

/-- What lines `start` to `k` make of a structure. -/
def structureBetween : Structure where
  name
  kind
  startLine := start
  endLine := k
  members := ((statementsBetween lines start k).filter (0 < ·.depth)).filterMap (·.member?)
  methods := ((statementsBetween lines start k).filter (0 < ·.depth)).filterMap (·.method?)

end Between

section Lines

variable {lines : List (List Char)} {start k : Nat} {line : List Char} {kind : Kind} {name : String}

/-- One line more adds the statements on it. -/
theorem statementsBetween_succ (hline : lines[k]? = some line) (hpos : 0 < start)
    (hstart : start ≤ k + 1) :
    statementsBetween lines start (k + 1) = statementsBetween lines start k
      ++ placedOn ((k : Int) + 1) line (balance (textBetween lines start k)) := by
  obtain ⟨hk, rfl⟩ := List.getElem?_eq_some_iff.mp hline
  have hlength : start - 1 ≤ (lines.take k).length := by
    rw [List.length_take]
    omega
  have hnumber : (start : Int) + ((lines.take k).drop (start - 1)).length = k + 1 := by
    rw [List.length_drop, List.length_take]
    omega
  rw [statementsBetween, List.take_succ_eq_append_getElem hk,
    List.drop_append_of_le_length hlength, placedFrom_concat, hnumber, Int.zero_add]
  rfl

/-- A structure takes in the next line. -/
theorem absorb_openBetween (hline : lines[k]? = some line) (hpos : 0 < start)
    (hstart : start ≤ k + 1) :
    (openBetween lines start k kind name).absorb ((k : Int) + 1) line
      = openBetween lines start (k + 1) kind name := by
  simp only [openBetween, OpenStructure.absorb, textBetween_succ hline hstart,
    statementsBetween_succ hline hpos hstart, balance_append, declaredBy_append, declarationsOf_eq]

/-- Closing what has been open makes a structure of the same lines. -/
theorem close_openBetween :
    (openBetween lines start k kind name).close k = structureBetween lines start k kind name := by
  rw [OpenStructure.close, openBetween, declaredBy, List.filterMap_filterMap,
    List.filterMap_filterMap]
  rfl

/-- A line that opens a structure opens it before anything is taken in. -/
theorem openBetween_of_ofLine? (lines : List (List Char)) {o : OpenStructure}
    (ho : OpenStructure.ofLine? ((k : Int) + 1) line = some o) :
    o = openBetween lines (k + 1) k o.kind o.name := by
  have hempty : (lines.take k).drop (k + 1 - 1) = [] :=
    List.drop_eq_nil_of_le (List.length_take_le _ _)
  obtain ⟨-, heq⟩ := OpenStructure.ofLine?_eq_some_iff.mp ho
  rw [heq, openBetween, textBetween, statementsBetween, hempty]
  rfl

/-- With a structure open, a line closes it or is taken in. -/
theorem scanLine_openBetween (kind : Kind) (name : String) (hline : lines[k]? = some line)
    (hpos : 0 < start) (hstart : start ≤ k + 1) :
    (ClosesAt lines start (k + 1) ∧
      scanLine (some (openBetween lines start k kind name)) ((k : Int) + 1) line
        = (some (structureBetween lines start (k + 1) kind name), none)) ∨
    (¬ ClosesAt lines start (k + 1) ∧
      scanLine (some (openBetween lines start k kind name)) ((k : Int) + 1) line
        = (none, some (openBetween lines start (k + 1) kind name))) := by
  have habsorb : (openBetween lines start k kind name).absorb ((k : Int) + 1) line
      = openBetween lines start (k + 1) kind name := absorb_openBetween hline hpos hstart
  have hcloses : ((openBetween lines start k kind name).absorb ((k : Int) + 1) line).depth = 0
      ∧ '}' ∈ line ↔ ClosesAt lines start (k + 1) := (closesAt_succ_iff hline hstart).symm
  by_cases h : ClosesAt lines start (k + 1)
  · left
    refine ⟨h, (if_pos (hcloses.mpr h)).trans ?_⟩
    rw [habsorb]
    exact congrArg (fun s => (some s, none)) close_openBetween
  · right
    refine ⟨h, (if_neg (mt hcloses.mp h)).trans ?_⟩
    rw [habsorb]

end Lines

/-! ### Runs -/

section Run

variable (lines : List (List Char))

/-- A structure is what some of the lines make of it. -/
def MadeOf (s : Structure) : Prop :=
  ∃ start stop, 0 < start ∧ s = structureBetween lines start stop s.kind s.name

/-- What is open behind line `k` is what the lines since its first one have made of it. -/
def GrownTo (k : Nat) (current : Option OpenStructure) : Prop :=
  ∀ o ∈ current, ∃ start, 0 < start ∧ start ≤ k + 1 ∧ o = openBetween lines start k o.kind o.name

variable {lines} {rest : List (List Char)} {k : Nat} {line : List Char}
  {current : Option OpenStructure}

theorem grownTo_none : GrownTo lines k none := fun _ ho => by cases ho

/-- What lines have opened has grown to the line read last. -/
theorem grownTo_openBetween {start : Nat} (hpos : 0 < start) (hstart : start ≤ k + 1)
    (kind : Kind) (name : String) :
    GrownTo lines k (some (openBetween lines start k kind name)) := by
  rintro o ⟨⟩
  exact ⟨start, hpos, hstart, rfl⟩

/-- A line that finds a structure open makes more of it or completes it. -/
theorem step_openBetween {start : Nat} (hline : lines[k]? = some line) (hpos : 0 < start)
    (hstart : start ≤ k + 1) (kind : Kind) (name : String) :
    (∀ s ∈ (scanLine (some (openBetween lines start k kind name)) ((k : Int) + 1) line).1,
        MadeOf lines s) ∧
      GrownTo lines (k + 1)
        (scanLine (some (openBetween lines start k kind name)) ((k : Int) + 1) line).2 := by
  rcases scanLine_openBetween kind name hline hpos hstart with ⟨-, hscan⟩ | ⟨-, hscan⟩
  · rw [hscan]
    refine ⟨?_, grownTo_none⟩
    rintro s ⟨⟩
    exact ⟨start, k + 1, hpos, rfl⟩
  · rw [hscan]
    refine ⟨?_, grownTo_openBetween hpos (Nat.le_succ_of_le hstart) kind name⟩
    rintro s ⟨⟩

/-- A line closes what lines have made, and leaves open what lines have made. -/
theorem GrownTo.step (h : GrownTo lines k current) (hline : lines[k]? = some line) :
    (∀ s ∈ (scanLine current ((k : Int) + 1) line).1, MadeOf lines s) ∧
      GrownTo lines (k + 1) (scanLine current ((k : Int) + 1) line).2 := by
  cases current with
  | some o =>
      -- an open structure goes on, and otherwise the line may open one
      obtain ⟨start, hpos, hstart, ho⟩ := h o rfl
      rw [ho]
      exact step_openBetween hline hpos hstart o.kind o.name
  | none =>
      cases ho : OpenStructure.ofLine? ((k : Int) + 1) line with
      | some o =>
          rw [scanLine_none_of_ofLine? ho, openBetween_of_ofLine? lines ho]
          exact step_openBetween hline (Nat.succ_pos k) (Nat.le_refl _) o.kind o.name
      | none =>
          rw [scanLine, ho]
          refine ⟨?_, grownTo_none⟩
          rintro s ⟨⟩

/-- What is closed in the lines after line `k` is what lines have made of it. -/
theorem GrownTo.madeOf_of_mem (h : GrownTo lines k current) (hrest : lines.drop k = rest) :
    ∀ s ∈ (scanLines current ((k : Int) + 1) rest).1, MadeOf lines s := by
  induction rest generalizing k current with
  | nil => exact fun s hs => absurd hs List.not_mem_nil
  | cons line rest ih =>
      obtain ⟨hline, hdrop⟩ := of_drop_eq_cons hrest
      obtain ⟨hclosed, hnext⟩ := h.step hline
      intro s hs
      rcases List.mem_append.mp hs with hs | hs
      · exact hclosed s (Option.mem_toList.mp hs)
      · exact ih hnext hdrop s hs

end Run

/-- By induction on the lines: whatever the scanner finds is made of some of them. -/
theorem madeOf_of_mem_scan {text : String} {s : Structure} (h : s ∈ scan text) :
    MadeOf (linesOf text) s :=
  (grownTo_none (k := 0)).madeOf_of_mem rfl s h

/-! ### Depths of declarations -/

/-- The structure has the members and methods that the statements declare. -/
def Structure.Declares (s : Structure) (ps : List PlacedStatement) : Prop :=
  s.members = ps.filterMap (·.member?) ∧ s.methods = ps.filterMap (·.method?)

/-- Without the statements further inside a structure declares the same exactly if they declare
nothing. -/
theorem declares_filter_iff {s : Structure} {ps : List PlacedStatement}
    (h : s.Declares (ps.filter (0 < ·.depth))) :
    s.Declares (ps.filter (·.depth = 1)) ↔ ∀ p ∈ ps, 1 < p.depth → p.declaration? = none := by
  have houter : ∀ p : PlacedStatement, decide (p.depth = 1) → decide (0 < p.depth) := by
    intro p
    simp only [decide_eq_true_eq]
    omega
  -- the stricter filter drops the statements further inside
  have hinner : ∀ p : PlacedStatement,
      1 < p.depth ↔ decide (0 < p.depth) ∧ decide (p.depth = 1) = false := by
    intro p
    simp only [decide_eq_true_eq, decide_eq_false_iff_not]
    omega
  rw [Structure.Declares, h.1, h.2, filterMap_filter_eq_iff houter,
    filterMap_filter_eq_iff houter]
  simp only [hinner, PlacedStatement.declaration?_eq_none_iff]
  constructor
  · rintro ⟨hmembers, hmethods⟩ p hp ⟨hpos, hne⟩
    exact ⟨hmembers p hp hpos hne, hmethods p hp hpos hne⟩
  · intro hnone
    exact ⟨fun p hp hpos hne => (hnone p hp ⟨hpos, hne⟩).1,
      fun p hp hpos hne => (hnone p hp ⟨hpos, hne⟩).2⟩

/-- A structure has what the statements of its lines declare at the depths above zero, counted from
its first line. Those right inside its braces are all of it exactly if those further inside declare
nothing. -/
theorem scan_declares {text : String} {s : Structure} (h : s ∈ scan text) :
    ∃ start stop : Nat, s.startLine = start ∧ s.endLine = stop ∧
      (∀ p ∈ statementsBetween (linesOf text) start stop,
        p.StandsIn 0 (textBetween (linesOf text) start stop)) ∧
      s.Declares ((statementsBetween (linesOf text) start stop).filter (0 < ·.depth)) ∧
      (s.Declares ((statementsBetween (linesOf text) start stop).filter (·.depth = 1)) ↔
        ∀ p ∈ statementsBetween (linesOf text) start stop, 1 < p.depth →
          p.declaration? = none) := by
  obtain ⟨start, stop, -, heq⟩ := madeOf_of_mem_scan h
  have hdeclares :
      s.Declares ((statementsBetween (linesOf text) start stop).filter (0 < ·.depth)) := by
    rw [heq]
    exact ⟨rfl, rfl⟩
  exact ⟨start, stop, congrArg Structure.startLine heq, congrArg Structure.endLine heq,
    fun p hp => standsIn_of_mem_placedFrom hp, hdeclares, declares_filter_iff hdeclares⟩

/-- A structure whose method has a variable of its own. -/
def clearing : String :=
  "struct List \x7b\nNode* head;\nvoid clear() \x7b\nint left = 0;\n\x7d\n\x7d;"

/-- The variable of the method counts as a member, which the statements right inside the braces of
the structure do not declare. -/
theorem scan_declares_clearing : ∃ s ∈ scan clearing,
    s.members = [⟨"head", "Node*", true, 2⟩, ⟨"left", "int", false, 4⟩] ∧
      ¬ s.Declares ((statementsBetween (linesOf clearing) 1 6).filter (·.depth = 1)) := by
  have hscan : scan clearing = [{
      name := "List", startLine := 1, endLine := 6
      members := [⟨"head", "Node*", true, 2⟩, ⟨"left", "int", false, 4⟩]
      methods := [⟨"clear", "void", [], 3⟩] }] := by decide +kernel
  have hmem := hscan ▸ List.mem_singleton_self _
  obtain ⟨start, stop, hstart, hstop, -, -, hdeclares⟩ := scan_declares hmem
  obtain rfl : start = 1 := Int.ofNat_inj.mp hstart.symm
  obtain rfl : stop = 6 := Int.ofNat_inj.mp hstop.symm
  have hinner : ¬ ∀ p ∈ statementsBetween (linesOf clearing) 1 6, 1 < p.depth →
      p.declaration? = none := by decide +kernel
  exact ⟨_, hmem, rfl, mt hdeclares.mp hinner⟩

end CellAtlas.Source
