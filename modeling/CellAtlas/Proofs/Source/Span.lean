import CellAtlas.Proofs.Source.Opening

/-!
# Spans of structures

The structures that a scan finds are the balanced stretches of the text: each begins with the first
line after the one before it that opens a structure, and ends with the first line that has a closing
brace and up to which as many braces are closed as opened (`scan_segmented`).

    line after      … line start …        … line stop …
    end of the one    first to open         first to close with
    before            a structure           balanced braces

`Pending` is the invariant of the lines in between: it ties the depth of the open structure to the
braces since its first line. One line either keeps it or ends the span (`Pending.absorb`), and from
this a run over the remaining lines cuts them up (`segmented_scanLines`). Lines are numbered from 1.
-/

namespace CellAtlas.Source

open Text

/-! ### Segments of a text -/

section Segments

variable (lines : List (List Char))

/-- Line `k` opens a structure of some kind and name. -/
def OpensAt (k : Nat) (kind : Kind) (name : String) : Prop :=
  ∃ line, lines[k - 1]? = some line ∧ Opens line kind name

def textBetween (start k : Nat) : List Char := ((lines.take k).drop (start - 1)).flatten

/-- Line `k` has a closing brace, and from line `start` up to it as many braces are closed as
opened. -/
def ClosesAt (start k : Nat) : Prop :=
  (∃ line, lines[k - 1]? = some line ∧ '}' ∈ line) ∧
    (textBetween lines start k).count '{' = (textBetween lines start k).count '}'

/-- Line `start` is the first one after line `after` that opens a structure. -/
structure FirstOpening (after start : Nat) (kind : Kind) (name : String) : Prop where
  after_lt : after < start
  opens : OpensAt lines start kind name
  first : ∀ k, after < k → k < start → ∀ kind name, ¬ OpensAt lines k kind name

/-- Line `stop` is the first one that closes what line `start` opens. -/
structure FirstClosing (start stop : Nat) : Prop where
  start_le : start ≤ stop
  closes : ClosesAt lines start stop
  first : ∀ k, start ≤ k → k < stop → ¬ ClosesAt lines start k

/-- A structure is what lines `start` to `stop` declare, the first ones to do so after line
`after`. -/
structure Structure.Spans (s : Structure) (after start stop : Nat) : Prop where
  startLine : s.startLine = start
  endLine : s.endLine = stop
  stop_le : stop ≤ lines.length
  opening : FirstOpening lines after start s.kind s.name
  closing : FirstClosing lines start stop
  member_line : ∀ m ∈ s.members, s.startLine ≤ m.line ∧ m.line ≤ s.endLine
  members_sorted : s.members.Pairwise (·.line ≤ ·.line)
  method_line : ∀ m ∈ s.methods, s.startLine ≤ m.line ∧ m.line ≤ s.endLine
  methods_sorted : s.methods.Pairwise (·.line ≤ ·.line)

/-- The structures are those that the lines after line `after` declare, one below the other. Behind
the last one no line opens a structure, or no line closes the next one. -/
inductive Segmented : Nat → List Structure → Prop
  | unopened {after : Nat} (h : ∀ k, after < k → ∀ kind name, ¬ OpensAt lines k kind name) :
      Segmented after []
  | unclosed {after start : Nat} {kind : Kind} {name : String}
      (hopening : FirstOpening lines after start kind name)
      (h : ∀ stop, start ≤ stop → ¬ ClosesAt lines start stop) : Segmented after []
  | cons {after start stop : Nat} {s : Structure} {rest : List Structure}
      (h : s.Spans lines after start stop) (hrest : Segmented stop rest) :
      Segmented after (s :: rest)

end Segments

section Lines

variable {lines : List (List Char)} {start k : Nat} {line : List Char}

theorem textBetween_pred (start : Nat) : textBetween lines start (start - 1) = [] := by
  rw [textBetween, List.drop_eq_nil_of_le (List.length_take_le _ _), List.flatten_nil]

/-- The text up to the next line has that line more. -/
theorem textBetween_succ (hline : lines[k]? = some line) (hstart : start ≤ k + 1) :
    textBetween lines start (k + 1) = textBetween lines start k ++ line := by
  obtain ⟨hk, rfl⟩ := List.getElem?_eq_some_iff.mp hline
  have hlength : start - 1 ≤ (lines.take k).length := by
    rw [List.length_take]
    omega
  rw [textBetween, textBetween, List.take_succ_eq_append_getElem hk,
    List.drop_append_of_le_length hlength, List.flatten_append, List.flatten_singleton]

/-- Whether the next line closes is a matter of its braces and those before it. -/
theorem closesAt_succ_iff (hline : lines[k]? = some line) (hstart : start ≤ k + 1) :
    ClosesAt lines start (k + 1) ↔
      balance (textBetween lines start k) + balance line = 0 ∧ '}' ∈ line := by
  rw [ClosesAt, textBetween_succ hline hstart, ← balance_append, balance, Int.sub_eq_zero,
    Int.ofNat_inj, and_comm]
  simp only [Nat.add_sub_cancel, hline, Option.some.injEq, exists_eq_left']

theorem OpensAt.le_length {kind : Kind} {name : String} (h : OpensAt lines k kind name)
    (hk : 0 < k) : k ≤ lines.length := by
  obtain ⟨line, hline, -⟩ := h
  obtain ⟨hlt, -⟩ := List.getElem?_eq_some_iff.mp hline
  omega

theorem ClosesAt.le_length (h : ClosesAt lines start k) (hk : 0 < k) : k ≤ lines.length := by
  obtain ⟨⟨line, hline, -⟩, -⟩ := h
  obtain ⟨hlt, -⟩ := List.getElem?_eq_some_iff.mp hline
  omega

end Lines

/-! ### Lines of declarations -/

def Declaration.line : Declaration → Int
  | member m => m.line
  | method m => m.line

theorem Declaration.line_of_member? {d : Declaration} {m : Member} (h : d.member? = some m) :
    m.line = d.line := by
  cases d <;> cases h
  rfl

theorem Declaration.line_of_method? {d : Declaration} {m : Method} (h : d.method? = some m) :
    m.line = d.line := by
  cases d <;> cases h
  rfl

theorem member?_line {statement line : List Char} {number : Int} {m : Member}
    (h : member? statement line number = some m) : m.line = number := by
  unfold member? at h
  split at h
  · cases h
  · split at h
    · cases h
    · split at h
      · cases h
      · split at h
        · cases h
          rfl
        · cases h

theorem method?_line {statement line : List Char} {number : Int} {m : Method}
    (h : method? statement line number = some m) : m.line = number := by
  unfold method? at h
  split at h
  · cases h
  · split at h
    · cases h
    · split at h
      · split at h
        · cases h
          rfl
        · cases h
      · cases h

theorem declaration?_line {statement line : List Char} {number : Int} {d : Declaration}
    (h : declaration? statement line number = some d) : d.line = number := by
  unfold declaration? at h
  split at h
  next m hm =>
    cases h
    exact member?_line hm
  next =>
    obtain ⟨m, hm, rfl⟩ := Option.map_eq_some_iff.mp h
    exact method?_line hm

theorem OpenStructure.declarationsOf_line {number depth : Int} {line : List Char}
    {d : Declaration} (h : d ∈ declarationsOf number line depth) : d.line = number := by
  obtain ⟨s, -, hs⟩ := List.mem_filterMap.mp h
  split at hs
  · exact declaration?_line hs
  · cases hs

/-- What the lines of declarations are known to be is known of a selection of them. -/
theorem lines_of_filterMap {α : Type} {f : Declaration → Option α} {lineOf : α → Int}
    (hlineOf : ∀ {d : Declaration} {a : α}, f d = some a → lineOf a = d.line) {low high : Int}
    {ds : List Declaration} (hlines : ∀ d ∈ ds, low ≤ d.line ∧ d.line ≤ high)
    (hsorted : ds.Pairwise (·.line ≤ ·.line)) :
    (∀ a ∈ ds.filterMap f, low ≤ lineOf a ∧ lineOf a ≤ high) ∧
      (ds.filterMap f).Pairwise (lineOf · ≤ lineOf ·) := by
  constructor
  · intro a ha
    obtain ⟨d, hd, hda⟩ := List.mem_filterMap.mp ha
    rw [hlineOf hda]
    exact hlines d hd
  · apply hsorted.filterMap
    intro d e hde a ha b hb
    rw [hlineOf ha, hlineOf hb]
    exact hde

/-! ### What is known of an open structure -/

/-- `o` has been opened by the first line after line `after` that opens a structure, and it has not
been closed up to line `k`. -/
structure Pending (lines : List (List Char)) (after k start : Nat) (o : OpenStructure) :
    Prop where
  opening : FirstOpening lines after start o.kind o.name
  startLine : o.startLine = start
  start_le : start ≤ k + 1
  depth : o.depth = balance (textBetween lines start k)
  not_closes : ∀ i, start ≤ i → i ≤ k → ¬ ClosesAt lines start i
  line : ∀ d ∈ o.declarations, (start : Int) ≤ d.line ∧ d.line ≤ k
  sorted : o.declarations.Pairwise (·.line ≤ ·.line)

namespace Pending

variable {lines : List (List Char)} {after k start : Nat} {o : OpenStructure} {line : List Char}

/-- A line that opens a structure, none of which has been taken in yet. -/
theorem ofLine? (hline : lines[k]? = some line) (hafter : after ≤ k)
    (hfirst : ∀ i, after < i → i ≤ k → ∀ kind name, ¬ OpensAt lines i kind name)
    (ho : OpenStructure.ofLine? ((k : Int) + 1) line = some o) :
    Pending lines after k (k + 1) o := by
  obtain ⟨hopens, heq⟩ := OpenStructure.ofLine?_eq_some_iff.mp ho
  refine ⟨⟨Nat.lt_succ_of_le hafter, ⟨line, hline, hopens⟩, ?_⟩, ?_, Nat.le_refl _, ?_, ?_, ?_, ?_⟩
  · intro i hi hik
    exact hfirst i hi (Nat.le_of_lt_succ hik)
  · rw [heq]
    rfl
  · have hempty : textBetween lines (k + 1) k = [] := textBetween_pred (k + 1)
    rw [heq, hempty]
    rfl
  · intro i hi hik
    omega
  · rw [heq]
    exact fun d hd => absurd hd List.not_mem_nil
  · rw [heq]
    exact List.Pairwise.nil

/-- What is known of an open structure that has taken in a line, but for whether the line closes
it. -/
theorem absorb_line (h : Pending lines after k start o) (line : List Char) :
    (∀ d ∈ (o.absorb ((k : Int) + 1) line).declarations,
      (start : Int) ≤ d.line ∧ d.line ≤ ((k + 1 : Nat) : Int)) ∧
    (o.absorb ((k : Int) + 1) line).declarations.Pairwise (·.line ≤ ·.line) := by
  have hnew : ∀ d ∈ OpenStructure.declarationsOf ((k : Int) + 1) line o.depth,
      d.line = ((k + 1 : Nat) : Int) := fun d hd => OpenStructure.declarationsOf_line hd
  have hstart := h.start_le
  -- what was declared before is on earlier lines, and what is new on this one
  constructor
  · intro d hd
    rcases List.mem_append.mp hd with hd | hd
    · have := h.line d hd
      omega
    · have := hnew d hd
      omega
  · apply List.pairwise_append.mpr
    refine ⟨h.sorted, ?_, ?_⟩
    · apply List.pairwise_of_forall_mem_list
      intro d hd e he
      exact Int.le_of_eq ((hnew d hd).trans (hnew e he).symm)
    · intro d hd e he
      have := h.line d hd
      have := hnew e he
      omega

/-- The depth of an open structure is what is open on the lines since its first one. -/
theorem depth_absorb (h : Pending lines after k start o) (hline : lines[k]? = some line) :
    (o.absorb ((k : Int) + 1) line).depth = balance (textBetween lines start (k + 1)) := by
  rw [textBetween_succ hline h.start_le, balance_append, ← h.depth]
  rfl

/-- A line ends the span of the open structure exactly if it closes it. -/
theorem closes_iff (h : Pending lines after k start o) (hline : lines[k]? = some line) :
    (o.absorb ((k : Int) + 1) line).depth = 0 ∧ '}' ∈ line ↔ ClosesAt lines start (k + 1) := by
  rw [closesAt_succ_iff hline h.start_le, ← h.depth]
  rfl

/-- A line that does not close the open structure leaves it pending. -/
theorem absorb (h : Pending lines after k start o) (hline : lines[k]? = some line)
    (hcloses : ¬ ClosesAt lines start (k + 1)) :
    Pending lines after (k + 1) start (o.absorb ((k : Int) + 1) line) := by
  obtain ⟨hlines, hsorted⟩ := h.absorb_line line
  refine ⟨h.opening, h.startLine, Nat.le_succ_of_le h.start_le, h.depth_absorb hline, ?_, hlines,
    hsorted⟩
  intro i hi hik
  rcases Nat.le_succ_iff.mp hik with hik | rfl
  · exact h.not_closes i hi hik
  · exact hcloses

/-- A line that closes the open structure ends its span. -/
theorem close (h : Pending lines after k start o) (hcloses : ClosesAt lines start (k + 1)) :
    ((o.absorb ((k : Int) + 1) line).close ((k : Int) + 1)).Spans lines after start (k + 1) := by
  obtain ⟨hlines, hsorted⟩ := h.absorb_line line
  rw [← h.startLine] at hlines
  obtain ⟨hmembers, hmembersSorted⟩ :=
    lines_of_filterMap Declaration.line_of_member? hlines hsorted
  obtain ⟨hmethods, hmethodsSorted⟩ :=
    lines_of_filterMap Declaration.line_of_method? hlines hsorted
  refine ⟨h.startLine, rfl, hcloses.le_length (Nat.succ_pos k), h.opening,
    ⟨h.start_le, hcloses, ?_⟩, hmembers, hmembersSorted, hmethods, hmethodsSorted⟩
  intro i hi hik
  exact h.not_closes i hi (Nat.le_of_lt_succ hik)

end Pending

/-! ### Runs -/

/-- What is known when the lines up to `k` have been scanned. -/
def ScannedTo (lines : List (List Char)) (after k : Nat) : Option OpenStructure → Prop
  | none => after ≤ k ∧ ∀ i, after < i → i ≤ k → ∀ kind name, ¬ OpensAt lines i kind name
  | some o => ∃ start, Pending lines after k start o

/-- With a structure open, a line closes it or leaves it open. -/
theorem Pending.step {lines : List (List Char)} {after k start : Nat} {o : OpenStructure}
    {line : List Char} (h : Pending lines after k start o) (hline : lines[k]? = some line) :
    (∃ s start, scanLine (some o) ((k : Int) + 1) line = (some s, none) ∧
        s.Spans lines after start (k + 1)) ∨
    ∃ next, scanLine (some o) ((k : Int) + 1) line = (none, next) ∧
        ScannedTo lines after (k + 1) next := by
  by_cases hcloses : ClosesAt lines start (k + 1)
  · left
    exact ⟨_, start, if_pos ((h.closes_iff hline).mpr hcloses), h.close hcloses⟩
  · right
    exact ⟨_, if_neg (mt (h.closes_iff hline).mp hcloses), start, h.absorb hline hcloses⟩

/-- A line either completes a structure or leaves the scanner in the same segment. -/
theorem ScannedTo.step {lines : List (List Char)} {after k : Nat} {current : Option OpenStructure}
    {line : List Char} (h : ScannedTo lines after k current) (hline : lines[k]? = some line) :
    (∃ s start, scanLine current ((k : Int) + 1) line = (some s, none) ∧
        s.Spans lines after start (k + 1)) ∨
    ∃ next, scanLine current ((k : Int) + 1) line = (none, next) ∧
        ScannedTo lines after (k + 1) next := by
  cases current with
  | some o =>
      obtain ⟨start, hpending⟩ := h
      exact hpending.step hline
  | none =>
      obtain ⟨hafter, hfirst⟩ := h
      -- a line that opens a structure may close it too; any other line opens none
      cases ho : OpenStructure.ofLine? ((k : Int) + 1) line with
      | some o =>
          rw [scanLine_none_of_ofLine? ho]
          exact (Pending.ofLine? hline hafter hfirst ho).step hline
      | none =>
          refine .inr ⟨none, ?_, Nat.le_succ_of_le hafter, ?_⟩
          · rw [scanLine, ho]
            rfl
          · intro i hi hik kind name hopens
            rcases Nat.le_succ_iff.mp hik with hik | rfl
            · exact hfirst i hi hik kind name hopens
            · obtain ⟨line', hline', hopens⟩ := hopens
              obtain rfl : line = line' := Option.some.inj (hline.symm.trans hline')
              exact OpenStructure.ofLine?_eq_none_iff.mp ho kind name hopens

/-- At the end of the lines no segment is left that could be closed. -/
theorem ScannedTo.segmented {lines : List (List Char)} {after k : Nat}
    {current : Option OpenStructure} (h : ScannedTo lines after k current)
    (hk : lines.length ≤ k) : Segmented lines after [] := by
  cases current with
  | none =>
      apply Segmented.unopened
      intro i hi kind name hopens
      have := hopens.le_length (by omega)
      exact h.2 i hi (by omega) kind name hopens
  | some o =>
      obtain ⟨start, hpending⟩ := h
      apply Segmented.unclosed hpending.opening
      intro stop hstop hcloses
      have hpos := hpending.opening.after_lt
      have := hcloses.le_length (by omega)
      exact hpending.not_closes stop hstop (by omega) hcloses

/-- Scanning the lines after line `k` cuts them into segments. -/
theorem segmented_scanLines {lines rest : List (List Char)} {after k : Nat}
    {current : Option OpenStructure} (h : ScannedTo lines after k current)
    (hrest : lines.drop k = rest) :
    Segmented lines after (scanLines current ((k : Int) + 1) rest).1 := by
  induction rest generalizing after k current with
  | nil => exact h.segmented (List.drop_eq_nil_iff.mp hrest)
  | cons line rest ih =>
      obtain ⟨hline, hdrop⟩ := of_drop_eq_cons hrest
      rw [scanLines]
      rcases h.step hline with ⟨s, start, hscan, hspans⟩ | ⟨next, hscan, hnext⟩
      -- a structure is complete, and the next segment starts behind it
      · rw [hscan]
        have hidle : ScannedTo lines (k + 1) (k + 1) none :=
          ⟨Nat.le_refl _, fun i hi hik => absurd hi (Nat.not_lt.mpr hik)⟩
        exact Segmented.cons hspans (ih hidle hdrop)
      · rw [hscan]
        exact ih hnext hdrop

/-- The structures of a text are its balanced segments. -/
theorem scan_segmented (text : String) : Segmented (linesOf text) 0 (scan text) := by
  have hstart : ScannedTo (linesOf text) 0 0 none :=
    ⟨Nat.le_refl 0, fun i hi hi' => absurd hi (Nat.not_lt.mpr hi')⟩
  exact segmented_scanLines hstart rfl

end CellAtlas.Source
