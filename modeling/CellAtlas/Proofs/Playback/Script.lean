import CellAtlas.Playback.Script
import CellAtlas.Proofs.Sorting
import CellAtlas.Proofs.Source.Span
import Mathlib.Data.List.Forall2

/-!
# Scripts of scanned text

A script sorts the steps of all structures stably by their lines. For any structures that may mix
them up, but not for those that a scan finds: they lie one below the other, and all that belongs to
one lies on its lines. So their script goes through one structure after the other, each a block of
its own (`script_blocks`):

    definition ─▶ members and methods, by their lines ─▶ end

In `stableSort_blocks` the blocks are put together; that they are the script follows, because there
is only one stable order.
-/

namespace CellAtlas

open Source

/-! ### Blocks of steps -/

def definitionStep (s : Structure) : Step :=
  ⟨s.startLine, "Define " ++ (s.kind.keyword ++ " " ++ s.name), .definition⟩

def memberStep (m : Member) : Step :=
  ⟨m.line, "Declare member " ++ m.name ++ " of type " ++ m.declaredType, .memberDeclaration⟩

def methodStep (m : Method) : Step := ⟨m.line, "Define method " ++ m.name, .methodDeclaration⟩

def endingStep (s : Structure) : Step :=
  ⟨s.endLine, "End " ++ (s.kind.keyword ++ " " ++ s.name), .ending⟩

/-- The steps of what a structure contains, the members before the methods. -/
def contentSteps (s : Structure) : List Step :=
  s.members.map memberStep ++ s.methods.map methodStep

/-- The steps of a structure, with what it contains in the middle. -/
theorem stepsOf_eq (s : Structure) :
    stepsOf s = [definitionStep s] ++ (contentSteps s ++ [endingStep s]) := by
  rw [contentSteps, ← List.append_assoc, ← List.append_assoc]
  rfl

/-- The steps of one structure: its definition, what it contains by its lines, members before
methods on the same line, and its end. -/
def IsBlock (s : Structure) (block : List Step) : Prop :=
  ∃ content, StableSort Step.sourceLine (contentSteps s) content ∧
    block = definitionStep s :: (content ++ [endingStep s])

def blockOf (s : Structure) : List Step :=
  definitionStep s ::
    ((contentSteps s).mergeSort (fun a b => a.sourceLine ≤ b.sourceLine) ++ [endingStep s])

/-- Sorting what a structure contains makes a block of its steps. -/
theorem isBlock_blockOf (s : Structure) : IsBlock s (blockOf s) :=
  ⟨_, stableSort_mergeSort Step.sourceLine (contentSteps s), rfl⟩

/-- A script is sorted by the lines, without a change of order on any line. -/
theorem script_stableSort (structures : List Structure) :
    StableSort Step.sourceLine (structures.flatMap stepsOf) (script structures) :=
  stableSort_mergeSort Step.sourceLine _

/-- Every step says something. -/
theorem description_ne_empty {structures : List Structure} {step : Step}
    (h : step ∈ script structures) : step.description ≠ "" := by
  rw [script, List.mem_mergeSort, List.mem_flatMap] at h
  obtain ⟨s, -, h⟩ := h
  rw [stepsOf_eq, contentSteps] at h
  simp only [List.mem_append, List.mem_singleton, List.mem_map] at h
  rcases h with rfl | (⟨m, -, rfl⟩ | ⟨m, -, rfl⟩) | rfl
  · simp [definitionStep]
  · simp [memberStep]
  · simp [methodStep]
  · simp [endingStep]

/-! ### Structures one below the other -/

/-- All that belongs to a structure lies on its lines. -/
structure OnItsLines (s : Structure) : Prop where
  start_le_end : s.startLine ≤ s.endLine
  content : ∀ c ∈ contentSteps s, s.startLine ≤ c.sourceLine ∧ c.sourceLine ≤ s.endLine

namespace OnItsLines

variable {s t : Structure}

theorem mem_stepsOf (h : OnItsLines s) {a : Step} (ha : a ∈ stepsOf s) :
    s.startLine ≤ a.sourceLine ∧ a.sourceLine ≤ s.endLine := by
  rw [stepsOf_eq] at ha
  simp only [List.mem_append, List.mem_singleton] at ha
  rcases ha with rfl | ha | rfl
  · exact ⟨Int.le_refl _, h.start_le_end⟩
  · exact h.content a ha
  · exact ⟨h.start_le_end, Int.le_refl _⟩

/-- Where a structure has its steps on its lines, sorting them leaves its definition first and its
end last. -/
theorem stableSort_blockOf (h : OnItsLines s) :
    StableSort Step.sourceLine (stepsOf s) (blockOf s) := by
  have hcontent := stableSort_mergeSort Step.sourceLine (contentSteps s)
  rw [stepsOf_eq]
  -- the definition is on the first line, and nothing is on a line behind the last one
  refine .append (.singleton _) (.append hcontent (.singleton _) ?_) ?_
  · intro a ha b hb
    rw [List.mem_singleton.mp hb]
    exact (h.content a ha).2
  · intro a ha b hb
    rw [List.mem_singleton.mp ha]
    apply (h.mem_stepsOf _).1
    rw [stepsOf_eq]
    exact List.mem_append_right _ hb

end OnItsLines

/-- The blocks of structures one below the other are sorted as a whole. -/
theorem stableSort_blocks {structures : List Structure} (h : ∀ s ∈ structures, OnItsLines s)
    (hbelow : structures.Pairwise fun s t => s.endLine < t.startLine) :
    StableSort Step.sourceLine (structures.flatMap stepsOf) (structures.flatMap blockOf) := by
  induction structures with
  | nil => exact .nil
  | cons s rest ih =>
      obtain ⟨hs, hrest⟩ := List.forall_mem_cons.mp h
      obtain ⟨hfirst, hbelow⟩ := List.pairwise_cons.mp hbelow
      rw [List.flatMap_cons, List.flatMap_cons]
      apply hs.stableSort_blockOf.append (ih hrest hbelow)
      intro a ha b hb
      -- a step of a later structure lies below the end of this one
      obtain ⟨t, ht, hb⟩ := List.mem_flatMap.mp hb
      have ha := (hs.mem_stepsOf ha).2
      have hb := ((hrest t ht).mem_stepsOf hb).1
      have hlt := hfirst t ht
      omega

/-! ### Scanned text -/

/-- What has been read from the lines of a structure lies on them. -/
theorem Source.Structure.Spans.onItsLines {lines : List (List Char)} {s : Structure}
    {after start stop : Nat} (h : s.Spans lines after start stop) : OnItsLines s where
  start_le_end := by
    rw [h.startLine, h.endLine]
    exact Int.ofNat_le.mpr h.closing.start_le
  content := by
    intro c hc
    rcases List.mem_append.mp hc with hc | hc
    · obtain ⟨m, hm, rfl⟩ := List.mem_map.mp hc
      exact h.member_line m hm
    · obtain ⟨m, hm, rfl⟩ := List.mem_map.mp hc
      exact h.method_line m hm

/-- The segments of a text lie one below the other. -/
theorem Source.Segmented.ordered {lines : List (List Char)} {after : Nat}
    {structures : List Structure} (h : Segmented lines after structures) :
    (∀ s ∈ structures, (after : Int) < s.startLine ∧ OnItsLines s) ∧
      structures.Pairwise fun s t => s.endLine < t.startLine := by
  induction h with
  | unopened => simp
  | unclosed => simp
  | @cons after start stop s rest hs _ ih =>
      obtain ⟨hrest, hpairwise⟩ := ih
      have hafter : (after : Int) < start := Int.ofNat_lt.mpr hs.opening.after_lt
      have hstop : (start : Int) ≤ stop := Int.ofNat_le.mpr hs.closing.start_le
      -- the first structure ends at line `stop`, which the others begin after
      refine ⟨?_, List.pairwise_cons.mpr ⟨?_, hpairwise⟩⟩
      · intro t ht
        rcases List.mem_cons.mp ht with rfl | ht
        · exact ⟨hs.startLine ▸ hafter, hs.onItsLines⟩
        · obtain ⟨hlt, hlines⟩ := hrest t ht
          exact ⟨by omega, hlines⟩
      · intro t ht
        rw [hs.endLine]
        exact (hrest t ht).1

/-- A script is the stable order of the steps of its structures, and that of a scanned text goes
through them one after the other. -/
theorem script_blocks (structures : List Structure) (text : String) :
    StableSort Step.sourceLine
      (structures.flatMap fun s =>
        definitionStep s ::
          (s.members.map memberStep ++ s.methods.map methodStep ++ [endingStep s]))
      (script structures) ∧
    ∃ blocks, List.Forall₂ IsBlock (scan text) blocks ∧ script (scan text) = blocks.flatten := by
  constructor
  · have hsteps : stepsOf = fun s => definitionStep s ::
        (s.members.map memberStep ++ s.methods.map methodStep ++ [endingStep s]) :=
      funext stepsOf_eq
    rw [← hsteps]
    exact script_stableSort structures
  · refine ⟨(scan text).map blockOf, ?_, ?_⟩
    · rw [List.forall₂_map_right_iff, List.forall₂_same]
      exact fun s _ => isBlock_blockOf s
    -- the scanner starts at the first line with nothing open
    · have hidle : ScannedTo (linesOf text) 0 0 none :=
        ⟨Nat.le_refl 0, fun i hi hi' => absurd hi (Nat.not_lt.mpr hi')⟩
      obtain ⟨hlines, hbelow⟩ := (segmented_scanLines hidle rfl).ordered
      exact (script_stableSort _).unique (stableSort_blocks (fun s hs => (hlines s hs).2) hbelow)

end CellAtlas
