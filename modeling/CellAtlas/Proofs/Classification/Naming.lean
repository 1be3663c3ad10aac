import CellAtlas.Classification.Category
import CellAtlas.Proofs.Source.Span
import CellAtlas.Proofs.Text.Blank

/-!
# Names within types

A structure's category depends on the names that occur in the types of its members. A name has no
other characters than those of identifiers, so that it occurs within one identifier of a type
(`mentions_iff`): as the whole of it, or as a part of a longer one.

    type              identifiers        Node is
    const Node*       const, Node        named
    TreeNode*         TreeNode           mentioned, but not named

Both count alike. Hence the category is the one that the named structures suggest, unless a name is
mentioned that is not named and the category turns on it (`category_of_scan`).
-/

namespace CellAtlas.Source

open Text

/-! ### Identifiers -/

/-- The identifiers of a text: its longest runs of name characters. -/
def identifiers (cs : List Char) : List (List Char) :=
  (cs.splitOnP (!isNameChar ·)).filter (!·.isEmpty)

/-- A name has name characters only, so that none of it is cut off. -/
theorem isNameChar_of_isName {name : List Char} (h : isName name) : ∀ c ∈ name, isNameChar c := by
  cases name with
  | nil => exact fun _ hc => absurd hc List.not_mem_nil
  | cons c cs =>
      obtain ⟨hstart, hchars⟩ := isName_cons.mp h
      exact List.forall_mem_cons.mpr ⟨isNameChar_of_isNameStart hstart, hchars⟩

theorem ne_nil_of_isName {name : List Char} (h : isName name) : name ≠ [] := by
  rintro rfl
  cases h

/-- A name occurs in a text exactly if it occurs in one of its identifiers. -/
theorem occursIn_iff_exists_identifier {name : List Char} (h : isName name) (cs : List Char) :
    occursIn name cs ↔ ∃ word ∈ identifiers cs, name <:+: word := by
  have hne := ne_nil_of_isName h
  have hname : ∀ c ∈ name, (!isNameChar c) = false := fun c hc => by
    simp [isNameChar_of_isName h c hc]
  rw [occursIn_iff, infix_iff_exists_splitOnP hne hname]
  simp only [identifiers, List.mem_filter, Bool.not_eq_true', List.isEmpty_eq_false_iff]
  constructor
  · rintro ⟨word, hword, hinfix⟩
    refine ⟨word, ⟨hword, ?_⟩, hinfix⟩
    rintro rfl
    exact hne (List.infix_nil.mp hinfix)
  · rintro ⟨word, ⟨hword, -⟩, hinfix⟩
    exact ⟨word, hword, hinfix⟩

/-! ### Names in the types of members -/

/-- The name is an identifier of the member's type. -/
def Member.Names (m : Member) (name : String) : Prop :=
  name.toList ∈ identifiers m.declaredType.toList

/-- The name is an identifier of the member's type or a part of one. -/
def Member.Mentions (m : Member) (name : String) : Prop :=
  ∃ word ∈ identifiers m.declaredType.toList, name.toList <:+: word

instance : DecidableRel Member.Names := fun _ _ => inferInstanceAs (Decidable (_ ∈ _))

theorem Member.Names.mentions {m : Member} {name : String} (h : m.Names name) : m.Mentions name :=
  ⟨name.toList, h, List.infix_rfl⟩

/-- A type that contains a name has it in one of its identifiers. -/
theorem mentions_iff {name : String} (h : isName name.toList) (m : Member) :
    Structure.mentions m name ↔ m.Mentions name :=
  occursIn_iff_exists_identifier h _

/-! ### Categories -/

namespace Structure

section Leads

variable (Leads : Member → String → Prop)

/-- The type of a pointer among the members leads to the structure itself. -/
def PointsToItself (s : Structure) : Prop := ∃ m ∈ s.members, m.isPointer ∧ Leads m s.name

/-- The type of a member leads to another structure. -/
def HoldsAnother (s : Structure) (all : List Structure) : Prop :=
  ∃ m ∈ s.members, ∃ other ∈ all, other.name ≠ s.name ∧ Leads m other.name

/-- The category of a structure where types lead to structures in the given way. -/
def IsOf (s : Structure) (all : List Structure) : Category → Prop
  | .linked => s.PointsToItself Leads
  | .nested => ¬ s.PointsToItself Leads ∧ s.HoldsAnother Leads all
  | .simple => ¬ s.PointsToItself Leads ∧ ¬ s.HoldsAnother Leads all

end Leads

variable {s : Structure} {all : List Structure}

theorem PointsToItself.mentions (h : s.PointsToItself Member.Names) :
    s.PointsToItself Member.Mentions := by
  obtain ⟨m, hm, hpointer, hnames⟩ := h
  exact ⟨m, hm, hpointer, hnames.mentions⟩

theorem HoldsAnother.mentions (h : s.HoldsAnother Member.Names all) :
    s.HoldsAnother Member.Mentions all := by
  obtain ⟨m, hm, other, hother, hne, hnames⟩ := h
  exact ⟨m, hm, other, hother, hne, hnames.mentions⟩

/-- Linked structures have a pointer whose type mentions them. -/
theorem isLinked_iff (hs : isName s.name.toList) :
    s.isLinked ↔ s.PointsToItself Member.Mentions := by
  simp only [isLinked, List.any_eq_true, Bool.and_eq_true, mentions_iff hs, PointsToItself]

/-- Nested structures have a member whose type mentions another one. -/
theorem isNested_iff (hall : ∀ other ∈ all, isName other.name.toList) :
    s.isNested all ↔ s.HoldsAnother Member.Mentions all := by
  simp only [isNested, List.any_eq_true, Bool.and_eq_true, bne_iff_ne, HoldsAnother]
  constructor
  · rintro ⟨m, hm, other, hother, hne, hmentions⟩
    exact ⟨m, hm, other, hother, hne, (mentions_iff (hall other hother) m).mp hmentions⟩
  · rintro ⟨m, hm, other, hother, hne, hmentions⟩
    exact ⟨m, hm, other, hother, hne, (mentions_iff (hall other hother) m).mpr hmentions⟩

/-- Categories go by what types mention. -/
theorem category_isOf (hs : isName s.name.toList) (hall : ∀ other ∈ all, isName other.name.toList) :
    s.IsOf Member.Mentions all (s.category all) := by
  have hlinked := isLinked_iff hs
  have hnested := isNested_iff (s := s) hall
  unfold category
  split
  next h => exact hlinked.mp h
  next h =>
    split
    next h' => exact ⟨mt hlinked.mpr h, hnested.mp h'⟩
    next h' => exact ⟨mt hlinked.mpr h, mt hnested.mpr h'⟩

/-- A category that the mentions of names suggest is the one that the names suggest, unless it turns
on a name that is mentioned only. -/
theorem isOf_names_iff {c : Category} (h : s.IsOf Member.Mentions all c) :
    s.IsOf Member.Names all c ↔
      (s.PointsToItself Member.Mentions → s.PointsToItself Member.Names) ∧
      (¬ s.PointsToItself Member.Mentions →
        s.HoldsAnother Member.Mentions all → s.HoldsAnother Member.Names all) := by
  -- what the names lead to, the mentions do too, so that only a mention without a name can mislead
  cases c with
  | linked =>
      have hlinked : s.PointsToItself Member.Mentions := h
      exact ⟨fun hnames => ⟨fun _ => hnames, fun hnone => absurd hlinked hnone⟩,
        fun hnames => hnames.1 hlinked⟩
  | nested =>
      obtain ⟨hnone, hholds⟩ := h
      constructor
      · rintro ⟨-, hnames⟩
        exact ⟨fun hpoints => absurd hpoints hnone, fun _ _ => hnames⟩
      · rintro ⟨-, hnames⟩
        exact ⟨mt PointsToItself.mentions hnone, hnames hnone hholds⟩
  | simple =>
      obtain ⟨hnone, hnothing⟩ := h
      constructor
      · exact fun _ => ⟨fun hpoints => absurd hpoints hnone,
          fun _ hholds => absurd hholds hnothing⟩
      · exact fun _ => ⟨mt PointsToItself.mentions hnone, mt HoldsAnother.mentions hnothing⟩

end Structure

/-! ### Structures of a text -/

/-- Every structure of a segmented text has the name that its opening line gives it. -/
theorem Segmented.isName {lines : List (List Char)} {after : Nat} {structures : List Structure}
    (h : Segmented lines after structures) : ∀ s ∈ structures, isName s.name.toList := by
  induction h with
  | unopened h => exact fun s hs => absurd hs List.not_mem_nil
  | unclosed hopening h => exact fun s hs => absurd hs List.not_mem_nil
  | cons hspans hrest ih =>
      obtain ⟨_, -, _, -, _, _, -, -, -, hname, -⟩ := hspans.opening.opens
      exact List.forall_mem_cons.mpr ⟨hname, ih⟩

/-- Only names are found in front of a body. -/
theorem isName_of_mem_scan {text : String} {s : Structure} (h : s ∈ scan text) :
    isName s.name.toList := by
  have hstart : ScannedTo (linesOf text) 0 0 none :=
    ⟨Nat.le_refl 0, fun i hi hi' => absurd hi (Nat.not_lt.mpr hi')⟩
  exact (segmented_scanLines hstart rfl).isName s h

/-- A structure of a text is linked, nested or simple as the names suggest that identifiers in the
types of its members contain. That is what the identifiers themselves suggest exactly if a pointer
to the structure's own name, and without such a pointer a member of another structure's name, is
found among them as soon as one is found within them. -/
theorem category_of_scan {text : String} {s : Structure} (hs : s ∈ scan text) :
    s.IsOf Member.Mentions (scan text) (s.category (scan text)) ∧
    (s.IsOf Member.Names (scan text) (s.category (scan text)) ↔
      (s.PointsToItself Member.Mentions → s.PointsToItself Member.Names) ∧
      (¬ s.PointsToItself Member.Mentions →
        s.HoldsAnother Member.Mentions (scan text) → s.HoldsAnother Member.Names (scan text))) := by
  have hmentions : s.IsOf Member.Mentions (scan text) (s.category (scan text)) :=
    Structure.category_isOf (isName_of_mem_scan hs) fun _ hother => isName_of_mem_scan hother
  exact ⟨hmentions, Structure.isOf_names_iff hmentions⟩

def rootText : String := "struct Node \x7b\nTreeNode* root;\n\x7d;"

def rootNode : Structure where
  name := "Node"
  startLine := 1
  endLine := 3
  members := [⟨"root", "TreeNode*", true, 2⟩]

/-- It counts as linked, though nothing in it points to it. -/
theorem category_of_scan_root : rootNode ∈ scan rootText ∧
    rootNode.category (scan rootText) = .linked ∧
    rootNode.PointsToItself Member.Mentions ∧ ¬ rootNode.PointsToItself Member.Names ∧
    ¬ rootNode.IsOf Member.Names (scan rootText) (rootNode.category (scan rootText)) := by
  have hscan : scan rootText = [rootNode] := by decide +kernel
  have hmem : rootNode ∈ scan rootText := hscan ▸ List.mem_singleton_self _
  have hcategory : rootNode.category (scan rootText) = .linked := by
    rw [hscan]
    decide +kernel
  -- `TreeNode` is one identifier, and it is not `Node`
  have hnames : ¬ rootNode.PointsToItself Member.Names := by
    unfold Structure.PointsToItself
    decide +kernel
  obtain ⟨hmentions, hiff⟩ := category_of_scan hmem
  have hpoints : rootNode.PointsToItself Member.Mentions := by
    rw [hcategory] at hmentions
    exact hmentions
  refine ⟨hmem, hcategory, hpoints, hnames, ?_⟩
  rw [hiff]
  exact fun h => hnames (h.1 hpoints)

end CellAtlas.Source
