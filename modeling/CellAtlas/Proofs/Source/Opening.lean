import CellAtlas.Proofs.List
import CellAtlas.Proofs.Source.Word
import CellAtlas.Source.Scan
import Mathlib.Data.List.TakeWhile

/-!
# Lines that open a structure

A line opens a structure if it begins with the keyword of a kind, blanks and a name. No keyword
begins another one and the name goes as far as it can, so that the line determines both, and they
are those of the structure that the scanner opens (`ofLine?_eq_some_iff`).
-/

namespace CellAtlas.Source

open Text

/-- Blanks and a name stand at the front of a text, and no name character follows the name. -/
def NameAfterBlanks (cs : List Char) (name : String) : Prop :=
  ∃ blanks rest : List Char, cs = blanks ++ (name.toList ++ rest) ∧ blanks ≠ [] ∧
    (∀ c ∈ blanks, isBlank c) ∧ isName name.toList ∧ ∀ c ∈ rest.head?, isNameChar c = false

/-- A line begins with the keyword of a kind, blanks and a name. -/
def Opens (line : List Char) (kind : Kind) (name : String) : Prop :=
  ∃ after, line = kind.keyword.toList ++ after ∧ NameAfterBlanks after name

/-- The name behind the blanks at the front of a text. -/
def nameAfterBlanks? (cs : List Char) : Option String :=
  match skipBlanks cs with
  | [] => none
  | c :: rest =>
    if isNameStart c && cs.head?.any isBlank then
      some (String.ofList (c :: rest.takeWhile isNameChar))
    else none

/-- The name that stands behind the blanks is found. -/
theorem nameAfterBlanks?_eq_some {cs : List Char} {name : String} (h : NameAfterBlanks cs name) :
    nameAfterBlanks? cs = some name := by
  obtain ⟨blanks, rest, rfl, hne, hblanks, hname, hrest⟩ := h
  obtain ⟨b, bs, rfl⟩ := List.exists_cons_of_ne_nil hne
  cases hcs : name.toList with
  | nil =>
      rw [hcs] at hname
      exact absurd hname (by decide)
  | cons c cs =>
      rw [hcs] at hname
      obtain ⟨hstart, hchars⟩ := isName_cons.mp hname
      have hskip : skipBlanks (b :: bs ++ (c :: cs ++ rest)) = c :: (cs ++ rest) := by
        apply dropWhile_append_eq hblanks
        intro d hd
        obtain rfl : c = d := by simpa using hd
        exact isBlank_of_isNameStart hstart
      have hblank : isBlank b := hblanks b List.mem_cons_self
      have htake : (cs ++ rest).takeWhile isNameChar = cs := takeWhile_append_eq hchars hrest
      have hcond : (isNameStart c && (b :: bs ++ (c :: cs ++ rest)).head?.any isBlank) = true := by
        simp [hstart, hblank]
      rw [nameAfterBlanks?, hskip]
      simp only [htake]
      rw [if_pos hcond, ← hcs, String.ofList_toList]

/-- What is found is a whole name behind blanks. -/
theorem nameAfterBlanks_of_eq_some {cs : List Char} {name : String}
    (h : nameAfterBlanks? cs = some name) : NameAfterBlanks cs name := by
  unfold nameAfterBlanks? at h
  split at h
  next => cases h
  next c rest hskip =>
    split at h
    next hcond =>
      cases h
      rw [Bool.and_eq_true] at hcond
      have hcs : cs.takeWhile isBlank ++ (c :: rest) = cs := by
        rw [← hskip]
        exact List.takeWhile_append_dropWhile
      -- the front is the blanks, and the name goes on as far as name characters do
      refine ⟨cs.takeWhile isBlank, rest.dropWhile isNameChar, ?_, ?_, ?_, ?_, ?_⟩
      · rw [String.toList_ofList, List.cons_append, List.takeWhile_append_dropWhile, hcs]
      · intro hnil
        cases cs with
        | nil => simp at hcond
        | cons b bs => simp_all
      · intro b hb
        exact List.mem_takeWhile_imp hb
      · rw [String.toList_ofList, isName_cons]
        exact ⟨hcond.1, fun d hd => List.mem_takeWhile_imp hd⟩
      · intro d hd
        have := List.head?_dropWhile_not isNameChar rest
        rw [hd] at this
        exact this
    next => cases h

/-- No keyword begins another one. -/
theorem keyword_isPrefixOf_append (other kind : Kind) (after : List Char) :
    other.keyword.toList.isPrefixOf (kind.keyword.toList ++ after) = decide (other = kind) := by
  cases other <;> cases kind <;> simp [Kind.keyword, List.isPrefixOf]

namespace OpenStructure

variable {line : List Char} {number : Int}

/-- The opening of a line, told with `nameAfterBlanks?`. -/
theorem ofLine?_eq (number : Int) (line : List Char) :
    ofLine? number line = Kind.all.findSome? fun kind =>
      if kind.keyword.toList.isPrefixOf line then
        (nameAfterBlanks? (line.drop kind.keyword.toList.length)).map fun name =>
          { name, kind, startLine := number }
      else none := by
  rw [ofLine?]
  congr 1
  funext kind
  dsimp only
  split
  · rw [nameAfterBlanks?]
    cases skipBlanks (line.drop kind.keyword.toList.length) with
    | nil => rfl
    | cons c rest =>
        dsimp only
        split <;> rfl
  · rfl

/-- Behind its keyword a line opens a structure if a name follows. -/
theorem ofLine?_keyword_append (kind : Kind) (number : Int) (after : List Char) :
    ofLine? number (kind.keyword.toList ++ after) =
      (nameAfterBlanks? after).map fun name => { name, kind, startLine := number } := by
  simp only [ofLine?_eq, keyword_isPrefixOf_append, decide_eq_true_eq]
  cases kind <;> cases h : nameAfterBlanks? after <;> simp [Kind.all, h]

/-- A line that opens a structure begins with its keyword. -/
theorem keyword_prefix_of_ofLine? {o : OpenStructure} (h : ofLine? number line = some o) :
    o.kind.keyword.toList <+: line := by
  rw [ofLine?_eq] at h
  obtain ⟨kind, -, hkind⟩ := List.exists_of_findSome?_eq_some h
  split at hkind
  next hprefix =>
    obtain ⟨name, -, rfl⟩ := Option.map_eq_some_iff.mp hkind
    exact List.isPrefixOf_iff_prefix.mp hprefix
  next => cases hkind

/-- The scanner opens a structure in the lines that open one, with their kind and name. -/
theorem ofLine?_eq_some_iff {o : OpenStructure} :
    ofLine? number line = some o ↔
      Opens line o.kind o.name ∧ o = { name := o.name, kind := o.kind, startLine := number } := by
  constructor
  · intro h
    obtain ⟨after, rfl⟩ := keyword_prefix_of_ofLine? h
    rw [ofLine?_keyword_append, Option.map_eq_some_iff] at h
    obtain ⟨name, hname, ho⟩ := h
    rw [← ho]
    exact ⟨⟨after, rfl, nameAfterBlanks_of_eq_some hname⟩, rfl⟩
  · rintro ⟨⟨after, rfl, hname⟩, ho⟩
    rw [ofLine?_keyword_append, nameAfterBlanks?_eq_some hname, Option.map_some, ← ho]

/-- A line is passed over exactly if it opens no structure of any kind and name. -/
theorem ofLine?_eq_none_iff :
    ofLine? number line = none ↔ ∀ kind name, ¬ Opens line kind name := by
  constructor
  · intro h kind name hopens
    have hsome : ofLine? number line = some { name, kind, startLine := number } :=
      ofLine?_eq_some_iff.mpr ⟨hopens, rfl⟩
    rw [h] at hsome
    cases hsome
  · intro h
    cases ho : ofLine? number line with
    | none => rfl
    | some o => exact absurd (ofLine?_eq_some_iff.mp ho).1 (h o.kind o.name)

end OpenStructure

/-- A structure takes in the line that opens it. -/
theorem scanLine_none_of_ofLine? {line : List Char} {number : Int} {o : OpenStructure}
    (h : OpenStructure.ofLine? number line = some o) :
    scanLine none number line = scanLine (some o) number line := by
  rw [scanLine, scanLine, h]
  rfl

end CellAtlas.Source
