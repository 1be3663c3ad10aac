import CellAtlas.Source.Declaration
import Mathlib.Data.List.Basic

/-!
# Names and type words

What a name and a type word are made of, said apart from how they are read, and which characters
stand in neither.
-/

namespace CellAtlas.Source

open Text

/-- A name: a letter or an underscore, and then name characters. -/
def isName : List Char → Bool
  | [] => false
  | c :: cs => isNameStart c && cs.all isNameChar

def isTypeWord : List Char → Bool
  | [] => false
  | c :: cs => isNameStart c && cs.all isTypeChar

theorem isName_cons {c : Char} {cs : List Char} :
    isName (c :: cs) ↔ isNameStart c ∧ ∀ d ∈ cs, isNameChar d := by
  simp [isName]

theorem isTypeWord_cons {c : Char} {cs : List Char} :
    isTypeWord (c :: cs) ↔ isNameStart c ∧ ∀ d ∈ cs, isTypeChar d := by
  simp [isTypeWord]

theorem isNameChar_of_isNameStart {c : Char} (h : isNameStart c) : isNameChar c := by
  simp [isNameChar, h]

theorem isTypeChar_of_isNameChar {c : Char} (h : isNameChar c) : isTypeChar c := by
  simp [isTypeChar, h]

/-- All characters of a type word are type characters. -/
theorem isTypeChar_of_mem {w : List Char} (hw : isTypeWord w) {c : Char} (hc : c ∈ w) :
    isTypeChar c := by
  cases w with
  | nil => exact absurd hc List.not_mem_nil
  | cons d w =>
      obtain ⟨hstart, hchars⟩ := isTypeWord_cons.mp hw
      rcases List.mem_cons.mp hc with rfl | hc
      · exact isTypeChar_of_isNameChar (isNameChar_of_isNameStart hstart)
      · exact hchars c hc

/-- Type characters lie between the zero and the small z. -/
theorem toNat_bounds_of_isTypeChar {c : Char} (h : isTypeChar c) :
    48 ≤ c.toNat ∧ c.toNat ≤ 122 := by
  have hle : ∀ a b : Char, a ≤ b ↔ a.toNat ≤ b.toNat := fun _ _ => Iff.rfl
  simp only [isTypeChar, isNameChar, isNameStart, Bool.or_eq_true, Bool.and_eq_true,
    decide_eq_true_eq, beq_iff_eq, hle, ← Char.toNat_inj, Char.reduceToNat] at h
  omega

/-- Blanks are no type characters, by the ranges of both. -/
theorem isBlank_of_isTypeChar {c : Char} (h : isTypeChar c) : isBlank c = false := by
  have hbounds := toNat_bounds_of_isTypeChar h
  rw [Bool.eq_false_iff]
  simp only [isBlank, ne_eq, Bool.or_eq_true, Bool.and_eq_true, decide_eq_true_eq, beq_iff_eq]
  omega

theorem isBlank_of_isNameStart {c : Char} (h : isNameStart c) : isBlank c = false :=
  isBlank_of_isTypeChar (isTypeChar_of_isNameChar (isNameChar_of_isNameStart h))

end CellAtlas.Source
