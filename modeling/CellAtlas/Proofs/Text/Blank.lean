import CellAtlas.Proofs.List
import CellAtlas.Text.Blank
import Mathlib.Data.List.Basic
import Mathlib.Data.List.TakeWhile

/-!
# Splitting, occurring and trimming

Splitting undoes joining: a text is cut where it was put together (`split_append`), and parts
without the separator come back as they were (`split_intercalate`). A text occurs in those that have
it as a connected part (`occursIn_iff`). Trimming does nothing to a text without blanks at its ends
(`trim_eq_self`), and more of them make no difference to it (`trim_blanks_append`,
`trim_append_blanks`).
-/

namespace CellAtlas.Text

variable {sep : Char}

theorem split_cons_self (cs : List Char) : split sep (sep :: cs) = [] :: split sep cs := by
  rw [split, if_pos rfl]

theorem split_cons_of_ne {c : Char} {cs part : List Char} {parts : List (List Char)} (h : c ≠ sep)
    (hcs : split sep cs = part :: parts) : split sep (c :: cs) = (c :: part) :: parts := by
  rw [split, if_neg h, hcs]

/-- A separator cuts a text for good. -/
theorem split_append (a b : List Char) :
    split sep (a ++ sep :: b) = split sep a ++ split sep b := by
  induction a with
  | nil => exact split_cons_self b
  | cons c cs ih =>
      rw [List.cons_append]
      by_cases h : c = sep
      · subst h
        rw [split_cons_self, split_cons_self, ih]
        rfl
      · obtain ⟨part, parts, hcs⟩ := List.exists_cons_of_ne_nil (split_ne_nil sep cs)
        rw [hcs, List.cons_append] at ih
        rw [split_cons_of_ne h ih, split_cons_of_ne h hcs]
        rfl

/-- Without a separator there is nothing to cut. -/
theorem split_of_not_mem {cs : List Char} (h : sep ∉ cs) : split sep cs = [cs] := by
  induction cs with
  | nil => rfl
  | cons c cs ih =>
      rw [List.mem_cons, not_or] at h
      exact split_cons_of_ne (Ne.symm h.1) (ih h.2)

/-- Parts that are joined by a separator come back as they were. -/
theorem split_intercalate {parts : List (List Char)} (hne : parts ≠ [])
    (h : ∀ part ∈ parts, sep ∉ part) : split sep ([sep].intercalate parts) = parts := by
  induction parts with
  | nil => exact absurd rfl hne
  | cons part rest ih =>
      have hpart := split_of_not_mem (h part List.mem_cons_self)
      cases rest with
      | nil => rw [List.intercalate_singleton, hpart]
      | cons next rest =>
          have hrest := ih (List.cons_ne_nil next rest) fun p hp => h p (List.mem_cons_of_mem _ hp)
          -- a part stands in front of a separator, which cuts it off
          rw [List.intercalate_cons_cons, List.append_assoc, List.singleton_append, split_append,
            hpart, hrest]
          rfl

/-- Below its last separator a text is cut together with what follows. -/
theorem exists_split_append (sep : Char) (before : List Char) :
    ∃ parts part, part <:+ before ∧ sep ∉ part ∧ ∀ after,
      split sep (before ++ after) = parts ++ split sep (part ++ after) := by
  rcases forall_or_exists_last (· == sep) before with hnone | ⟨upper, c, part, rfl, hc, hpart⟩
  · refine ⟨[], before, List.suffix_rfl, ?_, fun after => rfl⟩
    exact fun h => absurd (hnone sep h) (by simp)
  · obtain rfl : c = sep := eq_of_beq hc
    refine ⟨split c upper, part, ?_, ?_, ?_⟩
    · exact (List.suffix_cons c part).trans (List.suffix_append upper _)
    · exact fun h => absurd (hpart c h) (by simp)
    · intro after
      rw [List.append_assoc, List.cons_append, split_append]

/-- Above its first separator a text is cut together with what stands in front of it. -/
theorem exists_append_split (sep : Char) (after : List Char) :
    ∃ part parts, part <+: after ∧ sep ∉ part ∧ ∀ before, sep ∉ before →
      split sep (before ++ after) = (before ++ part) :: parts := by
  -- with a separator the first part ends there, and without one it is everything
  by_cases h : sep ∈ after
  · obtain ⟨part, lower, rfl, hpart⟩ := List.eq_append_cons_of_mem h
    refine ⟨part, split sep lower, List.prefix_append _ _, hpart, ?_⟩
    intro before hbefore
    have hnone : sep ∉ before ++ part := by
      rw [List.mem_append, not_or]
      exact ⟨hbefore, hpart⟩
    rw [← List.append_assoc, split_append, split_of_not_mem hnone, List.singleton_append]
  · refine ⟨after, [], List.prefix_rfl, h, ?_⟩
    intro before hbefore
    have hnone : sep ∉ before ++ after := by
      rw [List.mem_append, not_or]
      exact ⟨hbefore, h⟩
    exact split_of_not_mem hnone

/-- A text occurs in another one exactly if that is the text with something on either side. -/
theorem occursIn_iff (pattern cs : List Char) : occursIn pattern cs ↔ pattern <:+: cs := by
  induction cs with
  | nil => simp [occursIn]
  | cons c cs ih =>
      rw [occursIn, Bool.or_eq_true, ih, List.isPrefixOf_iff_prefix, List.infix_cons_iff]

theorem skipBlanks_cons_of_blank {c : Char} (h : isBlank c) (cs : List Char) :
    skipBlanks (c :: cs) = skipBlanks cs := by
  rw [skipBlanks, List.dropWhile_cons_of_pos h]
  rfl

/-- A text that does not begin with a blank has none to skip. -/
theorem skipBlanks_eq_self {cs : List Char} (h : ∀ c ∈ cs.head?, isBlank c = false) :
    skipBlanks cs = cs := by
  cases cs with
  | nil => rfl
  | cons c cs =>
      have hc := h c rfl
      exact List.dropWhile_cons_of_neg (by simp [hc])

theorem trim_cons_of_blank {c : Char} (h : isBlank c) (cs : List Char) :
    trim (c :: cs) = trim cs := by
  have hskip := skipBlanks_cons_of_blank h cs
  rw [skipBlanks, skipBlanks] at hskip
  rw [trim, trim, trimBy, trimBy, hskip]

/-- A text without blanks at its ends stays as it is. -/
theorem trim_eq_self {cs : List Char} (hhead : ∀ c ∈ cs.head?, isBlank c = false)
    (hlast : ∀ c ∈ cs.getLast?, isBlank c = false) : trim cs = cs := by
  have hfront : cs.dropWhile isBlank = cs := skipBlanks_eq_self hhead
  have hback : cs.reverse.dropWhile isBlank = cs.reverse := by
    apply skipBlanks_eq_self
    rw [List.head?_reverse]
    exact hlast
  rw [trim, trimBy, hfront, hback, List.reverse_reverse]

/-- Two pieces have no blanks at their ends if the first one does not begin and the last one does
not end with one. -/
theorem trim_append_eq_self {front rest : List Char} {c : Char}
    (hhead : ∀ d ∈ (front ++ rest).head?, isBlank d = false) (hlast : rest.getLast? = some c)
    (hc : isBlank c = false) : trim (front ++ rest) = front ++ rest := by
  apply trim_eq_self hhead
  rw [List.getLast?_append, hlast]
  rintro d ⟨⟩
  exact hc

/-! ### Blanks in front and at the end -/

section Blanks

variable {c : Char} {a w : List Char}

theorem skipBlanks_of_forall (hw : ∀ c ∈ w, isBlank c) : skipBlanks w = [] :=
  List.dropWhile_eq_nil_iff.mpr hw

/-- Blanks are skipped up to a character that is none, whatever comes behind it. -/
theorem skipBlanks_append_cons (hc : isBlank c = false) (a b : List Char) :
    skipBlanks (a ++ c :: b) = skipBlanks a ++ c :: b := by
  induction a with
  | nil => exact List.dropWhile_cons_of_neg (by simp [hc])
  | cons d a ih =>
      cases hd : isBlank d with
      | true =>
          rw [List.cons_append, skipBlanks_cons_of_blank hd, skipBlanks_cons_of_blank hd, ih]
      | false =>
          have hstop : ∀ e ∈ (d :: a).head?, isBlank e = false := by
            rintro e ⟨⟩
            exact hd
          rw [skipBlanks_eq_self hstop]
          exact skipBlanks_eq_self hstop

/-- If something is left of a text without its blanks, what follows it is left too. -/
theorem skipBlanks_append_of_ne_nil (h : skipBlanks a ≠ []) (b : List Char) :
    skipBlanks (a ++ b) = skipBlanks a ++ b := by
  rw [skipBlanks, List.dropWhile_append, if_neg (by simpa [skipBlanks] using h)]
  rfl

/-- A text of blanks only is skipped as a whole. -/
theorem skipBlanks_append_of_nil (h : skipBlanks a = []) (b : List Char) :
    skipBlanks (a ++ b) = skipBlanks b := by
  rw [skipBlanks, List.dropWhile_append, if_pos (by simpa [skipBlanks] using h)]
  rfl

/-- What is left of `cs` without the blanks at its end. -/
def trimEnd (cs : List Char) : List Char := (skipBlanks cs.reverse).reverse

/-- Blanks at the end are dropped back to a character that is none. -/
theorem trimEnd_append_cons (hc : isBlank c = false) (a b : List Char) :
    trimEnd (a ++ c :: b) = a ++ c :: trimEnd b := by
  have hreverse : (a ++ c :: b).reverse = b.reverse ++ c :: a.reverse := by simp
  rw [trimEnd, hreverse, skipBlanks_append_cons hc]
  simp [trimEnd]

theorem trimEnd_append_of_ne_nil (h : trimEnd a ≠ []) (w : List Char) :
    trimEnd (w ++ a) = w ++ trimEnd a := by
  have hne : skipBlanks a.reverse ≠ [] := by simpa [trimEnd] using h
  rw [trimEnd, List.reverse_append, skipBlanks_append_of_ne_nil hne]
  simp [trimEnd]

theorem trimEnd_append_of_nil (h : trimEnd a = []) (w : List Char) :
    trimEnd (w ++ a) = trimEnd w := by
  have hnil : skipBlanks a.reverse = [] := by simpa [trimEnd] using h
  rw [trimEnd, List.reverse_append, skipBlanks_append_of_nil hnil]
  rfl

theorem trimEnd_of_forall (hw : ∀ c ∈ w, isBlank c) : trimEnd w = [] := by
  have hreverse : ∀ c ∈ w.reverse, isBlank c := fun c hc => hw c (List.mem_reverse.mp hc)
  rw [trimEnd, skipBlanks_of_forall hreverse, List.reverse_nil]

theorem trim_eq (cs : List Char) : trim cs = trimEnd (skipBlanks cs) := rfl

/-- A character that is no blank is in the way of trimming. -/
theorem trim_append_cons (hc : isBlank c = false) (a b : List Char) :
    trim (a ++ c :: b) = skipBlanks a ++ c :: trimEnd b := by
  rw [trim_eq, skipBlanks_append_cons hc, trimEnd_append_cons hc]

theorem trim_blanks_append (hw : ∀ c ∈ w, isBlank c) (a : List Char) : trim (w ++ a) = trim a := by
  rw [trim_eq, skipBlanks_append_of_nil (skipBlanks_of_forall hw), trim_eq]

/-- Blanks behind a text make no difference to what is trimmed off it. -/
theorem trim_append_blanks (hw : ∀ c ∈ w, isBlank c) (a : List Char) : trim (a ++ w) = trim a := by
  rw [trim_eq, trim_eq]
  by_cases h : skipBlanks a = []
  · rw [skipBlanks_append_of_nil h, skipBlanks_of_forall hw, h]
  · rw [skipBlanks_append_of_ne_nil h, trimEnd_append_of_nil (trimEnd_of_forall hw)]

end Blanks

end CellAtlas.Text
