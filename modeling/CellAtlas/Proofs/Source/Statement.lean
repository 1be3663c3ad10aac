import CellAtlas.Proofs.Source.Reading
import CellAtlas.Proofs.Source.Segment

/-!
# Statements of written text

Written text is cut into statements where it should be. A text without terminators is no more than a
part of one statement (`Unbroken.segments_append`), so that a member is one statement
(`WrittenMember.statements_text`), the signature of a method is one
(`WrittenMethod.statements_text`) and so is the opening of a structure, behind which the depth is
one (`statements_openingText_append`).
-/

namespace CellAtlas.Source

open Text

/-! ### Text without terminators -/

/-- No statement and no line ends in a text. -/
def Unbroken (cs : List Char) : Prop := ∀ c ∈ cs, isTerminator c = false ∧ c ≠ '\n'

theorem unbroken_nil : Unbroken [] := List.forall_mem_nil _

theorem unbroken_append {a b : List Char} : Unbroken (a ++ b) ↔ Unbroken a ∧ Unbroken b :=
  List.forall_mem_append

theorem unbroken_cons {c : Char} {cs : List Char} :
    Unbroken (c :: cs) ↔ (isTerminator c = false ∧ c ≠ '\n') ∧ Unbroken cs :=
  List.forall_mem_cons

namespace Unbroken

variable {cs : List Char} (h : Unbroken cs)

include h

theorem not_mem {c : Char} (hc : isTerminator c) : c ∉ cs := by
  intro hmem
  rw [(h c hmem).1] at hc
  cases hc

theorem newline_not_mem : '\n' ∉ cs := fun hmem => (h _ hmem).2 rfl

theorem balance_eq_zero : balance cs = 0 := by
  rw [balance, List.count_eq_zero.mpr (h.not_mem (by decide)),
    List.count_eq_zero.mpr (h.not_mem (by decide))]
  rfl

/-- A text without terminators is part of the statement that the next terminator ends. -/
theorem segments_append {c : Char} (hc : isTerminator c) (rest : List Char) :
    segments (cs ++ c :: rest) = (cs ++ [c]) :: segments rest :=
  segments_append_cons (fun d hd => (h d hd).1) hc rest

end Unbroken

theorem unbroken_of_not_mem {cs : List Char} (h : ∀ d ∈ ['{', '}', ';', '\n'], d ∉ cs) :
    Unbroken cs := by
  intro c hc
  have hne : ∀ d ∈ ['{', '}', ';', '\n'], c ≠ d := by
    rintro d hd rfl
    exact h c hd hc
  refine ⟨?_, hne _ (by decide)⟩
  simp [isTerminator, hne '{' (by decide), hne '}' (by decide), hne ';' (by decide)]

/-- Heads have no terminators. -/
theorem unbroken_of_isHeadChar {cs : List Char} (h : ∀ c ∈ cs, isHeadChar c) : Unbroken cs := by
  have hends : ['{', '}', ';', '\n'].all (isHeadChar · = false) := by decide
  apply unbroken_of_not_mem
  intro d hd
  exact not_mem_of_isHeadChar h (of_decide_eq_true (List.all_eq_true.mp hends d hd))

theorem unbroken_headText (t : WrittenType) (n : WrittenName) : Unbroken (headText t n) :=
  unbroken_of_isHeadChar fun _ => isHeadChar_of_mem_headText

theorem unbroken_titleText (kind : Kind) (name : WrittenName) :
    Unbroken (titleText kind name) :=
  unbroken_of_isHeadChar fun _ => isHeadChar_of_mem_titleText

theorem unbroken_parameters (ps : List WrittenParameter) :
    Unbroken ([',', ' '].intercalate (ps.map (·.text))) := by
  apply unbroken_of_not_mem
  intro d hd
  exact not_mem_intercalate (List.mem_cons_of_mem '(' (List.mem_cons_of_mem ')' hd)) ps

/-! ### Statements -/

/-- A segment that is more than a terminator is a statement. -/
theorem statementsOf_cons {s text : List Char} (htrim : trim s = text) (hlength : 2 ≤ text.length)
    (depth : Int) (rest : List (List Char)) :
    statementsOf depth (s :: rest) = ⟨text, depth⟩ :: statementsOf (depth + balance s) rest := by
  have h : isVacuous text = false := by
    match text, hlength with
    | _ :: _ :: _, _ => rfl
  rw [statementsOf, if_neg (by simp [htrim, h]), htrim]

/-- A statement that a brace ends. -/
theorem Unbroken.segments_append_brace {cs : List Char} (h : Unbroken cs) (rest : List Char) :
    segments (cs ++ ' ' :: '{' :: rest) = (cs ++ [' ', '{']) :: segments rest := by
  have hblank : Unbroken [' '] := unbroken_cons.mpr ⟨by decide, unbroken_nil⟩
  have hcs : Unbroken (cs ++ [' ']) := unbroken_append.mpr ⟨h, hblank⟩
  have hsegments := hcs.segments_append (show isTerminator '{' by decide) rest
  rwa [List.append_assoc, List.append_assoc] at hsegments

theorem Unbroken.balance_brace {cs : List Char} (h : Unbroken cs) :
    balance (cs ++ [' ', '{']) = 1 := by
  rw [balance_append, h.balance_eq_zero]
  decide

/-- Written text begins with a character that is not blank. -/
theorem head?_headText_append (t : WrittenType) (n : WrittenName) (rest : List Char) :
    ∀ c ∈ (headText t n ++ rest).head?, isBlank c = false := by
  obtain ⟨w, ws, hwords⟩ := List.exists_cons_of_ne_nil t.words_ne_nil
  have hw := t.isTypeWord_of_mem_words w (hwords ▸ List.mem_cons_self)
  cases w with
  | nil => exact absurd hw (by decide)
  | cons c cs =>
      have hhead : (headText t n ++ rest).head? = some c := by
        rw [headText_append, hwords]
        cases ws with
        | nil => rfl
        | cons v ws => rw [List.intercalate_cons_cons]; rfl
      rw [hhead]
      rintro d ⟨⟩
      exact isBlank_of_isNameStart (isTypeWord_cons.mp hw).1

theorem head?_titleText_append (kind : Kind) (name : WrittenName) (rest : List Char) :
    ∀ c ∈ (titleText kind name ++ rest).head?, isBlank c = false := by
  cases kind <;>
  · rintro c ⟨⟩
    decide

/-- A head begins with a letter, so that nothing is trimmed off its front. -/
theorem trim_headText_append (t : WrittenType) (n : WrittenName) {rest : List Char} {c : Char}
    (hlast : rest.getLast? = some c) (hc : isBlank c = false) :
    trim (headText t n ++ rest) = headText t n ++ rest :=
  trim_append_eq_self (head?_headText_append t n rest) hlast hc

theorem trim_titleText_append (kind : Kind) (name : WrittenName) {rest : List Char} {c : Char}
    (hlast : rest.getLast? = some c) (hc : isBlank c = false) :
    trim (titleText kind name ++ rest) = titleText kind name ++ rest :=
  trim_append_eq_self (head?_titleText_append kind name rest) hlast hc

namespace WrittenMember

variable (m : WrittenMember)

theorem trim_text : trim m.text = m.text := trim_headText_append m.type m.name rfl (by decide)

theorem balance_text : balance m.text = 0 := by
  rw [text, balance_append, (unbroken_headText _ _).balance_eq_zero]
  decide

/-- A member ends at its semicolon. -/
theorem segments_text_append (rest : List Char) :
    segments (m.text ++ rest) = m.text :: segments rest := by
  rw [text, List.append_assoc]
  exact (unbroken_headText _ _).segments_append (by decide) rest

/-- A blank in front of a member belongs to its statement. -/
theorem segments_blank_text_append (rest : List Char) :
    segments (' ' :: (m.text ++ rest)) = (' ' :: m.text) :: segments rest := by
  rw [segments, if_neg (by decide), m.segments_text_append]

theorem trim_blank_text : trim (' ' :: m.text) = m.text := by
  rw [trim_cons_of_blank (by decide), m.trim_text]

theorem balance_blank_text : balance (' ' :: m.text) = 0 := by
  rw [← List.singleton_append, balance_append, m.balance_text]
  decide

theorem two_le_length_text : 2 ≤ m.text.length := by
  simp only [text, headText, List.length_append, List.length_cons, List.length_nil]
  omega

theorem statements_text (depth : Int) : statements m.text depth = [⟨m.text, depth⟩] := by
  have hsegments := m.segments_text_append []
  rw [List.append_nil] at hsegments
  rw [statements, hsegments, statementsOf_cons m.trim_text m.two_le_length_text]
  rfl

theorem not_mem_text {c : Char} (hc : isHeadChar c = false) (hne : c ≠ ';') : c ∉ m.text := by
  rw [text, List.mem_append, not_or]
  exact ⟨not_mem_of_isHeadChar (fun _ => isHeadChar_of_mem_headText) hc, by simpa using hne⟩

end WrittenMember

namespace WrittenMethod

variable (m : WrittenMethod)

theorem unbroken_signature : Unbroken m.signature := by
  rw [signature, unbroken_append, unbroken_cons, unbroken_append, unbroken_cons]
  exact ⟨unbroken_headText _ _, by decide, unbroken_parameters _, by decide, unbroken_nil⟩

theorem trim_signature_append {rest : List Char} {c : Char} (hlast : rest.getLast? = some c)
    (hc : isBlank c = false) : trim (m.signature ++ rest) = m.signature ++ rest := by
  rw [signature, List.append_assoc]
  apply trim_headText_append _ _ (c := c) _ hc
  rw [List.getLast?_append, hlast]
  rfl

theorem statements_text (depth : Int) :
    statements m.text depth = [⟨m.signature ++ [' ', '{'], depth⟩] := by
  have hlength : 2 ≤ (m.signature ++ [' ', '{']).length := by simp
  rw [statements, text, m.unbroken_signature.segments_append_brace,
    statementsOf_cons (m.trim_signature_append rfl (by decide)) hlength]
  rfl

theorem balance_text : balance m.text = 0 := by
  rw [text, balance_append, m.unbroken_signature.balance_eq_zero]
  decide

end WrittenMethod

theorem trim_openingText (kind : Kind) (name : WrittenName) :
    trim (openingText kind name) = openingText kind name :=
  trim_titleText_append kind name rfl (by decide)

theorem balance_openingText (kind : Kind) (name : WrittenName) :
    balance (openingText kind name) = 1 :=
  (unbroken_titleText kind name).balance_brace

/-- The statements of a text behind the opening of a structure. -/
theorem statements_openingText_append (kind : Kind) (name : WrittenName) (rest : List Char) :
    statements (openingText kind name ++ rest) 0
      = ⟨openingText kind name, 0⟩ :: statements rest 1 := by
  have hlength : 2 ≤ (openingText kind name).length := by simp [openingText]
  have hsegments : segments (openingText kind name ++ rest)
      = openingText kind name :: segments rest := by
    rw [openingText, List.append_assoc]
    exact (unbroken_titleText kind name).segments_append_brace rest
  rw [statements, hsegments, statementsOf_cons (trim_openingText kind name) hlength,
    balance_openingText]
  rfl

/-- Each of the members on one line is a statement, and none changes the depth. -/
theorem statements_members (members : List WrittenMember) (rest : List Char) (depth : Int) :
    statements ((members.flatMap fun m => ' ' :: m.text) ++ rest) depth
      = (members.map fun m => ⟨m.text, depth⟩) ++ statements rest depth := by
  induction members with
  | nil => rfl
  | cons m members ih =>
      rw [List.flatMap_cons, List.append_assoc, statements, List.cons_append,
        m.segments_blank_text_append, statementsOf_cons m.trim_blank_text m.two_le_length_text,
        m.balance_blank_text, Int.add_zero]
      exact congrArg _ ih

end CellAtlas.Source
