import CellAtlas.Proofs.List
import CellAtlas.Proofs.Source.Written
import CellAtlas.Proofs.Text.Blank

/-!
# Reading what is written

Each part of a written declaration is read back as it was: the words of a type
(`readWords_intercalate`), the type and the name (`Head.read?_headText`), the parameters
(`parametersOf_intercalate`), and so members and methods (`declaration?_member`,
`declaration?_method`). A qualifier may be the type word and even the name, and still there is one
way to read the words only: the last one in front of the terminator, or in front of the stars, says
where the type ends.
-/

namespace CellAtlas.Source

open Text

/-! ### Words -/

section Words

variable {cs rest w : List Char} {c : Char}

theorem readWords_of_nil (h : skipBlanks cs = []) : readWords cs = ([], []) := by
  rw [readWords]
  split
  next => rfl
  next h' =>
    rw [h] at h'
    cases h'

theorem readWords_of_start (h : skipBlanks cs = c :: rest) (hc : isNameStart c) :
    readWords cs = ((c :: rest.takeWhile isTypeChar) :: (readWords (rest.dropWhile isTypeChar)).1,
      (readWords (rest.dropWhile isTypeChar)).2) := by
  rw [readWords]
  split
  next h' =>
    rw [h] at h'
    cases h'
  next h' =>
    rw [h] at h'
    cases h'
    rw [if_pos hc]

theorem readWords_of_not_start (h : skipBlanks cs = c :: rest) (hc : isNameStart c = false) :
    readWords cs = ([], c :: rest) := by
  rw [readWords]
  split
  next h' =>
    rw [h] at h'
    cases h'
  next h' =>
    rw [h] at h'
    cases h'
    rw [if_neg (by simp [hc])]

/-- Blanks in front of words do not count. -/
theorem readWords_cons_of_blank (hc : isBlank c) (cs : List Char) :
    readWords (c :: cs) = readWords cs := by
  have hskip := skipBlanks_cons_of_blank hc cs
  cases h : skipBlanks cs with
  | nil => rw [readWords_of_nil h, readWords_of_nil (hskip.trans h)]
  | cons d rest =>
      cases hd : isNameStart d with
      | true => rw [readWords_of_start h hd, readWords_of_start (hskip.trans h) hd]
      | false => rw [readWords_of_not_start h hd, readWords_of_not_start (hskip.trans h) hd]

/-- A word ends where no type character follows. -/
theorem readWords_append (hw : isTypeWord w) (hrest : ∀ c ∈ rest.head?, isTypeChar c = false) :
    readWords (w ++ rest) = (w :: (readWords rest).1, (readWords rest).2) := by
  cases w with
  | nil => exact absurd hw (by decide)
  | cons c cs =>
      obtain ⟨hstart, hchars⟩ := isTypeWord_cons.mp hw
      have hskip : skipBlanks (c :: cs ++ rest) = c :: (cs ++ rest) := by
        apply skipBlanks_eq_self
        rintro d ⟨⟩
        exact isBlank_of_isNameStart hstart
      rw [readWords_of_start hskip hstart, takeWhile_append_eq hchars hrest,
        dropWhile_append_eq hchars hrest]

theorem readWords_intercalate {words : List (List Char)} (hne : words ≠ [])
    (hwords : ∀ w ∈ words, isTypeWord w) (hrest : ∀ c ∈ rest.head?, isTypeChar c = false) :
    readWords ([' '].intercalate words ++ rest)
      = (words ++ (readWords rest).1, (readWords rest).2) := by
  induction words with
  | nil => exact absurd rfl hne
  | cons w ws ih =>
      have hw := hwords w List.mem_cons_self
      cases ws with
      | nil =>
          rw [List.intercalate_singleton]
          exact readWords_append hw hrest
      | cons v ws =>
          have hws := ih (List.cons_ne_nil v ws) fun u hu => hwords u (List.mem_cons_of_mem _ hu)
          -- a word ends at the blank before the next one
          rw [List.intercalate_cons_cons, List.append_assoc, List.append_assoc,
            List.singleton_append, readWords_append hw (by simp; decide),
            readWords_cons_of_blank (by decide), hws]
          rfl

end Words

/-! ### Types and names -/

namespace WrittenType

variable (t : WrittenType)

theorem words_ne_nil : t.words ≠ [] := by
  simp [words]

theorem isTypeWord_of_mem_words : ∀ w ∈ t.words, isTypeWord w := by
  have hqualifiers : ∀ q ∈ Source.qualifiers, isTypeWord q := by decide
  intro w hw
  rcases List.mem_append.mp hw with hw | hw
  · exact hqualifiers w (t.qualifiers_mem w hw)
  · rw [List.mem_singleton.mp hw]
    exact t.word_valid

/-- A written type passes the check of the words that are read. -/
theorem isTypeWords_words : isTypeWords t.words := by
  have hhead : (t.words.head?.any fun w => !statementWords.contains w) = true := by
    cases hw : t.words.head? with
    | none => exact absurd (List.head?_eq_none_iff.mp hw) t.words_ne_nil
    | some w => simp [t.head_not_mem w hw]
  have hlast : (t.words.getLast?.any fun w => !tagWords.contains w) = true := by
    simp [words, t.word_not_mem]
  have hqualifiers : t.words.dropLast.all (Source.qualifiers.contains ·) = true := by
    simpa [words] using t.qualifiers_mem
  rw [isTypeWords, hqualifiers, hhead, hlast]
  rfl

end WrittenType

namespace WrittenName

variable (n : WrittenName)

theorem exists_cons : ∃ c cs, n.text = c :: cs ∧ isNameStart c ∧ ∀ d ∈ cs, isNameChar d := by
  have hvalid := n.valid
  cases htext : n.text with
  | nil =>
      rw [htext] at hvalid
      exact absurd hvalid (by decide)
  | cons c cs =>
      rw [htext] at hvalid
      exact ⟨c, cs, rfl, isName_cons.mp hvalid⟩

theorem isTypeWord_text : isTypeWord n.text := by
  obtain ⟨c, cs, htext, hstart, hchars⟩ := n.exists_cons
  rw [htext, isTypeWord_cons]
  exact ⟨hstart, fun d hd => isTypeChar_of_isNameChar (hchars d hd)⟩

theorem all_isNameChar : n.text.all isNameChar := by
  obtain ⟨c, cs, htext, hstart, hchars⟩ := n.exists_cons
  rw [htext, List.all_cons, isNameChar_of_isNameStart hstart, Bool.true_and, List.all_eq_true]
  exact hchars

end WrittenName

/-- What ends the head of a written declaration: the semicolon of a member or the parenthesis of a
method. -/
def EndsHead (rest : List Char) : Prop := ∃ c cs, rest = c :: cs ∧ (c = ';' ∨ c = '(')

namespace EndsHead

variable {rest : List Char} (h : EndsHead rest)

include h

theorem head?_eq_false {p : Char → Bool} (hsemicolon : p ';' = false)
    (hparenthesis : p '(' = false) : ∀ c ∈ rest.head?, p c = false := by
  obtain ⟨c, cs, rfl, rfl | rfl⟩ := h
  · rintro d ⟨⟩
    exact hsemicolon
  · rintro d ⟨⟩
    exact hparenthesis

theorem skipBlanks_eq : skipBlanks rest = rest :=
  skipBlanks_eq_self (h.head?_eq_false (by decide) (by decide))

/-- Nothing more is read behind a head. -/
theorem readWords_eq : readWords rest = ([], rest) := by
  have hskip := h.skipBlanks_eq
  obtain ⟨c, cs, rfl, rfl | rfl⟩ := h
  · exact readWords_of_not_start hskip (by decide)
  · exact readWords_of_not_start hskip (by decide)

end EndsHead

theorem headText_append (t : WrittenType) (n : WrittenName) (rest : List Char) :
    headText t n ++ rest
      = [' '].intercalate t.words ++ (List.replicate t.stars '*' ++ ' ' :: (n.text ++ rest)) := by
  simp [headText, WrittenType.text]

/-- The words of a head are those of its type, and its name where no stars stand in between. -/
theorem readWords_headText (t : WrittenType) (n : WrittenName) {rest : List Char}
    (hrest : EndsHead rest) :
    readWords (headText t n ++ rest) =
      if t.stars = 0 then (t.words ++ [n.text], rest)
      else (t.words, List.replicate t.stars '*' ++ ' ' :: (n.text ++ rest)) := by
  rw [headText_append]
  cases t.stars with
  | zero =>
      rw [if_pos rfl, List.replicate_zero, List.nil_append,
        readWords_intercalate t.words_ne_nil t.isTypeWord_of_mem_words (by simp; decide),
        readWords_cons_of_blank (by decide), readWords_append n.isTypeWord_text
          (hrest.head?_eq_false (by decide) (by decide)), hrest.readWords_eq]
  | succ k =>
      have hstar : skipBlanks (List.replicate (k + 1) '*' ++ ' ' :: (n.text ++ rest))
          = '*' :: (List.replicate k '*' ++ ' ' :: (n.text ++ rest)) :=
        skipBlanks_eq_self (by simp [List.replicate_succ]; decide)
      rw [if_neg (Nat.succ_ne_zero k),
        readWords_intercalate t.words_ne_nil t.isTypeWord_of_mem_words
          (by simp [List.replicate_succ]; decide),
        readWords_of_not_start hstar (by decide), List.append_nil]
      rfl

/-- The head of a written declaration is its type and its name. -/
theorem Head.read?_headText (t : WrittenType) (n : WrittenName) {rest : List Char}
    (hrest : EndsHead rest) :
    Head.read? (headText t n ++ rest) = some ⟨t.words, t.stars, n.text, rest⟩ := by
  have hwords := readWords_headText t n hrest
  cases hstars : t.stars with
  -- the name has been read as the last word
  | zero =>
      rw [if_pos hstars] at hwords
      have hnone : rest.takeWhile (· == '*') = [] :=
        takeWhile_append_eq (fun _ h => absurd h List.not_mem_nil)
          (hrest.head?_eq_false (by decide) (by decide))
      simp [read?, hwords, hnone, n.all_isNameChar, t.isTypeWords_words]
  -- the words end with the type, and the name is behind the stars
  | succ k =>
      rw [if_neg (by omega), hstars] at hwords
      obtain ⟨c, cs, htext, hstart, hchars⟩ := n.exists_cons
      have hstar : ∀ d ∈ List.replicate (k + 1) '*', (d == '*') = true := by simp
      have hblank : ∀ d ∈ (' ' :: (n.text ++ rest)).head?, (d == '*') = false := by simp
      have htake := takeWhile_append_eq hstar hblank
      have hdrop := dropWhile_append_eq hstar hblank
      have hskip : skipBlanks (' ' :: (n.text ++ rest)) = c :: (cs ++ rest) := by
        rw [skipBlanks_cons_of_blank (by decide), htext]
        apply skipBlanks_eq_self
        rintro d ⟨⟩
        exact isBlank_of_isNameStart hstart
      have hrestName := hrest.head?_eq_false (show isNameChar ';' = false by decide)
        (show isNameChar '(' = false by decide)
      rw [read?, hwords]
      simp only [htake, hdrop, hskip]
      simp [hstart, t.isTypeWords_words, takeWhile_append_eq hchars hrestName,
        dropWhile_append_eq hchars hrestName, hrest.skipBlanks_eq, htext]

/-! ### Parameters -/

section Parameters

theorem parametersOf_append (a b : List Char) :
    parametersOf (a ++ ',' :: b) = parametersOf a ++ parametersOf b := by
  simp [parametersOf, split_append]

/-- Blanks in front of parameters do not count. -/
theorem parametersOf_cons_of_blank (cs : List Char) :
    parametersOf (' ' :: cs) = parametersOf cs := by
  obtain ⟨part, parts, hcs⟩ := List.exists_cons_of_ne_nil (split_ne_nil ',' cs)
  have hpart : trim (' ' :: part) = trim part := trim_cons_of_blank (by decide) part
  rw [parametersOf, parametersOf, split_cons_of_ne (by decide) hcs, hcs, List.map_cons, hpart]
  rfl

theorem WrittenParameter.not_mem_of_mem_parameterEnds (p : WrittenParameter) {c : Char}
    (hc : c ∈ parameterEnds) : c ∉ p.text := by
  intro h
  have hvalid := List.all_eq_true.mp p.valid c h
  exact of_decide_eq_true hvalid hc

/-- A written parameter has no comma, and is read as it stands. -/
theorem parametersOf_text (p : WrittenParameter) :
    parametersOf p.text = [String.ofList p.text] := by
  have hcomma : ',' ∉ p.text := p.not_mem_of_mem_parameterEnds (by decide)
  simp [parametersOf, split_of_not_mem hcomma, p.trimmed, p.ne_nil]

/-- Parameters are read back from between their commas. -/
theorem parametersOf_intercalate (ps : List WrittenParameter) :
    parametersOf ([',', ' '].intercalate (ps.map (·.text)))
      = ps.map fun p => String.ofList p.text := by
  induction ps with
  | nil => decide
  | cons p ps ih =>
      cases ps with
      | nil =>
          rw [List.map_singleton, List.intercalate_singleton, parametersOf_text]
          rfl
      | cons q ps =>
          rw [List.map_cons, List.map_cons, List.intercalate_cons_cons, List.append_assoc]
          show parametersOf (p.text ++ ',' :: ' ' :: _) = _
          rw [parametersOf_append, parametersOf_text, parametersOf_cons_of_blank]
          exact congrArg ([String.ofList p.text] ++ ·) ih

/-- Of the characters that would end a parameter, only the comma stands between parameters. -/
theorem not_mem_intercalate {c : Char} (hc : c ∈ parameterEnds.tail)
    (ps : List WrittenParameter) : c ∉ [',', ' '].intercalate (ps.map (·.text)) := by
  intro h
  rcases mem_or_mem_of_mem_intercalate h with h | ⟨part, hpart, h⟩
  · have hdisjoint : [',', ' '].all (· ∉ parameterEnds.tail) := by decide
    exact of_decide_eq_true (List.all_eq_true.mp hdisjoint c h) hc
  · obtain ⟨p, -, rfl⟩ := List.mem_map.mp hpart
    exact p.not_mem_of_mem_parameterEnds (List.mem_of_mem_tail hc) h

end Parameters

/-! ### Members and methods -/

theorem Head.type_words (t : WrittenType) (name rest : List Char) :
    (Head.mk t.words t.stars name rest).type = String.ofList t.text := rfl

/-- The characters of types and names. -/
def isHeadChar (c : Char) : Bool := isTypeChar c || c == ' ' || c == '*'

theorem isHeadChar_of_mem_word {w : List Char} {c : Char} (hw : isTypeWord w) (h : c ∈ w) :
    isHeadChar c := by
  rw [isHeadChar, isTypeChar_of_mem hw h]
  rfl

theorem isHeadChar_of_mem_headText {t : WrittenType} {n : WrittenName} {c : Char}
    (h : c ∈ headText t n) : isHeadChar c := by
  rcases List.mem_append.mp h with h | h
  · rcases List.mem_append.mp h with h | h
    · rcases mem_or_mem_of_mem_intercalate h with h | ⟨w, hw, h⟩
      · rw [List.mem_singleton.mp h]
        decide
      · exact isHeadChar_of_mem_word (t.isTypeWord_of_mem_words w hw) h
    · rw [List.eq_of_mem_replicate h]
      decide
  · rcases List.mem_cons.mp h with rfl | h
    · decide
    · exact isHeadChar_of_mem_word n.isTypeWord_text h

theorem isHeadChar_of_mem_titleText {kind : Kind} {name : WrittenName} {c : Char}
    (h : c ∈ titleText kind name) : isHeadChar c := by
  have hkeyword : kind.keyword.toList.all isHeadChar := by cases kind <;> decide
  rcases List.mem_append.mp h with h | h
  · exact List.all_eq_true.mp hkeyword c h
  · rcases List.mem_cons.mp h with rfl | h
    · decide
    · exact isHeadChar_of_mem_word name.isTypeWord_text h

/-- A head has none of the characters that mean something to the scanner. -/
theorem not_mem_of_isHeadChar {cs : List Char} {c : Char} (h : ∀ d ∈ cs, isHeadChar d)
    (hc : isHeadChar c = false) : c ∉ cs := by
  intro hmem
  rw [h c hmem] at hc
  cases hc

/-- A written member is read back. -/
theorem member?_text (m : WrittenMember) {line : List Char} (hline : '(' ∉ line) (number : Int) :
    member? m.text line number = some (m.declared number) := by
  have hhead : Head.read? m.text = some ⟨m.type.words, m.type.stars, m.name.text, [';']⟩ :=
    Head.read?_headText m.type m.name ⟨';', [], rfl, .inl rfl⟩
  simp [member?, hline, hhead, Head.type_words, WrittenMember.declared]

/-- A written method is read back from a line that does not end with a semicolon. -/
theorem method?_signature (m : WrittenMethod) {line : List Char} (hline : line.getLast? ≠ some ';')
    (number : Int) :
    method? (m.signature ++ [' ', '{']) line number = some (m.declared number) := by
  have hsignature : m.signature ++ [' ', '{'] = headText m.returnType m.name ++ '(' ::
      ([',', ' '].intercalate (m.parameters.map (·.text)) ++ [')', ' ', '{']) := by
    simp [WrittenMethod.signature]
  have hhead := Head.read?_headText m.returnType m.name ⟨'(',
    [',', ' '].intercalate (m.parameters.map (·.text)) ++ [')', ' ', '{'], rfl, .inr rfl⟩
  -- no parameter has a parenthesis, so that the first one ends them all
  have htake : ([',', ' '].intercalate (m.parameters.map (·.text)) ++ [')', ' ', '{']).takeWhile
      (· != ')') = [',', ' '].intercalate (m.parameters.map (·.text)) := by
    have hclose := not_mem_intercalate (show ')' ∈ _ by decide) m.parameters
    apply takeWhile_append_eq
    · intro c hc
      rw [bne_iff_ne]
      rintro rfl
      exact hclose hc
    · rintro c ⟨⟩
      decide
  simp [method?, hline, hsignature, hhead, Head.type_words, htake, parametersOf_intercalate,
    WrittenMethod.declared]

theorem declaration?_member (m : WrittenMember) {line : List Char} (hline : '(' ∉ line)
    (number : Int) : declaration? m.text line number = some (.member (m.declared number)) := by
  rw [declaration?, member?_text m hline]

theorem declaration?_method (m : WrittenMethod) {line : List Char} (hparenthesis : '(' ∈ line)
    (hlast : line.getLast? ≠ some ';') (number : Int) :
    declaration? (m.signature ++ [' ', '{']) line number = some (.method (m.declared number)) := by
  have hmember : member? (m.signature ++ [' ', '{']) line number = none := by
    simp [member?, hparenthesis]
  rw [declaration?, hmember, method?_signature m hlast]
  rfl

end CellAtlas.Source
