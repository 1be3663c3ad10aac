import CellAtlas.Proofs.Source.Reading
import Mathlib.Data.List.TakeWhile

/-!
# The grammar of declarations

A declaration is spelled as

    blanks  (qualifier blanks)*  word  separator  name  blanks

and then a semicolon or an equals sign for a member, or parameters in parentheses for a method. The
separator is blanks, or stars with or without blanks around them. A qualifier may also be the type
word, and the name could be cut off a longer word, so that it takes an argument that a statement has
one spelling at most:

    text_append_inj : p.text ++ rest = q.text ++ rest' → p = q ∧ rest = rest'

The argument goes through `readWords`. It returns the words in front and what follows them
(`readWords_spacedText`), and both together with the text determine the spelling. What it returns
can always be spelled (`exists_spaced_of_readWords`), so that reading a declaration accepts exactly
the texts of the grammar (`recognition`).
-/

namespace CellAtlas.Source

open Text

/-- A run of blanks, which may be empty. -/
abbrev Blanks := { cs : List Char // ∀ c ∈ cs, isBlank c }

def leadingBlanks (cs : List Char) : Blanks :=
  ⟨cs.takeWhile isBlank, fun _ hc => List.mem_takeWhile_imp hc⟩

theorem leadingBlanks_append (cs : List Char) : leadingBlanks cs ++ skipBlanks cs = cs :=
  List.takeWhile_append_dropWhile

/-- A front part with a property is determined where the rest does not go on with it. -/
theorem append_inj_of_front {p : Char → Bool} {front front' rest rest' : List Char}
    (h : front ++ rest = front' ++ rest') (hfront : ∀ c ∈ front, p c)
    (hfront' : ∀ c ∈ front', p c) (hrest : ∀ c ∈ rest.head?, p c = false)
    (hrest' : ∀ c ∈ rest'.head?, p c = false) : front = front' ∧ rest = rest' := by
  have htake : front = front' := by
    rw [← takeWhile_append_eq hfront hrest, h, takeWhile_append_eq hfront' hrest']
  subst htake
  exact ⟨rfl, List.append_cancel_left h⟩

theorem isTypeChar_of_isBlank {c : Char} (h : isBlank c) : isTypeChar c = false := by
  by_contra htype
  rw [isBlank_of_isTypeChar (by simpa using htype)] at h
  cases h

/-- What begins with blanks begins with no character of another sort; without blanks the rest must
not. -/
theorem head?_blanks_append {p : Char → Bool} {rest : List Char} (hp : ∀ c, isBlank c → p c = false)
    (blanks : Blanks) (hrest : blanks.val = [] → ∀ c ∈ rest.head?, p c = false) :
    ∀ c ∈ (blanks.val ++ rest).head?, p c = false := by
  obtain ⟨blanks, hblanks⟩ := blanks
  cases blanks with
  | nil => exact hrest rfl
  | cons b bs =>
      rintro c ⟨⟩
      exact hp b (hblanks b List.mem_cons_self)

/-! ### Words with blanks behind them -/

/-- A word and the blanks behind it. -/
@[ext] structure SpacedWord where
  word : List Char
  blanks : Blanks

def spacedText (ws : List SpacedWord) : List Char := ws.flatMap fun w => w.word ++ w.blanks

/-- Type words that do not run together: there are blanks behind each that has a successor. -/
inductive Spaced : List SpacedWord → Prop
  | nil : Spaced []
  | cons {w : SpacedWord} {ws : List SpacedWord} :
      isTypeWord w.word → (ws ≠ [] → w.blanks.val ≠ []) → Spaced ws → Spaced (w :: ws)

section SpacedWords

variable {ws ws' : List SpacedWord} {w : SpacedWord} {lead lead' : Blanks}
  {cs rest rest' : List Char}

@[simp] theorem spacedText_nil : spacedText [] = [] := rfl

@[simp] theorem spacedText_cons :
    spacedText (w :: ws) = w.word ++ (w.blanks ++ spacedText ws) := by
  simp [spacedText]

@[simp] theorem spacedText_append : spacedText (ws ++ ws') = spacedText ws ++ spacedText ws' :=
  List.flatMap_append

/-- Words with blanks behind them may be put in front. -/
theorem Spaced.append (h : ∀ w ∈ ws, isTypeWord w.word ∧ w.blanks.val ≠ []) (h' : Spaced ws') :
    Spaced (ws ++ ws') := by
  induction ws with
  | nil => exact h'
  | cons w ws ih =>
      obtain ⟨hword, hne⟩ := h w List.mem_cons_self
      exact .cons hword (fun _ => hne) (ih fun v hv => h v (List.mem_cons_of_mem _ hv))

theorem Spaced.isTypeWord_of_mem (h : Spaced ws) : ∀ w ∈ ws, isTypeWord w.word := by
  induction h with
  | nil => simp
  | cons hword _ _ ih => simpa [hword] using ih

/-- Behind the words in front of another one there are blanks. -/
theorem Spaced.blanks_ne_nil (h : Spaced (ws ++ ws')) (hne : ws' ≠ []) :
    ∀ w ∈ ws, w.blanks.val ≠ [] := by
  induction ws with
  | nil => simp
  | cons v ws ih =>
      rw [List.cons_append] at h
      cases h with
      | cons _ hblanks hspaced =>
          intro w hw
          rcases List.mem_cons.mp hw with rfl | hw
          · exact hblanks (by simp [hne])
          · exact ih hspaced w hw

/-- Spaced words begin with the first character of a word. -/
theorem Spaced.exists_head? (h : Spaced ws) (hne : ws ≠ []) (rest : List Char) :
    ∃ c, (spacedText ws ++ rest).head? = some c ∧ isTypeChar c := by
  cases h with
  | nil => exact absurd rfl hne
  | @cons w ws hword _ _ =>
      obtain ⟨word, blanks⟩ := w
      cases word with
      | nil => simp [isTypeWord] at hword
      | cons c cs => exact ⟨c, rfl, isTypeChar_of_mem hword List.mem_cons_self⟩

theorem head?_append_spacedText (h : Spaced ws) (hrest : ∀ c ∈ rest.head?, isBlank c = false) :
    ∀ c ∈ (spacedText ws ++ rest).head?, isBlank c = false := by
  by_cases hne : ws = []
  · subst hne
    exact hrest
  · obtain ⟨d, hd, htype⟩ := h.exists_head? hne rest
    rw [hd]
    rintro c ⟨⟩
    exact isBlank_of_isTypeChar htype

theorem readWords_blanks_append (lead : Blanks) (cs : List Char) :
    readWords (lead ++ cs) = readWords cs := by
  obtain ⟨lead, hlead⟩ := lead
  induction lead with
  | nil => rfl
  | cons c lead ih =>
      have htail := ih fun d hd => hlead d (List.mem_cons_of_mem c hd)
      rw [← htail]
      exact readWords_cons_of_blank (hlead c List.mem_cons_self) (lead ++ cs)

/-- Neither blanks nor a word go on in `rest`. -/
def Stops (rest : List Char) : Prop :=
  ∀ c ∈ rest.head?, isBlank c = false ∧ isTypeChar c = false

/-- Where neither blanks nor a word go on no word is read. -/
theorem readWords_of_stops (h : Stops rest) : readWords rest = ([], rest) := by
  have hskip : skipBlanks rest = rest := skipBlanks_eq_self fun c hc => (h c hc).1
  cases rest with
  | nil => exact readWords_of_nil hskip
  | cons c rest =>
      have hc := (h c rfl).2
      have hstart : isNameStart c = false := by
        simp only [isTypeChar, isNameChar, Bool.or_eq_false_iff] at hc
        exact hc.1.1
      exact readWords_of_not_start hskip hstart

/-- Spaced words are read one by one. -/
theorem readWords_spacedText (h : Spaced ws) (hrest : Stops rest) (lead : Blanks) :
    readWords (lead ++ (spacedText ws ++ rest)) = (ws.map (·.word), rest) := by
  rw [readWords_blanks_append]
  induction h with
  | nil => exact readWords_of_stops hrest
  | @cons w ws hword hne _ ih =>
      have hnext : ∀ c ∈ (w.blanks.val ++ (spacedText ws ++ rest)).head?, isTypeChar c = false := by
        apply head?_blanks_append fun _ => isTypeChar_of_isBlank
        intro hblanks
        -- without blanks this is the last word
        obtain rfl : ws = [] := by
          by_contra hws
          exact hne hws hblanks
        exact fun c hc => (hrest c hc).2
      rw [spacedText_cons, List.append_assoc, List.append_assoc, readWords_append hword hnext,
        readWords_blanks_append, ih]
      rfl

/-- A word that goes on as far as type characters do stands apart from the words behind it: without
blanks in between the next one would go on with it. -/
theorem Spaced.cons_takeWhile {c : Char} (hc : isNameStart c) {after : List Char} {blanks : Blanks}
    (hws : Spaced ws) (hafter : after.dropWhile isTypeChar = blanks ++ (spacedText ws ++ rest)) :
    Spaced (⟨c :: after.takeWhile isTypeChar, blanks⟩ :: ws) := by
  refine .cons (isTypeWord_cons.mpr ⟨hc, fun d hd => List.mem_takeWhile_imp hd⟩) ?_ hws
  intro hne hnil
  obtain ⟨d, hd, htype⟩ := hws.exists_head? hne rest
  have hstop := List.head?_dropWhile_not isTypeChar after
  rw [hafter, show blanks.val = [] from hnil, List.nil_append, hd] at hstop
  exact absurd htype (by simpa using hstop)

/-- What is read are spaced words. -/
theorem exists_spaced_of_readWords {words : List (List Char)}
    (h : readWords cs = (words, rest)) :
    ∃ (lead : Blanks) (ws : List SpacedWord),
      cs = lead ++ (spacedText ws ++ rest) ∧ Spaced ws ∧ ws.map (·.word) = words := by
  fun_induction readWords cs generalizing words with
  | case1 cs hskip =>
      cases h
      refine ⟨leadingBlanks cs, [], ?_, .nil, rfl⟩
      rw [spacedText_nil, List.nil_append, ← hskip, leadingBlanks_append]
  | case2 cs c after hskip hc words' rest' hread ih =>
      cases h
      obtain ⟨blanks, ws, hafter, hws, rfl⟩ := ih hread
      refine ⟨leadingBlanks cs, _ :: ws, ?_, hws.cons_takeWhile hc hafter, rfl⟩
      -- the blanks in front of what is read next stand behind this word
      calc cs = leadingBlanks cs ++ (c :: after) := by rw [← hskip, leadingBlanks_append]
        _ = leadingBlanks cs ++ (c :: after.takeWhile isTypeChar
              ++ (blanks ++ (spacedText ws ++ rest))) := by
            rw [← hafter, List.cons_append, List.takeWhile_append_dropWhile]
        _ = _ := by rw [spacedText_cons]; simp
  | case3 cs c after hskip hc =>
      cases h
      refine ⟨leadingBlanks cs, [], ?_, .nil, rfl⟩
      rw [spacedText_nil, List.nil_append, ← hskip, leadingBlanks_append]

/-- Where the words are the same, so are the blanks between them. -/
theorem blanks_inj (hws : Spaced ws) (hws' : Spaced ws')
    (hwords : ws.map (·.word) = ws'.map (·.word)) (hrest : ∀ c ∈ rest.head?, isBlank c = false)
    (h : lead.val ++ (spacedText ws ++ rest) = lead' ++ (spacedText ws' ++ rest)) :
    lead = lead' ∧ ws = ws' := by
  obtain ⟨hlead, htext⟩ := append_inj_of_front h lead.property lead'.property
    (head?_append_spacedText hws hrest) (head?_append_spacedText hws' hrest)
  refine ⟨Subtype.ext hlead, ?_⟩
  induction hws generalizing ws' lead lead' with
  | nil =>
      rw [List.map_nil, eq_comm, List.map_eq_nil_iff] at hwords
      exact hwords.symm
  | @cons w ws _ _ hspaced ih =>
      cases hws' with
      | nil => cases hwords
      | @cons w' ws' _ _ hspaced' =>
          rw [List.map_cons, List.map_cons, List.cons.injEq] at hwords
          obtain ⟨hword, hwords⟩ := hwords
          -- behind the first word its blanks stand in front of the others
          rw [spacedText_cons, spacedText_cons, hword, List.append_assoc, List.append_assoc,
            List.append_assoc, List.append_assoc, List.append_cancel_left_eq] at htext
          obtain ⟨hblanks, htail⟩ := append_inj_of_front htext w.blanks.property
            w'.blanks.property (head?_append_spacedText hspaced hrest)
            (head?_append_spacedText hspaced' hrest)
          rw [SpacedWord.ext hword (Subtype.ext hblanks), ih hspaced' hwords htext hblanks htail]

/-- Spaced words are determined by their text. -/
theorem spacedText_inj (hws : Spaced ws) (hws' : Spaced ws') (hrest : Stops rest)
    (hrest' : Stops rest')
    (h : lead.val ++ (spacedText ws ++ rest) = lead' ++ (spacedText ws' ++ rest')) :
    lead = lead' ∧ ws = ws' ∧ rest = rest' := by
  have hread := readWords_spacedText hws hrest lead
  rw [h, readWords_spacedText hws' hrest' lead'] at hread
  obtain ⟨hwords, rfl⟩ := Prod.mk.inj hread
  obtain ⟨hlead, rfl⟩ := blanks_inj hws hws' hwords.symm (fun c hc => (hrest c hc).1) h
  exact ⟨hlead, rfl, rfl⟩

end SpacedWords

/-! ### Spellings -/

attribute [ext] WrittenName

/-- What stands between a type and a name: blanks, or stars that may have blanks around them. -/
inductive Separator where
  | blank (blanks : Blanks) (ne_nil : blanks.val ≠ [])
  | starred (before : Blanks) (count : Nat) (pos : 0 < count) (behind : Blanks)

namespace Separator

def stars : Separator → Nat
  | blank .. => 0
  | starred _ count _ _ => count

def text : Separator → List Char
  | blank blanks _ => blanks
  | starred before count _ behind => before ++ (List.replicate count '*' ++ behind)

end Separator

/-- A declaration letter by letter, up to its name and the blanks behind it. -/
@[ext] structure Spelling where
  lead : Blanks
  qualifiers : List SpacedWord
  word : List Char
  separator : Separator
  name : WrittenName
  trail : Blanks
  qualifiers_valid : ∀ q ∈ qualifiers, q.word ∈ Source.qualifiers ∧ q.blanks.val ≠ []
  word_valid : isTypeWord word

namespace Spelling

def words (p : Spelling) : List (List Char) := p.qualifiers.map (·.word) ++ [p.word]

def text (p : Spelling) : List Char :=
  p.lead ++ (spacedText p.qualifiers ++ (p.word ++ (p.separator.text ++ (p.name.text ++ p.trail))))

/-- The words name a type: they do not start a statement of another sort, and the last one is not
the keyword of a tag. -/
def IsType (p : Spelling) : Prop :=
  (∀ w ∈ p.words.head?, w ∉ statementWords) ∧ p.word ∉ tagWords

/-- The type in its plain form: single spaces between the words and the stars at the end. -/
def type (p : Spelling) : String :=
  String.ofList ([' '].intercalate p.words ++ List.replicate p.separator.stars '*')

def member (p : Spelling) (number : Int) : Member :=
  ⟨String.ofList p.name.text, p.type, 0 < p.separator.stars, number⟩

def method (p : Spelling) (parameters : List Char) (number : Int) : Method :=
  ⟨String.ofList p.name.text, p.type, parametersOf parameters, number⟩

/-- `s` spells a member: a semicolon or an equals sign follows the name. -/
def SpellsMember (p : Spelling) (s : List Char) : Prop :=
  ∃ c rest, s = p.text ++ c :: rest ∧ (c = ';' ∨ c = '=')

/-- `s` spells a method: parameters in parentheses follow the name. -/
def SpellsMethod (p : Spelling) (parameters s : List Char) : Prop :=
  ∃ rest, s = p.text ++ '(' :: (parameters ++ ')' :: rest) ∧ ')' ∉ parameters

variable {p q : Spelling} {rest rest' s : List Char}

/-- The check of the words that are read is the condition on a type. -/
theorem isTypeWords_words (p : Spelling) : isTypeWords p.words ↔ p.IsType := by
  have hqualifiers : ∀ w ∈ p.words.dropLast, w ∈ Source.qualifiers := by
    simpa [words] using fun q hq => (p.qualifiers_valid q hq).1
  have hlast : p.words.getLast? = some p.word := by simp [words]
  obtain ⟨w, hw⟩ : ∃ w, p.words.head? = some w := by simp [words]
  simp only [isTypeWords, IsType, hw, hlast, List.contains_iff_mem, List.all_eq_true,
    Option.any_some, Bool.and_eq_true, Bool.not_eq_true', Option.mem_def, Option.some.injEq,
    forall_eq', ← Bool.not_eq_true]
  exact ⟨fun h => ⟨h.1.2, h.2⟩, fun h => ⟨⟨hqualifiers, h.1⟩, h.2⟩⟩

/-! #### What is read of a spelling -/

/-- What may follow a spelling. -/
def Ends (rest : List Char) : Prop := ∃ c cs, rest = c :: cs ∧ (c = ';' ∨ c = '=' ∨ c = '(')

theorem Ends.head?_eq_false (h : Ends rest) {f : Char → Bool}
    (hf : [';', '=', '('].all (!f ·)) : ∀ c ∈ rest.head?, f c = false := by
  obtain ⟨c, cs, rfl, hc⟩ := h
  rintro d ⟨⟩
  rcases hc with rfl | rfl | rfl <;> simp_all

theorem Ends.stops (h : Ends rest) : Stops rest := fun c hc =>
  ⟨h.head?_eq_false (by decide) c hc, h.head?_eq_false (by decide) c hc⟩

/-- The words that are read. Without stars the name is the last of them. -/
def run (p : Spelling) : List SpacedWord :=
  match p.separator with
  | .blank blanks _ => p.qualifiers ++ [⟨p.word, blanks⟩, ⟨p.name.text, p.trail⟩]
  | .starred before .. => p.qualifiers ++ [⟨p.word, before⟩]

/-- What follows the words that are read. -/
def behindRun (p : Spelling) (rest : List Char) : List Char :=
  match p.separator with
  | .blank .. => rest
  | .starred _ count _ behind =>
    List.replicate count '*' ++ (behind ++ (p.name.text ++ (p.trail ++ rest)))

/-- A spelling is the words that are read and what is left behind them. -/
theorem text_append (p : Spelling) (rest : List Char) :
    p.text ++ rest = p.lead ++ (spacedText p.run ++ p.behindRun rest) := by
  obtain ⟨lead, qualifiers, word, separator, name, trail, _, _⟩ := p
  cases separator <;> simp [text, run, behindRun, Separator.text]

/-- The words that are read do not run together. -/
theorem spaced_run (p : Spelling) : Spaced p.run := by
  have hqualifiers : ∀ q ∈ Source.qualifiers, isTypeWord q := by decide
  have hspaced : ∀ q ∈ p.qualifiers, isTypeWord q.word ∧ q.blanks.val ≠ [] := fun q hq =>
    ⟨hqualifiers q.word (p.qualifiers_valid q hq).1, (p.qualifiers_valid q hq).2⟩
  have hword := p.word_valid
  have hname := p.name.isTypeWord_text
  rw [run]
  split
  next blanks hne _ =>
    exact .append hspaced (.cons hword (fun _ => hne) (.cons hname (by simp) .nil))
  next => exact .append hspaced (.cons hword (by simp) .nil)

theorem stops_behindRun (p : Spelling) (h : Ends rest) : Stops (p.behindRun rest) := by
  rw [behindRun]
  split
  next => exact h.stops
  next count hpos _ _ =>
    obtain ⟨k, rfl⟩ := Nat.exists_eq_succ_of_ne_zero hpos.ne'
    rintro c ⟨⟩
    decide

theorem head?_name_append (n : WrittenName) (after : List Char) :
    ∀ c ∈ (n.text ++ after).head?, isBlank c = false := by
  obtain ⟨c, cs, htext, hstart, -⟩ := n.exists_cons
  rw [htext]
  rintro d ⟨⟩
  exact isBlank_of_isNameStart hstart

theorem isNameChar_of_isBlank {c : Char} (h : isBlank c) : isNameChar c = false := by
  have htype := isTypeChar_of_isBlank h
  rw [isTypeChar, Bool.or_eq_false_iff] at htype
  exact htype.1

theorem head?_trail_append (trail : Blanks) (h : Ends rest) :
    ∀ c ∈ (trail.val ++ rest).head?, isNameChar c = false :=
  head?_blanks_append (fun _ => isNameChar_of_isBlank) trail fun _ => h.head?_eq_false (by decide)

theorem head?_behind_append (n : WrittenName) (blanks : Blanks) (after : List Char) :
    ∀ c ∈ (blanks ++ (n.text ++ after)).head?, (c == '*') = false := by
  apply head?_blanks_append
  · intro c hc
    by_contra hstar
    rw [eq_of_beq (by simpa using hstar : (c == '*') = true)] at hc
    exact absurd hc (by decide)
  · obtain ⟨c, cs, htext, hstart, -⟩ := n.exists_cons
    rw [htext]
    rintro - d ⟨⟩
    by_contra hstar
    rw [eq_of_beq (by simpa using hstar : (c == '*') = true)] at hstart
    exact absurd hstart (by decide)

/-- A spelling whose words name a type is read as it is. -/
theorem read?_text_append (p : Spelling) (htype : p.IsType) (h : Ends rest) :
    Head.read? (p.text ++ rest)
      = some ⟨p.words, p.separator.stars, p.name.text, rest⟩ := by
  rw [← isTypeWords_words] at htype
  have hread := readWords_spacedText p.spaced_run (p.stops_behindRun h) p.lead
  have hstars := h.head?_eq_false (f := (· == '*')) (by decide)
  rw [text_append, Head.read?, hread]
  cases hseparator : p.separator with
  -- the name has been read as the last word
  | blank blanks hne =>
      have htake : rest.takeWhile (· == '*') = [] :=
        takeWhile_append_eq (fun _ h => absurd h List.not_mem_nil) hstars
      have hwords : p.run.map (·.word) = p.words ++ [p.name.text] := by
        simp [run, words, hseparator]
      simp [behindRun, hseparator, htake, hwords, htype, p.name.all_isNameChar, Separator.stars]
  -- the words end with the type, and the name is behind the stars
  | starred before count hpos behind =>
      have hcount : ∀ c ∈ List.replicate count '*', (c == '*') = true := by simp
      have hwords : p.run.map (·.word) = p.words := by
        simp [run, words, hseparator]
      have hbehind := head?_behind_append p.name behind (p.trail ++ rest)
      have htake := takeWhile_append_eq hcount hbehind
      have hdrop := dropWhile_append_eq hcount hbehind
      have hskip : skipBlanks (behind ++ (p.name.text ++ (p.trail ++ rest)))
          = p.name.text ++ (p.trail ++ rest) :=
        dropWhile_append_eq behind.property (head?_name_append p.name _)
      have htrail : skipBlanks (p.trail ++ rest) = rest :=
        dropWhile_append_eq p.trail.property (h.head?_eq_false (by decide))
      obtain ⟨c, cs, htext, hstart, hchars⟩ := p.name.exists_cons
      have hname := takeWhile_append_eq hchars (head?_trail_append p.trail h)
      have hafter := dropWhile_append_eq hchars (head?_trail_append p.trail h)
      rw [htext] at hbehind htake hdrop hskip
      have hne : (List.replicate count '*').isEmpty = false := by simp [hpos.ne']
      simp only [behindRun, hseparator, htext, htake, hdrop, hskip, hne, hwords]
      simp [hstart, htype, hname, hafter, htrail, Separator.stars]

/-- Behind the stars the blanks, the name and the blanks after it are determined. -/
theorem name_append_inj {n n' : WrittenName} {behind behind' trail trail' : Blanks}
    (h : Ends rest) (h' : Ends rest')
    (htext : behind.val ++ (n.text ++ (trail ++ rest))
      = behind' ++ (n'.text ++ (trail' ++ rest'))) :
    behind = behind' ∧ n = n' ∧ trail = trail' ∧ rest = rest' := by
  have hchars : ∀ m : WrittenName, ∀ c ∈ m.text, isNameChar c := fun m =>
    List.all_eq_true.mp m.all_isNameChar
  obtain ⟨hbehind, htext⟩ := append_inj_of_front htext behind.property behind'.property
    (head?_name_append n _) (head?_name_append n' _)
  obtain ⟨hname, htext⟩ := append_inj_of_front htext (hchars n) (hchars n')
    (head?_trail_append trail h) (head?_trail_append trail' h')
  obtain ⟨htrail, hrest⟩ := append_inj_of_front htext trail.property trail'.property
    (h.head?_eq_false (by decide)) (h'.head?_eq_false (by decide))
  exact ⟨Subtype.ext hbehind, WrittenName.ext hname, Subtype.ext htrail, hrest⟩

/-- A spelling does not end with a star. -/
theorem Ends.ne_stars (h : Ends rest) {count : Nat} (hpos : 0 < count) (after : List Char) :
    rest ≠ List.replicate count '*' ++ after := by
  rintro rfl
  obtain ⟨k, rfl⟩ := Nat.exists_eq_succ_of_ne_zero hpos.ne'
  exact absurd (h.head?_eq_false (f := (· == '*')) (by decide) '*' rfl) (by decide)

/-- A text has one spelling. -/
theorem text_append_inj (h : Ends rest) (h' : Ends rest')
    (htext : p.text ++ rest = q.text ++ rest') : p = q ∧ rest = rest' := by
  rw [text_append, text_append] at htext
  obtain ⟨hlead, hrun, hbehind⟩ := spacedText_inj p.spaced_run q.spaced_run
    (p.stops_behindRun h) (q.stops_behindRun h') htext
  obtain ⟨lead, qualifiers, word, separator, name, trail, _, _⟩ := p
  obtain ⟨lead', qualifiers', word', separator', name', trail', _, _⟩ := q
  subst hlead
  cases separator with
  -- the same words are read from both; without stars the last of them is the name
  | blank blanks _ =>
      cases separator' with
      | blank blanks' _ =>
          obtain ⟨rfl, hlast⟩ := List.append_inj' hrun rfl
          simp only [List.cons.injEq, SpacedWord.mk.injEq, and_true] at hlast
          obtain ⟨⟨rfl, rfl⟩, hname, rfl⟩ := hlast
          obtain rfl := WrittenName.ext hname
          exact ⟨rfl, hbehind⟩
      | starred _ _ hpos _ => exact absurd hbehind (h.ne_stars hpos _)
  | starred before count hpos behind =>
      cases separator' with
      | blank => exact absurd hbehind.symm (h'.ne_stars hpos _)
      | starred before' count' hpos' behind' =>
          obtain ⟨rfl, hlast⟩ := List.append_inj' hrun rfl
          simp only [List.cons.injEq, SpacedWord.mk.injEq, and_true] at hlast
          obtain ⟨rfl, rfl⟩ := hlast
          obtain ⟨hcount, hafter⟩ := append_inj_of_front (p := (· == '*')) hbehind (by simp)
            (by simp) (head?_behind_append name behind _) (head?_behind_append name' behind' _)
          obtain rfl : count = count' := by simpa using congrArg List.length hcount
          obtain ⟨rfl, rfl, rfl, hrest⟩ := name_append_inj h h' hafter
          exact ⟨rfl, hrest⟩

/-! #### What is read has a spelling -/

/-- The spaced words of a type are qualifiers, and one word more. -/
theorem exists_of_isTypeWords {ws : List SpacedWord} (h : isTypeWords (ws.map (·.word))) :
    ∃ qs w, ws = qs ++ [w] ∧ ∀ q ∈ qs, q.word ∈ Source.qualifiers := by
  rcases List.eq_nil_or_concat' ws with rfl | ⟨qs, w, rfl⟩
  · exact absurd h (by decide)
  · refine ⟨qs, w, rfl, ?_⟩
    simp only [isTypeWords, List.map_append, List.map_singleton, List.dropLast_concat,
      Bool.and_eq_true, List.all_eq_true, List.contains_iff_mem] at h
    exact fun q hq => h.1.1 q.word (List.mem_map_of_mem hq)

/-- A type word with name characters only is a name. -/
theorem isName_of_isTypeWord {w : List Char} (hw : isTypeWord w) (hchars : w.all isNameChar) :
    isName w := by
  cases w with
  | nil => exact absurd hw (by decide)
  | cons c cs =>
      rw [List.all_cons, Bool.and_eq_true, List.all_eq_true] at hchars
      exact isName_cons.mpr ⟨(isTypeWord_cons.mp hw).1, hchars.2⟩

/-- Without stars the last word is the name, and the others are the type. -/
theorem exists_of_last_word (lead : Blanks) {ws : List SpacedWord} (hspaced : Spaced ws)
    {name : List Char} (hname : (ws.map (·.word)).getLast? = some name)
    (hchars : name.all isNameChar) (htype : isTypeWords (ws.map (·.word)).dropLast)
    (rest : List Char) :
    ∃ p : Spelling, lead ++ (spacedText ws ++ rest) = p.text ++ rest ∧ p.IsType ∧
      p.words = (ws.map (·.word)).dropLast ∧ p.separator.stars = 0 ∧ p.name.text = name := by
  rw [← List.map_dropLast] at htype
  obtain ⟨n, hn, rfl⟩ : ∃ n, ws.getLast? = some n ∧ n.word = name := by
    simpa [List.getLast?_map] using hname
  obtain ⟨qs, w, hws, hqualifiers⟩ := exists_of_isTypeWords htype
  obtain rfl : ws = (qs ++ [w]) ++ [n] := by
    rw [← hws, List.dropLast_append_getLast? n hn]
  have hblanks := hspaced.blanks_ne_nil (List.cons_ne_nil n [])
  have hvalid := hspaced.isTypeWord_of_mem
  let p : Spelling :=
    { lead := lead
      qualifiers := qs
      word := w.word
      separator := .blank w.blanks (hblanks w (by simp))
      name := ⟨n.word, isName_of_isTypeWord (hvalid n (by simp)) hchars⟩
      trail := n.blanks
      qualifiers_valid := fun q hq => ⟨hqualifiers q hq, hblanks q (by simp [hq])⟩
      word_valid := hvalid w (by simp) }
  have hwords : p.words = (((qs ++ [w]) ++ [n]).map (·.word)).dropLast := by
    simp [p, words]
  refine ⟨p, ?_, p.isTypeWords_words.mp ?_, hwords, rfl, rfl⟩
  · rw [text_append]
    simp [run, behindRun, p]
  · rw [hwords, ← List.map_dropLast]
    exact htype

/-- With stars all words are the type, and the name stands behind the stars. -/
theorem exists_of_stars (lead : Blanks) {ws : List SpacedWord} (hspaced : Spaced ws) {c : Char}
    {after : List Char} (hstars : rest.takeWhile (· == '*') ≠ [])
    (hskip : skipBlanks (rest.dropWhile (· == '*')) = c :: after) (hstart : isNameStart c)
    (htype : isTypeWords (ws.map (·.word))) :
    ∃ p : Spelling,
      lead ++ (spacedText ws ++ rest) = p.text ++ skipBlanks (after.dropWhile isNameChar) ∧
      p.IsType ∧ p.words = ws.map (·.word) ∧
      p.separator.stars = (rest.takeWhile (· == '*')).length ∧
      p.name.text = c :: after.takeWhile isNameChar := by
  obtain ⟨qs, w, rfl, hqualifiers⟩ := exists_of_isTypeWords htype
  have hblanks := hspaced.blanks_ne_nil (List.cons_ne_nil w [])
  let p : Spelling :=
    { lead := lead
      qualifiers := qs
      word := w.word
      separator := .starred w.blanks (rest.takeWhile (· == '*')).length
        (List.length_pos_iff.mpr hstars) (leadingBlanks (rest.dropWhile (· == '*')))
      name := ⟨c :: after.takeWhile isNameChar,
        isName_cons.mpr ⟨hstart, fun d hd => List.mem_takeWhile_imp hd⟩⟩
      trail := leadingBlanks (after.dropWhile isNameChar)
      qualifiers_valid := fun q hq => ⟨hqualifiers q hq, hblanks q hq⟩
      word_valid := hspaced.isTypeWord_of_mem w (by simp) }
  have hwords : p.words = (qs ++ [w]).map (·.word) := by
    simp [words, p]
  have hcount : List.replicate (rest.takeWhile (· == '*')).length '*'
      = rest.takeWhile (· == '*') := by
    symm
    rw [List.eq_replicate_iff]
    refine ⟨rfl, fun d hd => ?_⟩
    simpa using List.mem_takeWhile_imp hd
  have hrest : rest = p.behindRun (skipBlanks (after.dropWhile isNameChar)) := by
    simp only [behindRun, p, hcount, leadingBlanks_append, List.cons_append,
      List.takeWhile_append_dropWhile, ← hskip]
  refine ⟨p, ?_, p.isTypeWords_words.mp (hwords ▸ htype), hwords, rfl, rfl⟩
  rw [text_append, ← hrest]
  simp [run, p]

/-- What is read has a spelling whose words name a type. -/
theorem exists_of_read? {head : Head} (h : Head.read? s = some head) :
    ∃ p : Spelling, s = p.text ++ head.rest ∧ p.IsType ∧
      head = ⟨p.words, p.separator.stars, p.name.text, head.rest⟩ := by
  cases hread : readWords s with
  | mk words rest =>
  obtain ⟨lead, ws, rfl, hspaced, rfl⟩ := exists_spaced_of_readWords hread
  rw [Head.read?, hread] at h
  dsimp only at h
  split at h
  -- the name is the last word
  next =>
    split at h
    next => cases h
    next name hname =>
      split at h
      next hcond =>
        cases h
        rw [Bool.and_eq_true] at hcond
        obtain ⟨p, htext, htype, hwords, hstars, hptext⟩ :=
          exists_of_last_word lead hspaced hname hcond.1 hcond.2 rest
        exact ⟨p, htext, htype, by rw [hwords, hstars, hptext]⟩
      next => cases h
  -- the name stands behind the stars
  next hstars =>
    split at h
    next => cases h
    next c after hskip =>
      split at h
      next hcond =>
        cases h
        rw [Bool.and_eq_true] at hcond
        obtain ⟨p, htext, htype, hwords, hcount, hptext⟩ :=
          exists_of_stars lead hspaced (by simpa using hstars) hskip hcond.1 hcond.2
        exact ⟨p, htext, htype, by rw [hwords, hcount, hptext]⟩
      next => cases h

/-! #### Members and methods -/

section Declarations

variable {parameters parameters' line : List Char} {number : Int}

/-- A member has one spelling, as its text has. -/
theorem SpellsMember.unique (h : p.SpellsMember s) (h' : q.SpellsMember s) : p = q := by
  obtain ⟨c, rest, rfl, hc⟩ := h
  obtain ⟨c', rest', htext, hc'⟩ := h'
  exact (text_append_inj ⟨c, rest, rfl, hc.imp_right .inl⟩ ⟨c', rest', rfl, hc'.imp_right .inl⟩
    htext).1

/-- Parameters end at the first closing parenthesis. -/
theorem takeWhile_parameters (h : ')' ∉ parameters) (rest : List Char) :
    (parameters ++ ')' :: rest).takeWhile (· != ')') = parameters := by
  apply takeWhile_append_eq
  · intro c hc
    exact bne_iff_ne.mpr (ne_of_mem_of_not_mem hc h)
  · rintro c ⟨⟩
    decide

/-- A method has one spelling, and its parameters end at the first parenthesis. -/
theorem SpellsMethod.unique (h : p.SpellsMethod parameters s) (h' : q.SpellsMethod parameters' s) :
    p = q ∧ parameters = parameters' := by
  obtain ⟨rest, rfl, hclose⟩ := h
  obtain ⟨rest', htext, hclose'⟩ := h'
  obtain ⟨rfl, hrest⟩ := text_append_inj ⟨_, _, rfl, .inr (.inr rfl)⟩ ⟨_, _, rfl, .inr (.inr rfl)⟩
    htext
  have hparameters := (List.cons.inj hrest).2
  rw [← takeWhile_parameters hclose rest, hparameters, takeWhile_parameters hclose']
  exact ⟨rfl, rfl⟩

/-- What spells a member spells no method. -/
theorem SpellsMember.not_spellsMethod (h : p.SpellsMember s) : ¬ q.SpellsMethod parameters s := by
  rintro ⟨rest', htext, -⟩
  obtain ⟨c, rest, rfl, hc⟩ := h
  obtain ⟨-, hrest⟩ := text_append_inj ⟨c, rest, rfl, hc.imp_right .inl⟩
    ⟨'(', _, rfl, .inr (.inr rfl)⟩ htext
  obtain ⟨rfl, -⟩ := List.cons.inj hrest
  exact absurd hc (by decide)

/-- A statement declares a member exactly if it spells one and no parenthesis opens on its line. -/
theorem member?_eq_some_iff {m : Member} :
    member? s line number = some m ↔
      '(' ∉ line ∧ ∃ p : Spelling, p.SpellsMember s ∧ p.IsType ∧ m = p.member number := by
  constructor
  · intro h
    unfold member? at h
    split at h
    next => cases h
    next hline =>
      split at h
      next => cases h
      next head hread =>
        split at h
        next => cases h
        next c rest hrest =>
          split at h
          next hc =>
            cases h
            obtain ⟨p, htext, htype, hhead⟩ := exists_of_read? hread
            rw [hrest] at htext
            refine ⟨by simpa using hline, p, ⟨c, rest, htext, by simpa using hc⟩, htype, ?_⟩
            rw [hhead]
            rfl
          next => cases h
  · rintro ⟨hline, p, ⟨c, rest, rfl, hc⟩, htype, rfl⟩
    have hread := p.read?_text_append htype ⟨c, rest, rfl, hc.imp_right .inl⟩
    simp [member?, hline, hread, hc, Spelling.member, Spelling.type, Head.type]

/-- A statement declares a method exactly if it spells one and its line does not end with a
semicolon. -/
theorem method?_eq_some_iff {m : Method} :
    method? s line number = some m ↔
      line.getLast? ≠ some ';' ∧ ∃ (p : Spelling) (parameters : List Char),
        p.SpellsMethod parameters s ∧ p.IsType ∧ m = p.method parameters number := by
  constructor
  · intro h
    unfold method? at h
    split at h
    next => cases h
    next hline =>
      split at h
      next => cases h
      next head hread =>
        split at h
        next after hrest =>
          split at h
          next hclose =>
            cases h
            obtain ⟨parameters, rest, rfl, hnot⟩ := List.eq_append_cons_of_mem
              (List.contains_iff_mem.mp hclose)
            obtain ⟨p, htext, htype, hhead⟩ := exists_of_read? hread
            rw [hrest] at htext
            refine ⟨hline, p, parameters, ⟨rest, htext, hnot⟩, htype, ?_⟩
            rw [hhead, takeWhile_parameters hnot]
            rfl
          next => cases h
        next => cases h
  · rintro ⟨hline, p, parameters, ⟨rest, rfl, hclose⟩, htype, rfl⟩
    have hread := p.read?_text_append htype
      ⟨'(', parameters ++ ')' :: rest, rfl, .inr (.inr rfl)⟩
    simp [method?, hline, hread, takeWhile_parameters hclose, Spelling.method, Spelling.type,
      Head.type]

end Declarations

end Spelling

/-- Reading members and methods accepts exactly what the grammar spells and gives what is spelled:
the name, the type in its plain form and, for a method, the parameters. A statement has one spelling
at most, also one whose words name no type, and none is both a member and a method. -/
theorem recognition (s line : List Char) (number : Int) :
    (∀ m, member? s line number = some m ↔ '(' ∉ line ∧
      ∃ p : Spelling, p.SpellsMember s ∧ p.IsType ∧ m = p.member number) ∧
    (∀ m, method? s line number = some m ↔ line.getLast? ≠ some ';' ∧
      ∃ (p : Spelling) (parameters : List Char),
        p.SpellsMethod parameters s ∧ p.IsType ∧ m = p.method parameters number) ∧
    (∀ p q : Spelling, p.SpellsMember s → q.SpellsMember s → p = q) ∧
    (∀ (p q : Spelling) (parameters parameters' : List Char), p.SpellsMethod parameters s →
      q.SpellsMethod parameters' s → p = q ∧ parameters = parameters') ∧
    ∀ (line' : List Char) (number' : Int),
      (member? s line number).isSome → method? s line' number' = none := by
  refine ⟨fun m => Spelling.member?_eq_some_iff, fun m => Spelling.method?_eq_some_iff,
    fun p q => Spelling.SpellsMember.unique, fun p q _ _ => Spelling.SpellsMethod.unique, ?_⟩
  intro line' number' hmember
  obtain ⟨m, hm⟩ := Option.isSome_iff_exists.mp hmember
  obtain ⟨-, p, hp, -⟩ := Spelling.member?_eq_some_iff.mp hm
  rw [Option.eq_none_iff_forall_ne_some]
  intro m' hm'
  obtain ⟨-, q, parameters, hq, -⟩ := Spelling.method?_eq_some_iff.mp hm'
  exact hp.not_spellsMethod hq

example : member? " static  unsigned\tx = 3;".toList "static  unsigned\tx = 3;".toList 4
    = some ⟨"x", "static unsigned", false, 4⟩ := by
  cbv

end CellAtlas.Source
