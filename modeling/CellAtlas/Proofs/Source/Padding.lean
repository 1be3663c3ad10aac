import CellAtlas.Proofs.Source.Grammar
import CellAtlas.Proofs.Source.Opening
import CellAtlas.Proofs.Source.Segment

/-!
# Blanks around terminators

Two lines are alike if the scanner cannot tell them apart, whatever is open and wherever they stand
(`Alike.scanLine_eq`). Blanks next to a terminator leave a line alike:

    void run(int depth){int left;}
    void run(int depth) { int left ; }

Behind a terminator they stand in front of the next statement and are trimmed
(`statements_blanks_append`). In front of one they stand inside a statement, where nothing is
trimmed. But there is room for them in the spelling of a member, and what a method says is over
before its brace (`declaration?_blanks`).
-/

namespace CellAtlas.Source

open Text

variable {x line line' : List Char} {t : Char} {number : Int}

/-! ### Terminators -/

theorem isBlank_of_isTerminator (ht : isTerminator t) : isBlank t = false := by
  simp only [isTerminator, Bool.or_eq_true, beq_iff_eq] at ht
  rcases ht with (rfl | rfl) | rfl <;> decide

theorem isTerminator_of_isBlank {c : Char} (hc : isBlank c) : isTerminator c = false := by
  rw [Bool.eq_false_iff]
  intro ht
  rw [isBlank_of_isTerminator ht] at hc
  cases hc

theorem isNameChar_of_isTerminator (ht : isTerminator t) : isNameChar t = false := by
  simp only [isTerminator, Bool.or_eq_true, beq_iff_eq] at ht
  rcases ht with (rfl | rfl) | rfl <;> decide

theorem Blanks.not_mem (w : Blanks) {c : Char} (hc : isBlank c = false) : c ∉ w.val := by
  intro h
  rw [w.property c h] at hc
  cases hc

/-- What ends with a name ends without blanks. -/
theorem getLast?_append_name (front : List Char) (n : WrittenName) :
    ∀ c ∈ (front ++ n.text).getLast?, isBlank c = false := by
  obtain ⟨d, cs, hname, -, -⟩ := n.exists_cons
  intro c hc
  have hlast : c ∈ n.text.getLast? := by
    simpa only [hname, List.getLast?_append, List.getLast?_cons, Option.some_or] using hc
  have hchar : isNameChar c :=
    List.all_eq_true.mp n.all_isNameChar c (List.mem_of_mem_getLast? hlast)
  exact isBlank_of_isTypeChar (isTypeChar_of_isNameChar hchar)

/-! ### Blanks at the end of a statement -/

namespace Spelling

variable {p : Spelling} {s parameters : List Char}

/-- A spelling but for the blanks at its end. -/
def front (p : Spelling) : List Char :=
  p.lead ++ (spacedText p.qualifiers ++ (p.word ++ (p.separator.text ++ p.name.text)))

theorem text_eq (p : Spelling) : p.text = p.front ++ p.trail := by
  simp only [text, front, List.append_assoc]

/-- A spelling ends with its name, but for the blanks behind it. -/
theorem getLast?_front (p : Spelling) : ∀ c ∈ p.front.getLast?, isBlank c = false := by
  have hlast := getLast?_append_name
    (p.lead ++ (spacedText p.qualifiers ++ (p.word ++ p.separator.text))) p.name
  simpa only [front, List.append_assoc] using hlast

/-- A member stands at the front of its statement, up to a semicolon or an equals sign. -/
theorem spellsMember_iff :
    p.SpellsMember s ↔ ∃ c, (c = ';' ∨ c = '=') ∧ p.text ++ [c] <+: s := by
  constructor
  · rintro ⟨c, rest, rfl, hc⟩
    exact ⟨c, hc, rest, by rw [List.append_assoc, List.singleton_append]⟩
  · rintro ⟨c, hc, rest, rfl⟩
    exact ⟨c, rest, by rw [List.append_assoc, List.singleton_append], hc⟩

theorem spellsMethod_iff : p.SpellsMethod parameters s ↔
    p.text ++ '(' :: parameters ++ [')'] <+: s ∧ ')' ∉ parameters := by
  constructor
  · rintro ⟨rest, rfl, hclose⟩
    exact ⟨⟨rest, by simp⟩, hclose⟩
  · rintro ⟨⟨rest, rfl⟩, hclose⟩
    exact ⟨rest, by simp, hclose⟩

section Trail

/-- The property does not depend on the blanks at the end of a spelling. -/
def IgnoresTrail (P : Spelling → Prop) : Prop :=
  ∀ (p : Spelling) (trail : Blanks), P { p with trail } ↔ P p

variable {P : Spelling → Prop} (hP : IgnoresTrail P)

include hP

/-- Blanks behind a spelling belong to it. -/
theorem exists_text_eq_append_iff (w : Blanks) :
    (∃ p : Spelling, p.text = x ++ w ∧ P p) ↔ ∃ p : Spelling, p.text = x ∧ P p := by
  constructor
  -- the blanks at the end of the text are among those behind the name
  · rintro ⟨p, htext, hp⟩
    rw [text_eq] at htext
    obtain ⟨trail, rfl, htrail⟩ :=
      exists_of_append_eq_append htext.symm w.property p.getLast?_front
    have hblank : ∀ c ∈ trail, isBlank c := fun c hc =>
      p.trail.property c (htrail ▸ List.mem_append_left _ hc)
    exact ⟨{ p with trail := ⟨trail, hblank⟩ }, text_eq _, (hP p _).mpr hp⟩
  · rintro ⟨p, rfl, hp⟩
    have hblank : ∀ c ∈ p.trail.val ++ w.val, isBlank c :=
      List.forall_mem_append.mpr ⟨p.trail.property, w.property⟩
    refine ⟨{ p with trail := ⟨p.trail.val ++ w.val, hblank⟩ }, ?_, (hP p _).mpr hp⟩
    rw [text_eq, text_eq p, List.append_assoc]
    rfl

/-- What is spelled up to a character with blanks in front of it. -/
theorem exists_spellsMember_iff (w : Blanks) :
    (∃ p : Spelling, p.SpellsMember (x ++ (w ++ [t])) ∧ P p) ↔
      (∃ p : Spelling, p.SpellsMember x ∧ P p) ∨
        (t = ';' ∨ t = '=') ∧ ∃ p : Spelling, p.text = x ∧ P p := by
  have hend : ∀ c, c = ';' ∨ c = '=' → isBlank c = false := by
    rintro c (rfl | rfl) <;> decide
  rw [← exists_text_eq_append_iff hP w]
  constructor
  · rintro ⟨p, hspells, hp⟩
    obtain ⟨c, hc, hprefix⟩ := spellsMember_iff.mp hspells
    -- the member ends before the blanks, or at the character behind them
    rcases (concat_prefix_iff w.property (hend c hc)).mp hprefix with h | ⟨htext, rfl⟩
    · exact .inl ⟨p, spellsMember_iff.mpr ⟨c, hc, h⟩, hp⟩
    · exact .inr ⟨hc, p, htext, hp⟩
  · rintro (⟨p, hspells, hp⟩ | ⟨ht, p, htext, hp⟩)
    · obtain ⟨c, hc, h⟩ := spellsMember_iff.mp hspells
      have hprefix := (concat_prefix_iff (b := t) w.property (hend c hc)).mpr (.inl h)
      exact ⟨p, spellsMember_iff.mpr ⟨c, hc, hprefix⟩, hp⟩
    · have hprefix := (concat_prefix_iff w.property (hend t ht)).mpr (.inr ⟨htext, rfl⟩)
      exact ⟨p, spellsMember_iff.mpr ⟨t, ht, hprefix⟩, hp⟩

end Trail

/-- A method ends with a parenthesis, and cannot reach behind blanks to another character. -/
theorem spellsMethod_append_iff (w : Blanks) (ht : t ≠ ')') :
    p.SpellsMethod parameters (x ++ (w ++ [t])) ↔ p.SpellsMethod parameters x := by
  rw [spellsMethod_iff, spellsMethod_iff, concat_prefix_iff w.property (by decide)]
  simp only [Ne.symm ht, and_false, or_false]

end Spelling

/-- Blanks in front of the last character of a statement make no difference to a member. -/
theorem member?_blanks (w : Blanks) (t : Char) :
    member? (x ++ (w ++ [t])) line number = member? (x ++ [t]) line number := by
  have hignores : ∀ m, Spelling.IgnoresTrail fun p => p.IsType ∧ m = p.member number :=
    fun m p trail => Iff.rfl
  have hempty : x ++ [t] = x ++ ((⟨[], List.forall_mem_nil _⟩ : Blanks).val ++ [t]) := rfl
  apply Option.ext
  intro m
  rw [Spelling.member?_eq_some_iff, Spelling.member?_eq_some_iff, hempty,
    Spelling.exists_spellsMember_iff (hignores m), Spelling.exists_spellsMember_iff (hignores m)]

/-- Blanks in front of the last character of a statement make no difference to a method, if that is
not its parenthesis. -/
theorem method?_blanks (w : Blanks) (ht : t ≠ ')') :
    method? (x ++ (w ++ [t])) line number = method? (x ++ [t]) line number := by
  have hself : ∀ (p : Spelling) parameters,
      p.SpellsMethod parameters (x ++ [t]) ↔ p.SpellsMethod parameters x := fun p parameters =>
    Spelling.spellsMethod_append_iff ⟨[], List.forall_mem_nil _⟩ ht
  apply Option.ext
  intro m
  simp only [Spelling.method?_eq_some_iff, Spelling.spellsMethod_append_iff w ht, hself]

/-- Blanks in front of its terminator make no difference to a statement. -/
theorem declaration?_blanks (w : Blanks) (ht : isTerminator t) :
    declaration? (x ++ (w ++ [t])) line number = declaration? (x ++ [t]) line number := by
  have hne : t ≠ ')' := by
    rintro rfl
    exact absurd ht (by decide)
  rw [declaration?, declaration?, member?_blanks, method?_blanks w hne]

/-! ### Blanks between statements -/

theorem isVacuous_concat (ht : isTerminator t) : isVacuous (x ++ [t]) ↔ x = [] := by
  match x with
  | [] => simp [isVacuous, ht]
  | [c] => simp [isVacuous]
  | c :: d :: cs => simp [isVacuous]

/-- A statement that a terminator ends is trimmed in front only. -/
theorem statements_concat (hx : ∀ c ∈ x, isTerminator c = false) (ht : isTerminator t)
    (depth : Int) : statements (x ++ [t]) depth
      = if skipBlanks x = [] then [] else [⟨skipBlanks x ++ [t], depth⟩] := by
  have htrim : trim (x ++ [t]) = skipBlanks x ++ [t] :=
    trim_append_cons (isBlank_of_isTerminator ht) x []
  rw [statements, segments_append_cons hx ht, statementsOf, htrim]
  simp only [isVacuous_concat ht]
  rfl

theorem Blanks.balance_eq_zero (w : Blanks) : balance w = 0 := by
  rw [balance, List.count_eq_zero.mpr (w.not_mem (by decide)),
    List.count_eq_zero.mpr (w.not_mem (by decide))]
  rfl

theorem balance_append_blanks (a : List Char) (w : Blanks) (b : List Char) :
    balance (a ++ (w ++ b)) = balance (a ++ b) := by
  rw [balance_append, balance_append w.val, w.balance_eq_zero, Int.zero_add, balance_append]

theorem balance_cons_of_blank {c : Char} (hc : isBlank c) (cs : List Char) :
    balance (c :: cs) = balance cs := by
  exact balance_append_blanks [] ⟨[c], List.forall_mem_singleton.mpr hc⟩ cs

/-- A blank at the front of a line is trimmed off its first segment. -/
theorem statements_cons_of_blank {c : Char} (hc : isBlank c) (cs : List Char) (depth : Int) :
    statements (c :: cs) depth = statements cs depth := by
  rw [statements, statements, segments, if_neg (by simp [isTerminator_of_isBlank hc])]
  cases segments cs with
  | nil =>
      have htrim : trim [c] = [] := trim_cons_of_blank hc []
      simp [statementsOf, htrim, isVacuous]
  | cons s ss =>
      rw [statementsOf, statementsOf, trim_cons_of_blank hc, balance_cons_of_blank hc]

/-- Blanks in front of a text make no difference to its statements. -/
theorem statements_blanks_append (w : Blanks) (cs : List Char) (depth : Int) :
    statements (w ++ cs) depth = statements cs depth := by
  obtain ⟨w, hw⟩ := w
  induction w with
  | nil => rfl
  | cons c w ih =>
      rw [List.forall_mem_cons] at hw
      exact (statements_cons_of_blank hw.1 (w ++ cs) depth).trans (ih hw.2)

def Statement.declared? (number : Int) (line : List Char) (s : Statement) : Option Declaration :=
  if 0 < s.depth then declaration? s.text line number else none

theorem declarationsOf_eq_filterMap (number : Int) (line : List Char) (depth : Int) :
    OpenStructure.declarationsOf number line depth
      = (statements line depth).filterMap (·.declared? number line) := rfl

/-- The line around a statement counts for its parentheses and its last character. -/
theorem Statement.declared?_congr (hparenthesis : '(' ∈ line ↔ '(' ∈ line')
    (hlast : line.getLast? = line'.getLast?) (number : Int) (s : Statement) :
    s.declared? number line = s.declared? number line' := by
  have hcontains : line.contains '(' = line'.contains '(' := by
    rw [Bool.eq_iff_iff, List.contains_iff_mem, List.contains_iff_mem, hparenthesis]
  simp only [Statement.declared?, declaration?, member?, method?, hcontains, hlast]

/-- Blanks in front of the terminator that ends a statement make no difference to what it
declares. -/
theorem filterMap_statement_blanks (w : Blanks) (ht : isTerminator t)
    (hx : ∀ c ∈ x, isTerminator c = false) (depth : Int) :
    (statements (x ++ (w ++ [t])) depth).filterMap (·.declared? number line)
      = (statements (x ++ [t]) depth).filterMap (·.declared? number line) := by
  have hxw : ∀ c ∈ x ++ w, isTerminator c = false :=
    List.forall_mem_append.mpr ⟨hx, fun c hc => isTerminator_of_isBlank (w.property c hc)⟩
  rw [← List.append_assoc, statements_concat hxw ht, statements_concat hx ht]
  by_cases hskip : skipBlanks x = []
  · rw [skipBlanks_append_of_nil hskip, skipBlanks_of_forall w.property, hskip]
  · have hskip' : skipBlanks (x ++ w) = skipBlanks x ++ w := skipBlanks_append_of_ne_nil hskip w
    have hne : skipBlanks x ++ w.val ≠ [] := List.append_ne_nil_of_left_ne_nil hskip w
    rw [hskip', if_neg hskip, if_neg hne, List.append_assoc]
    simp only [List.filterMap_cons, List.filterMap_nil, Statement.declared?,
      declaration?_blanks w ht]

/-- Blanks in front of the terminator at the end of a text make no difference to what its statements
declare. -/
theorem filterMap_statements_blanks (w : Blanks) (ht : isTerminator t) (x : List Char)
    (depth : Int) :
    (statements (x ++ (w ++ [t])) depth).filterMap (·.declared? number line)
      = (statements (x ++ [t]) depth).filterMap (·.declared? number line) := by
  rcases forall_or_exists_last isTerminator x with hx | ⟨before, t', x, rfl, ht', hx⟩
  · exact filterMap_statement_blanks w ht hx depth
  · rw [List.append_assoc, List.append_assoc, List.cons_append, List.cons_append,
      statements_append_terminator ht' before (x ++ (w ++ [t])),
      statements_append_terminator ht' before (x ++ [t]), List.filterMap_append,
      List.filterMap_append, filterMap_statement_blanks w ht hx]

/-! ### Lines that open a structure -/

section Title

variable {kind : Kind} {name : String} {title cs rest : List Char}

/-- The keyword of a kind, blanks and a name. -/
def IsTitle (kind : Kind) (name : String) (title : List Char) : Prop :=
  ∃ blanks : List Char, title = kind.keyword.toList ++ blanks ++ name.toList ∧ blanks ≠ [] ∧
    (∀ c ∈ blanks, isBlank c) ∧ isName name.toList

/-- A line opens a structure exactly if it begins with a title that ends there. -/
theorem opens_iff : Opens line kind name ↔
    ∃ title rest, IsTitle kind name title ∧ line = title ++ rest ∧
      ∀ c ∈ rest.head?, isNameChar c = false := by
  constructor
  · rintro ⟨after, rfl, blanks, rest, rfl, hne, hblanks, hname, hrest⟩
    refine ⟨_, rest, ⟨blanks, rfl, hne, hblanks, hname⟩, ?_, hrest⟩
    simp only [List.append_assoc]
  · rintro ⟨title, rest, ⟨blanks, rfl, hne, hblanks, hname⟩, rfl, hrest⟩
    refine ⟨blanks ++ (name.toList ++ rest), ?_, blanks, rest, rfl, hne, hblanks, hname, hrest⟩
    simp only [List.append_assoc]

/-- A title has no terminators. -/
theorem IsTitle.not_mem (h : IsTitle kind name title) (ht : isTerminator t) : t ∉ title := by
  obtain ⟨blanks, rfl, -, hblanks, hname⟩ := h
  have hkeyword : kind.keyword.toList.all (!isTerminator ·) := by
    cases kind <;> decide
  rw [List.mem_append, List.mem_append]
  rintro ((hmem | hmem) | hmem)
  · exact absurd ht (by simpa using List.all_eq_true.mp hkeyword t hmem)
  · exact absurd ht (by simp [isTerminator_of_isBlank (hblanks t hmem)])
  · have hchar := List.all_eq_true.mp (⟨name.toList, hname⟩ : WrittenName).all_isNameChar t hmem
    exact absurd hchar (by simp [isNameChar_of_isTerminator ht])

theorem IsTitle.getLast? (h : IsTitle kind name title) :
    ∀ c ∈ title.getLast?, isBlank c = false := by
  obtain ⟨blanks, rfl, -, -, hname⟩ := h
  exact getLast?_append_name (kind.keyword.toList ++ blanks) ⟨name.toList, hname⟩

/-- What stands behind a text makes no difference to its opening if no title reaches into it. -/
theorem opens_append_iff (hrest : ∀ c ∈ rest.head?, isNameChar c = false)
    (hfront : ∀ title, IsTitle kind name title → title <+: cs ++ rest → title <+: cs) :
    Opens (cs ++ rest) kind name ↔ Opens cs kind name := by
  rw [opens_iff, opens_iff]
  constructor
  · rintro ⟨title, after, htitle, htext, hafter⟩
    obtain ⟨between, rfl⟩ := hfront title htitle ⟨after, htext.symm⟩
    rw [List.append_assoc, List.append_cancel_left_eq] at htext
    refine ⟨title, between, htitle, rfl, ?_⟩
    intro c hc
    cases between with
    | nil => cases hc
    | cons d between => exact hafter c (htext ▸ hc)
  · rintro ⟨title, between, htitle, rfl, hbetween⟩
    refine ⟨title, between ++ rest, htitle, List.append_assoc _ _ _, ?_⟩
    intro c hc
    cases between with
    | nil => exact hrest c hc
    | cons d between => exact hbetween c hc

theorem opens_append_blanks (w : Blanks) : Opens (cs ++ w) kind name ↔ Opens cs kind name := by
  apply opens_append_iff
  · intro c hc
    exact Spelling.isNameChar_of_isBlank (w.property c (List.mem_of_mem_head? hc))
  · rintro title htitle ⟨after, htext⟩
    obtain ⟨middle, rfl, -⟩ :=
      exists_of_append_eq_append htext.symm w.property htitle.getLast?
    exact List.prefix_append _ _

/-- What stands from a terminator on makes no difference to the opening. -/
theorem opens_append_terminator (ht : isTerminator t) (rest : List Char) :
    Opens (cs ++ t :: rest) kind name ↔ Opens cs kind name := by
  apply opens_append_iff
  · rintro c ⟨⟩
    exact isNameChar_of_isTerminator ht
  · intro title htitle hprefix
    have hcut : cs ++ [t] <+: cs ++ t :: rest := ⟨rest, by simp⟩
    rcases List.prefix_or_prefix_of_prefix hprefix hcut with h | h
    · rcases List.prefix_concat_iff.mp h with rfl | h
      · exact absurd List.mem_concat_self (htitle.not_mem ht)
      · exact h
    · exact absurd (h.subset List.mem_concat_self) (htitle.not_mem ht)

end Title

/-! ### Lines that are read alike -/

/-- Two lines that the scanner cannot tell apart. -/
structure Alike (line line' : List Char) : Prop where
  opens : ∀ kind name, Opens line kind name ↔ Opens line' kind name
  balance_eq : balance line = balance line'
  closing : '}' ∈ line ↔ '}' ∈ line'
  declarations : ∀ number depth, OpenStructure.declarationsOf number line depth
    = OpenStructure.declarationsOf number line' depth

namespace Alike

theorem refl (line : List Char) : Alike line line :=
  ⟨fun _ _ => Iff.rfl, rfl, Iff.rfl, fun _ _ => rfl⟩

theorem ofLine?_eq (h : Alike line line') (number : Int) :
    OpenStructure.ofLine? number line = OpenStructure.ofLine? number line' := by
  apply Option.ext
  intro o
  rw [OpenStructure.ofLine?_eq_some_iff, OpenStructure.ofLine?_eq_some_iff, h.opens]

/-- A line does what a line does that is alike. -/
theorem scanLine_eq (h : Alike line line') (current : Option OpenStructure) (number : Int) :
    scanLine current number line = scanLine current number line' := by
  have habsorb : ∀ o : OpenStructure, o.absorb number line = o.absorb number line' := by
    intro o
    rw [OpenStructure.absorb, OpenStructure.absorb, h.balance_eq, h.declarations]
  simp only [scanLine, h.ofLine?_eq, habsorb, h.closing]

variable {a b : List Char}

/-- Blanks behind a terminator that does not end the line. -/
theorem behind_terminator (ht : isTerminator t) (w : Blanks) (hb : b ≠ []) :
    Alike (a ++ t :: (w ++ b)) (a ++ t :: b) where
  opens := by
    intro kind name
    rw [opens_append_terminator ht, opens_append_terminator ht]
  balance_eq := by
    rw [List.append_cons a t (w ++ b), List.append_cons a t b, balance_append_blanks]
  closing := by
    simp [w.not_mem (c := '}') (by decide)]
  declarations := by
    intro number depth
    have hparenthesis : '(' ∈ a ++ t :: (w ++ b) ↔ '(' ∈ a ++ t :: b := by
      simp [w.not_mem (c := '(') (by decide)]
    have hlast : (a ++ t :: (w ++ b)).getLast? = (a ++ t :: b).getLast? := by
      obtain ⟨c, b, rfl⟩ := List.exists_cons_of_ne_nil hb
      simp [List.getLast?_append, List.getLast?_cons]
    rw [declarationsOf_eq_filterMap, declarationsOf_eq_filterMap, statements_append_terminator ht,
      statements_blanks_append, ← statements_append_terminator ht]
    exact List.filterMap_congr fun s _ => s.declared?_congr hparenthesis hlast number

/-- Blanks in front of a terminator. -/
theorem before_terminator (ht : isTerminator t) (w : Blanks) :
    Alike (a ++ (w ++ t :: b)) (a ++ t :: b) where
  opens := by
    intro kind name
    rw [← List.append_assoc, opens_append_terminator ht, opens_append_blanks,
      opens_append_terminator ht]
  balance_eq := balance_append_blanks a w (t :: b)
  closing := by
    simp [w.not_mem (c := '}') (by decide)]
  declarations := by
    intro number depth
    have hparenthesis : '(' ∈ a ++ (w ++ t :: b) ↔ '(' ∈ a ++ t :: b := by
      simp [w.not_mem (c := '(') (by decide)]
    have hlast : (a ++ (w ++ t :: b)).getLast? = (a ++ t :: b).getLast? := by
      simp [List.getLast?_append, List.getLast?_cons]
    have hcut := statements_append_terminator ht (a ++ w) b depth
    rw [List.append_assoc, List.append_assoc, balance_append_blanks] at hcut
    rw [declarationsOf_eq_filterMap, declarationsOf_eq_filterMap, hcut,
      statements_append_terminator ht a b, List.filterMap_append, List.filterMap_append,
      filterMap_statements_blanks w ht]
    simp only [Statement.declared?_congr hparenthesis hlast]

/-- Blanks at an end of a line or next to a terminator. -/
theorem trim_blanks (w : Blanks)
    (h : (∀ c ∈ a.getLast?, isTerminator c) ∨ ∀ c ∈ b.head?, isTerminator c) :
    Alike (trim (a ++ (w ++ b))) (trim (a ++ b)) := by
  rcases h with h | h
  · rcases List.eq_nil_or_concat' a with rfl | ⟨a, t, rfl⟩
    · have hsame : trim ([] ++ (w.val ++ b)) = trim ([] ++ b) := trim_blanks_append w.property b
      rw [hsame]
      exact refl _
    · have ht : isTerminator t := h t (by simp)
      have hblank := isBlank_of_isTerminator ht
      rw [← List.append_cons, ← List.append_cons, trim_append_cons hblank, trim_append_cons hblank]
      -- with nothing but blanks behind the terminator they are trimmed off
      by_cases hb : trimEnd b = []
      · rw [trimEnd_append_of_nil hb, trimEnd_of_forall w.property, hb]
        exact refl _
      · rw [trimEnd_append_of_ne_nil hb]
        exact behind_terminator ht w hb
  · cases b with
    | nil =>
        have hsame : trim (a ++ (w.val ++ [])) = trim (a ++ []) := by
          rw [List.append_nil, List.append_nil, trim_append_blanks w.property]
        rw [hsame]
        exact refl _
    | cons t b =>
        have ht : isTerminator t := h t rfl
        have hblank := isBlank_of_isTerminator ht
        rw [← List.append_assoc, trim_append_cons hblank, trim_append_cons hblank]
        -- with nothing but blanks in front they are trimmed off too
        by_cases ha : skipBlanks a = []
        · rw [skipBlanks_append_of_nil ha, skipBlanks_of_forall w.property, ha]
          exact refl _
        · rw [skipBlanks_append_of_ne_nil ha, List.append_assoc]
          exact before_terminator ht w

end Alike

end CellAtlas.Source
