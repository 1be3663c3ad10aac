import CellAtlas.Proofs.Source.Opening
import CellAtlas.Proofs.Source.Statement

/-!
# Scanning what is written

A scan reads back every list of structures in writing, whether they stand on lines of their own or
on a single line, with the numbers of the lines on which they are written (`scan_text`).

Each written line does to the open structure what it says (`scanLine_openingText`, `scanLine_item`,
`scanLine_closing`). The lines of a structure leave nothing open (`scanLines_lines`), so that
structures below one another are read one after the other.
-/

namespace CellAtlas.Source

open Text

/-! ### Lines -/

/-- At depth one a written member is all that its line declares. -/
theorem declarationsOf_member (m : WrittenMember) (number : Int) :
    OpenStructure.declarationsOf number m.text 1 = [.member (m.declared number)] := by
  simp [OpenStructure.declarationsOf, m.statements_text,
    declaration?_member m (m.not_mem_text (c := '(') (by decide) (by decide))]

/-- At depth one a written method, whose body is empty, is all that its line declares. -/
theorem declarationsOf_method (m : WrittenMethod) (number : Int) :
    OpenStructure.declarationsOf number m.text 1 = [.method (m.declared number)] := by
  have hparenthesis : '(' ∈ m.text := by simp [WrittenMethod.text, WrittenMethod.signature]
  have hlast : m.text.getLast? ≠ some ';' := by
    intro h
    rw [WrittenMethod.text, List.getLast?_append] at h
    cases h
  simp [OpenStructure.declarationsOf, m.statements_text,
    declaration?_method m hparenthesis hlast]

/-- A line with a written item declares the item. -/
theorem declarationsOf_item (item : WrittenItem) (number : Int) :
    OpenStructure.declarationsOf number item.text 1 = [item.declared number] := by
  cases item with
  | member m => exact declarationsOf_member m number
  | method m => exact declarationsOf_method m number

/-- Items leave the depth as it is. -/
theorem balance_item (item : WrittenItem) : balance item.text = 0 := by
  cases item with
  | member m => exact m.balance_text
  | method m => exact m.balance_text

theorem declarationsOf_openingText (kind : Kind) (name : WrittenName) (number : Int) :
    OpenStructure.declarationsOf number (openingText kind name) 0 = [] := by
  have hstatements := statements_openingText_append kind name []
  rw [List.append_nil] at hstatements
  rw [OpenStructure.declarationsOf, hstatements]
  rfl

/-- A line that begins with the title of a structure opens it. -/
theorem ofLine?_titleText_append (kind : Kind) (name : WrittenName) {rest : List Char}
    (hrest : ∀ c ∈ rest.head?, isNameChar c = false) (number : Int) :
    OpenStructure.ofLine? number (titleText kind name ++ rest)
      = some { name := String.ofList name.text, kind, startLine := number } := by
  have hname : NameAfterBlanks (' ' :: (name.text ++ rest)) (String.ofList name.text) := by
    refine ⟨[' '], rest, ?_, List.cons_ne_nil _ _, ?_, ?_, hrest⟩
    · rw [String.toList_ofList]
      rfl
    · exact List.forall_mem_singleton.mpr (by decide)
    · rw [String.toList_ofList]
      exact name.valid
  rw [titleText, List.append_assoc, List.cons_append, OpenStructure.ofLine?_keyword_append,
    nameAfterBlanks?_eq_some hname]
  rfl

/-- Written text that begins with the opening of a structure opens it. -/
theorem ofLine?_openingText_append (kind : Kind) (name : WrittenName) (rest : List Char)
    (number : Int) : OpenStructure.ofLine? number (openingText kind name ++ rest)
      = some { name := String.ofList name.text, kind, startLine := number } := by
  rw [openingText, List.append_assoc]
  apply ofLine?_titleText_append
  rintro c ⟨⟩
  decide

/-- With a structure open, a line closes it or adds to it. -/
theorem scanLine_some (o : OpenStructure) (number : Int) (line : List Char) :
    scanLine (some o) number line =
      if (o.absorb number line).depth = 0 ∧ '}' ∈ line then
        (some ((o.absorb number line).close number), none)
      else (none, some (o.absorb number line)) := rfl

/-- The opening line opens the structure and goes one deeper. -/
theorem scanLine_openingText (kind : Kind) (name : WrittenName) (number : Int) :
    scanLine none number (openingText kind name) = (none, some
      { name := String.ofList name.text, kind, startLine := number, depth := 1 }) := by
  have hopens := ofLine?_openingText_append kind name [] number
  rw [List.append_nil] at hopens
  rw [scanLine_none_of_ofLine? hopens, scanLine_some]
  simp [OpenStructure.absorb, balance_openingText, declarationsOf_openingText]

section Block

variable {o : OpenStructure} (hdepth : o.depth = 1) (number : Int)

include hdepth

/-- A line with a written item adds what it declares. -/
theorem scanLine_item (item : WrittenItem) :
    scanLine (some o) number item.text
      = (none, some { o with declarations := o.declarations ++ [item.declared number] }) := by
  rw [scanLine_some]
  simp [OpenStructure.absorb, hdepth, balance_item, declarationsOf_item]

/-- By induction on the items: each is declared on its line, and the structure stays open. -/
theorem scanLines_items (items : List WrittenItem) :
    scanLines (some o) number (items.map (·.text))
      = ([], some { o with declarations := o.declarations ++ declaredFrom number items }) := by
  induction items generalizing o number with
  | nil => simp [scanLines, declaredFrom]
  | cons item items ih =>
      have hitems := ih (o := { o with declarations := o.declarations ++ [item.declared number] })
        hdepth (number + 1)
      rw [List.map_cons, scanLines, scanLine_item hdepth]
      dsimp only
      rw [hitems, declaredFrom, List.append_assoc]
      rfl

/-- The closing line closes a structure at depth one. -/
theorem scanLine_closing :
    scanLine (some o) number ['}', ';'] = (some (o.close number), none) := by
  have hstatements : statements ['}', ';'] 1 = [] := by decide
  have habsorb : o.absorb number ['}', ';'] = { o with depth := 0 } := by
    simp [OpenStructure.absorb, OpenStructure.declarationsOf, hdepth, hstatements]
    decide
  rw [scanLine_some, habsorb, if_pos ⟨rfl, List.mem_cons_self⟩]
  rfl

end Block

/-! ### Texts -/

/-- A structure on several lines is read back. -/
theorem scanLines_block (s : WrittenStructure) (number : Int) :
    scanLines none number s.lines = ([Written.declared number (.block s)], none) := by
  have hitems := scanLines_items (o :=
    { name := String.ofList s.name.text, kind := s.kind, startLine := number, depth := 1 })
    rfl (number + 1) s.items
  -- the closing line comes after the opening one and one line for each item
  have hstop : number + 1 + ((s.items.map (·.text)).length : Int)
      = number + s.items.length + 1 := by
    rw [List.length_map]
    omega
  rw [WrittenStructure.lines, scanLines, scanLine_openingText]
  dsimp only
  rw [scanLines_append, hitems]
  dsimp only
  rw [hstop, scanLines, scanLine_closing rfl]
  rfl

theorem balance_members (members : List WrittenMember) :
    balance (members.flatMap fun m => ' ' :: m.text) = 0 := by
  induction members with
  | nil => rfl
  | cons m members ih => rw [List.flatMap_cons, balance_append, m.balance_blank_text, ih]; rfl

namespace WrittenRecord

variable (r : WrittenRecord)

theorem balance_text : balance r.text = 0 := by
  rw [text, balance_append, balance_append, balance_openingText, balance_members]
  decide

/-- The line of a record has only its braces and semicolons besides the characters of heads. -/
theorem not_mem_text {c : Char} (hc : isHeadChar c = false) (hends : c ∉ ['{', '}', ';']) :
    c ∉ r.text := by
  have hspace : c ≠ ' ' := by
    rintro rfl
    exact absurd hc (by decide)
  simp only [List.mem_cons, List.not_mem_nil, or_false, not_or] at hends
  obtain ⟨hopen, hclose, hsemicolon⟩ := hends
  intro h
  rcases List.mem_append.mp h with h | h
  · rcases List.mem_append.mp h with h | h
    · exact not_mem_of_isHeadChar (fun _ => isHeadChar_of_mem_titleText) hc h
    · simp [hspace, hopen] at h
  · rcases List.mem_append.mp h with h | h
    · obtain ⟨m, -, h⟩ := List.mem_flatMap.mp h
      exact m.not_mem_text hc hsemicolon (List.mem_of_ne_of_mem hspace h)
    · simp [hspace, hclose, hsemicolon] at h

/-- The opening stands at depth zero and the closing says nothing, so that the members are all. -/
theorem declarationsOf_text (number : Int) :
    OpenStructure.declarationsOf number r.text 0
      = r.members.map fun m => .member (m.declared number) := by
  have hclosing : statements [' ', '}', ';'] 1 = [] := by decide
  have hmember : ∀ m : WrittenMember, declaration? m.text r.text number
      = some (.member (m.declared number)) := fun m =>
    declaration?_member m (r.not_mem_text (by decide) (by decide)) number
  rw [OpenStructure.declarationsOf, text, statements_openingText_append, statements_members,
    hclosing, ← text, List.append_nil]
  simp [hmember]

end WrittenRecord

/-- A structure on one line is read back. -/
theorem scanLines_record (r : WrittenRecord) (number : Int) :
    scanLines none number [r.text] = ([Written.declared number (.record r)], none) := by
  have hopens : OpenStructure.ofLine? number r.text
      = some { name := String.ofList r.name.text, kind := r.kind, startLine := number } :=
    ofLine?_openingText_append r.kind r.name _ number
  have hclosing : '}' ∈ r.text := by simp [WrittenRecord.text]
  -- the line that opens the structure also declares its members and balances its braces
  have habsorb : OpenStructure.absorb
      { name := String.ofList r.name.text, kind := r.kind, startLine := number } number r.text
      = { name := String.ofList r.name.text, kind := r.kind, startLine := number
          declarations := r.members.map fun m => .member (m.declared number) } := by
    simp [OpenStructure.absorb, r.balance_text, r.declarationsOf_text]
  rw [scanLines, scanLine_none_of_ofLine? hopens, scanLine_some, habsorb,
    if_pos ⟨rfl, hclosing⟩]
  simp [OpenStructure.close, Written.declared, scanLines, Declaration.member?,
    Declaration.method?, List.filterMap_map]

/-- The lines of a structure in writing declare it and leave nothing open. -/
theorem scanLines_lines (w : Written) (number : Int) :
    scanLines none number w.lines = ([w.declared number], none) := by
  cases w with
  | block s => exact scanLines_block s number
  | record r => exact scanLines_record r number

/-- Structures below one another are read back, each from its own line on. -/
theorem scanLines_flatMap_lines (ws : List Written) (number : Int) :
    scanLines none number (ws.flatMap Written.lines)
      = (Written.structuresFrom number ws, none) := by
  induction ws generalizing number with
  | nil => rfl
  | cons w ws ih =>
      rw [List.flatMap_cons, scanLines_append, scanLines_lines]
      dsimp only
      rw [ih, Written.structuresFrom]
      rfl

/-- A line as a text is cut into: without line feeds and without blanks at its ends. -/
structure IsLine (line : List Char) : Prop where
  newline_not_mem : '\n' ∉ line
  trim_eq : trim line = line

/-- Lines come back from a text as they were joined. -/
theorem linesOf_intercalate {lines : List (List Char)} (hne : lines ≠ [])
    (h : ∀ line ∈ lines, IsLine line) :
    linesOf (String.ofList (['\n'].intercalate lines)) = lines := by
  rw [linesOf, String.toList_ofList,
    split_intercalate hne fun line hline => (h line hline).newline_not_mem]
  exact (List.map_congr_left fun line hline => (h line hline).trim_eq).trans (List.map_id' _)

theorem isLine_openingText (kind : Kind) (name : WrittenName) :
    IsLine (openingText kind name) := by
  refine ⟨?_, trim_openingText kind name⟩
  rw [openingText, List.mem_append, not_or]
  exact ⟨(unbroken_titleText kind name).newline_not_mem, by decide⟩

theorem isLine_item (item : WrittenItem) : IsLine item.text := by
  cases item with
  | member m => exact ⟨m.not_mem_text (by decide) (by decide), m.trim_text⟩
  | method m =>
      refine ⟨?_, m.trim_signature_append rfl (by decide)⟩
      rw [WrittenItem.text, WrittenMethod.text, List.mem_append, not_or]
      exact ⟨m.unbroken_signature.newline_not_mem, by decide⟩

theorem isLine_record (r : WrittenRecord) : IsLine r.text := by
  have hlast : ([' ', '{'] ++ ((r.members.flatMap fun m => ' ' :: m.text)
      ++ [' ', '}', ';'])).getLast? = some ';' := by
    rw [← List.append_assoc, List.getLast?_append]
    rfl
  refine ⟨r.not_mem_text (by decide) (by decide), ?_⟩
  rw [WrittenRecord.text, openingText, List.append_assoc]
  exact trim_titleText_append r.kind r.name hlast (by decide)

theorem isLine_of_mem_lines {w : Written} {line : List Char} (h : line ∈ w.lines) :
    IsLine line := by
  cases w with
  | block s =>
      rcases List.mem_cons.mp h with rfl | h
      · exact isLine_openingText s.kind s.name
      · rcases List.mem_append.mp h with h | h
        · obtain ⟨item, -, rfl⟩ := List.mem_map.mp h
          exact isLine_item item
        · rw [List.mem_singleton.mp h]
          exact ⟨by decide, by decide⟩
  | record r =>
      rw [List.mem_singleton.mp h]
      exact isLine_record r

theorem Written.lines_ne_nil (w : Written) : w.lines ≠ [] := by
  cases w with
  | block s => exact List.cons_ne_nil _ _
  | record r => exact List.cons_ne_nil _ _

theorem linesOf_text (w : Written) (ws : List Written) :
    linesOf (Written.text (w :: ws)) = (w :: ws).flatMap Written.lines := by
  apply linesOf_intercalate
  · exact List.append_ne_nil_of_left_ne_nil w.lines_ne_nil _
  · intro line hline
    obtain ⟨v, -, hline⟩ := List.mem_flatMap.mp hline
    exact isLine_of_mem_lines hline

/-- Scanning structures in writing reads them back. -/
theorem scan_text (ws : List Written) : scan (Written.text ws) = Written.structuresFrom 1 ws := by
  cases ws with
  | nil => decide
  | cons w ws => rw [scan, linesOf_text, scanLines_flatMap_lines]

end CellAtlas.Source
