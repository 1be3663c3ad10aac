import CellAtlas.Proofs.Source.Word
import CellAtlas.Source.Scan

/-!
# Structures in writing

The plain way to write a structure down, on lines of its own or, where it has members only, on a
single line:

    struct Node {                         struct Node { int data; Node* next; };
    int data;
    Node* next;
    bool has(int value, int depth) { }
    };

What can be written carries the proofs that it is well formed, so that every list of these texts is
one that a scan should read back. `Written.text` writes structures below one another and
`Written.structuresFrom` says what they declare, with the numbers of their lines.
-/

namespace CellAtlas.Source

open Text

structure WrittenName where
  text : List Char
  valid : isName text := by decide

/-- A type as it is written: qualifiers, a type word and stars. -/
structure WrittenType where
  qualifiers : List (List Char) := []
  word : List Char
  stars : Nat := 0
  qualifiers_mem : ∀ q ∈ qualifiers, q ∈ Source.qualifiers := by decide
  word_valid : isTypeWord word := by decide
  head_not_mem : ∀ w ∈ (qualifiers ++ [word]).head?, w ∉ statementWords := by decide
  word_not_mem : word ∉ tagWords := by decide

def parameterEnds : List Char := [',', '(', ')', '{', '}', ';', '\n']

structure WrittenParameter where
  text : List Char
  ne_nil : text ≠ [] := by decide
  trimmed : trim text = text := by decide
  valid : text.all (· ∉ parameterEnds) := by decide

structure WrittenMember where
  type : WrittenType
  name : WrittenName

structure WrittenMethod where
  returnType : WrittenType
  name : WrittenName
  parameters : List WrittenParameter := []

inductive WrittenItem where
  | member (m : WrittenMember)
  | method (m : WrittenMethod)

/-- A structure with an item on each line. -/
structure WrittenStructure where
  kind : Kind
  name : WrittenName
  items : List WrittenItem

/-- A structure with members only, which is written on one line. -/
structure WrittenRecord where
  kind : Kind
  name : WrittenName
  members : List WrittenMember

inductive Written where
  | block (s : WrittenStructure)
  | record (r : WrittenRecord)

/-! ### How it is written -/

def WrittenType.words (t : WrittenType) : List (List Char) := t.qualifiers ++ [t.word]

def WrittenType.text (t : WrittenType) : List Char :=
  [' '].intercalate t.words ++ List.replicate t.stars '*'

/-- A type and a name, the common front of members and methods. -/
def headText (t : WrittenType) (n : WrittenName) : List Char := t.text ++ ' ' :: n.text

def WrittenMember.text (m : WrittenMember) : List Char := headText m.type m.name ++ [';']

def WrittenMethod.signature (m : WrittenMethod) : List Char :=
  headText m.returnType m.name
    ++ '(' :: ([',', ' '].intercalate (m.parameters.map (·.text)) ++ [')'])

def WrittenMethod.text (m : WrittenMethod) : List Char := m.signature ++ [' ', '{', ' ', '}']

def WrittenItem.text : WrittenItem → List Char
  | member m => m.text
  | method m => m.text

def titleText (kind : Kind) (name : WrittenName) : List Char :=
  kind.keyword.toList ++ ' ' :: name.text

def openingText (kind : Kind) (name : WrittenName) : List Char := titleText kind name ++ [' ', '{']

def WrittenStructure.lines (s : WrittenStructure) : List (List Char) :=
  openingText s.kind s.name :: (s.items.map (·.text) ++ [['}', ';']])

def WrittenRecord.text (r : WrittenRecord) : List Char :=
  openingText r.kind r.name ++ ((r.members.flatMap fun m => ' ' :: m.text) ++ [' ', '}', ';'])

namespace Written

def lines : Written → List (List Char)
  | block s => s.lines
  | record r => [r.text]

def text (ws : List Written) : String := String.ofList (['\n'].intercalate (ws.flatMap lines))

end Written

example : Written.text
    [.block
      { kind := .struct
        name := { text := "Node".toList }
        items :=
          [.member
            { type := { qualifiers := ["const".toList], word := "int".toList }
              name := { text := "data".toList } },
           .method
            { returnType := { word := "Node".toList, stars := 1 }
              name := { text := "at".toList }
              parameters := [{ text := "int row".toList }, { text := "int column".toList }] }] },
     .record
      { kind := .union
        name := { text := "Word".toList }
        members := [{ type := { word := "int".toList }, name := { text := "whole".toList } }] }]
    = "struct Node \x7b\nconst int data;\nNode* at(int row, int column) \x7b \x7d\n\x7d;\n" ++
      "union Word \x7b int whole; \x7d;" := by
  cbv

/-! ### What it declares -/

def WrittenMember.declared (m : WrittenMember) (number : Int) : Member where
  name := String.ofList m.name.text
  declaredType := String.ofList m.type.text
  isPointer := 0 < m.type.stars
  line := number

def WrittenMethod.declared (m : WrittenMethod) (number : Int) : Method where
  name := String.ofList m.name.text
  returnType := String.ofList m.returnType.text
  parameters := m.parameters.map fun p => String.ofList p.text
  line := number

def WrittenItem.declared (number : Int) : WrittenItem → Declaration
  | member m => .member (m.declared number)
  | method m => .method (m.declared number)

/-- What items declare, the first of which is on the line with the given number. -/
def declaredFrom (number : Int) : List WrittenItem → List Declaration
  | [] => []
  | item :: items => item.declared number :: declaredFrom (number + 1) items

namespace Written

/-- The structure that is written from the line with the given number on. -/
def declared (number : Int) : Written → Structure
  | block s =>
    { name := String.ofList s.name.text
      kind := s.kind
      startLine := number
      endLine := number + s.items.length + 1
      members := (declaredFrom (number + 1) s.items).filterMap (·.member?)
      methods := (declaredFrom (number + 1) s.items).filterMap (·.method?) }
  | record r =>
    { name := String.ofList r.name.text
      kind := r.kind
      startLine := number
      endLine := number
      members := r.members.map (·.declared number) }

/-- What structures below one another declare, from the line with the given number on. -/
def structuresFrom (number : Int) : List Written → List Structure
  | [] => []
  | w :: ws => w.declared number :: structuresFrom (number + w.lines.length) ws

end Written

end CellAtlas.Source
