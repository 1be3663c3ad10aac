import CellAtlas.Source.Structure
import CellAtlas.Source.Statement

/-!
# Declarations

How one statement of a structure's body is read. A declaration starts with its type: words separated
by blanks, of which all but the last are qualifiers, and then perhaps stars. The declared name
follows, and what comes next decides what is declared:

* `type name ;` and `type name =` declare a member,
* `type name ( parameters )` declares a method.

Words are as long as possible, and a name is never cut off a longer word, so a statement is read in
one way only. The line around the statement has a say too: a line with an opening parenthesis
declares no member, and a line that ends in a semicolon no method, which keeps a method's prototype
and a call apart from its definition.
-/

namespace CellAtlas.Source

open Text

/-! ### Words -/

def isNameStart (c : Char) : Bool :=
  ('A' ≤ c && c ≤ 'Z') || ('a' ≤ c && c ≤ 'z') || c == '_'

def isNameChar (c : Char) : Bool := isNameStart c || ('0' ≤ c && c ≤ '9')

/-- A character of a type word, which may be qualified by scopes as in `std::string`. -/
def isTypeChar (c : Char) : Bool := isNameChar c || c == ':'

/-- Words that may precede the type word. -/
def qualifiers : List (List Char) :=
  ["const", "volatile", "static", "mutable", "unsigned", "signed", "struct", "class", "union",
    "enum", "virtual", "inline", "explicit"].map String.toList

/-- Words that start a statement of another sort, such as `return x;`. -/
def statementWords : List (List Char) :=
  ["return", "delete", "else", "goto", "case", "throw", "new", "using", "friend"].map String.toList

/-- Words that need a tag after them before they name a type. -/
def tagWords : List (List Char) := ["struct", "class", "union", "enum"].map String.toList

/-- Whether `words` can be the words of a type: only qualifiers before the last word, which is no
tag keyword, and no statement word in front. -/
def isTypeWords (words : List (List Char)) : Bool :=
  words.dropLast.all (qualifiers.contains ·)
    && (words.head?.any fun w => !statementWords.contains w)
    && (words.getLast?.any fun w => !tagWords.contains w)

/-- The type words in front of `cs`, and what follows them and the blanks after them. -/
def readWords (cs : List Char) : List (List Char) × List Char :=
  match _h : skipBlanks cs with
  | [] => ([], [])
  | c :: rest =>
    if isNameStart c then
      let (words, after) := readWords (rest.dropWhile isTypeChar)
      ((c :: rest.takeWhile isTypeChar) :: words, after)
    else ([], c :: rest)
termination_by cs.length
decreasing_by
  have h₁ : (skipBlanks cs).length ≤ cs.length := (List.dropWhile_suffix _).length_le
  have h₂ : (rest.dropWhile isTypeChar).length ≤ rest.length :=
    (List.dropWhile_suffix _).length_le
  rw [_h, List.length_cons] at h₁
  omega

/-! ### The head of a declaration -/

structure Head where
  words : List (List Char)
  stars : Nat
  name : List Char
  rest : List Char
deriving DecidableEq, Repr

namespace Head

/-- The type in its written form: single spaces between the words and the stars at the end. -/
def type (h : Head) : String :=
  String.ofList ([' '].intercalate h.words ++ List.replicate h.stars '*')

/-- Read the head of a declaration. With stars the name follows them; without, the name is the last
word, which then has no scope in it. -/
def read? (cs : List Char) : Option Head :=
  let (words, rest) := readWords cs
  let stars := rest.takeWhile (· == '*')
  if stars.isEmpty then
    match words.getLast? with
    | none => none
    | some name =>
      if name.all isNameChar && isTypeWords words.dropLast then
        some ⟨words.dropLast, 0, name, rest⟩
      else none
  else
    match skipBlanks (rest.dropWhile (· == '*')) with
    | [] => none
    | c :: after =>
      if isNameStart c && isTypeWords words then
        some ⟨words, stars.length, c :: after.takeWhile isNameChar,
          skipBlanks (after.dropWhile isNameChar)⟩
      else none

end Head

/-! ### Members and methods -/

inductive Declaration where
  | member (m : Member)
  | method (m : Method)
deriving DecidableEq, Repr

namespace Declaration

/-- The declared member, if it is one. -/
def member? : Declaration → Option Member
  | member m => some m
  | method _ => none

/-- The declared method, if it is one. -/
def method? : Declaration → Option Method
  | member _ => none
  | method m => some m

end Declaration

/-- The member that a statement of `line` declares. -/
def member? (statement line : List Char) (number : Int) : Option Member :=
  if line.contains '(' then none
  else match Head.read? statement with
    | none => none
    | some h =>
      match h.rest with
      | [] => none
      | c :: _ =>
        if c == ';' || c == '=' then
          some ⟨String.ofList h.name, h.type, 0 < h.stars, number⟩
        else none

/-- The parameters between the parentheses of a method: cut at the commas, trimmed, blank ones
dropped. -/
def parametersOf (cs : List Char) : List String :=
  (((split ',' cs).map trim).filter (!·.isEmpty)).map String.ofList

/-- The method that a statement of `line` declares. -/
def method? (statement line : List Char) (number : Int) : Option Method :=
  if line.getLast? = some ';' then none
  else match Head.read? statement with
    | none => none
    | some h =>
      match h.rest with
      | '(' :: after =>
        if after.contains ')' then
          some ⟨String.ofList h.name, h.type, parametersOf (after.takeWhile (· != ')')), number⟩
        else none
      | _ => none

/-- What a statement of `line` declares: a member, else a method. -/
def declaration? (statement line : List Char) (number : Int) : Option Declaration :=
  match member? statement line number with
  | some m => some (.member m)
  | none => (method? statement line number).map .method

end CellAtlas.Source
