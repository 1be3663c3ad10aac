import CellAtlas.Source.Declaration

/-!
# Scanning source text

A line-oriented reading of C and C++ source that recovers the structures declared in it. It is no
grammar: templates, macros, and braces inside strings or comments are not understood. Text that
makes no sense yields fewer structures and never an error.

Outside of a structure, a line that starts with a keyword and a name opens one. From that line on
every line goes to the open structure, its statements at positive brace depth are read as
declarations, and the structure closes with the first line that has a closing brace and brings the
depth back to zero. A structure that never closes is dropped.

Between two lines the scanner remembers the open structure and nothing else (`scanLines_append`).
-/

namespace CellAtlas.Source

open Text

/-- A structure whose closing line has not been seen yet. -/
structure OpenStructure where
  name : String
  kind : Kind
  startLine : Int
  /-- Opening less closing braces since the first line. -/
  depth : Int := 0
  declarations : List Declaration := []
deriving DecidableEq, Repr

namespace OpenStructure

/-- The structure that a line opens: a keyword, blanks and a name. -/
def ofLine? (number : Int) (line : List Char) : Option OpenStructure :=
  Kind.all.findSome? fun kind =>
    let keyword := kind.keyword.toList
    if keyword.isPrefixOf line then
      let after := line.drop keyword.length
      match skipBlanks after with
      | [] => none
      | c :: rest =>
        if isNameStart c && after.head?.any isBlank then
          some { name := String.ofList (c :: rest.takeWhile isNameChar), kind, startLine := number }
        else none
    else none

/-- What the statements of a line declare. Only statements at positive depth count. -/
def declarationsOf (number : Int) (line : List Char) (depth : Int) : List Declaration :=
  (statements line depth).filterMap fun s =>
    if 0 < s.depth then declaration? s.text line number else none

/-- Take in one line. -/
def absorb (o : OpenStructure) (number : Int) (line : List Char) : OpenStructure :=
  { o with
    depth := o.depth + balance line
    declarations := o.declarations ++ declarationsOf number line o.depth }

def close (o : OpenStructure) (number : Int) : Structure where
  name := o.name
  kind := o.kind
  startLine := o.startLine
  endLine := number
  members := o.declarations.filterMap (·.member?)
  methods := o.declarations.filterMap (·.method?)

end OpenStructure

/-- What one line does: the structure that it closes, and the structure open after it. -/
def scanLine (current : Option OpenStructure) (number : Int) (line : List Char) :
    Option Structure × Option OpenStructure :=
  match current <|> OpenStructure.ofLine? number line with
  | none => (none, none)
  | some o =>
    let o := o.absorb number line
    if o.depth = 0 ∧ '}' ∈ line then (some (o.close number), none) else (none, some o)

/-- Scan trimmed lines, the first of which has the given number. Answers the closed structures in
the order of their closing lines, and the structure that is open at the end. -/
def scanLines (current : Option OpenStructure) (number : Int) :
    List (List Char) → List Structure × Option OpenStructure
  | [] => ([], current)
  | line :: lines =>
    let (closed, next) := scanLine current number line
    let (more, last) := scanLines next (number + 1) lines
    (closed.toList ++ more, last)

/-- The trimmed lines of a text. Only a line feed ends a line. -/
def linesOf (text : String) : List (List Char) := (split '\n' text.toList).map trim

/-- The structures declared in a text, in the order of their closing lines. -/
def scan (text : String) : List Structure := (scanLines none 1 (linesOf text)).1

/-- Scanning on after some lines needs only the structure open at their end. -/
theorem scanLines_append (current : Option OpenStructure) (number : Int)
    (before after : List (List Char)) :
    scanLines current number (before ++ after) =
      let (closed, last) := scanLines current number before
      let (more, final) := scanLines last (number + before.length) after
      (closed ++ more, final) := by
  induction before generalizing current number with
  | nil => simp [scanLines]
  | cons line lines ih =>
    simp only [List.cons_append, scanLines, ih, List.length_cons, List.append_assoc]
    simp [Int.add_assoc, Int.add_comm 1]

end CellAtlas.Source
