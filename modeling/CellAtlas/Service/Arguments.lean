import CellAtlas.Text.Blank
import CellAtlas.Text.Lowercase

/-!
# Arguments

Values given by name among the arguments of a command, as `--name value` or `--name=value`. Every
other argument is unknown, and so is what follows `--`. A `Style` says how names are written. The
values of a list may be spread over several arguments and separated by commas inside of one;
`listText` puts them together into a JSON text:

    ["a, b", "[5]"] ──listText──▶ ["a","b","5"]
-/

namespace CellAtlas.Arguments

open Text

inductive ListError where
  | mismatchedQuotes
  | missingEnd (delimiter : Char)
deriving DecidableEq, Repr

def ListError.message : ListError → String
  | mismatchedQuotes => "Mismatched quotes"
  | missingEnd delimiter => "Missing end delimiter \"" ++ delimiter.toString ++ "\""

inductive Error where
  | missingValue (flag : String)
  | unknown (arguments : List String)
deriving DecidableEq, Repr

def Error.message : Error → String
  | missingValue flag => "argument " ++ flag ++ ": expected one argument"
  | unknown arguments => "unrecognized arguments: " ++ " ".intercalate arguments

structure Style where
  /-- What stands before every name, with a point between them. -/
  namePrefix : String := ""
  /-- Whether hyphens stand for the underscores of a name. -/
  hyphens : Bool := false
  /-- Whether the letters of a name have to be written exactly. -/
  exact : Bool := false
  /-- The value that stands for null. -/
  nullText : String := "null"
deriving DecidableEq, Repr

/-! ### Names and values -/

def Style.flag (style : Style) (name : String) : String :=
  let full := if style.namePrefix.isEmpty then name else style.namePrefix ++ "." ++ name
  "--" ++ if style.hyphens then full.map fun c => if c = '_' then '-' else c else full

/-- An argument in the form in which it is compared. Unless names are exact, one that starts with a
minus sign has small letters before its first blank or equals sign, and ends where its line does. -/
def Style.fold (style : Style) (argument : String) : String :=
  let cs := argument.toList
  let head := cs.takeWhile fun c => c != '=' && !isBlank c
  if style.exact || cs.head? != some '-' || head.length < 2 then argument
  else
    lowercase (String.ofList head)
      ++ String.ofList ((cs.drop head.length).takeWhile (· != '\n'))

/-- The name that an argument starts with, and the value after an equals sign. -/
def Style.nameOf? (style : Style) (names : List String) (argument : String) :
    Option (String × Option String) :=
  let cs := argument.toList
  let flag := String.ofList (cs.takeWhile (· != '='))
  let value := match cs.dropWhile (· != '=') with
    | _ :: value => some (String.ofList value)
    | [] => none
  (names.find? fun name => style.flag name == flag).map (·, value)

/-- Whether the characters are the digits of a number, perhaps with a point before some of them. -/
def isPlainNumber (cs : List Char) : Bool :=
  match cs.dropWhile Char.isDigit with
  | [] => !cs.isEmpty
  | c :: rest => c == '.' && !rest.isEmpty && rest.all Char.isDigit

/-- Whether an argument can be a value: it does not start with a minus sign, or it is a negative
number, or has a space in it. -/
def Style.isValue (style : Style) (names : List String) (argument : String) : Bool :=
  match argument.toList with
  | '-' :: rest =>
    rest.isEmpty
      || (style.nameOf? names argument).isNone && (isPlainNumber rest || rest.contains ' ')
  | _ => true

/-- What arguments say: the values with their names, and the unknown arguments. -/
structure Reading where
  values : List (String × String) := []
  unknown : List String := []
deriving DecidableEq, Repr

def Reading.addValue (r : Reading) (name value : String) : Reading :=
  { r with values := (name, value) :: r.values }

/-- Read arguments that are in the form in which they are compared. -/
def readFolded (style : Style) (names : List String) : List String → Except Error Reading
  | [] => .ok {}
  | "--" :: rest => .ok { unknown := "--" :: rest }
  | argument :: rest =>
    match style.nameOf? names argument, rest with
    | none, rest =>
      (readFolded style names rest).map fun r => { r with unknown := argument :: r.unknown }
    | some (name, some value), rest => (readFolded style names rest).map (·.addValue name value)
    | some (name, none), [] => .error (.missingValue (style.flag name))
    | some (name, none), value :: rest =>
      if style.isValue names value then (readFolded style names rest).map (·.addValue name value)
      else .error (.missingValue (style.flag name))

def read (style : Style) (names arguments : List String) : Except Error Reading :=
  readFolded style names (arguments.map style.fold)

/-! ### Lists -/

/-- What stands before the next comma that is not in quotes, and the text from the comma on;
nothing if quotes are left open. `escaped` says whether a backslash stands before. -/
def takeItem (inQuotes escaped : Bool) : List Char → Option (List Char × List Char)
  | [] => if inQuotes then none else some ([], [])
  | c :: cs =>
    let inQuotes := if c == '"' && !escaped then !inQuotes else inQuotes
    if c == ',' && !inQuotes then some ([], c :: cs)
    else (takeItem inQuotes (c == '\\') cs).map fun r => (c :: r.1, r.2)

/-- The rest of a container up to the delimiter that closes it, and what follows; nothing if it is
not closed. `depth` counts the delimiters that are open. -/
def takeContainer (close : Char) (depth : Int) (inQuotes escaped : Bool) :
    List Char → Option (List Char × List Char)
  | [] => none
  | c :: cs =>
    let quote := c == '"' && !escaped
    let depth :=
      if inQuotes || quote then depth
      else if c == '\x7b' || c == '[' then depth + 1
      else if c == '\x7d' || c == ']' then depth - 1
      else depth
    if c == close && !inQuotes && depth == 0 then some ([c], cs)
    else
      (takeContainer close depth (inQuotes != quote) (c == '\\') cs).map fun r => (c :: r.1, r.2)

/-- The JSON text of an item: words and what is quoted stay as they are. -/
def itemText (nullText : String) (item : List Char) : String :=
  let s := String.ofList item
  if ["true", "false", "null"].contains s || item.head? == some '"' then s
  else if s = nullText then "null"
  else "\"" ++ s ++ "\""

/-- The items read so far, the last one first, and whether the last thing read was one. -/
abbrev Items := List String × Bool

/-- A comma, or the end: an empty item stands before it if no other one does. -/
def endItem (items : Items) : Items := (if items.2 then items.1 else "\"\"" :: items.1, false)

/-- Read the items of a text without blanks around it. -/
def readItems (nullText : String) : Nat → Items → List Char → Except ListError Items
  | 0, items, _ => .ok items
  | _ + 1, items, [] => .ok items
  | fuel + 1, items, c :: cs =>
    let go (item : String) (rest : List Char) :=
      readItems nullText fuel (item :: items.1, true) (trim rest)
    if c == ',' then readItems nullText fuel (endItem items) (trim cs)
    else if c == '\x7b' || c == '[' then
      let close := if c == '[' then ']' else '\x7d'
      match takeContainer close 1 false false cs with
      | some (inner, rest) => go (String.ofList (c :: inner)) rest
      | none => .error (.missingEnd close)
    else match takeItem false false (c :: cs) with
      | some (item, rest) => go (itemText nullText (trim item)) rest
      | none => .error .mismatchedQuotes

/-- A text without brackets around it. -/
def withoutBrackets (cs : List Char) : List Char :=
  if cs.head? == some '[' && cs.getLast? == some ']' then trim (cs.drop 1).dropLast else cs

/-- Read the items of one argument after those of others. -/
def readArgument (nullText : String) (items : Items) (argument : String) :
    Except ListError Items := do
  let items ←
    readItems nullText (argument.length + 1) items (withoutBrackets (trim argument.toList))
  return if items.2 then items else ((endItem items).1, items.2)

/-- The JSON text of the list that the arguments of one name make up. -/
def listText (nullText : String) (arguments : List String) : Except ListError String := do
  let items ← arguments.foldlM (readArgument nullText) ([], false)
  return "[" ++ ",".intercalate items.1.reverse ++ "]"

end CellAtlas.Arguments
