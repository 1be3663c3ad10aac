import CellAtlas.Json.Basic

/-!
# Issues

What can be wrong with a value that a client sends. An issue says where the value stands, what the
complaint is, and shows the value; `Complaint.code` and `Complaint.message` have the wording.
-/

namespace CellAtlas.Wire

inductive Place where
  | field (name : String)
  | index (i : Nat)
deriving DecidableEq, Repr

def Place.toJson : Place → Json
  | field name => .str name
  | index i => .int i

inductive Complaint where
  | missing
  | unexpected
  | notJson
  | notObject (model : String)
  | notList
  | notText
  | textTooShort (least : Nat)
  | notInteger
  | integerUnreadable
  | integerTooLong
  | integerHasFraction
  | notFinite
  | notReal
  | realUnreadable
  | notTruthValue
  | truthValueUnreadable
  | notAmong (choices : List String)
  | tooSmall (least : Int)
  | tooLarge (greatest : Int)
deriving DecidableEq, Repr

/-- Where a value comes from, which decides how a value is named that is no object. -/
inductive Origin where
  | data
  | request
deriving DecidableEq, Repr

/-- Quoted choices, the last one after the word "or". -/
def orList (choices : List String) : String :=
  let quotedChoices := choices.map fun c => "'" ++ c ++ "'"
  match quotedChoices.getLast? with
  | none => ""
  | some last =>
    let before := quotedChoices.dropLast
    if before.isEmpty then last else ", ".intercalate before ++ " or " ++ last

namespace Complaint

/-- The short name of a complaint. -/
def code (o : Origin) : Complaint → String
  | missing => "missing"
  | unexpected => "extra_forbidden"
  | notJson => "json_invalid"
  | notObject _ => match o with
    | .data => "model_type"
    | .request => "model_attributes_type"
  | notList => "list_type"
  | notText => "string_type"
  | textTooShort _ => "string_too_short"
  | notInteger => "int_type"
  | integerUnreadable => "int_parsing"
  | integerTooLong => "int_parsing_size"
  | integerHasFraction => "int_from_float"
  | notFinite => "finite_number"
  | notReal => "float_type"
  | realUnreadable => "float_parsing"
  | notTruthValue => "bool_type"
  | truthValueUnreadable => "bool_parsing"
  | notAmong _ => "literal_error"
  | tooSmall _ => "greater_than_equal"
  | tooLarge _ => "less_than_equal"

/-- The wording of a complaint. -/
def message (o : Origin) : Complaint → String
  | missing => "Field required"
  | unexpected => "Extra inputs are not permitted"
  | notJson => "JSON decode error"
  | notObject model => match o with
    | .data => "Input should be a valid dictionary or instance of " ++ model
    | .request => "Input should be a valid dictionary or object to extract fields from"
  | notList => "Input should be a valid list"
  | notText => "Input should be a valid string"
  | textTooShort n =>
    "String should have at least " ++ toString n ++ (if n = 1 then " character" else " characters")
  | notInteger => "Input should be a valid integer"
  | integerUnreadable => "Input should be a valid integer, unable to parse string as an integer"
  | integerTooLong => "Unable to parse input string as an integer, exceeded maximum size"
  | integerHasFraction =>
    "Input should be a valid integer, got a number with a fractional part"
  | notFinite => "Input should be a finite number"
  | notReal => "Input should be a valid number"
  | realUnreadable => "Input should be a valid number, unable to parse string as a number"
  | notTruthValue => "Input should be a valid boolean"
  | truthValueUnreadable => "Input should be a valid boolean, unable to interpret input"
  | notAmong choices => "Input should be " ++ orList choices
  | tooSmall n => "Input should be greater than or equal to " ++ toString n
  | tooLarge n => "Input should be less than or equal to " ++ toString n

end Complaint

/-- Something wrong with a value. -/
structure Issue where
  path : List Place
  complaint : Complaint
  /-- The value at the path, or the object that a field is missing from. -/
  input : Json

def Issue.toJson (i : Issue) (o : Origin) : Json :=
  .obj [("type", .str (i.complaint.code o)), ("loc", .arr (i.path.map (·.toJson))),
    ("msg", .str (i.complaint.message o))]

end CellAtlas.Wire
