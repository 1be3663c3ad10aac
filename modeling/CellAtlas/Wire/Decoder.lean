import CellAtlas.Number.Checked
import CellAtlas.Number.IntegerText
import CellAtlas.Wire.Checked
import CellAtlas.Wire.Naming

/-!
# Decoders

A decoder checks a JSON value and makes a value of some type of it. Decoders of plain values are
lenient: a number may be written in a text, a truth value is a number, and an integer may have a
fraction of zero. Decoders of objects are put together from those of their fields:

    model name fun o => Make <$> required o field decoder <*> optional o field decoder default
-/

namespace CellAtlas.Wire

abbrev Decoder (α : Type) := Json → Checked α

/-! ### Decoders of plain values -/

/-- A text with at least `least` characters. -/
def text (least : Nat := 0) : Decoder String
  | .str s => if s.length < least then .fault (.textTooShort least) (.str s) else .valid s
  | j => .fault .notText j

/-- An integer within bounds. The upper bound is checked first. -/
def withinInt (least greatest : Option Int) (j : Json) (n : Int) : Checked Int :=
  match greatest.filter (· < n), least.filter (n < ·) with
  | some b, _ => .fault (.tooLarge b) j
  | none, some b => .fault (.tooSmall b) j
  | none, none => .valid n

/-- A real number as an integer. Only integers of 64 bits are taken, without the least one. -/
def wholeNumber (r : Numeral) : Except Complaint Int :=
  let x := r.toBinary64
  if !x.isFinite then .error .notFinite
  else match x.toInt? with
    | none => .error .integerHasFraction
    | some n =>
      if isWord n && n != Int64.minValue.toInt then .ok n else .error .integerTooLong

def integerText (s : String) : Except Complaint Int :=
  match IntegerText.ofText s with
  | .value n => .ok n
  | .tooLong => .error .integerTooLong
  | .unreadable => .error .integerUnreadable

def integer (least greatest : Option Int := none) : Decoder Int := fun j =>
  let n : Except Complaint Int := match j with
    | .int n => .ok n
    | .bool b => .ok (if b then 1 else 0)
    | .real r => wholeNumber r
    | .str s => integerText s
    | _ => .error .notInteger
  match n with
  | .ok n => withinInt least greatest j n
  | .error complaint => .fault complaint j

/-- A real number within bounds. The upper bound is checked first, and a NaN is within no bound. -/
def withinReal (least greatest : Int) (j : Json) (x : Binary64) : Checked Binary64 :=
  if ¬ x ≤ .ofInt greatest then .fault (.tooLarge greatest) j
  else if ¬ .ofInt least ≤ x then .fault (.tooSmall least) j
  else .valid x

def real (least greatest : Int) : Decoder Binary64 := fun j =>
  let x : Except Complaint Binary64 := match j with
    | .int n => if (Binary64.ofInt n).isFinite then .ok (.ofInt n) else .error .notReal
    | .bool b => .ok (if b then 1 else 0)
    | .real r => .ok r.toBinary64
    | .str s => match Numeral.ofText? s with
      | some r => .ok r.toBinary64
      | none => .error .realUnreadable
    | _ => .error .notReal
  match x with
  | .ok x => withinReal least greatest j x
  | .error complaint => .fault complaint j

def truthWords : List (String × Bool) :=
  [("0", false), ("off", false), ("f", false), ("false", false), ("n", false), ("no", false),
    ("1", true), ("on", true), ("t", true), ("true", true), ("y", true), ("yes", true)]

/-- An integer as a truth value. Only integers of 64 bits are looked at. -/
def truthOfInt (j : Json) (n : Int) : Checked Bool :=
  if n = 0 then .valid false
  else if n = 1 then .valid true
  else if isWord n then .fault .truthValueUnreadable j
  else .fault .notTruthValue j

/-- A real number as a truth value, if it is a whole number of 64 bits. -/
def truthOfReal (j : Json) (r : Numeral) : Checked Bool :=
  match wholeNumber r with
  | .ok n => truthOfInt j n
  | .error _ => .fault .notTruthValue j

def truth : Decoder Bool := fun j =>
  match j with
  | .bool b => .valid b
  | .int n => truthOfInt j n
  | .real r => truthOfReal j r
  | .str s => match truthWords.lookup (String.ofList (s.toList.map Char.toLower)) with
    | some b => .valid b
    | none => .fault .truthValueUnreadable j
  | _ => .fault .notTruthValue j

/-- One of the values of a type, by its name. -/
def choice {α : Type} (name : α → String) (all : List α) : Decoder α := fun j =>
  match j with
  | .str s => match all.find? (name · == s) with
    | some a => .valid a
    | none => .fault (.notAmong (all.map name)) j
  | _ => .fault (.notAmong (all.map name)) j

/-! ### Decoders of compound values -/

def nullable {α : Type} (d : Decoder α) : Decoder (Option α)
  | .null => .valid none
  | j => (d j).map some

/-- The items of a list, the first of which has index `i`. -/
def itemsFrom {α : Type} (d : Decoder α) (i : Nat) : List Json → Checked (List α)
  | [] => .valid []
  | j :: rest => List.cons <$> (d j).inside (.index i) <*> itemsFrom d (i + 1) rest

def list {α : Type} (d : Decoder α) : Decoder (List α)
  | .arr items => itemsFrom d 0 items
  | j => .fault .notList j

/-- An object of a model, whose fields are then read from it. -/
def model {α : Type} (name : String) (fields : Json → Checked α) : Decoder α
  | .obj fs => fields (.obj fs)
  | j => .fault (.notObject name) j

/-- A field under either form of its name, with the form that was found; the preferred form
wins. -/
def findField (n : Naming) (object : Json) (name : String) : Option (String × Json) :=
  (object.get? (n.key name)).map (n.key name, ·) <|> (object.get? name).map (name, ·)

def required {α : Type} (n : Naming) (object : Json) (name : String) (d : Decoder α) : Checked α :=
  match findField n object name with
  | some (key, j) => (d j).inside (.field key)
  | none => .invalid [⟨[.field (n.key name)], .missing, object⟩]

def optional {α : Type} (n : Naming) (object : Json) (name : String) (d : Decoder α)
    (default : α) : Checked α :=
  match findField n object name with
  | some (key, j) => (d j).inside (.field key)
  | none => .valid default

end CellAtlas.Wire
