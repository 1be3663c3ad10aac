import CellAtlas.Json.Reader
import CellAtlas.Service.Target
import CellAtlas.Wire.Decoder

/-!
# Messages

A request as it arrives and the response that goes back. The decoders below read the parts of a
request, the id in its path and the JSON value in its body; what is wrong with either is answered by
`Response.malformed`, unless the body cannot be read at all.
-/

namespace CellAtlas

open Wire

/-! ### Messages -/

/-- A request as it arrives, with its path in plain form. The body is empty if there is none. -/
structure Request where
  method : String
  path : List Char
  body : ByteArray := .empty

/-- The request of a client that asks for a target. -/
def Request.ofTarget (method target : String) (body : ByteArray := .empty) :
    Except TargetError Request :=
  (Target.pathOf target.toList).map fun path => { method, path := Path.plain path, body }

inductive Payload where
  | nothing
  | json (value : Json)
  | issues (list : List Issue)
  | events (list : List (String × Json))
  | text (s : String)

structure Response where
  status : Nat
  payload : Payload

namespace Response

/-- The response to a method. To `HEAD` it carries nothing. -/
def toMethod (r : Response) (method : String) : Response :=
  if method = "HEAD" then { r with payload := .nothing } else r

def ok (value : Json) : Response := ⟨200, .json value⟩

def refusal (status : Nat) (detail : String) : Response :=
  ⟨status, .json (.obj [("detail", .str detail)])⟩

def failure : Response := ⟨500, .text "Internal Server Error"⟩

/-- A successful response, or a failure if there is nothing to respond. -/
def ofOption : Option Json → Response
  | some value => .ok value
  | none => .failure

def maxShownDepth : Nat := 951

/-- Whether a response can show a value: it can be written as standard JSON and is not nested too
deep. -/
def canShow (j : Json) : Bool := !j.hasOutOfRange && j.depth ≤ maxShownDepth

/-- The response to a malformed request. It shows the offending values, which may fail. -/
def malformed (issues : List Issue) : Response :=
  if issues.all fun i => canShow i.input then ⟨422, .issues issues⟩ else failure

end Response

/-! ### Parts of a request -/

namespace Wire

def pathId (name id : String) : Checked Int :=
  (integer none none (.str id)).inside (.field name) |>.inside (.field "path")

inductive BodyError where
  /-- The text is no JSON from an offset on. -/
  | notJson (offset : Nat)
  /-- The bytes are no text, or a limit of the reader is exceeded. -/
  | unreadable
deriving DecidableEq, Repr

def maxBodyDepth : Nat := 956

def bodyValue (body : ByteArray) : Except BodyError (Option Json) :=
  if body.isEmpty then .ok none
  else match Text.textOfBytes? body with
    | none => .error .unreadable
    | some text =>
      match Json.parse text maxBodyDepth with
      | .ok j => .ok (some j)
      | .error (.malformed offset) => .error (.notJson offset)
      | .error _ => .error .unreadable

def BodyError.response : BodyError → Response
  | notJson offset => .malformed [⟨[.field "body", .index offset], .notJson, .obj []⟩]
  | unreadable => .refusal 400 "There was an error parsing the body"

def requiredBody {α : Type} (d : Decoder α) : Option Json → Checked α
  | none => .invalid [⟨[.field "body"], .missing, .null⟩]
  | some j => (d j).inside (.field "body")

def optionalBody {α : Type} (d : Decoder α) : Option Json → Checked (Option α)
  | none => .valid none
  | some j => (nullable d j).inside (.field "body")

end Wire

end CellAtlas
