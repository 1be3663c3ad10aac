import CellAtlas.Analysis.Context
import CellAtlas.Analysis.Run
import CellAtlas.Service.Message
import CellAtlas.Store.Basic

/-!
# The service

What a service works with, and the refusals that several endpoints share. Every handler answers a
response and the store as it is afterwards; a refusal leaves the store as it was.

The texts of a body are made of characters, so that a source text always has a size. With half of a
surrogate pair in it, it would have none: looking at the size would fail, with status 500 and before
anything is written. Bodies that spell such a half are not modelled; `Json.readUnicodeEscape` reads
it as the replacement character.
-/

namespace CellAtlas

open Wire

structure Service where
  config : AnalysisConfig
  registry : Registry Analysis
  /-- The number of stages that the service reports. -/
  stagesRegistered : Nat
  /-- The greatest number of bytes of a source text. -/
  maxSourceBytes : Int

abbrev Reply := Response × Store

/-- Go on with a checked value, or answer what is wrong with it and keep the store. -/
def Store.ifValid {α : Type} (store : Store) (checked : Checked α) (next : α → Reply) : Reply :=
  match checked with
  | .valid a => next a
  | .invalid issues => (.malformed issues, store)

/-- Go on with the value of a body, or answer why it has none and keep the store. -/
def Store.ifRead (store : Store) (body : ByteArray) (next : Option Json → Reply) : Reply :=
  match bodyValue body with
  | .ok j => next j
  | .error e => (e.response, store)

/-- Go on with what was found under an id, or answer that it was not found and keep the store. -/
def Store.ifFound {α : Type} (store : Store) (found : Except StoreError α) (otherwise : String)
    (next : α → Reply) : Reply :=
  match found with
  | .ok a => next a
  | .error _ => (.refusal 404 otherwise, store)

/-- Go on with a source text of allowed length, or refuse it and keep the store. -/
def Service.ifWithinLimit (service : Service) (store : Store) (source : String)
    (next : Unit → Reply) : Reply :=
  let size := source.utf8ByteSize
  if service.maxSourceBytes < size then
    (.refusal 413 ("Source is " ++ toString size ++ " bytes; limit is "
      ++ toString service.maxSourceBytes), store)
  else next ()

end CellAtlas
