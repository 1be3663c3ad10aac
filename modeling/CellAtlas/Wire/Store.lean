import CellAtlas.Store.Basic
import CellAtlas.Wire.Encode

/-!
# JSON forms of the entries of the store

An entry for a file can do without the content, as in a list of files.
-/

namespace CellAtlas

open Wire

/-- The JSON form of a file, with its content or without. -/
def SourceFile.toJson (f : SourceFile) (n : Naming := .camel) (withContent : Bool := true) : Json :=
  object n ([("id", .int f.id), ("name", .str f.name)]
    ++ (if withContent then [("content", .str f.content)] else [])
    ++ [("size", .int f.size), ("uploaded_at", .str f.uploadedAt)])

end CellAtlas
