import CellAtlas.Classification.Classified
import CellAtlas.Grid.Stats
import CellAtlas.Json.Basic
import CellAtlas.Playback.Script
import CellAtlas.Wire.Naming

/-!
# JSON forms of the results

How structures, cells, statistics and steps are written as JSON objects, in either form of the field
names.
-/

namespace CellAtlas

open Wire

def Wire.object (n : Naming) (fields : List (String × Json)) : Json :=
  .obj (fields.map fun f => (n.key f.1, f.2))

def Wire.extend (base more : Json) : Json := .obj (base.fields ++ more.fields)

def Json.ofBinary64 (x : Binary64) : Json := .real (.ofBinary64 x)

namespace Source

def Member.toJson (m : Member) (n : Naming := .camel) : Json :=
  object n [("name", .str m.name), ("declared_type", .str m.declaredType),
    ("is_pointer", .bool m.isPointer), ("line", .int m.line)]

def Method.toJson (m : Method) (n : Naming := .camel) : Json :=
  object n [("name", .str m.name), ("return_type", .str m.returnType),
    ("parameters", .ofStrings m.parameters), ("line", .int m.line)]

def Structure.toJson (s : Structure) (n : Naming := .camel) : Json :=
  object n [("name", .str s.name), ("kind", .str s.kind.keyword), ("start_line", .int s.startLine),
    ("end_line", .int s.endLine), ("members", .arr (s.members.map (·.toJson n))),
    ("methods", .arr (s.methods.map (·.toJson n)))]

end Source

def Classified.toJson (c : Classified) (n : Naming := .camel) : Json :=
  extend (c.toStructure.toJson n) (object n [("category", .str c.category.name),
    ("instance_count", .int c.instanceCount), ("nesting_depth", .int c.nestingDepth)])

def Cell.toJson (c : Cell) (n : Naming := .camel) : Json :=
  object n [("x", .int c.x), ("y", .int c.y), ("state", .str c.state.name),
    ("label", .ofString? c.label), ("note", .ofString? c.note)]

def Step.toJson (s : Step) (n : Naming := .camel) : Json :=
  object n [("source_line", .int s.sourceLine), ("description", .str s.description),
    ("kind", .str s.kind.name)]

def GridStats.toJson (s : GridStats) : Json :=
  .obj [("total", .int s.total), ("active", .int s.active), ("pointer", .int s.pointer),
    ("dropped", .int s.dropped), ("empty", .int s.empty), ("efficiency", .int s.efficiency),
    ("utilization", .int s.utilization)]

def GridConfig.toJson (c : GridConfig) (n : Naming := .camel) : Json :=
  object n [("width", .int c.width), ("height", .int c.height),
    ("active_ratio", .ofBinary64 c.activeRatio), ("dropped_ratio", .ofBinary64 c.droppedRatio),
    ("pointer_ratio", .ofBinary64 c.pointerRatio)]

def Json.ofCells (cells : List Cell) (n : Naming := .camel) : Json :=
  .arr (cells.map (·.toJson n))

end CellAtlas
