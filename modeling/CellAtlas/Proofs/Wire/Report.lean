import CellAtlas.Proofs.Wire.Decoder
import CellAtlas.Wire.Report

/-!
# What is written is read again

Each of the results has a JSON form and a decoder, and the decoder gets out of the form what went
into it. `Reads` says this of a decoder and a way of writing; it is carried from the items of a list
to the list, and from the fields of an object to the object, where `findField_camel` finds a field
under its name. The main statement is `report_toJson`: the findings of an analysis read as a report
whatever they are, also those of stages that have failed.
-/

namespace CellAtlas

open Source

namespace Wire

variable {α : Type}

/-- The decoder reads back all that is written. -/
def Reads (d : Decoder α) (write : α → Json) : Prop := ∀ a, d (write a) = .valid a

/-! ### Plain values and lists -/

@[simp] theorem text_str (s : String) : text 0 (.str s) = .valid s := rfl

@[simp] theorem integer_int (n : Int) : integer none none (.int n) = .valid n := rfl

@[simp] theorem truth_bool (b : Bool) : truth (.bool b) = .valid b := rfl

/-- A text that may be missing is read back, missing or not. -/
@[simp] theorem nullable_text_ofString? (s : Option String) :
    nullable text (.ofString? s) = .valid s := by
  cases s with
  | none => rfl
  | some s => rfl

/-- A name is read back as what it names, if nothing before it has that name. -/
theorem choice_str {name : α → String} {all : List α} {a : α}
    (h : all.find? (name · == name a) = some a) : choice name all (.str (name a)) = .valid a := by
  simp only [choice, h]

@[simp] theorem choice_keyword (k : Kind) :
    choice Kind.keyword Kind.all (.str k.keyword) = .valid k :=
  choice_str (Kind.ofKeyword?_keyword k)

@[simp] theorem category_name (c : Category) : category (.str c.name) = .valid c :=
  choice_str (Category.ofName?_name c)

@[simp] theorem choice_cellState (s : CellState) :
    choice CellState.name CellState.all (.str s.name) = .valid s :=
  choice_str (CellState.ofName?_name s)

@[simp] theorem choice_stepKind (k : StepKind) :
    choice StepKind.name StepKind.all (.str k.name) = .valid k :=
  choice_str (StepKind.ofName?_name k)

section List

variable {d : Decoder α} {write : α → Json} (h : Reads d write)

include h

/-- By induction on the items: each of them is read back at its index. -/
theorem Reads.itemsFrom (i : Nat) (items : List α) :
    itemsFrom d i (items.map write) = .valid items := by
  induction items generalizing i with
  | nil => rfl
  | cons a items ih => simp [Wire.itemsFrom, h a, ih]

theorem Reads.list (items : List α) : list d (.arr (items.map write)) = .valid items :=
  h.itemsFrom 0 items

end List

@[simp] theorem list_text_ofStrings (texts : List String) :
    list text (.ofStrings texts) = .valid texts := Reads.list text_str texts

/-! ### Objects -/

/-- The names of the fields of an object have to be worked out before a field is found. -/
theorem findField_camel (fields : List (String × Json)) (name : String) :
    findField .camel (.obj fields) name =
      match fields.lookup (String.ofList (runTogether name.toList)) with
      | some j => some (String.ofList (runTogether name.toList), j)
      | none => (fields.lookup name).map (name, ·) := by
  unfold findField Json.get? Naming.key
  simp only
  cases fields.lookup (String.ofList (runTogether name.toList)) <;> rfl

/-- An object is written with its field names run together. -/
theorem object_camel (fields : List (String × Json)) :
    object .camel fields
      = .obj (fields.map fun f => (String.ofList (runTogether f.1.toList), f.2)) :=
  rfl

attribute [local simp] model required Wire.optional findField_camel object_camel runTogether
  List.lookup_cons

theorem reads_member : Reads member Member.toJson := by
  intro m
  simp [member, Member.toJson]

theorem reads_method : Reads method Method.toJson := by
  intro m
  simp [method, Method.toJson]

theorem reads_structureModel : Reads structureModel Structure.toJson := by
  intro s
  simp [structureModel, structureFields, Structure.toJson, reads_member.list, reads_method.list]

theorem reads_classifiedModel : Reads classifiedModel Classified.toJson := by
  intro c
  simp [classifiedModel, structureFields, Classified.toJson, extend, Json.fields,
    Structure.toJson, reads_member.list, reads_method.list]

theorem reads_cell : Reads cell Cell.toJson := by
  intro c
  simp [cell, Cell.toJson]

theorem reads_step : Reads step Step.toJson := by
  intro s
  simp [step, Step.toJson]

theorem reads_gridStats : Reads gridStats GridStats.toJson := by
  intro s
  simp [gridStats, GridStats.toJson]

/-- Statistics that are missing read as those of no cells. -/
theorem gridStats_empty : gridStats (.obj []) = .valid {} := rfl

end Wire

/-- The findings of an analysis as a report. -/
def Analysis.report (a : Analysis) : Report where
  structures := a.structures
  classified := a.classified
  grid := a.grid
  gridText := a.gridText
  stats := a.stats.getD {}
  steps := a.steps
  totalSteps := a.totalSteps

/-- The report of an analysis is what its JSON is read back as. -/
theorem report_toJson (a : Analysis) : Wire.report a.toJson = .valid a.report := by
  have hstats : Wire.gridStats ((a.stats.map (·.toJson)).getD (.obj []))
      = .valid (a.stats.getD {}) := by
    cases a.stats with
    | none => exact Wire.gridStats_empty
    | some stats => exact Wire.reads_gridStats stats
  simp [Wire.report, Wire.model, Analysis.toJson, Analysis.report, Wire.optional,
    Wire.findField_camel, Wire.runTogether, List.lookup_cons, Json.ofCells, hstats,
    Wire.reads_structureModel.list, Wire.reads_classifiedModel.list, Wire.reads_cell.list,
    Wire.reads_step.list]

end CellAtlas
