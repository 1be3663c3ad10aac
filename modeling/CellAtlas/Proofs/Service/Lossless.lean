import CellAtlas.Proofs.Analysis.Finished
import CellAtlas.Proofs.Service.Effect

/-!
# Nothing is lost on the wire

What an analysis has found is written as JSON, stored, read as a report and written again for the
answer. A field whose name the reader does not know would not make it fail: most fields have a
default, which would take the place of what has been found. So the forms are written out here key by
key (`Analysis.spelled`), apart from the forms whose keys are made of field names, and shown to be
the same (`Analysis.toJson_eq_spelled`).

The report that is read has every finding (`report_toJson`), and is written like the findings
exactly if there are statistics: where there are none the report has those of no cells
(`Analysis.toJson_report_iff`). A run of the built-in stages comes to statistics even if stages
fail, so that its result is answered as it has been stored (`run_answered`).
-/

namespace CellAtlas

open Source Wire

/-! ### Written out -/

namespace Source

def Member.spelled (m : Member) : Json :=
  .obj [("name", .str m.name), ("declaredType", .str m.declaredType),
    ("isPointer", .bool m.isPointer), ("line", .int m.line)]

def Method.spelled (m : Method) : Json :=
  .obj [("name", .str m.name), ("returnType", .str m.returnType),
    ("parameters", .arr (m.parameters.map .str)), ("line", .int m.line)]

def Structure.spelledFields (s : Structure) : List (String × Json) :=
  [("name", .str s.name), ("kind", .str s.kind.keyword), ("startLine", .int s.startLine),
    ("endLine", .int s.endLine), ("members", .arr (s.members.map Member.spelled)),
    ("methods", .arr (s.methods.map Method.spelled))]

def Structure.spelled (s : Structure) : Json := .obj s.spelledFields

end Source

def Classified.spelled (c : Classified) : Json :=
  .obj (c.toStructure.spelledFields ++ [("category", .str c.category.name),
    ("instanceCount", .int c.instanceCount), ("nestingDepth", .int c.nestingDepth)])

/-- A cell with the keys written out; what it does not have is null. -/
def Cell.spelled (c : Cell) : Json :=
  .obj [("x", .int c.x), ("y", .int c.y), ("state", .str c.state.name),
    ("label", (c.label.map .str).getD .null), ("note", (c.note.map .str).getD .null)]

def Step.spelled (s : Step) : Json :=
  .obj [("sourceLine", .int s.sourceLine), ("description", .str s.description),
    ("kind", .str s.kind.name)]

/-- The findings of an analysis with the keys written out. -/
def Analysis.spelled (a : Analysis) : Json :=
  .obj [("structures", .arr (a.structures.map Structure.spelled)),
    ("classified", .arr (a.classified.map Classified.spelled)),
    ("grid", .arr (a.grid.map Cell.spelled)), ("gridText", .str a.gridText),
    ("stats", (a.stats.map (·.toJson)).getD (.obj [])),
    ("steps", .arr (a.steps.map Step.spelled)), ("totalSteps", .int a.steps.length)]

section Spelled

attribute [local simp] object_camel runTogether

theorem Source.Member.toJson_eq_spelled (m : Member) : m.toJson = m.spelled := by
  simp [Member.toJson, Member.spelled]

/-- A key that the reader does not know does not make it fail. -/
example : member (.obj [("name", .str "next"), ("declaredType", .str "Node*"),
    ("ispointer", .bool true), ("line", .int 2)]) = .valid ⟨"next", "Node*", false, 2⟩ := by
  rfl

theorem Source.Method.toJson_eq_spelled (m : Method) : m.toJson = m.spelled := by
  simp [Method.toJson, Method.spelled, Json.ofStrings]

/-- A structure has its members and methods as they are spelled. -/
theorem Source.Structure.toJson_eq_spelled (s : Structure) : s.toJson = s.spelled := by
  simp [Structure.toJson, Structure.spelled, Structure.spelledFields, Member.toJson_eq_spelled,
    Method.toJson_eq_spelled]

/-- A classified structure has the keys of a structure and three more. -/
theorem Classified.toJson_eq_spelled (c : Classified) : c.toJson = c.spelled := by
  simp [Classified.toJson, Classified.spelled, Structure.toJson_eq_spelled, Structure.spelled,
    extend, Json.fields]

theorem Cell.toJson_eq_spelled (c : Cell) : c.toJson = c.spelled := by
  have hnullable : ∀ s : Option String, Json.ofString? s = (s.map .str).getD .null := by
    intro s
    cases s <;> rfl
  simp [Cell.toJson, Cell.spelled, hnullable]

theorem Step.toJson_eq_spelled (s : Step) : s.toJson = s.spelled := by
  simp [Step.toJson, Step.spelled]

end Spelled

/-- The findings are written under the keys that are written out. -/
theorem Analysis.toJson_eq_spelled (a : Analysis) : a.toJson = a.spelled := by
  simp [Analysis.toJson, Analysis.spelled, Json.ofCells, Analysis.totalSteps,
    Structure.toJson_eq_spelled, Classified.toJson_eq_spelled, Cell.toJson_eq_spelled,
    Step.toJson_eq_spelled]

/-! ### Written again -/

/-- The report on an analysis is written like its findings exactly if there are statistics. -/
theorem Analysis.toJson_report_iff (a : Analysis) :
    a.report.toJson = a.toJson ↔ a.stats.isSome := by
  cases hstats : a.stats with
  | none =>
      simp [Report.toJson, Analysis.report, Analysis.toJson, object_camel, runTogether, hstats,
        GridStats.toJson]
  | some stats =>
      simp [Report.toJson, Analysis.report, Analysis.toJson, object_camel, runTogether, hstats]

/-! ### Answers -/

/-- The answers to whoever has asked for an analysis and to whoever asks for its record show what is
stored. -/
structure AnalysisRecord.Shown (entry : AnalysisRecord) (clock : Clock) (p : Progress Analysis) :
    Prop where
  result : Service.resultJson clock p entry = some (.obj [("analysisId", .int entry.id),
    ("analysis", entry.result), ("processingTimeMs", clock.elapsedMs),
    ("stagesCompleted", .int p.completed.length), ("stagesFailed", .int p.errors.length),
    ("errors", p.errorsJson)])
  response : entry.response = .ok (.obj [("id", .int entry.id), ("fileId", .ofInt? entry.fileId),
    ("status", .str entry.status), ("analysis", entry.result), ("errors", .ofTexts entry.errors),
    ("createdAt", .str entry.createdAt)])

/-- A record that reads back as what was stored is answered as that. -/
theorem AnalysisRecord.shown_of_report? {entry : AnalysisRecord}
    (h : entry.report? = some entry.result) (clock : Clock) (p : Progress Analysis) :
    entry.Shown clock p where
  result := by
    rw [Service.resultJson, h]
    rfl
  response := by
    rw [response, h]
    rfl

/-- Whatever a run of the built-in stages starts from, and whether it is followed or not, the result
reads as a report that has every finding and is written again under the same keys with the same
values. So what is stored of it is what is answered. -/
theorem Builtin.run_answered [Machine] (a : Analysis) :
    ∃ p events, registry.run a = .ok p ∧ registry.stream a = .ok (events, p) ∧
      p.state.toJson = p.state.spelled ∧
      report p.state.toJson = .valid p.state.report ∧
      p.state.stats = some p.state.report.stats ∧
      p.state.report.toJson = p.state.toJson ∧
      ∀ (service : Service) (store : Store) (clock : Clock) (fileId : Option Int),
        let entry := (service.record store clock p fileId).1
        entry.result = p.state.toJson ∧ entry.Shown clock p := by
  obtain ⟨events, hstream⟩ := stream_eq_ok a
  have hrun := run_eq_ok a
  -- a followed run is the same one, whose progress needs a name only
  generalize runStages stages { state := a } = p at hstream hrun
  have hstats := stats_of_run hrun
  -- a run always ends with statistics, which is what writing the report again depends on
  have hagain : p.state.report.toJson = p.state.toJson := by
    rw [p.state.toJson_report_iff, hstats]
    rfl
  refine ⟨p, events, hrun, hstream, p.state.toJson_eq_spelled, report_toJson p.state, ?_, hagain,
    ?_⟩
  · rw [Analysis.report, hstats]
    rfl
  · intro service store clock fileId entry
    have hresult : entry.result = p.state.toJson := rfl
    have hreport : entry.report? = some entry.result :=
      (service.report?_record store clock p fileId).trans (congrArg some hagain)
    exact ⟨hresult, AnalysisRecord.shown_of_report? hreport clock p⟩

end CellAtlas
