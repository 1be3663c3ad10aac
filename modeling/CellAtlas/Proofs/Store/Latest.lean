import CellAtlas.Proofs.Store.History

/-!
# The latest analysis of a file

The analyses are searched from the last one back. Their ids grow with every creation, so the first
one that is found for a file has the largest id of all that were created for it
(`find?_reverse_eq_some_iff`). Main statement: `latestAnalysis_newest`.
-/

namespace CellAtlas

/-- Where keys grow, what is found from the back has the largest key. -/
theorem find?_reverse_eq_some_iff {α : Type} {key : α → Int} {l : List α}
    (h : l.Pairwise (key · < key ·)) {p : α → Bool} {a : α} :
    l.reverse.find? p = some a ↔ (a ∈ l ∧ p a) ∧ ∀ b ∈ l, p b → key b ≤ key a := by
  have hfalls : l.reverse.Pairwise fun b c => key c < key b := List.pairwise_reverse.mpr h
  constructor
  · intro hfind
    obtain ⟨hp, later, earlier, hl, hlater⟩ := List.find?_eq_some_iff_append.mp hfind
    refine ⟨⟨List.mem_reverse.mp (List.mem_of_find?_eq_some hfind), hp⟩, ?_⟩
    intro b hb hpb
    rw [hl, List.pairwise_append, List.pairwise_cons] at hfalls
    rw [← List.mem_reverse, hl, List.mem_append, List.mem_cons] at hb
    -- it comes later and was passed over, or it is the one found, or it comes earlier
    rcases hb with hb | rfl | hb
    · have hno := hlater b hb
      rw [hpb] at hno
      cases hno
    · exact Int.le_refl _
    · exact Int.le_of_lt (hfalls.2.1.1 b hb)
  · rintro ⟨⟨ha, hp⟩, hmax⟩
    obtain ⟨later, earlier, hl⟩ := List.append_of_mem (List.mem_reverse.mpr ha)
    rw [hl, List.pairwise_append] at hfalls
    refine List.find?_eq_some_iff_append.mpr ⟨hp, later, earlier, hl, ?_⟩
    intro b hb
    -- what comes later has a larger key
    have hlt : key a < key b := hfalls.2.2 b hb a List.mem_cons_self
    have hmem : b ∈ l := List.mem_reverse.mp (hl ▸ List.mem_append_left _ hb)
    cases hpb : p b with
    | true => exact absurd (hmax b hmem hpb) (Int.not_le.mpr hlt)
    | false => rfl

namespace Store

/-! ### The analyses that were created for a file -/

/-- The record that was created, if it was created for a file. -/
def Exchange.createdFor? (fileId : Int) : Exchange → Option AnalysisRecord
  | ⟨.createAnalysis _ _ (some id) _, .ok (.analysis record)⟩ =>
    if id = fileId then some record else none
  | _ => none

def analysesCreatedFor (fileId : Int) (log : List Exchange) : List AnalysisRecord :=
  log.filterMap (·.createdFor? fileId)

/-- The answers of a history are those that some store gave. -/
theorem exists_of_mem_history {s : Store} {operations : List Operation} {x : Exchange}
    (h : x ∈ s.history operations) : ∃ s' : Store, x = ⟨x.operation, s'.answer x.operation⟩ := by
  induction operations generalizing s with
  | nil => cases h
  | cons a operations ih =>
      rcases List.mem_cons.mp h with rfl | h
      · exact ⟨s, rfl⟩
      · exact ih h

/-- A record refers to the file that it was created for. -/
theorem createdFor?_answer (s : Store) (a : Operation) (fileId : Int) :
    Exchange.createdFor? fileId ⟨a, s.answer a⟩ =
      (Exchange.createdAnalysis? ⟨a, s.answer a⟩).filter (·.fileId == some fileId) := by
  cases a with
  | createAnalysis now result file errors =>
      cases file with
      | none => rfl
      | some id => simp [Exchange.createdFor?, Exchange.createdAnalysis?, answer, apply,
          createAnalysis, Option.filter_some]
  | _ => rfl

/-- The analyses created for a file are those among all created ones that are about it. -/
theorem analysesCreatedFor_eq (operations : List Operation) (fileId : Int) :
    analysesCreatedFor fileId (sinceClear (empty.history operations)) =
      (analysesCreated (sinceClear (empty.history operations))).filter
        (·.fileId == some fileId) := by
  rw [analysesCreatedFor, analysesCreated, List.filter_filterMap]
  apply List.filterMap_congr
  intro x hx
  obtain ⟨s, hs⟩ := exists_of_mem_history ((List.rtakeWhile_suffix _ _).subset hx)
  rw [hs]
  exact createdFor?_answer s x.operation fileId

/-! ### The latest one of them -/

section Latest

variable {log : List Exchange} {s : Store} {fileId : Int} {record : AnalysisRecord}

/-- Ids grow, so that the latest record of a file is the one with the largest id. -/
theorem AnalysesKept.latestOf?_eq_some_iff (h : AnalysesKept log s) {fileId : Option Int} :
    s.latestOf? fileId = some record ↔
      record ∈ (analysesCreated log).filter (·.fileId == fileId) ∧
      ∀ other ∈ (analysesCreated log).filter (·.fileId == fileId), other.id ≤ record.id := by
  rw [latestOf?, h.analyses, find?_reverse_eq_some_iff h.numbered.pairwise]
  simp only [List.mem_filter, and_imp]

theorem AnalysesKept.latestOf?_eq_none_iff (h : AnalysesKept log s) {fileId : Option Int} :
    s.latestOf? fileId = none ↔ (analysesCreated log).filter (·.fileId == fileId) = [] := by
  rw [latestOf?, h.analyses, List.find?_eq_none, List.filter_eq_nil_iff]
  simp only [List.mem_reverse]

/-- The store answers with the latest record of the file. -/
theorem answer_latestAnalysis_eq_ok :
    s.answer (.latestAnalysis fileId) = .ok (.analysis record) ↔
      s.latestOf? (some fileId) = some record := by
  show (orUnknown fileId (s.latestOf? (some fileId))).map Answer.analysis = _ ↔ _
  cases s.latestOf? (some fileId) <;> simp [orUnknown, Except.map]

theorem answer_latestAnalysis_eq_error {e : StoreError} :
    s.answer (.latestAnalysis fileId) = .error e ↔
      s.latestOf? (some fileId) = none ∧ e = .unknownId fileId := by
  show (orUnknown fileId (s.latestOf? (some fileId))).map Answer.analysis = _ ↔ _
  cases s.latestOf? (some fileId) <;> simp [orUnknown, Except.map, eq_comm]

end Latest

/-- After any operations, the latest analysis of a file is the one with the largest id among those
that were created for it since the last clearing. It is missing exactly if there are none, and then
the id of the file is unknown. -/
theorem latestAnalysis_newest (operations : List Operation) (fileId : Int) :
    let s := empty.after operations
    let created := analysesCreatedFor fileId (sinceClear (empty.history operations))
    (∀ record, s.answer (.latestAnalysis fileId) = .ok (.analysis record) ↔
      record ∈ created ∧ ∀ other ∈ created, other.id ≤ record.id) ∧
    ∀ e, s.answer (.latestAnalysis fileId) = .error e ↔ created = [] ∧ e = .unknownId fileId := by
  intro s created
  have hkept : AnalysesKept (sinceClear (empty.history operations)) s :=
    kept_after analysesKept_empty (fun _ _ _ hclear h => h.next hclear) operations
  have hcreated : created = _ := analysesCreatedFor_eq operations fileId
  rw [hcreated]
  constructor
  · intro record
    rw [answer_latestAnalysis_eq_ok]
    exact hkept.latestOf?_eq_some_iff
  · intro e
    rw [answer_latestAnalysis_eq_error, hkept.latestOf?_eq_none_iff]

end Store

end CellAtlas
