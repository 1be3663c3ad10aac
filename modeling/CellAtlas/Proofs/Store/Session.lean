import CellAtlas.Store.Basic

/-!
# Finding and saving

What is found in a table is one of its entries. A session that is saved stands for its analysis from
then on and leaves those of other analyses alone; it takes the place of the one before, or comes
last where there was none.
-/

namespace CellAtlas.Store

/-! ### Finding -/

@[simp] theorem orUnknown_eq_ok {α : Type} {id : Int} {found : Option α} {a : α} :
    orUnknown id found = .ok a ↔ found = some a := by
  cases found <;> simp [orUnknown]

variable {store : Store} {session other : Session} {sessions : List Session} {id : Int}

/-- What is found under an id is stored, and has this id. -/
theorem mem_of_getSession (h : store.getSession id = .ok session) :
    session ∈ store.sessions ∧ session.analysisId = id := by
  rw [getSession, orUnknown_eq_ok] at h
  exact ⟨List.mem_of_find?_eq_some h, by simpa using List.find?_some h⟩

theorem mem_of_getFile {file : SourceFile} (h : store.getFile id = .ok file) :
    file ∈ store.files ∧ file.id = id := by
  rw [getFile, orUnknown_eq_ok] at h
  exact ⟨List.mem_of_find?_eq_some h, by simpa using List.find?_some h⟩

/-- Entries that are added at the end do not change what is found. -/
theorem getAnalysis_of_grown {later : Store} {record : AnalysisRecord}
    (hgrown : store.analyses <+: later.analyses) (h : store.getAnalysis id = .ok record) :
    later.getAnalysis id = .ok record := by
  obtain ⟨more, hmore⟩ := hgrown
  rw [getAnalysis, orUnknown_eq_ok] at h ⊢
  rw [← hmore, List.find?_append, h]
  rfl

/-! ### Saving -/

/-- Replacing a session is seen under its own id only. -/
theorem find?_replaceSession (sessions : List Session) (session : Session) (id : Int) :
    (replaceSession session sessions).find? (·.analysisId == id) =
      if session.analysisId = id then some session
      else sessions.find? (·.analysisId == id) := by
  induction sessions with
  | nil => by_cases h : session.analysisId = id <;> simp [replaceSession, h]
  | cons other sessions ih =>
      rw [replaceSession]
      -- the entry is replaced, or stays in front of whatever is done behind it
      by_cases hother : other.analysisId = session.analysisId
      · rw [if_pos hother]
        by_cases h : session.analysisId = id
        · simp [h]
        · simp [h, hother]
      · rw [if_neg hother, List.find?_cons, ih, List.find?_cons]
        by_cases h : session.analysisId = id
        · have hne : (other.analysisId == id) = false := by
            rw [← h]
            simpa using hother
          simp [h, hne]
        · simp [h]

theorem mem_replaceSession (h : other ∈ replaceSession session sessions) :
    other = session ∨ other ∈ sessions := by
  induction sessions with
  | nil => exact .inl (List.mem_singleton.mp h)
  | cons s rest ih =>
      unfold replaceSession at h
      split at h
      · grind
      · grind

theorem replaceSession_of_notMem (h : session.analysisId ∉ sessions.map (·.analysisId)) :
    replaceSession session sessions = sessions ++ [session] := by
  induction sessions with
  | nil => rfl
  | cons other rest ih =>
      simp only [List.map_cons, List.mem_cons, not_or] at h
      rw [replaceSession, if_neg (Ne.symm h.1), ih h.2, List.cons_append]

/-- A session that is there keeps its place. -/
theorem map_replaceSession_of_mem (h : session.analysisId ∈ sessions.map (·.analysisId)) :
    (replaceSession session sessions).map (·.analysisId) = sessions.map (·.analysisId) := by
  induction sessions with
  | nil => cases h
  | cons other rest ih =>
      by_cases heq : other.analysisId = session.analysisId
      · rw [replaceSession, if_pos heq]
        simp [heq]
      · rw [replaceSession, if_neg heq, List.map_cons, List.map_cons, ih]
        simpa [Ne.symm heq] using h

end CellAtlas.Store
