import CellAtlas.Proofs.List
import CellAtlas.Proofs.Store.Operation
import CellAtlas.Proofs.Store.Session
import Mathlib.Data.List.DropRight

/-!
# What a store owes to its history

A history has the operations on a store with their answers. What a store answers can be told from
what it has answered since its last clearing: which files and analyses it has handed out, which
files it has deleted, which sessions it was given. For each table there is an invariant that ties
the entries of the table to the history (`FilesKept`, `AnalysesKept`, `SessionsKept`); one operation
keeps it, hence any run does (`kept_after`). The main statement is `answers_since_clear`.
-/

namespace CellAtlas.Store

structure Exchange where
  operation : Operation
  answer : Except StoreError Answer

/-- The operations with the answers that they get one after the other. -/
def history (s : Store) : List Operation → List Exchange
  | [] => []
  | a :: operations => ⟨a, s.answer a⟩ :: (s.next a).history operations

/-! ### What a history says -/

def Operation.givenFile? : Operation → Option (String × String)
  | createFile _ name content => some (name, content)
  | _ => none

/-- The result to store, with the file and the errors that go with it. -/
def Operation.givenAnalysis? : Operation → Option (Json × Option Int × List (String × String))
  | createAnalysis _ result fileId errors => some (result, fileId, errors)
  | _ => none

namespace Exchange

def createdFile? : Exchange → Option SourceFile
  | ⟨.createFile .., .ok (.file file)⟩ => some file
  | _ => none

def deletedFile? : Exchange → Option Int
  | ⟨.deleteFile id, .ok _⟩ => some id
  | _ => none

def createdAnalysis? : Exchange → Option AnalysisRecord
  | ⟨.createAnalysis .., .ok (.analysis record)⟩ => some record
  | _ => none

def savedSession? : Exchange → Option Int
  | ⟨.saveSession session, .ok _⟩ => some session.analysisId
  | _ => none

/-- The session that was saved, or that got a new state. -/
def writtenSession? : Exchange → Option Session
  | ⟨.saveSession session, .ok _⟩ => some session
  | ⟨.updateState .., .ok (.session session)⟩ => some session
  | _ => none

end Exchange

def sinceClear (log : List Exchange) : List Exchange :=
  log.rtakeWhile fun x => !x.operation.isClear

section Readings

variable (log : List Exchange)

def filesCreated : List SourceFile := log.filterMap (·.createdFile?)

def filesDeleted : List Int := log.filterMap (·.deletedFile?)

/-- The files that were created and not deleted. -/
def filesLeft : List SourceFile := (filesCreated log).filter (·.id ∉ filesDeleted log)

def analysesCreated : List AnalysisRecord := log.filterMap (·.createdAnalysis?)

def sessionsSaved : List Int := log.filterMap (·.savedSession?)

def sessionsWritten : List Session := log.filterMap (·.writtenSession?)

end Readings

/-! ### Entries with consecutive ids -/

/-- The ids 1, 2, 3 and so on. -/
def firstIds (n : Nat) : List Int := (List.range n).map fun i : Nat => (i : Int) + 1

theorem firstIds_succ (n : Nat) : firstIds (n + 1) = firstIds n ++ [(n : Int) + 1] := by
  rw [firstIds, List.range_succ, List.map_append]
  rfl

theorem le_of_mem_firstIds {id : Int} {n : Nat} (h : id ∈ firstIds n) : id ≤ n := by
  obtain ⟨i, hi, rfl⟩ := List.mem_map.mp h
  have := List.mem_range.mp hi
  omega

theorem pairwise_firstIds (n : Nat) : (firstIds n).Pairwise (· < ·) := by
  rw [firstIds, List.pairwise_map]
  apply List.pairwise_lt_range.imp
  intro i j h
  omega

/-- Entries that got the ids 1, 2, 3 and so on, and what each of them was to hold. -/
structure Numbered {α γ : Type} (id : α → Int) (holds : α → γ) (entries : List α)
    (given : List γ) : Prop where
  ids : entries.map id = firstIds entries.length
  holds : entries.map holds = given

section Numbered

variable {α γ : Type} {id : α → Int} {holds : α → γ} {entries : List α} {given : List γ}

/-- The next entry gets the next id. -/
theorem Numbered.append_singleton (h : Numbered id holds entries given) {entry : α}
    (hid : id entry = entries.length + 1) :
    Numbered id holds (entries ++ [entry]) (given ++ [holds entry]) where
  ids := by
    rw [List.map_append, h.ids, List.length_append, List.length_singleton, firstIds_succ, ← hid]
    rfl
  holds := by
    rw [List.map_append, h.holds]
    rfl

theorem Numbered.pairwise (h : Numbered id holds entries given) :
    entries.Pairwise (id · < id ·) := by
  rw [← List.pairwise_map, h.ids]
  exact pairwise_firstIds entries.length

/-- Ids that grow differ. -/
theorem Numbered.nodup (h : Numbered id holds entries given) : (entries.map id).Nodup := by
  rw [List.Nodup, List.pairwise_map]
  exact h.pairwise.imp Int.ne_of_lt

end Numbered

/-! ### Runs -/

section Run

variable {s : Store} {operations : List Operation} {a : Operation}

/-- The last operation is answered by the store that the others have left. -/
theorem history_append_singleton :
    s.history (operations ++ [a])
      = s.history operations ++ [⟨a, (s.after operations).answer a⟩] := by
  induction operations generalizing s with
  | nil => rfl
  | cons b operations ih =>
      show _ :: (s.next b).history (operations ++ [a]) = _
      rw [ih]
      rfl

theorem after_append_singleton :
    s.after (operations ++ [a]) = (s.after operations).next a := by
  rw [after, List.foldl_append]
  rfl

/-- What holds of the store without entries, and is kept by every operation other than the clearing,
holds of every store and its history since the last clearing. -/
theorem kept_after {Kept : List Exchange → Store → Prop} (hempty : Kept [] empty)
    (hnext : ∀ log s a, a.isClear = false → Kept log s → Kept (log ++ [⟨a, s.answer a⟩]) (s.next a))
    (operations : List Operation) :
    Kept (sinceClear (empty.history operations)) (empty.after operations) := by
  induction operations using List.reverseRecOn with
  | nil => exact hempty
  | append_singleton operations a ih =>
      rw [history_append_singleton, after_append_singleton, sinceClear]
      cases h : a.isClear with
      | true =>
          -- the history starts anew here, and so does the store
          rw [List.rtakeWhile_concat_neg _ _ _ (by simp [h])]
          cases a with
          | clear => exact hempty
          | _ => cases h
      | false =>
          rw [List.rtakeWhile_concat_pos _ _ _ (by simp [h])]
          exact hnext _ _ _ h ih

end Run

/-! ### Files -/

section Files

variable {log : List Exchange} {s s' : Store} {x : Exchange}

/-- The files of a store, told from its history. -/
structure FilesKept (log : List Exchange) (s : Store) : Prop where
  numbered : Numbered (·.id) (fun file => (file.name, file.content)) (filesCreated log)
    (log.filterMap (·.operation.givenFile?))
  deleted : filesDeleted log ⊆ (filesCreated log).map (·.id)
  files : s.files = filesLeft log
  nextFileId : s.nextFileId = (filesCreated log).length + 1

theorem filesKept_empty : FilesKept [] empty := ⟨⟨rfl, rfl⟩, List.Subset.refl _, rfl, rfl⟩

/-- What neither creates nor deletes a file, and leaves the table alone, keeps the invariant. -/
theorem FilesKept.append_of_none (h : FilesKept log s) (hs : s'.only .files = s.only .files)
    (hcreated : x.createdFile? = none) (hdeleted : x.deletedFile? = none)
    (hgiven : x.operation.givenFile? = none) : FilesKept (log ++ [x]) s' := by
  obtain ⟨hfiles, hnext⟩ : s'.files = s.files ∧ s'.nextFileId = s.nextFileId := by
    simpa [only] using hs
  have hc : filesCreated (log ++ [x]) = filesCreated log := by
    simp [filesCreated, hcreated]
  have hd : filesDeleted (log ++ [x]) = filesDeleted log := by
    simp [filesDeleted, hdeleted]
  constructor
  · simpa [hc, hgiven] using h.numbered
  · rw [hc, hd]
    exact h.deleted
  · rw [hfiles, h.files, filesLeft, filesLeft, hc, hd]
  · rw [hnext, h.nextFileId, hc]

/-- A new file gets the next id and holds what was given. -/
theorem FilesKept.createFile (h : FilesKept log s) (now name content : String) :
    FilesKept (log ++ [⟨.createFile now name content, s.answer (.createFile now name content)⟩])
      (s.next (.createFile now name content)) := by
  let file : SourceFile := { id := s.nextFileId, name, content, uploadedAt := now }
  show FilesKept (log ++ [⟨_, .ok (.file file)⟩])
    { s with files := s.files ++ [file], nextFileId := s.nextFileId + 1 }
  have hc : filesCreated (log ++ [⟨.createFile now name content, .ok (.file file)⟩]) =
      filesCreated log ++ [file] := by
    simp [filesCreated, Exchange.createdFile?]
  have hd : filesDeleted (log ++ [⟨.createFile now name content, .ok (.file file)⟩]) =
      filesDeleted log := by
    simp [filesDeleted, Exchange.deletedFile?]
  -- the new id is above all that were handed out, so that it has not been deleted either
  have hfresh : file.id ∉ filesDeleted log := by
    intro hmem
    have hid := h.deleted hmem
    rw [h.numbered.ids] at hid
    have hle := le_of_mem_firstIds hid
    have : file.id = _ := h.nextFileId
    omega
  constructor
  · rw [hc, List.filterMap_append]
    exact h.numbered.append_singleton h.nextFileId
  · rw [hc, hd, List.map_append]
    exact List.Subset.trans h.deleted (List.subset_append_left _ _)
  · show s.files ++ [file] = _
    rw [filesLeft, hc, hd, List.filter_append, h.files, filesLeft]
    simp [hfresh]
  · show s.nextFileId + 1 = _
    rw [hc, h.nextFileId]
    simp

/-- Deleting takes one of the files that are left, or fails and says so. -/
theorem FilesKept.deleteFile (h : FilesKept log s) (id : Int) :
    FilesKept (log ++ [⟨.deleteFile id, s.answer (.deleteFile id)⟩]) (s.next (.deleteFile id)) := by
  rw [answer, next, apply_deleteFile]
  cases hfind : s.files.find? (·.id == id) with
  | none => exact h.append_of_none rfl rfl rfl rfl
  | some file =>
      have hmem : file ∈ filesLeft log := h.files ▸ List.mem_of_find?_eq_some hfind
      have hid : file.id = id := by
        simpa using List.find?_some hfind
      have hc : filesCreated (log ++ [⟨.deleteFile id, .ok .done⟩]) = filesCreated log := by
        simp [filesCreated, Exchange.createdFile?]
      have hd : filesDeleted (log ++ [⟨.deleteFile id, .ok .done⟩]) = filesDeleted log ++ [id] := by
        simp [filesDeleted, Exchange.deletedFile?]
      constructor
      · simpa [hc, Operation.givenFile?] using h.numbered
      · rw [hc, hd, List.append_subset]
        refine ⟨h.deleted, ?_⟩
        rw [List.cons_subset, ← hid]
        exact ⟨List.mem_map_of_mem (List.mem_of_mem_filter hmem), List.nil_subset _⟩
      · -- the files left are filtered once more, or all files by both conditions at once
        show s.files.filter (·.id != id) = _
        rw [filesLeft, hc, hd, h.files, filesLeft, List.filter_filter]
        congr 1
        funext file
        rw [Bool.eq_iff_iff]
        simp [and_comm]
      · show s.nextFileId = _
        rw [hc, h.nextFileId]

/-- One operation, other than the clearing, preserves what the history says of the files. -/
theorem FilesKept.next (h : FilesKept log s) {a : Operation} (hclear : a.isClear = false) :
    FilesKept (log ++ [⟨a, s.answer a⟩]) (s.next a) := by
  cases a with
  | createFile now name content => exact h.createFile now name content
  | deleteFile id => exact h.deleteFile id
  | clear => cases hclear
  | getFile | listFiles => exact h.append_of_none rfl rfl rfl rfl
  | _ => exact h.append_of_none (only_next_of_ne s rfl (by decide)) rfl rfl rfl

end Files

/-! ### Analyses -/

section Analyses

variable {log : List Exchange} {s s' : Store} {x : Exchange}

structure AnalysesKept (log : List Exchange) (s : Store) : Prop where
  numbered : Numbered (·.id) (fun record => (record.result, record.fileId, record.errors))
    (analysesCreated log) (log.filterMap (·.operation.givenAnalysis?))
  analyses : s.analyses = analysesCreated log
  nextAnalysisId : s.nextAnalysisId = (analysesCreated log).length + 1

theorem analysesKept_empty : AnalysesKept [] empty := ⟨⟨rfl, rfl⟩, rfl, rfl⟩

/-- An operation on another table does not matter here. -/
theorem AnalysesKept.append_of_none (h : AnalysesKept log s)
    (hs : s'.only .analyses = s.only .analyses) (hcreated : x.createdAnalysis? = none)
    (hgiven : x.operation.givenAnalysis? = none) : AnalysesKept (log ++ [x]) s' := by
  obtain ⟨hanalyses, hnext⟩ :
      s'.analyses = s.analyses ∧ s'.nextAnalysisId = s.nextAnalysisId := by
    simpa [only] using hs
  have hc : analysesCreated (log ++ [x]) = analysesCreated log := by
    simp [analysesCreated, hcreated]
  constructor
  · simpa [hc, hgiven] using h.numbered
  · rw [hanalyses, h.analyses, hc]
  · rw [hnext, h.nextAnalysisId, hc]

/-- One operation preserves what the history says of the analyses, which are never taken away. -/
theorem AnalysesKept.next (h : AnalysesKept log s) {a : Operation} (hclear : a.isClear = false) :
    AnalysesKept (log ++ [⟨a, s.answer a⟩]) (s.next a) := by
  cases a with
  | createAnalysis now result fileId errors =>
      let record : AnalysisRecord :=
        { id := s.nextAnalysisId, fileId, result, errors, createdAt := now }
      show AnalysesKept (log ++ [⟨_, .ok (.analysis record)⟩])
        { s with analyses := s.analyses ++ [record], nextAnalysisId := s.nextAnalysisId + 1 }
      have hc : analysesCreated (log ++ [⟨.createAnalysis now result fileId errors,
          .ok (.analysis record)⟩]) = analysesCreated log ++ [record] := by
        simp [analysesCreated, Exchange.createdAnalysis?]
      constructor
      · rw [hc, List.filterMap_append]
        exact h.numbered.append_singleton h.nextAnalysisId
      · rw [hc, ← h.analyses]
      · show s.nextAnalysisId + 1 = _
        rw [hc, h.nextAnalysisId]
        simp
  | clear => cases hclear
  | getAnalysis | latestAnalysis => exact h.append_of_none rfl rfl rfl
  | _ => exact h.append_of_none (only_next_of_ne s rfl (by decide)) rfl rfl

end Analyses

/-! ### Sessions -/

/-- The last of the sessions of an analysis. -/
def lastOf? (sessions : List Session) (id : Int) : Option Session :=
  sessions.reverse.find? (·.analysisId == id)

/-- The last session is the one that was written last. -/
theorem lastOf?_append_singleton (sessions : List Session) (session : Session) (id : Int) :
    lastOf? (sessions ++ [session]) id =
      if session.analysisId = id then some session else lastOf? sessions id := by
  rw [lastOf?, List.reverse_append, List.reverse_singleton, List.singleton_append]
  by_cases h : session.analysisId = id
  · simp [h]
  · simp [h, lastOf?]

section Sessions

variable {log : List Exchange} {s s' : Store} {x : Exchange}

structure SessionsKept (log : List Exchange) (s : Store) : Prop where
  find : ∀ id, s.sessions.find? (·.analysisId == id) = lastOf? (sessionsWritten log) id
  saved : ∀ id, (lastOf? (sessionsWritten log) id).isSome ↔ id ∈ sessionsSaved log

theorem sessionsKept_empty : SessionsKept [] empty :=
  ⟨fun _ => rfl, fun _ => ⟨nofun, nofun⟩⟩

theorem SessionsKept.append_of_none (h : SessionsKept log s)
    (hs : s'.only .sessions = s.only .sessions) (hwritten : x.writtenSession? = none)
    (hsaved : x.savedSession? = none) : SessionsKept (log ++ [x]) s' := by
  have hsessions : s'.sessions = s.sessions := by
    simpa [only] using hs
  have hw : sessionsWritten (log ++ [x]) = sessionsWritten log := by
    simp [sessionsWritten, hwritten]
  have hsaved : sessionsSaved (log ++ [x]) = sessionsSaved log := by
    simp [sessionsSaved, hsaved]
  constructor
  · rw [hsessions, hw]
    exact h.find
  · rw [hw, hsaved]
    exact h.saved

/-- A session that is written stands for its analysis from then on. -/
theorem SessionsKept.append_of_written (h : SessionsKept log s) {session : Session}
    (hwritten : x.writtenSession? = some session)
    (hsaved : ∀ id, id ∈ sessionsSaved (log ++ [x]) ↔
      session.analysisId = id ∨ id ∈ sessionsSaved log) :
    SessionsKept (log ++ [x]) (s.saveSession session) := by
  have hw : sessionsWritten (log ++ [x]) = sessionsWritten log ++ [session] := by
    simp [sessionsWritten, hwritten]
  constructor
  · intro id
    rw [hw, lastOf?_append_singleton, ← h.find]
    exact find?_replaceSession s.sessions session id
  · intro id
    rw [hw, hsaved, lastOf?_append_singleton, ← h.saved]
    by_cases hid : session.analysisId = id <;> simp [hid]

/-- A new state is written to the session that is there, and fails without one. -/
theorem SessionsKept.updateState (h : SessionsKept log s) (id : Int) (state : PlaybackState) :
    SessionsKept (log ++ [⟨.updateState id state, s.answer (.updateState id state)⟩])
      (s.next (.updateState id state)) := by
  rw [answer, next, apply_updateState]
  cases hfind : s.sessions.find? (·.analysisId == id) with
  | none => exact h.append_of_none rfl rfl rfl
  | some session =>
      have hid : session.analysisId = id := by
        simpa using List.find?_some hfind
      have hmem : id ∈ sessionsSaved log := by
        rw [← h.saved, ← h.find, hfind]
        rfl
      -- a state is only written to a session that has been saved, so that no id is new
      apply h.append_of_written rfl
      intro id'
      have hsaved : sessionsSaved (log ++ [⟨.updateState id state,
          .ok (.session { session with state })⟩]) = sessionsSaved log := by
        simp [sessionsSaved, Exchange.savedSession?]
      rw [hsaved]
      constructor
      · exact .inr
      · rintro (rfl | h)
        · rwa [hid]
        · exact h

/-- One operation preserves what the history says of the sessions. -/
theorem SessionsKept.next (h : SessionsKept log s) {a : Operation} (hclear : a.isClear = false) :
    SessionsKept (log ++ [⟨a, s.answer a⟩]) (s.next a) := by
  cases a with
  | saveSession session =>
      apply h.append_of_written rfl
      intro id
      simp [sessionsSaved, answer, apply, Exchange.savedSession?, or_comm, eq_comm]
  | updateState id state => exact h.updateState id state
  | clear => cases hclear
  | getSession => exact h.append_of_none rfl rfl rfl
  | _ => exact h.append_of_none (only_next_of_ne s rfl (by decide)) rfl rfl

end Sessions

/-! ### Answers -/

section Answers

variable {log : List Exchange} {s : Store}

/-- The answers about files that go with a history. -/
structure FilesAnswered (log : List Exchange) (s : Store) : Prop where
  /-- The files that were handed out have the ids 1, 2, 3 and so on, and the names and contents that
  were given. -/
  numbered : Numbered (·.id) (fun file => (file.name, file.content)) (filesCreated log)
    (log.filterMap (·.operation.givenFile?))
  /-- No id was handed out twice. -/
  nodup : ((filesCreated log).map (·.id)).Nodup
  list : s.answer .listFiles = .ok (.files (filesLeft log))
  increasing : (filesLeft log).Pairwise (·.id < ·.id)
  get : ∀ file ∈ filesLeft log, s.answer (.getFile file.id) = .ok (.file file)
  get_unknown : ∀ id ∉ (filesLeft log).map (·.id), s.answer (.getFile id) = .error (.unknownId id)
  delete : ∀ file ∈ filesLeft log, s.answer (.deleteFile file.id) = .ok .done
  delete_unknown : ∀ id ∉ (filesLeft log).map (·.id),
    s.answer (.deleteFile id) = .error (.unknownId id)

/-- The answers about analyses that go with a history. -/
structure AnalysesAnswered (log : List Exchange) (s : Store) : Prop where
  numbered : Numbered (·.id) (fun record => (record.result, record.fileId, record.errors))
    (analysesCreated log) (log.filterMap (·.operation.givenAnalysis?))
  nodup : ((analysesCreated log).map (·.id)).Nodup
  get : ∀ record ∈ analysesCreated log, s.answer (.getAnalysis record.id) = .ok (.analysis record)
  get_unknown : ∀ id ∉ (analysesCreated log).map (·.id),
    s.answer (.getAnalysis id) = .error (.unknownId id)

/-- The answers about sessions that go with a history. -/
structure SessionsAnswered (log : List Exchange) (s : Store) : Prop where
  get : ∀ id ∈ sessionsSaved log, ∃ session, lastOf? (sessionsWritten log) id = some session ∧
    s.answer (.getSession id) = .ok (.session session)
  get_unknown : ∀ id ∉ sessionsSaved log, s.answer (.getSession id) = .error (.unknownId id)

/-- Files found by their ids are the files left, since no id occurs twice. -/
theorem FilesKept.answered (h : FilesKept log s) : FilesAnswered log s := by
  have hnodup : ((filesLeft log).map (·.id)).Nodup :=
    h.numbered.nodup.sublist (List.filter_sublist.map _)
  have hsome : ∀ file ∈ filesLeft log, s.files.find? (·.id == file.id) = some file := by
    intro file hfile
    rw [h.files]
    exact find?_of_nodup_keys hnodup hfile
  have hnone : ∀ id ∉ (filesLeft log).map (·.id), s.files.find? (·.id == id) = none := by
    intro id hid
    rw [h.files]
    exact find?_of_notMem_keys hid
  constructor
  case numbered => exact h.numbered
  case nodup => exact h.numbered.nodup
  case list => rw [← h.files]; rfl
  case increasing => exact h.numbered.pairwise.filter _
  case get =>
    intro file hfile
    show (orUnknown _ _).map _ = _
    rw [hsome file hfile]
    rfl
  case get_unknown =>
    intro id hid
    show (orUnknown _ _).map _ = _
    rw [hnone id hid]
    rfl
  case delete =>
    intro file hfile
    rw [answer, apply_deleteFile, hsome file hfile]
  case delete_unknown =>
    intro id hid
    rw [answer, apply_deleteFile, hnone id hid]

theorem AnalysesKept.answered (h : AnalysesKept log s) : AnalysesAnswered log s where
  numbered := h.numbered
  nodup := h.numbered.nodup
  get := by
    intro record hrecord
    show (orUnknown _ _).map _ = _
    rw [h.analyses, find?_of_nodup_keys h.numbered.nodup hrecord]
    rfl
  get_unknown := by
    intro id hid
    show (orUnknown _ _).map _ = _
    rw [h.analyses, find?_of_notMem_keys hid]
    rfl

theorem SessionsKept.answered (h : SessionsKept log s) : SessionsAnswered log s where
  get := by
    intro id hid
    obtain ⟨session, hsession⟩ := Option.isSome_iff_exists.mp ((h.saved id).mpr hid)
    refine ⟨session, hsession, ?_⟩
    show (orUnknown _ _).map _ = _
    rw [h.find, hsession]
    rfl
  get_unknown := by
    intro id hid
    show (orUnknown _ _).map _ = _
    rw [h.find, Option.not_isSome_iff_eq_none.mp (mt (h.saved id).mp hid)]
    rfl

end Answers

/-- Whatever is asked of a store that was empty at first, its answers are those that go with what it
has answered since its last clearing. They do not depend on what was done to other tables, and an
operation that fails leaves the store as it is. -/
theorem answers_since_clear (operations : List Operation) :
    let s := empty.after operations
    let log := sinceClear (empty.history operations)
    FilesAnswered log s ∧ AnalysesAnswered log s ∧ SessionsAnswered log s ∧
      (∀ a, (empty.after (operations.filter fun b => b.isClear ∨ b.table? = a.table?)).answer a
        = s.answer a) ∧
      ∀ a e, s.answer a = .error e → s.next a = s := by
  intro s log
  -- each table by itself, over the same history
  have hfiles : FilesKept log s :=
    kept_after filesKept_empty (fun _ _ _ hclear h => h.next hclear) operations
  have hanalyses : AnalysesKept log s :=
    kept_after analysesKept_empty (fun _ _ _ hclear h => h.next hclear) operations
  have hsessions : SessionsKept log s :=
    kept_after sessionsKept_empty (fun _ _ _ hclear h => h.next hclear) operations
  exact ⟨hfiles.answered, hanalyses.answered, hsessions.answered, answer_after_filter operations,
    fun _ _ => next_of_error⟩

/-- The id of a deleted file is not used again. -/
example :
    let s := empty.after [.createFile "" "a" "", .deleteFile 1, .createFile "" "b" ""]
    s.files.map (·.id) = [2] := by decide

end CellAtlas.Store
