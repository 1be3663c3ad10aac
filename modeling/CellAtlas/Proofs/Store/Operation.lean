import CellAtlas.Store.Basic

/-!
# Operations on the store

Everything that can be asked of a store, as data, so that we can speak of sequences of operations.
An operation that fails changes nothing (`next_of_error`), and what is done to one table is not seen
in another one: a table comes from its own operations (`only_after`), and so do the answers from it
(`answer_after_filter`).
-/

namespace CellAtlas.Store

/-- A table of the store, with its counter if it has one. -/
inductive Table where
  | files
  | analyses
  | sessions
deriving DecidableEq, Repr

/-- What can be asked of a store. The creations come with the time at which they happen. -/
inductive Operation where
  | createFile (now name content : String)
  | getFile (id : Int)
  | listFiles
  | deleteFile (id : Int)
  | createAnalysis (now : String) (result : Json) (fileId : Option Int)
      (errors : List (String × String))
  | getAnalysis (id : Int)
  | latestAnalysis (fileId : Int)
  | saveSession (session : Session)
  | getSession (analysisId : Int)
  | updateState (analysisId : Int) (state : PlaybackState)
  | clear

namespace Operation

def isClear : Operation → Bool
  | clear => true
  | _ => false

/-- The table that an operation is about. Only the clearing is about all of them. -/
def table? : Operation → Option Table
  | createFile .. | getFile _ | listFiles | deleteFile _ => some .files
  | createAnalysis .. | getAnalysis _ | latestAnalysis _ => some .analyses
  | saveSession _ | getSession _ | updateState .. => some .sessions
  | clear => none

/-- Every operation but the clearing is about one table. -/
theorem exists_table {a : Operation} (h : ¬ a.isClear) : ∃ t, a.table? = some t := by
  cases a with
  | clear => exact absurd rfl h
  | _ => exact ⟨_, rfl⟩

end Operation

/-- What a store answers when it does not fail. -/
inductive Answer where
  | done
  | file (file : SourceFile)
  | files (files : List SourceFile)
  | analysis (record : AnalysisRecord)
  | session (session : Session)

/-- The answer to an operation, and the store after it. -/
def apply (s : Store) : Operation → Except StoreError Answer × Store
  | .createFile now name content =>
    let (file, s) := s.createFile now name content
    (.ok (.file file), s)
  | .getFile id => ((s.getFile id).map .file, s)
  | .listFiles => (.ok (.files s.files), s)
  | .deleteFile id =>
    match s.deleteFile id with
    | .ok s => (.ok .done, s)
    | .error e => (.error e, s)
  | .createAnalysis now result fileId errors =>
    let (record, s) := s.createAnalysis now result fileId errors
    (.ok (.analysis record), s)
  | .getAnalysis id => ((s.getAnalysis id).map .analysis, s)
  | .latestAnalysis fileId => ((s.latestAnalysis fileId).map .analysis, s)
  | .saveSession session => (.ok .done, s.saveSession session)
  | .getSession analysisId => ((s.getSession analysisId).map .session, s)
  | .updateState analysisId state =>
    match s.updateState analysisId state with
    | .ok (session, s) => (.ok (.session session), s)
    | .error e => (.error e, s)
  | .clear => (.ok .done, empty)

def answer (s : Store) (a : Operation) : Except StoreError Answer := (s.apply a).1

def next (s : Store) (a : Operation) : Store := (s.apply a).2

def after (s : Store) (operations : List Operation) : Store := operations.foldl next s

/-! ### Writes that need an entry -/

section Cases

variable (s : Store) (id : Int)

theorem apply_deleteFile : s.apply (.deleteFile id) =
    match s.files.find? (·.id == id) with
    | some _ => (.ok .done, { s with files := s.files.filter (·.id != id) })
    | none => (.error (.unknownId id), s) := by
  rw [apply, deleteFile, getFile]
  cases s.files.find? (·.id == id) <;> rfl

theorem apply_updateState (state : PlaybackState) : s.apply (.updateState id state) =
    match s.sessions.find? (·.analysisId == id) with
    | some session => (.ok (.session { session with state }), s.saveSession { session with state })
    | none => (.error (.unknownId id), s) := by
  rw [apply, updateState, getSession]
  cases s.sessions.find? (·.analysisId == id) <;> rfl

end Cases

/-- An operation that fails leaves all tables and counters as they are. -/
theorem next_of_error {s : Store} {a : Operation} {e : StoreError} (h : s.answer a = .error e) :
    s.next a = s := by
  cases a with
  | createFile => cases h
  | createAnalysis => cases h
  | saveSession => cases h
  | clear => cases h
  -- only these two look for an entry before they write
  | deleteFile id =>
      rw [answer, apply_deleteFile] at h
      rw [next, apply_deleteFile]
      split at h
      · cases h
      · rfl
  | updateState id state =>
      rw [answer, apply_updateState] at h
      rw [next, apply_updateState]
      split at h
      · cases h
      · rfl
  | _ => rfl

/-! ### One table at a time -/

/-- A store with the entries of one table, and nothing in the others. -/
def only (s : Store) : Table → Store
  | .files => { empty with files := s.files, nextFileId := s.nextFileId }
  | .analyses => { empty with analyses := s.analyses, nextAnalysisId := s.nextAnalysisId }
  | .sessions => { empty with sessions := s.sessions }

theorem only_empty (t : Table) : empty.only t = empty := by
  cases t <;> rfl

/-- What is done to a table leaves the others alone. -/
theorem only_next_of_ne {a : Operation} {t u : Table} (s : Store) (h : a.table? = some u)
    (hne : t ≠ u) : (s.next a).only t = s.only t := by
  cases a with
  | deleteFile id =>
      cases h
      rw [next, apply_deleteFile]
      split
      · cases t with
        | files => exact absurd rfl hne
        | _ => rfl
      · rfl
  | updateState id state =>
      cases h
      rw [next, apply_updateState]
      split
      · cases t with
        | sessions => exact absurd rfl hne
        | _ => rfl
      · rfl
  | createFile =>
      cases h
      cases t with
      | files => exact absurd rfl hne
      | _ => rfl
  | createAnalysis =>
      cases h
      cases t with
      | analyses => exact absurd rfl hne
      | _ => rfl
  | saveSession =>
      cases h
      cases t with
      | sessions => exact absurd rfl hne
      | _ => rfl
  | clear => cases h
  | _ => rfl

/-- An operation on a table needs no other one. -/
theorem apply_only {a : Operation} {t : Table} (s : Store) (h : a.table? = some t) :
    (s.only t).apply a = (s.answer a, (s.next a).only t) := by
  cases a with
  | deleteFile id =>
      cases h
      rw [answer, next, apply_deleteFile, apply_deleteFile]
      show (match s.files.find? (·.id == id) with | some _ => _ | none => _) = _
      split <;> rfl
  | updateState id state =>
      cases h
      rw [answer, next, apply_updateState, apply_updateState]
      show (match s.sessions.find? (·.analysisId == id) with | some _ => _ | none => _) = _
      split <;> rfl
  | clear => cases h
  | _ => cases h; rfl

/-- An operation on a table, or on all of them, does to it what it does where there is no other. -/
theorem only_next {a : Operation} {t : Table} (s : Store) (h : a.isClear ∨ a.table? = some t) :
    (s.next a).only t = (s.only t).next a := by
  rcases h with h | h
  · cases a with
    | clear => exact only_empty t
    | _ => cases h
  · show _ = ((s.only t).apply a).2
    rw [apply_only s h]

/-- What stands in a table comes from the operations on that table, and from the clearings. -/
theorem only_after (s : Store) (operations : List Operation) (t : Table) :
    (s.after operations).only t =
      (s.only t).after (operations.filter fun a => a.isClear ∨ a.table? = some t) := by
  induction operations generalizing s with
  | nil => rfl
  | cons a operations ih =>
      show ((s.next a).after operations).only t = _
      rw [ih, List.filter_cons]
      -- another table's operation is filtered out, and has not touched this one
      by_cases h : a.isClear ∨ a.table? = some t
      · rw [if_pos (decide_eq_true h), only_next s h]
        rfl
      · rw [not_or] at h
        obtain ⟨u, hu⟩ := Operation.exists_table h.1
        have hne : t ≠ u := by
          rintro rfl
          exact h.2 hu
        rw [if_neg (by simp [h]), only_next_of_ne s hu hne]

/-- The answer to an operation is the same without all operations on other tables. -/
theorem answer_after_filter (operations : List Operation) (a : Operation) :
    (empty.after (operations.filter fun b => b.isClear ∨ b.table? = a.table?)).answer a =
      (empty.after operations).answer a := by
  by_cases hclear : a.isClear
  · cases a with
    | clear => rfl
    | _ => cases hclear
  · obtain ⟨t, ht⟩ := Operation.exists_table hclear
    -- the table `t` of the one run is the table `t` of the other, and `a` reads nothing else
    have htable := only_after empty operations t
    rw [only_empty] at htable
    rw [ht, ← htable, answer, apply_only _ ht]

end CellAtlas.Store
