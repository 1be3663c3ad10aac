import CellAtlas.Proofs.Except
import CellAtlas.Proofs.Service.Effect
import CellAtlas.Proofs.Store.History

/-!
# Analyses and sessions are numbered alike

Each analysis that completes adds one record and one session, and nothing else adds any. So both
tables have the ids `1, …, n` after any requests, where `n` is the number of analyses that have
completed, and a session is found under an id exactly if an analysis is. Records are not touched
again: what has been recorded is answered ever after. The main statement is `analyses_numbered`.
-/

namespace CellAtlas

open Wire

namespace Store

/-! ### Consecutive ids -/

/-- The analyses and the sessions have the ids `1, …, n`. -/
structure CountsTo (store : Store) (n : Nat) : Prop where
  analyses : store.analyses.map (·.id) = firstIds n
  sessions : store.sessions.map (·.analysisId) = firstIds n
  nextAnalysisId : store.nextAnalysisId = n + 1

namespace CountsTo

variable {store : Store} {n : Nat}

/-- The next id has not been used. -/
theorem nextAnalysisId_notMem (h : store.CountsTo n) : store.nextAnalysisId ∉ firstIds n := by
  intro hmem
  have hle := le_of_mem_firstIds hmem
  have hnext := h.nextAnalysisId
  omega

/-- Where the ids are the same, so is what is found. -/
theorem getSession_iff (h : store.CountsTo n) (id : Int) :
    (∃ session, store.getSession id = .ok session) ↔
      ∃ record, store.getAnalysis id = .ok record := by
  simp only [getSession, getAnalysis, orUnknown_eq_ok, ← Option.isSome_iff_exists,
    List.find?_isSome, beq_iff_eq]
  have hids := h.sessions.trans h.analyses.symm
  have hmem : id ∈ store.sessions.map (·.analysisId) ↔ id ∈ store.analyses.map (·.id) := by
    rw [hids]
  simpa using hmem

/-- A run that is recorded takes the next id in both tables. -/
theorem record (h : store.CountsTo n) (service : Service) (clock : Clock) (p : Progress Analysis)
    (fileId : Option Int) : (service.record store clock p fileId).2.CountsTo (n + 1) where
  analyses := by
    simp [Service.record, Store.createAnalysis, saveSession, h.analyses, firstIds_succ,
      h.nextAnalysisId]
  sessions := by
    simp only [Service.record, Store.createAnalysis, saveSession]
    rw [replaceSession_of_notMem (by simpa [h.sessions] using h.nextAnalysisId_notMem),
      List.map_append, h.sessions, firstIds_succ, ← h.nextAnalysisId]
    rfl
  nextAnalysisId := by
    simp [Service.record, Store.createAnalysis, saveSession, h.nextAnalysisId]

end CountsTo

end Store

/-! ### Requests one after the other -/

/-- An analysis was asked for, and the response says that it has been done. -/
def completesAnalysis (exchange : Arrival × Response) : Bool :=
  exchange.1.endpoint?.any (·.analyzes) && exchange.2.status == 200

theorem completesAnalysis_of_not_analyzes {x : Arrival} {e : Endpoint} {response : Response}
    (h : x.endpoint? = some e) (he : e.analyzes = false) :
    ¬ completesAnalysis (x, response) = true := by
  simp [completesAnalysis, h, he]

theorem Response.ofOption_status_ne (j : Option Json) : (ofOption j).status ≠ 404 := by
  cases j with
  | none => simp [ofOption, failure]
  | some j => simp [ofOption, ok]

theorem Session.response_status_ne [Machine] (s : Session) : s.response.status ≠ 404 :=
  Response.ofOption_status_ne _

theorem AnalysisRecord.response_status_ne (r : AnalysisRecord) : r.response.status ≠ 404 :=
  Response.ofOption_status_ne _

namespace Service

variable {service : Service} {store : Store} {x : Arrival} {reply : Reply}

/-- Nothing is found under an id that is none of the store's. -/
theorem status_ifFound {α : Type} {found : Except StoreError α} {otherwise : String}
    {next : α → Response} (hnext : ∀ a, (next a).status ≠ 404) :
    (store.ifFound found otherwise fun a => (next a, store)).1.status = 404 ↔
      ¬ ∃ a, found = .ok a := by
  cases found with
  | error e => simp [Store.ifFound, Response.refusal]
  | ok a => simpa [Store.ifFound] using hnext a

theorem Runs.analyzes {e : Endpoint} {fileId : Option Int} {p : Progress Analysis}
    (h : service.Runs store x e fileId p) : e.analyzes = true := by
  cases h <;> rfl

variable [Machine]

/-- The requests with the responses that they get one after the other. -/
def transcript (service : Service) (store : Store) : List Arrival → List (Arrival × Response)
  | [] => []
  | x :: rest =>
    let reply := service.reply store x
    (x, reply.1) :: transcript service reply.2 rest

/-- One request adds one to the count if it completes an analysis, and nothing otherwise. -/
theorem Effect.countsTo {n : Nat} (heffect : service.Effect store x reply) (h : store.CountsTo n) :
    reply.2.CountsTo (if completesAnalysis (x, reply.1) then n + 1 else n) := by
  cases heffect with
  | @kept response hstatus =>
      have hkept : ¬ completesAnalysis (x, response) = true := by
        simpa [completesAnalysis, Option.any_eq_true] using hstatus
      rwa [if_neg hkept]
  | fileCreated hendpoint _ =>
      rw [if_neg (completesAnalysis_of_not_analyzes hendpoint rfl)]
      exact ⟨h.analyses, h.sessions, h.nextAnalysisId⟩
  | fileDeleted hendpoint _ hdelete =>
      obtain ⟨file, -, rfl⟩ := map_eq_ok.mp hdelete
      rw [if_neg (completesAnalysis_of_not_analyzes hendpoint rfl)]
      exact ⟨h.analyses, h.sessions, h.nextAnalysisId⟩
  | recorded hendpoint hruns hstatus =>
      rw [if_pos (by simp [completesAnalysis, hendpoint, hruns.analyzes, hstatus])]
      exact h.record ..
  | @moved text id m session state hendpoint _ hsession _ =>
      have hmem : ({ session with state } : Session).analysisId ∈
          store.sessions.map (·.analysisId) :=
        List.mem_map.mpr ⟨session, (Store.mem_of_getSession hsession).1, rfl⟩
      -- a session that moves keeps its place and its id
      rw [if_neg (completesAnalysis_of_not_analyzes hendpoint rfl)]
      refine ⟨h.analyses, ?_, h.nextAnalysisId⟩
      show (Store.replaceSession { session with state } store.sessions).map (·.analysisId) = _
      rw [Store.map_replaceSession_of_mem hmem, h.sessions]

/-- No request changes an analysis that has been recorded. -/
theorem Effect.analyses_grow (heffect : service.Effect store x reply) :
    store.analyses <+: reply.2.analyses := by
  cases heffect with
  | kept | fileCreated | moved => exact List.prefix_rfl
  | fileDeleted _ _ hdelete =>
      obtain ⟨file, -, rfl⟩ := map_eq_ok.mp hdelete
      exact List.prefix_rfl
  | recorded => exact List.prefix_append ..

/-- Requests add as many analyses and sessions as complete. -/
theorem after_countsTo {n : Nat} (h : store.CountsTo n) (arrivals : List Arrival) :
    (service.after store arrivals).CountsTo
      (n + (service.transcript store arrivals).countP completesAnalysis) := by
  induction arrivals generalizing store n with
  | nil => exact h
  | cons x rest ih =>
      have hrest := ih ((service.reply_effect store x).countsTo h)
      rw [transcript, List.countP_cons]
      split at hrest <;> simp_all [after, Nat.add_assoc, Nat.add_comm]

theorem after_analyses_grow (store : Store) (arrivals : List Arrival) :
    store.analyses <+: (service.after store arrivals).analyses := by
  refine after_of_effect (P := fun later => store.analyses <+: later.analyses) ?_ List.prefix_rfl
    arrivals
  intro later x reply heffect hgrown
  exact hgrown.trans heffect.analyses_grow

theorem after_append (store : Store) (before later : List Arrival) :
    service.after store (before ++ later) = service.after (service.after store before) later :=
  List.foldl_append

/-! ### Answers -/

/-- Showing a session changes nothing, and is refused if there is none. -/
theorem reply_showSession {text : String} (h : x.endpoint? = some (.showSession text)) :
    service.reply store x =
      store.ifValid (pathId "analysis_id" text) fun id =>
        store.ifFound (store.getSession id) "Playback session not found" fun session =>
          (session.response, store) :=
  reply_of_endpoint h

theorem reply_getAnalysis {text : String} (h : x.endpoint? = some (.getAnalysis text)) :
    service.reply store x =
      store.ifValid (pathId "analysis_id" text) fun id =>
        store.ifFound (store.getAnalysis id) "Analysis not found" fun entry =>
          (entry.response, store) :=
  reply_of_endpoint h

/-- Asking for a session and asking for an analysis find something under the same ids. -/
theorem status_showSession_iff {n : Nat} (h : store.CountsTo n) {y : Arrival} {text : String}
    (hx : x.endpoint? = some (.showSession text)) (hy : y.endpoint? = some (.getAnalysis text)) :
    (service.reply store x).1.status = 404 ↔ (service.reply store y).1.status = 404 := by
  rw [reply_showSession hx, reply_getAnalysis hy]
  cases pathId "analysis_id" text with
  | invalid issues => rfl
  | valid id =>
      simp only [Store.ifValid]
      rw [status_ifFound Session.response_status_ne,
        status_ifFound AnalysisRecord.response_status_ne, h.getSession_iff]

/-- What completes an analysis has recorded it, under the next id. -/
theorem Effect.getAnalysis {n : Nat} (heffect : service.Effect store x reply)
    (h : store.CountsTo n) (hcompletes : completesAnalysis (x, reply.1)) :
    ∃ e fileId p, x.endpoint? = some e ∧ service.Runs store x e fileId p ∧
      reply.2.getAnalysis (n + 1) = .ok {
        id := n + 1, fileId, result := p.state.toJson, errors := p.errors
        createdAt := x.clock.now } := by
  cases heffect with
  | kept hstatus =>
      rw [completesAnalysis, Bool.and_eq_true, Option.any_eq_true, beq_iff_eq] at hcompletes
      obtain ⟨⟨e, hendpoint, hanalyzes⟩, hok⟩ := hcompletes
      exact absurd hok (hstatus e hendpoint hanalyzes)
  | fileCreated hendpoint | fileDeleted hendpoint | moved hendpoint =>
      exact absurd hcompletes (completesAnalysis_of_not_analyzes hendpoint rfl)
  | @recorded response e fileId p hendpoint hruns =>
      refine ⟨e, fileId, p, hendpoint, hruns, ?_⟩
      -- the id is new, so that it is this analysis that is found under it
      have hnew : (n : Int) + 1 ∉ store.analyses.map (·.id) := by
        rw [h.analyses, ← h.nextAnalysisId]
        exact h.nextAnalysisId_notMem
      rw [Store.getAnalysis, Store.orUnknown_eq_ok]
      show (store.analyses ++ [_]).find? _ = _
      rw [List.find?_append, find?_of_notMem_keys hnew]
      simp [h.nextAnalysisId]

end Service

/-- Whatever is asked of a store that was empty at first, the analyses and the sessions have the ids
from 1 to the number of the analyses that have completed, and either is found where the other is.
An analysis that has completed was run on what the request was about, and what came of it is
answered under its id from then on. -/
theorem analyses_numbered [Machine] (service : Service) (arrivals : List Arrival) :
    let completedBy := fun arrivals => (service.transcript .empty arrivals).countP completesAnalysis
    let store := service.after .empty arrivals
    (store.analyses.map (·.id) = Store.firstIds (completedBy arrivals) ∧
      store.sessions.map (·.analysisId) = Store.firstIds (completedBy arrivals)) ∧
    (∀ (x y : Arrival) (text : String), x.endpoint? = some (.showSession text) →
      y.endpoint? = some (.getAnalysis text) →
      ((service.reply store x).1.status = 404 ↔ (service.reply store y).1.status = 404)) ∧
    ∀ before x later, arrivals = before ++ x :: later →
      completesAnalysis (x, (service.reply (service.after .empty before) x).1) →
      ∃ e fileId p, x.endpoint? = some e ∧ service.Runs (service.after .empty before) x e fileId p ∧
        ∀ (y : Arrival) (text : String), y.endpoint? = some (.getAnalysis text) →
          pathId "analysis_id" text = .valid (completedBy before + 1) →
          service.reply store y = (AnalysisRecord.response {
            id := completedBy before + 1, fileId, result := p.state.toJson, errors := p.errors
            createdAt := x.clock.now }, store) := by
  intro completedBy store
  have hempty : Store.CountsTo .empty 0 := ⟨rfl, rfl, rfl⟩
  have hcounts : ∀ arrivals, (service.after .empty arrivals).CountsTo (completedBy arrivals) := by
    intro arrivals
    simpa using service.after_countsTo hempty arrivals
  refine ⟨⟨(hcounts arrivals).analyses, (hcounts arrivals).sessions⟩, ?_, ?_⟩
  · intro x y text hx hy
    exact Service.status_showSession_iff (hcounts arrivals) hx hy
  · rintro before x later rfl hcompletes
    obtain ⟨e, fileId, p, hendpoint, hruns, hrecord⟩ :=
      (service.reply_effect _ x).getAnalysis (hcounts before) hcompletes
    -- later requests only add to the analyses
    have hgrown :
        (service.reply (service.after .empty before) x).2.analyses <+: store.analyses := by
      show _ <+: (service.after .empty (before ++ x :: later)).analyses
      rw [Service.after_append]
      exact Service.after_analyses_grow _ later
    have hlater := Store.getAnalysis_of_grown hgrown hrecord
    refine ⟨e, fileId, p, hendpoint, hruns, ?_⟩
    intro y text hy hid
    rw [Service.reply_getAnalysis hy, hid, Store.ifValid, hlater, Store.ifFound]

/-- A service without stages completes what it is asked to analyze. -/
example :
    let service : Service :=
      { config := {}, registry := .empty, stagesRegistered := 0, maxSourceBytes := 64 }
    (service.transcript .empty [.post "/api/analyze" "\x7b\"source\": \"\"\x7d",
      .post "/api/playback/1/forward" ""]).countP completesAnalysis = 1 := by
  decide +kernel

end CellAtlas
