import CellAtlas.Proofs.Wire.Report
import CellAtlas.Service.Api

/-!
# What a request does to the store

A request does one of five things to the store: it leaves the store alone, adds a file, removes one,
records a run, or gives a session another state. `Effect` has a case for each of them, with what is
then known of the request and its response, and `reply_effect` says that every request has an
effect. What holds of a store after any requests follows by cases from it: no other proof looks into
the handlers.

Why a run that has been recorded has been answered, too: its findings read as a report, whatever
they are (`report_toJson`).
-/

namespace CellAtlas

open Wire

/-! ### Arrivals -/

/-- A request with what the clock says while it is served. -/
structure Arrival where
  clock : Clock
  request : Request

/-- A `POST` to a path, with some text in its body. -/
def Arrival.post (path body : String) : Arrival where
  clock := { now := "", elapsedMs := .null }
  request := { method := "POST", path := path.toList, body := body.toUTF8 }

def Arrival.endpoint? (x : Arrival) : Option Endpoint :=
  match Route.resolve x.request.method x.request.path with
  | .endpoint e => some e
  | _ => none

def Endpoint.analyzes : Endpoint → Bool
  | analyze | analyzeStream | analyzeFile _ => true
  | _ => false

namespace Service

variable [Machine]

def reply (service : Service) (store : Store) (x : Arrival) : Reply :=
  service.handle store x.clock x.request

def after (service : Service) (store : Store) (arrivals : List Arrival) : Store :=
  arrivals.foldl (fun store x => (service.reply store x).2) store

end Service

/-! ### Effects -/

/-- A body has a value, and what is read from it is `a`. -/
def Wire.Carries {α : Type} (read : Option Json → Checked α) (body : ByteArray) (a : α) : Prop :=
  ∃ j, bodyValue body = .ok j ∧ read j = .valid a

section Effect

variable [Machine] (service : Service) (store : Store) (x : Arrival)

/-- What a request to an endpoint comes to if it has something analyzed: the file that this is
about, if it is one, and the progress of the run. -/
inductive Service.Runs : Endpoint → Option Int → Progress Analysis → Prop
  | analyze {r : AnalyzeRequest} {p : Progress Analysis}
      (hbody : Carries (requiredBody analyzeRequest) x.request.body r)
      (hrun : service.registry.run (service.analysisOf r.source r.toAnalyzeFileRequest) = .ok p) :
      Runs .analyze none p
  | analyzeStream {r : AnalyzeRequest}
      (hbody : Carries (requiredBody analyzeRequest) x.request.body r) :
      Runs .analyzeStream none
        (service.follow x.clock (service.analysisOf r.source r.toAnalyzeFileRequest)).2
  | analyzeFile {text : String} {id : Int} {file : SourceFile} {r : Option AnalyzeFileRequest}
      {p : Progress Analysis} (hid : pathId "file_id" text = .valid id)
      (hbody : Carries (optionalBody analyzeFileRequest) x.request.body r)
      (hfile : store.getFile id = .ok file)
      (hrun : service.registry.run (service.analysisOf file.content (r.getD {})) = .ok p) :
      Runs (.analyzeFile text) (some id) p

/-- What a request can do to a store, with the reply. -/
inductive Service.Effect : Reply → Prop
  | kept {response : Response}
      (h : ∀ e, x.endpoint? = some e → e.analyzes → response.status ≠ 200) :
      Effect (response, store)
  | fileCreated {response : Response} {name content : String}
      (hendpoint : x.endpoint? = some .createFile) (hstatus : response.status = 200) :
      Effect (response, (store.createFile x.clock.now name content).2)
  | fileDeleted {response : Response} {text : String} {id : Int} {next : Store}
      (hendpoint : x.endpoint? = some (.deleteFile text)) (hstatus : response.status = 200)
      (hdelete : store.deleteFile id = .ok next) :
      Effect (response, next)
  | recorded {response : Response} {e : Endpoint} {fileId : Option Int} {p : Progress Analysis}
      (hendpoint : x.endpoint? = some e) (hruns : service.Runs store x e fileId p)
      (hstatus : response.status = 200) :
      Effect (response, (service.record store x.clock p fileId).2)
  | moved {text : String} {id : Int} {m : Move} {session : Session} {state : PlaybackState}
      (hendpoint : x.endpoint? = some (.moveSession text m))
      (hid : pathId "analysis_id" text = .valid id) (hsession : store.getSession id = .ok session)
      (hmove : session.simulator.move session.state m = .ok state) :
      Effect (({ session with state } : Session).response,
        store.saveSession { session with state })

end Effect

/-! ### Checks -/

theorem Response.malformed_status_ne (issues : List Issue) :
    (Response.malformed issues).status ≠ 200 := by
  unfold Response.malformed
  split
  · simp
  · simp [Response.failure]

/-- A body that cannot be read is never answered with success. -/
theorem Wire.BodyError.response_status_ne (e : BodyError) : e.response.status ≠ 200 := by
  cases e with
  | notJson offset => apply Response.malformed_status_ne
  | unreadable => simp [BodyError.response, Response.refusal]

section Checks

variable {α : Type} {P : Reply → Prop} {store : Store}
  (hrefuse : ∀ response : Response, response.status ≠ 200 → P (response, store))

include hrefuse

/-- A property of all refusals holds of a checked request if it holds where the check passes. -/
theorem Store.ifValid_cases {checked : Checked α} {next : α → Reply}
    (h : ∀ a, checked = .valid a → P (next a)) : P (store.ifValid checked next) := by
  cases checked with
  | valid a => exact h a rfl
  | invalid issues =>
      apply hrefuse
      apply Response.malformed_status_ne

theorem Store.ifRead_cases {body : ByteArray} {next : Option Json → Reply}
    (h : ∀ j, bodyValue body = .ok j → P (next j)) : P (store.ifRead body next) := by
  unfold Store.ifRead
  cases hbody : bodyValue body with
  | ok j => exact h j hbody
  | error e =>
      apply hrefuse
      apply BodyError.response_status_ne

theorem Store.ifFound_cases {found : Except StoreError α} {otherwise : String} {next : α → Reply}
    (h : ∀ a, found = .ok a → P (next a)) : P (store.ifFound found otherwise next) := by
  cases found with
  | ok a => exact h a rfl
  | error e =>
      apply hrefuse
      simp [Response.refusal]

theorem Service.ifWithinLimit_cases {service : Service} {source : String} {next : Unit → Reply}
    (h : P (next ())) : P (service.ifWithinLimit store source next) := by
  unfold Service.ifWithinLimit
  dsimp only
  split
  · apply hrefuse
    simp [Response.refusal]
  · exact h

/-- Where a body has to be there, it is enough to look at one that carries a request. -/
theorem Service.withRequest_cases {d : Decoder α} {body : ByteArray} {next : α → Reply}
    (h : ∀ a, Carries (requiredBody d) body a → P (next a)) :
    P (Service.withRequest store d body next) := by
  apply Store.ifRead_cases hrefuse
  intro j hj
  apply Store.ifValid_cases hrefuse
  intro a ha
  exact h a ⟨j, hj, ha⟩

end Checks

/-! ### Routes -/

namespace Route

/-- No endpoint is there for `HEAD`. -/
theorem ne_head_of_mem_endpointsAt {parts : List String} {found : String × Endpoint}
    (h : found ∈ endpointsAt parts) : found.1 ≠ "HEAD" := by
  unfold endpointsAt at h
  split at h
  all_goals grind

theorem ne_head_of_mem_endpointsOf {path : List Char} {found : String × Endpoint}
    (h : found ∈ endpointsOf path) : found.1 ≠ "HEAD" := by
  unfold endpointsOf at h
  split at h
  · exact ne_head_of_mem_endpointsAt h
  · exact ne_head_of_mem_endpointsAt h

/-- No endpoint is asked for by `HEAD`, so that every response has its body. -/
theorem ne_head_of_resolve {method : String} {path : List Char} {e : Endpoint}
    (h : resolve method path = .endpoint e) : method ≠ "HEAD" := by
  -- an endpoint that a path leads to is one of those listed for it
  have hmem : (method, e) ∈ endpoints path := by
    unfold resolve at h
    dsimp only at h
    split at h
    · cases h
      next hlookup =>
        obtain ⟨before, after, hsplit, -⟩ := List.lookup_eq_some_iff.mp hlookup
        rw [hsplit]
        exact List.mem_append_right before List.mem_cons_self
    · split at h
      · cases h
      · cases h
  unfold endpoints at hmem
  dsimp only at hmem
  split at hmem
  · exact ne_head_of_mem_endpointsOf hmem
  · exact ne_head_of_mem_endpointsOf hmem

end Route

namespace Service

/-! ### Records -/

/-- The result of a recorded run reads as a report on its findings. -/
theorem report?_record (service : Service) (store : Store) (clock : Clock)
    (p : Progress Analysis) (fileId : Option Int) :
    (service.record store clock p fileId).1.report? = some p.state.report.toJson := by
  have hreport : report (service.record store clock p fileId).1.result = .valid p.state.report :=
    report_toJson p.state
  rw [AnalysisRecord.report?, hreport]

/-- The result of a recorded run can be answered. -/
theorem resultJson_record (service : Service) (store : Store) (clock : Clock)
    (p : Progress Analysis) (fileId : Option Int) :
    ∃ j, resultJson clock p (service.record store clock p fileId).1 = some j := by
  simp [resultJson, report?_record]

/-! ### What a request does -/

variable [Machine] {service : Service} {store : Store} {x : Arrival}

theorem reply_of_endpoint {e : Endpoint} (h : x.endpoint? = some e) :
    service.reply store x = service.answer store x.clock x.request.body e := by
  have hresolve : Route.resolve x.request.method x.request.path = .endpoint e := by
    unfold Arrival.endpoint? at h
    split at h
    · next heq => rw [heq, Option.some.inj h]
    · cases h
  unfold reply handle
  rw [hresolve]
  simp only [Response.toMethod, if_neg (Route.ne_head_of_resolve hresolve)]

/-- Where no endpoint is, there is nothing to do. -/
theorem reply_of_no_endpoint (h : x.endpoint? = none) : (service.reply store x).2 = store := by
  unfold Arrival.endpoint? at h
  unfold reply handle
  cases hresolve : Route.resolve x.request.method x.request.path with
  | endpoint e => simp [hresolve] at h
  | methodNotAllowed => rfl
  | notFound => rfl

/-- Analyzing either fails before anything is recorded or records the run. -/
theorem analyze_effect {e : Endpoint} {fileId : Option Int} {a : Analysis}
    (hendpoint : x.endpoint? = some e)
    (hruns : ∀ p, service.registry.run a = .ok p → service.Runs store x e fileId p) :
    service.Effect store x (service.analyze store x.clock a fileId) := by
  unfold analyze
  cases hrun : service.registry.run a with
  | error e =>
      apply Effect.kept
      simp [Response.failure]
  | ok p =>
      -- whatever has been recorded can be read again, so that the answer is a result
      obtain ⟨j, hj⟩ := resultJson_record service store x.clock p fileId
      apply Effect.recorded hendpoint (hruns p hrun)
      show (Response.ofOption
        (resultJson x.clock p (service.record store x.clock p fileId).1)).status = 200
      rw [hj]
      rfl

theorem analyzeStream_effect {a : Analysis} (hendpoint : x.endpoint? = some .analyzeStream)
    (hruns : service.Runs store x .analyzeStream none (service.follow x.clock a).2) :
    service.Effect store x (service.analyzeStream store x.clock a) := by
  obtain ⟨j, hj⟩ := resultJson_record service store x.clock (service.follow x.clock a).2 none
  unfold analyzeStream
  simp only [hj]
  exact .recorded hendpoint hruns rfl

theorem deleteFile_effect {text : String} {id : Int}
    (hendpoint : x.endpoint? = some (.deleteFile text)) :
    service.Effect store x (deleteFile store id) := by
  unfold deleteFile
  cases hdelete : store.deleteFile id with
  | ok next => exact .fileDeleted hendpoint rfl hdelete
  | error e =>
      apply Effect.kept
      simp [Response.refusal]

/-- Moving a session changes its state, if there is one and the movement succeeds. -/
theorem moveSession_effect {text : String} {id : Int} {m : Move}
    (hendpoint : x.endpoint? = some (.moveSession text m))
    (hid : pathId "analysis_id" text = .valid id) :
    service.Effect store x (moveSession store id m) := by
  have hrefuse : ∀ response : Response, response.status ≠ 200 →
      service.Effect store x (response, store) := fun _ h => .kept fun _ _ _ => h
  unfold moveSession
  apply Store.ifFound_cases hrefuse
  intro session hsession
  cases hmove : session.simulator.move session.state m with
  | error e => exact hrefuse _ (by simp [Response.failure])
  | ok state =>
      -- the session is looked up again, and is still there
      simp only [Store.updateState, hsession]
      exact .moved hendpoint hid hsession hmove

/-- Every request has one of the effects. -/
theorem reply_effect (service : Service) (store : Store) (x : Arrival) :
    service.Effect store x (service.reply store x) := by
  have hrefuse : ∀ response : Response, response.status ≠ 200 →
      service.Effect store x (response, store) := fun _ h => .kept fun _ _ _ => h
  cases hendpoint : x.endpoint? with
  | none =>
      rw [← Prod.eta (service.reply store x), reply_of_no_endpoint hendpoint]
      exact .kept (by simp [hendpoint])
  | some e =>
      have hkeep : e.analyzes = false → ∀ response, service.Effect store x (response, store) := by
        intro hanalyzes response
        apply Effect.kept
        simp [hendpoint, hanalyzes]
      -- one case for each endpoint: its checks refuse, and behind them is what it does
      rw [reply_of_endpoint hendpoint]
      cases e with
      | health => exact hkeep rfl _
      | listFiles => exact hkeep rfl _
      | analyze =>
          apply withRequest_cases hrefuse
          intro r hr
          apply ifWithinLimit_cases hrefuse
          exact analyze_effect hendpoint fun p hp => .analyze hr hp
      | analyzeStream =>
          apply withRequest_cases hrefuse
          intro r hr
          apply ifWithinLimit_cases hrefuse
          exact analyzeStream_effect hendpoint (.analyzeStream hr)
      | layOut =>
          apply withRequest_cases hrefuse
          intro r hr
          exact hkeep rfl _
      | createFile =>
          apply withRequest_cases hrefuse
          intro r hr
          apply ifWithinLimit_cases hrefuse
          exact .fileCreated hendpoint rfl
      | getFile text =>
          apply Store.ifValid_cases hrefuse
          intro id hid
          apply Store.ifFound_cases hrefuse
          intro file hfile
          exact hkeep rfl _
      | deleteFile text =>
          apply Store.ifValid_cases hrefuse
          intro id hid
          exact deleteFile_effect hendpoint
      | analyzeFile text =>
          apply Store.ifRead_cases hrefuse
          intro j hj
          apply Store.ifValid_cases hrefuse
          rintro ⟨id, r⟩ h
          simp only [Checked.seq_eq_valid, Checked.map_eq_valid] at h
          obtain ⟨_, _, ⟨_, hid, rfl⟩, hr, hpair⟩ := h
          cases hpair
          apply Store.ifFound_cases hrefuse
          intro file hfile
          exact analyze_effect hendpoint fun p hp => .analyzeFile hid ⟨j, hj, hr⟩ hfile hp
      | latestAnalysis text =>
          apply Store.ifValid_cases hrefuse
          intro id hid
          apply Store.ifFound_cases hrefuse
          intro entry hentry
          exact hkeep rfl _
      | getAnalysis text =>
          apply Store.ifValid_cases hrefuse
          intro id hid
          apply Store.ifFound_cases hrefuse
          intro entry hentry
          exact hkeep rfl _
      | showSession text =>
          apply Store.ifValid_cases hrefuse
          intro id hid
          apply Store.ifFound_cases hrefuse
          intro session hsession
          exact hkeep rfl _
      | moveSession text m =>
          apply Store.ifValid_cases hrefuse
          intro id hid
          exact moveSession_effect hendpoint hid

/-- What every request keeps holds after any requests. -/
theorem after_of_effect {P : Store → Prop}
    (hstep : ∀ store x reply, service.Effect store x reply → P store → P reply.2) (h : P store)
    (arrivals : List Arrival) : P (service.after store arrivals) := by
  induction arrivals generalizing store with
  | nil => exact h
  | cons x rest ih => exact ih (hstep store x _ (service.reply_effect store x) h)

end Service

end CellAtlas
