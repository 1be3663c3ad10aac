import CellAtlas.Proofs.Analysis.Finished
import CellAtlas.Proofs.Playback.Fading
import CellAtlas.Proofs.Playback.Script
import CellAtlas.Proofs.Service.Numbering

/-!
# Playing back completed runs

Each recorded run has a session of its own. Whatever is asked of the service, the session keeps its
steps, and its state is one that movements lead to from the start (`Session.Plays`); a request that
is about one session leaves the others alone. What a session shows follows from that and from what
is known of a completed run (`Plays.shows`). The main statement is `sessions_shown`.
-/

namespace CellAtlas

open Wire

/-! ### What a session shows -/

namespace Session

/-- The session was opened for some findings, and movements have led to its state. -/
structure Plays (s : Session) (a : Analysis) : Prop where
  steps : s.steps = a.steps
  totalSteps : s.simulator.totalSteps = a.steps.length
  seed : s.simulator.seed = a.seed
  state : s.simulator.LeadsTo (s.simulator.start a.grid) s.state

/-- What a session shows of some findings: one of the steps, if there are any, and the cells where
they were, with a text and statistics that agree. -/
structure Shows [Machine] (s : Session) (a : Analysis) : Prop where
  steps : s.steps = a.steps
  totalSteps : s.state.totalSteps = s.steps.length
  cursor : 0 ≤ s.state.step ∧ s.state.step ≤ max 0 ((s.steps.length : Int) - 1)
  description : (s.steps = [] ∧ s.description = "") ∨
    ∃ step, s.steps[s.state.step.toNat]? = some step ∧ s.description = step.description ∧
      s.description ≠ ""
  spots : s.state.grid.map Cell.spot = a.grid.map Cell.spot
  response : ∃ text, gridText s.state.grid = .ok text ∧
    (GridStats.ofCells s.state.grid).ShownBy text ∧
    s.response = .ok (.obj [("analysisId", .int s.analysisId), ("step", .int s.state.step),
      ("totalSteps", .int s.state.totalSteps), ("description", .str s.description),
      ("grid", .ofCells s.state.grid), ("gridText", .str text),
      ("stats", (GridStats.ofCells s.state.grid).toJson)])

variable {s : Session} {a : Analysis}

/-- Without steps nothing is described. -/
theorem description_of_nil (h : s.steps = []) : s.description = "" := by
  simp [description, h]

theorem description_of_getElem? {step : Step} (h0 : 0 ≤ s.state.step)
    (h : s.steps[s.state.step.toNat]? = some step) : s.description = step.description := by
  rw [description, if_neg (Int.not_lt.mpr h0), h]

namespace Plays

/-- The cursor of a session has come from the first step by movements. -/
theorem inRange (h : s.Plays a) : s.simulator.InRange s.state :=
  h.state.inRange ⟨Int.le_refl 0, s.simulator.lastStep_nonneg⟩

theorem withState (h : s.Plays a) {state : PlaybackState}
    (hstate : s.simulator.LeadsTo s.state state) : ({ s with state } : Session).Plays a where
  steps := h.steps
  totalSteps := h.totalSteps
  seed := h.seed
  state := h.state.trans hstate

/-- A session of finished findings shows one of their steps on their grid. -/
theorem shows [Machine] (h : s.Plays a) (ha : a.Finished) : s.Shows a := by
  have hlength : s.steps.length = s.simulator.totalSteps := by rw [h.steps, h.totalSteps]
  have hcursor := h.inRange
  rw [Simulator.InRange, Simulator.lastStep, ← hlength] at hcursor
  -- movements keep the spots, and for these alone there is a text
  have hspots := h.state.fades.spots
  obtain ⟨text, htext⟩ := Drawable.of_spots ⟨_, ha.text⟩ hspots
  have hcount := count_symbol_gridText (hspots.trans ha.spots) htext
  refine ⟨h.steps, ?_, hcursor, ?_, hspots, text, htext, GridStats.ofCells_shownBy hcount, ?_⟩
  · rw [h.state.totalSteps, hlength]
    rfl
  -- with steps the cursor is at one of them, and no step has an empty description
  · by_cases hsteps : s.steps = []
    · exact .inl ⟨hsteps, description_of_nil hsteps⟩
    · have hpos : 0 < s.steps.length := List.length_pos_iff.mpr hsteps
      have hlt : s.state.step.toNat < s.steps.length := by omega
      have hstep := List.getElem?_eq_getElem hlt
      have hdescription := description_of_getElem? hcursor.1 hstep
      have hmem : s.steps[s.state.step.toNat] ∈ script a.structures := by
        rw [← ha.steps, ← h.steps]
        exact List.getElem_mem hlt
      exact .inr ⟨_, hstep, hdescription, hdescription ▸ description_ne_empty hmem⟩
  · simp [Session.response, Json.ofGrid?, htext, Response.ofOption]

end Plays

end Session

/-- A run of the built-in stages in which none has failed, with the time at which it is recorded and
the file that it is about, if it is one. -/
structure CompletedRun [Machine] where
  clock : Clock
  fileId : Option Int
  start : Analysis
  progress : Progress Analysis
  run_eq : Builtin.registry.run start = .ok progress
  errors_eq : progress.errors = []

/-! ### Sessions in the store -/

namespace Service

variable {service : Service} {store : Store} {x : Arrival} {reply : Reply} {n : Nat} {id : Int}

def opened (service : Service) (a : Analysis) (id : Int) : Session :=
  let simulator := Simulator.ofTotal a.totalSteps a.seed service.config.mutationProbability
  { analysisId := id, simulator, state := simulator.start a.grid, steps := a.steps }

/-- A session starts at its first state. -/
theorem opened_plays (a : Analysis) : (service.opened a id).Plays a :=
  ⟨rfl, Int.toNat_natCast _, rfl, .refl _⟩

theorem getSession_saveSession (session : Session) :
    (store.saveSession session).getSession id =
      if session.analysisId = id then .ok session else store.getSession id := by
  show Store.orUnknown id ((Store.replaceSession session store.sessions).find? _) = _
  rw [Store.find?_replaceSession]
  split <;> rfl

/-- Recording a run opens one session, under the id of the run. -/
theorem getSession_record (clock : Clock) (p : Progress Analysis) (fileId : Option Int) :
    (service.record store clock p fileId).2.getSession id =
      if store.nextAnalysisId = id then .ok (service.opened p.state id)
      else store.getSession id := by
  show ((store.createAnalysis clock.now p.state.toJson fileId p.errors).2.saveSession
    (service.opened p.state store.nextAnalysisId)).getSession id = _
  rw [getSession_saveSession]
  by_cases h : store.nextAnalysisId = id
  · subst h
    rfl
  · rw [if_neg h]
    exact if_neg h

/-- A session that is there has another id than the next one. -/
theorem ne_nextAnalysisId (h : store.CountsTo n) {session : Session}
    (hsession : store.getSession id = .ok session) : store.nextAnalysisId ≠ id := by
  obtain ⟨hmem, rfl⟩ := Store.mem_of_getSession hsession
  intro hid
  apply h.nextAnalysisId_notMem
  rw [hid, ← h.sessions]
  exact List.mem_map_of_mem hmem

variable [Machine]

/-- Of a session that is there a request changes at most the state, by a movement. -/
theorem Effect.getSession (heffect : service.Effect store x reply) (h : store.CountsTo n)
    {session : Session} (hsession : store.getSession id = .ok session) :
    ∃ state, reply.2.getSession id = .ok { session with state } ∧
      session.simulator.LeadsTo session.state state := by
  cases heffect with
  | kept | fileCreated => exact ⟨session.state, hsession, .refl _⟩
  | fileDeleted _ _ hdelete =>
      obtain ⟨file, -, rfl⟩ := map_eq_ok.mp hdelete
      exact ⟨session.state, hsession, .refl _⟩
  | recorded =>
      refine ⟨session.state, ?_, .refl _⟩
      rw [getSession_record, if_neg (ne_nextAnalysisId h hsession)]
      exact hsession
  | @moved _ _ _ found state _ _ hfound hmove =>
      obtain ⟨-, rfl⟩ := Store.mem_of_getSession hfound
      rw [getSession_saveSession]
      -- it is this session that has moved, or another one
      by_cases hid : found.analysisId = id
      · subst hid
        cases hfound.symm.trans hsession
        exact ⟨state, if_pos rfl, Simulator.leadsTo_of_move hmove⟩
      · exact ⟨session.state, by rw [if_neg hid]; exact hsession, .refl _⟩

/-- Of a session that is there any requests change at most the state, by movements. -/
theorem after_getSession (h : store.CountsTo n) {session : Session}
    (hsession : store.getSession id = .ok session) (arrivals : List Arrival) :
    ∃ state, (service.after store arrivals).getSession id = .ok { session with state } ∧
      session.simulator.LeadsTo session.state state := by
  induction arrivals generalizing store n session with
  | nil => exact ⟨session.state, hsession, .refl _⟩
  | cons x rest ih =>
      have heffect := service.reply_effect store x
      obtain ⟨state, hstate, hleads⟩ := heffect.getSession h hsession
      obtain ⟨later, hlater, hleads'⟩ := ih (heffect.countsTo h) hstate
      exact ⟨later, hlater, hleads.trans hleads'⟩

/-! ### Completed runs -/

/-- The store after runs have been recorded one after the other. -/
def openSessions (service : Service) (runs : List CompletedRun) : Store :=
  runs.foldl (fun store r => (service.record store r.clock r.progress r.fileId).2) .empty

theorem openSessions_append_singleton (runs : List CompletedRun) (r : CompletedRun) :
    service.openSessions (runs ++ [r]) =
      (service.record (service.openSessions runs) r.clock r.progress r.fileId).2 := by
  rw [openSessions, List.foldl_append]
  rfl

/-- As many sessions are opened as there are runs. -/
theorem openSessions_countsTo (service : Service) (runs : List CompletedRun) :
    (service.openSessions runs).CountsTo runs.length := by
  induction runs using List.reverseRecOn with
  | nil => exact ⟨rfl, rfl, rfl⟩
  | append_singleton runs r ih =>
      rw [openSessions_append_singleton, List.length_append]
      exact ih.record ..

/-- Each run has its session, under the number of the run. -/
theorem getSession_openSessions {runs : List CompletedRun} {i : Nat} {r : CompletedRun}
    (h : runs[i]? = some r) :
    (service.openSessions runs).getSession (i + 1) =
      .ok (service.opened r.progress.state (i + 1)) := by
  induction runs using List.reverseRecOn with
  | nil => cases h
  | append_singleton runs last ih =>
      have hnext := (service.openSessions_countsTo runs).nextAnalysisId
      rw [openSessions_append_singleton, getSession_record, hnext]
      -- the session of an earlier run is still there, that of the last one has just been opened
      by_cases hi : i < runs.length
      · rw [List.getElem?_append_left hi] at h
        rw [if_neg (by omega)]
        exact ih h
      · obtain rfl : i = runs.length := by
          have hlt := (List.getElem?_eq_some_iff.mp h).1
          rw [List.length_append, List.length_singleton] at hlt
          omega
        rw [List.getElem?_concat_length, Option.some.injEq] at h
        rw [if_pos rfl, h]

/-! ### Requests about sessions -/

end Service

/-- The request asks for a session, to show it or to move it. -/
def Arrival.AsksFor (x : Arrival) (id : Int) : Prop :=
  ∃ text, pathId "analysis_id" text = .valid id ∧
    (x.endpoint? = some (.showSession text) ∨ ∃ m, x.endpoint? = some (.moveSession text m))

namespace Service

variable [Machine] {service : Service} {store other : Store} {x : Arrival} {id : Int} {m : Move}
  {session : Session} {state : PlaybackState}

/-- A request for a session is answered by one of two handlers. -/
theorem reply_of_asksFor (h : x.AsksFor id) :
    (∀ service store, reply service store x =
      store.ifFound (store.getSession id) "Playback session not found" fun session =>
        (session.response, store)) ∨
    ∃ m, ∀ service store, reply service store x = moveSession store id m := by
  obtain ⟨text, hid, hshow | ⟨m, hmove⟩⟩ := h
  · left
    intro service store
    rw [reply_showSession hshow, hid]
    rfl
  · right
    refine ⟨m, ?_⟩
    intro service store
    rw [reply_of_endpoint hmove]
    simp only [answer, hid, Store.ifValid]

/-- A movement that succeeds is saved and shown. -/
theorem moveSession_of_ok (hsession : store.getSession id = .ok session)
    (hmove : session.simulator.move session.state m = .ok state) :
    moveSession store id m =
      (({ session with state } : Session).response, store.saveSession { session with state }) := by
  simp only [moveSession, Store.ifFound, hsession, hmove, Store.updateState, Except.map]

/-- A request for a session is answered by the session that it leaves behind. -/
theorem reply_asksFor (h : x.AsksFor id) (hsession : store.getSession id = .ok session)
    (hseed : ∃ g, Random.Generator.ofSeed session.simulator.seed = .ok g) :
    ∃ state, session.simulator.LeadsTo session.state state ∧
      (service.reply store x).1 = ({ session with state } : Session).response ∧
      (service.reply store x).2.getSession id = .ok { session with state } := by
  obtain hshow | ⟨m, hmove⟩ := reply_of_asksFor h
  · rw [hshow, hsession]
    exact ⟨session.state, .refl _, rfl, hsession⟩
  · obtain ⟨state, hstate⟩ := Simulator.exists_move hseed session.state m
    obtain ⟨-, hid⟩ := Store.mem_of_getSession hsession
    rw [hmove, moveSession_of_ok hsession hstate]
    exact ⟨state, Simulator.leadsTo_of_move hstate, rfl,
      (getSession_saveSession _).trans (if_pos hid)⟩

/-- The response to a request for a session depends on that session alone. -/
theorem response_asksFor (h : x.AsksFor id) (hsession : store.getSession id = other.getSession id) :
    (service.reply store x).1 = (service.reply other x).1 := by
  obtain hshow | ⟨m, hmove⟩ := reply_of_asksFor h
  · rw [hshow, hshow, hsession]
    cases other.getSession id <;> rfl
  · rw [hmove, hmove]
    cases hother : other.getSession id with
    | error e => simp only [moveSession, hsession, hother, Store.ifFound]
    | ok session =>
        rw [hother] at hsession
        cases hstate : session.simulator.move session.state m with
        | error e => simp only [moveSession, hsession, hother, Store.ifFound, hstate]
        | ok state => rw [moveSession_of_ok hsession hstate, moveSession_of_ok hother hstate]

/-- A request for a session leaves the others alone. -/
theorem getSession_asksFor_of_ne {id' : Int} (h : x.AsksFor id) (hne : id ≠ id') :
    (service.reply store x).2.getSession id' = store.getSession id' := by
  obtain hshow | ⟨m, hmove⟩ := reply_of_asksFor h
  · rw [hshow]
    cases store.getSession id <;> rfl
  · rw [hmove]
    cases hsession : store.getSession id with
    | error e => simp only [moveSession, hsession, Store.ifFound]
    | ok session =>
        cases hstate : session.simulator.move session.state m with
        | error e => simp only [moveSession, hsession, Store.ifFound, hstate]
        | ok state =>
            obtain ⟨-, rfl⟩ := Store.mem_of_getSession hsession
            rw [moveSession_of_ok hsession hstate, getSession_saveSession]
            exact if_neg hne

end Service

/-- Sessions are opened for completed runs, and then anything is asked of the service. Then the
session of each run shows one of its steps on its grid. Whoever asks for it, to show it or to
move it, is answered by a session that does so, and no request for another session changes that
answer. -/
theorem sessions_shown [Machine] (service : Service) (runs : List CompletedRun)
    (arrivals : List Arrival) :
    let store := service.after (service.openSessions runs) arrivals
    ∀ (i : Nat) (r : CompletedRun), runs[i]? = some r →
      (∃ session, store.getSession (i + 1) = .ok session ∧ session.Shows r.progress.state) ∧
      (∀ x : Arrival, x.AsksFor (i + 1) →
        ∃ session, (service.reply store x).1 = session.response ∧
          (service.reply store x).2.getSession (i + 1) = .ok session ∧
          session.Shows r.progress.state) ∧
      ∀ (x y : Arrival) (id : Int), x.AsksFor id → y.AsksFor (i + 1) → id ≠ i + 1 →
        (service.reply (service.reply store x).2 y).1 = (service.reply store y).1 := by
  intro store i r hr
  -- a run without errors has found all that there is to show
  have hfinished := Builtin.finished_of_run r.run_eq r.errors_eq
  obtain ⟨state, hsession, hstate⟩ := Service.after_getSession (service.openSessions_countsTo runs)
    (service.getSession_openSessions hr) arrivals
  have hplays := (service.opened_plays r.progress.state).withState hstate
  refine ⟨⟨_, hsession, hplays.shows hfinished⟩, ?_, ?_⟩
  · intro x hx
    obtain ⟨state', hstate', hresponse, hlater⟩ :=
      Service.reply_asksFor hx hsession (hplays.seed ▸ hfinished.seed)
    exact ⟨_, hresponse, hlater, (hplays.withState hstate').shows hfinished⟩
  · intro x y id hx hy hne
    exact Service.response_asksFor hy (Service.getSession_asksFor_of_ne hx hne)

/-- A run over a text with one structure. -/
def pointRun : CompletedRun where
  clock := { now := "", elapsedMs := .null }
  fileId := none
  start := .ofSource {} Builtin.pointText
  progress := runStages Builtin.stages { state := .ofSource {} Builtin.pointText }
  run_eq := Builtin.run_eq_ok _
  errors_eq := by decide +kernel

theorem sessions_shown_point :
    let service : Service := .ofSettings {}
    let store := service.after (service.openSessions [pointRun])
      [.post "/api/playback/1/forward" ""]
    ∃ session, store.getSession 1 = .ok session ∧ session.Shows pointRun.progress.state :=
  (sessions_shown (.ofSettings {}) [pointRun]
    [.post "/api/playback/1/forward" ""] 0 pointRun rfl).1

end CellAtlas
