import CellAtlas.Proofs.Analysis.Builtin
import CellAtlas.Proofs.Analysis.Drawing
import CellAtlas.Proofs.Playback.Fading
import CellAtlas.Proofs.Service.Effect
import CellAtlas.Proofs.Store.Session

/-!
# Errors change nothing

A request that is answered with an error leaves the store as it was (`store_of_error`). For most
requests there is nothing to show: what they write is written last, when nothing can fail any more.
A movement of a playback is different, since it saves the session before the session is drawn. So
the sessions of a store have to be such that they can be drawn: they are when they are opened,
because analyses only come to such grids, and movements do not change that, because whether a grid
can be drawn does not depend on the states of its cells.
-/

namespace CellAtlas

open Wire

/-! ### Bodies -/

section Bodies

variable {α : Type} {p : α → Prop} {d : Decoder α} (hd : ∀ j a, d j = .valid a → p a)
  {body : ByteArray}

include hd

/-- What holds of all that a check lets pass holds of what a body carries. -/
theorem Wire.Carries.of_required {a : α} (h : Carries (requiredBody d) body a) : p a := by
  obtain ⟨j, -, hj⟩ := h
  cases j with
  | none => cases hj
  | some j => exact hd j a (Checked.inside_eq_valid.mp hj)

theorem Wire.Carries.of_optional {found : Option α} (h : Carries (optionalBody d) body found) :
    ∀ a ∈ found, p a := by
  obtain ⟨j, -, hj⟩ := h
  cases j with
  | none =>
      cases hj
      simp
  | some j => exact of_nullable hd (Checked.inside_eq_valid.mp hj)

end Bodies

/-! ### Sound services -/

/-- The configured grid does not have more cells than there is memory for, and no stage comes to a
grid that cannot be drawn. -/
structure Service.Sound [Machine] (service : Service) : Prop where
  size : service.config.grid.size ≤ Machine.memory
  stages : ∀ s ∈ service.registry.stages, s.action.Sound

/-- A service with the built-in stages is sound if its grid is not too large. -/
theorem Service.ofSettings_sound [Machine] {s : Settings}
    (h : s.config.grid.size ≤ Machine.memory) : (ofSettings s).Sound :=
  ⟨h, Builtin.stages_sound⟩

def Store.Drawable [Machine] (store : Store) : Prop :=
  ∀ session ∈ store.sessions, CellAtlas.Drawable session.state.grid

/-- Saving a session that can be drawn leaves the others as they were. -/
theorem Store.Drawable.saveSession [Machine] {store : Store} (h : store.Drawable)
    {session : Session} (hsession : CellAtlas.Drawable session.state.grid) :
    (store.saveSession session).Drawable := by
  intro other hother
  rcases mem_replaceSession hother with rfl | hother
  · exact hsession
  · exact h other hother

/-- A session that can be drawn is answered with success. -/
theorem Session.response_status [Machine] {s : Session} (h : Drawable s.state.grid) :
    s.response.status = 200 := by
  obtain ⟨text, htext⟩ := h
  simp [response, Json.ofGrid?, htext, Response.ofOption, Response.ok]

namespace Service

variable [Machine] {service : Service} (hservice : service.Sound)

include hservice

theorem analysisOf_sound (source : String) {r : AnalyzeFileRequest} (hr : r.Accepted) :
    (service.analysisOf source r).Sound :=
  Analysis.ofSource_sound source r.seed r.structures hservice.size
    fun c hc => (hr c hc).size_le_memory

/-- The stages of a sound service are sound, so that a run ends in a sound state. -/
theorem run_sound {a : Analysis} (ha : a.Sound) {p : Progress Analysis}
    (h : service.registry.run a = .ok p) : p.state.Sound := by
  obtain ⟨_, -, rfl⟩ := map_eq_ok.mp h
  exact Registry.runFrom_sound hservice.stages ha

theorem follow_sound {a : Analysis} (ha : a.Sound) (clock : Clock) :
    (service.follow clock a).2.state.Sound := by
  unfold follow
  cases hstream : service.registry.stream a with
  | error e => exact ha
  | ok found =>
      obtain ⟨_, -, rfl⟩ := map_eq_ok.mp hstream
      simp only [stream_progress]
      exact Registry.runFrom_sound hservice.stages ha

variable {store : Store} {x : Arrival}

/-- Whatever a request has analyzed, the grid that this comes to can be drawn. -/
theorem Runs.sound {e : Endpoint} {fileId : Option Int} {p : Progress Analysis}
    (h : service.Runs store x e fileId p) : p.state.Sound := by
  -- every way to analyze takes a grid that was accepted, or that of the settings
  cases h with
  | @analyze r _ hbody hrun =>
      have hr := hbody.of_required fun _ _ => analyzeRequest_accepted
      exact run_sound hservice (analysisOf_sound hservice r.source hr) hrun
  | @analyzeStream r hbody =>
      have hr := hbody.of_required fun _ _ => analyzeRequest_accepted
      exact follow_sound hservice (analysisOf_sound hservice r.source hr) x.clock
  | @analyzeFile _ _ file r _ _ hbody _ hrun =>
      have hr : (r.getD {}).Accepted := by
        cases r with
        | none => simp [AnalyzeFileRequest.Accepted]
        | some r => exact hbody.of_optional (fun _ _ => analyzeFileRequest_accepted) r rfl
      exact run_sound hservice (analysisOf_sound hservice file.content hr) hrun

/-! ### Requests -/

omit hservice in
/-- A movement changes states of cells and no spots, so that the grid stays as large as it was. -/
theorem moved_drawable (h : store.Drawable) {id : Int} {session : Session} {m : Move}
    {state : PlaybackState} (hsession : store.getSession id = .ok session)
    (hmove : session.simulator.move session.state m = .ok state) : Drawable state.grid := by
  have hgrid := h session (Store.mem_of_getSession hsession).1
  exact hgrid.of_spots (Simulator.leadsTo_of_move hmove).fades.spots

/-- Every session is opened on the grid of a run or is one that has moved. -/
theorem Effect.drawable {reply : Reply} (heffect : service.Effect store x reply)
    (h : store.Drawable) : reply.2.Drawable := by
  cases heffect with
  | kept | fileCreated => exact h
  | fileDeleted _ _ hdelete =>
      obtain ⟨file, -, rfl⟩ := map_eq_ok.mp hdelete
      exact h
  | recorded _ hruns =>
      apply Store.Drawable.saveSession
      · exact h
      · exact (hruns.sound hservice).grid
  | moved _ _ hsession hmove => exact h.saveSession (moved_drawable h hsession hmove)

theorem after_drawable (h : store.Drawable) (arrivals : List Arrival) :
    (service.after store arrivals).Drawable :=
  after_of_effect (fun _ _ _ => Effect.drawable hservice) h arrivals

omit hservice in
/-- Whatever changes the store is answered with success, given that the grids can be drawn. -/
theorem Effect.unchanged_of_error {reply : Reply} (heffect : service.Effect store x reply)
    (h : store.Drawable) (herror : reply.1.status ≠ 200) : reply.2 = store := by
  cases heffect with
  | kept => rfl
  | fileCreated _ hstatus | fileDeleted _ hstatus | recorded _ _ hstatus =>
      exact absurd hstatus herror
  | moved _ _ hsession hmove =>
      exact absurd (Session.response_status (moved_drawable h hsession hmove)) herror

/-- As long as the sessions of a store can be drawn, a sound service leaves the store as it is where
it answers with an error. -/
theorem unchanged_after (h : store.Drawable) (arrivals : List Arrival)
    (herror : (service.reply (service.after store arrivals) x).1.status ≠ 200) :
    (service.reply (service.after store arrivals) x).2 = service.after store arrivals :=
  (service.reply_effect _ x).unchanged_of_error (after_drawable hservice h arrivals) herror

end Service

theorem Store.drawable_empty [Machine] : Store.Drawable .empty := by
  simp [Drawable, empty]

/-- Whatever was asked before, a request that is answered with an error leaves all tables and
counters as they were. -/
theorem store_of_error [Machine] (service : Service) (hservice : service.Sound)
    (arrivals : List Arrival) (x : Arrival)
    (herror : (service.reply (service.after .empty arrivals) x).1.status ≠ 200) :
    (service.reply (service.after .empty arrivals) x).2 = service.after .empty arrivals :=
  Service.unchanged_after hservice Store.drawable_empty arrivals herror

/-- A service whose only stage waits for itself. -/
def circularService : Service where
  config := {}
  registry := { stages := [{ id := "S0.01", dependencies := ["S0.01"], action := .idle }] }
  stagesRegistered := 1
  maxSourceBytes := 64

theorem store_of_error_circular :
    let store := circularService.after .empty
      [.post "/api/files" "\x7b\"name\": \"a.h\", \"content\": \"\"\x7d"]
    let reply := circularService.reply store (.post "/api/analyze" "\x7b\"source\": \"\"\x7d")
    circularService.Sound ∧ store.files.length = 1 ∧ reply.1.status = 500 ∧ reply.2 = store := by
  intro store reply
  have hsound : circularService.Sound :=
    ⟨by decide, fun s hs => List.mem_singleton.mp hs ▸ Action.idle_sound⟩
  have hstatus : reply.1.status = 500 := by decide +kernel
  refine ⟨hsound, by decide +kernel, hstatus, ?_⟩
  apply store_of_error circularService hsound
  show reply.1.status ≠ 200
  rw [hstatus]
  decide

/-- With the built-in stages only the configured grid matters: no request leaves anything of an
analysis behind that it does not answer with success. -/
theorem Service.store_ofSettings_of_error [Machine] {s : Settings}
    (hgrid : s.config.grid.size ≤ Machine.memory) (arrivals : List Arrival) (x : Arrival)
    (herror : ((ofSettings s).reply ((ofSettings s).after .empty arrivals) x).1.status ≠ 200) :
    ((ofSettings s).reply ((ofSettings s).after .empty arrivals) x).2
      = (ofSettings s).after .empty arrivals :=
  unchanged_after (ofSettings_sound hgrid) Store.drawable_empty arrivals herror

end CellAtlas
