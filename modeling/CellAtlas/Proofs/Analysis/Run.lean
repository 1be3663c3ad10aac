import CellAtlas.Analysis.Run
import CellAtlas.Proofs.Analysis.Order
import CellAtlas.Proofs.List

/-!
# Running and following agree

A run calls its stages one after the other, each on the context that the ones before have left,
failed or not (`contextAfter`). `outcomes` lists the stages with how each of them ends, and settles
what a run records and what it tells:

* on a fresh record, the stages that have completed and the errors are read off the outcomes
  (`completed_contextAfter`, `errors_contextAfter`);
* the events of a run that is followed are, too: two for each outcome (`streamStages_events`).

With `stream_progress` it follows that running and following agree (`runFrom_streamFrom`): they fail
alike with nothing called, or call every stage once and end in the same progress, of which the
events tell.

Where no stage looks at the record, the state goes its own way through the run (`stateAfter`), and a
run in which no stage fails completes them all (`runStages_of_complete`).
-/

namespace CellAtlas

variable {σ : Type}

/-! ### Contexts -/

/-- The context that stages leave when they are called one after the other. -/
def contextAfter (stages : List (Stage σ)) (c : Context σ) : Context σ :=
  stages.foldl (fun c s => s.call c) c

theorem contextAfter_cons (s : Stage σ) (rest : List (Stage σ)) (c : Context σ) :
    contextAfter (s :: rest) c = contextAfter rest (s.call c) := rfl

theorem contextAfter_append (stages more : List (Stage σ)) (c : Context σ) :
    contextAfter (stages ++ more) c = contextAfter more (contextAfter stages c) := List.foldl_append

theorem runStages_cons (s : Stage σ) (rest : List (Stage σ)) (p : Progress σ) :
    runStages (s :: rest) p = runStages rest (s.run p) := rfl

theorem runStages_append (stages more : List (Stage σ)) (p : Progress σ) :
    runStages (stages ++ more) p = runStages more (runStages stages p) := List.foldl_append

/-- A run leaves the context that its stages make of the one it starts from, and has called them
all. -/
theorem runStages_eq (stages : List (Stage σ)) (p : Progress σ) :
    runStages stages p = {
      toContext := contextAfter stages p.toContext
      called := p.called ++ stages.map (·.id) } := by
  induction stages generalizing p with
  | nil => simp [runStages, contextAfter]
  | cons s rest ih =>
      rw [runStages_cons, ih]
      simp [Stage.run, contextAfter_cons]

/-! ### Outcomes -/

/-- Stages called one after the other, each with the text of its failure if it fails. -/
def outcomes : List (Stage σ) → Context σ → List (Stage σ × Option String)
  | [], _ => []
  | s :: rest, c => (s, (s.action c).failure) :: outcomes rest (s.call c)

/-- The ids of the stages that have not failed. -/
def completedIn (os : List (Stage σ × Option String)) : List String :=
  (os.filter (·.2.isNone)).map (·.1.id)

def errorsIn (os : List (Stage σ × Option String)) : List (String × String) :=
  os.filterMap fun o => o.2.map (o.1.id, ·)

theorem completedIn_append (os more : List (Stage σ × Option String)) :
    completedIn (os ++ more) = completedIn os ++ completedIn more := by
  rw [completedIn, List.filter_append, List.map_append]
  rfl

theorem errorsIn_append (os more : List (Stage σ × Option String)) :
    errorsIn (os ++ more) = errorsIn os ++ errorsIn more := List.filterMap_append

@[simp] theorem map_fst_outcomes (stages : List (Stage σ)) (c : Context σ) :
    (outcomes stages c).map (·.1) = stages := by
  induction stages generalizing c with
  | nil => rfl
  | cons s rest ih => simp [outcomes, ih]

theorem map_id_outcomes (stages : List (Stage σ)) (c : Context σ) :
    (outcomes stages c).map (·.1.id) = stages.map (·.id) := by
  conv_rhs => rw [← map_fst_outcomes stages c, List.map_map]
  rfl

/-- Later stages meet the context that the earlier ones have left. -/
theorem outcomes_append (stages more : List (Stage σ)) (c : Context σ) :
    outcomes (stages ++ more) c = outcomes stages c ++ outcomes more (contextAfter stages c) := by
  induction stages generalizing c with
  | nil => rfl
  | cons s rest ih =>
      simp only [List.cons_append, outcomes, ih]
      rfl

/-- A stage meets the context that the stages before it have left. -/
theorem mem_outcomes {before after : List (Stage σ)} (s : Stage σ) (c : Context σ) :
    (s, (s.action (contextAfter before c)).failure) ∈ outcomes (before ++ s :: after) c := by
  rw [outcomes_append]
  exact List.mem_append_right _ List.mem_cons_self

theorem mem_completedIn {os : List (Stage σ × Option String)} {id : String} :
    id ∈ completedIn os ↔ ∃ s, (s, none) ∈ os ∧ s.id = id := by
  simp [completedIn, Option.isNone_iff_eq_none]

/-- The ids with an error are those of the stages that have failed. -/
theorem mem_keys_errorsIn {os : List (Stage σ × Option String)} {id : String} :
    id ∈ (errorsIn os).map (·.1) ↔ ∃ s text, (s, some text) ∈ os ∧ s.id = id := by
  simp only [errorsIn, List.mem_map, List.mem_filterMap, Prod.exists, Option.map_eq_some_iff,
    Prod.mk.injEq]
  constructor
  · rintro ⟨_, _, ⟨s, f, hmem, text, rfl, rfl, rfl⟩, rfl⟩
    exact ⟨s, text, hmem, rfl⟩
  · rintro ⟨s, text, hmem, rfl⟩
    exact ⟨s.id, text, ⟨s, some text, hmem, text, rfl, rfl, rfl⟩, rfl⟩

/-- Among stages of different ids a stage has one outcome. -/
theorem outcome_unique {os : List (Stage σ × Option String)} (hids : (os.map (·.1.id)).Nodup)
    {s t : Stage σ} {f g : Option String} (hs : (s, f) ∈ os) (ht : (t, g) ∈ os)
    (h : s.id = t.id) : f = g :=
  congrArg Prod.snd (List.inj_on_of_nodup_map hids hs ht h)

/-- The errors come in the order of the stages. -/
theorem keys_errorsIn_sublist (os : List (Stage σ × Option String)) :
    ((errorsIn os).map (·.1)).Sublist (os.map (·.1.id)) := by
  induction os with
  | nil => exact List.Sublist.refl []
  | cons o rest ih =>
      rcases o with ⟨s, _ | text⟩
      · exact ih.cons s.id
      · exact ih.cons_cons s.id

/-- The errors of stages of different ids have the text of each failure under the stage's id. -/
theorem lookup_errorsIn {os : List (Stage σ × Option String)} (hids : (os.map (·.1.id)).Nodup)
    {s : Stage σ} {f : Option String} (h : (s, f) ∈ os) : (errorsIn os).lookup s.id = f := by
  cases f with
  | none =>
      rw [List.lookup_eq_none_iff]
      -- an error under this id would be that of another stage
      rintro ⟨id, text⟩ hmem
      obtain ⟨t, text', ht, hid⟩ := mem_keys_errorsIn.mp (List.mem_map_of_mem hmem)
      rw [bne_iff_ne]
      rintro rfl
      exact absurd (outcome_unique hids h ht hid.symm) (by simp)
  | some text =>
      apply lookup_of_nodup_keys (hids.sublist (keys_errorsIn_sublist os))
      exact List.mem_filterMap.mpr ⟨(s, some text), h, rfl⟩

/-! ### The record -/

/-- A stage of a new id goes to the completed ones or to the errors, behind those that are there. -/
theorem Stage.record_call {s : Stage σ} {c : Context σ} (hcompleted : s.id ∉ c.completed)
    (herrors : s.id ∉ c.errors.map (·.1)) :
    (s.call c).completed = c.completed ++ completedIn [(s, (s.action c).failure)] ∧
      (s.call c).errors = c.errors ++ errorsIn [(s, (s.action c).failure)] := by
  cases hfailure : (s.action c).failure with
  | none => simp [Stage.call, hfailure, Context.complete, hcompleted, completedIn, errorsIn]
  | some text =>
      simp [Stage.call, hfailure, Context.fail, setKey_of_notMem herrors, completedIn, errorsIn]

/-- Stages of different new ids are recorded as their outcomes say. -/
theorem record_contextAfter {stages : List (Stage σ)} {c : Context σ}
    (hids : (stages.map (·.id)).Nodup)
    (hnew : ∀ s ∈ stages, s.id ∉ c.completed ∧ s.id ∉ c.errors.map (·.1)) :
    (contextAfter stages c).completed = c.completed ++ completedIn (outcomes stages c) ∧
      (contextAfter stages c).errors = c.errors ++ errorsIn (outcomes stages c) := by
  induction stages generalizing c with
  | nil => simp [contextAfter, outcomes, completedIn, errorsIn]
  | cons s rest ih =>
      obtain ⟨hs, hrest⟩ := List.forall_mem_cons.mp hnew
      rw [List.map_cons, List.nodup_cons] at hids
      obtain ⟨hcompleted, herrors⟩ := Stage.record_call hs.1 hs.2
      -- what the first stage records is under its own id, so that the others are still new
      have hnext : ∀ t ∈ rest,
          t.id ∉ (s.call c).completed ∧ t.id ∉ (s.call c).errors.map (·.1) := by
        intro t ht
        have hne : t.id ≠ s.id := by
          intro hid
          exact hids.1 (hid ▸ List.mem_map_of_mem ht)
        obtain ⟨htcompleted, hterrors⟩ := hrest t ht
        rw [hcompleted, herrors, List.map_append, List.mem_append, List.mem_append]
        cases (s.action c).failure <;> simp_all [completedIn, errorsIn]
      obtain ⟨ihcompleted, iherrors⟩ := ih hids.2 hnext
      have houtcomes : outcomes (s :: rest) c
          = [(s, (s.action c).failure)] ++ outcomes rest (s.call c) := rfl
      rw [contextAfter_cons, ihcompleted, iherrors, hcompleted, herrors, houtcomes,
        completedIn_append, errorsIn_append, List.append_assoc, List.append_assoc]
      exact ⟨rfl, rfl⟩

section Fresh

variable {stages : List (Stage σ)} (hids : (stages.map (·.id)).Nodup) (a : σ)

include hids

/-- From an empty record on, what is completed is what has not failed. -/
theorem completed_contextAfter :
    (contextAfter stages { state := a }).completed
      = completedIn (outcomes stages { state := a }) := by
  have h := (record_contextAfter (c := { state := a }) hids fun s _ => by simp).1
  rwa [List.nil_append] at h

theorem errors_contextAfter :
    (contextAfter stages { state := a }).errors = errorsIn (outcomes stages { state := a }) := by
  have h := (record_contextAfter (c := { state := a }) hids fun s _ => by simp).2
  rwa [List.nil_append] at h

theorem completed_runStages :
    (runStages stages { state := a }).completed = completedIn (outcomes stages { state := a }) := by
  rw [runStages_eq]
  exact completed_contextAfter hids a

theorem errors_runStages :
    (runStages stages { state := a }).errors = errorsIn (outcomes stages { state := a }) := by
  rw [runStages_eq]
  exact errors_contextAfter hids a

end Fresh

/-! ### Events -/

def endStatus : Option String → StageStatus
  | none => .ok
  | some text => .error text

/-- The status that the errors of a progress give a stage that has ended. -/
def Progress.statusOf (p : Progress σ) (id : String) : StageStatus :=
  endStatus (p.errors.lookup id)

/-- The notices about a stage that ends with some status. -/
def Stage.notices (s : Stage σ) (index total : Nat) (status : StageStatus) : List Event :=
  [s.event index total .running, s.event index total status]

/-- A run that is followed tells of every outcome. -/
theorem streamStages_events (total index : Nat) (stages : List (Stage σ)) (p : Progress σ) :
    (streamStages total index stages p).1 = ((outcomes stages p.toContext).zipIdx index).flatMap
      fun o => o.1.1.notices o.2 total (endStatus o.1.2) := by
  induction stages generalizing index p with
  | nil => rfl
  | cons s rest ih =>
      -- following a stage does the same to the context as running it
      have hnext : (s.stream index total p).2.toContext = s.call p.toContext := by
        rw [Stage.stream_progress]
        rfl
      rw [streamStages, outcomes, List.zipIdx_cons, List.flatMap_cons, ih, hnext]
      cases hf : (s.action p.toContext).failure with
      | none => simp [Stage.stream, hf, Stage.notices, endStatus, Stage.event]
      | some text => simp [Stage.stream, hf, Stage.notices, endStatus, Stage.event]

/-! ### Agreement -/

section Agreement

variable {ordered : List (Stage σ)} (hids : (ordered.map (·.id)).Nodup) (c : Context σ)

include hids

/-- Stages of different ids have different outcomes. -/
theorem nodup_outcomes : ((outcomes ordered c).map (·.1.id)).Nodup := by
  rw [map_id_outcomes]
  exact hids

/-- A stage that returns is completed and has no error; one that fails has its error alone. -/
theorem completedIn_errorsIn_of_split {before after : List (Stage σ)} {s : Stage σ}
    (h : ordered = before ++ s :: after) :
    (s.id ∈ completedIn (outcomes ordered c)
      ↔ (s.action (contextAfter before c)).failure = none) ∧
    (errorsIn (outcomes ordered c)).lookup s.id
      = (s.action (contextAfter before c)).failure := by
  have hmem : (s, (s.action (contextAfter before c)).failure) ∈ outcomes ordered c :=
    h ▸ mem_outcomes s c
  refine ⟨?_, lookup_errorsIn (nodup_outcomes hids c) hmem⟩
  rw [mem_completedIn]
  constructor
  · rintro ⟨t, ht, hid⟩
    exact outcome_unique (nodup_outcomes hids c) hmem ht hid.symm
  · intro hnone
    exact ⟨s, hnone ▸ hmem, rfl⟩

/-- No stage both returns and fails. -/
theorem disjoint_completedIn_errorsIn {id : String}
    (hcompleted : id ∈ completedIn (outcomes ordered c)) :
    id ∉ (errorsIn (outcomes ordered c)).map (·.1) := by
  intro herror
  obtain ⟨s, hs, hid⟩ := mem_completedIn.mp hcompleted
  obtain ⟨t, text, ht, rfl⟩ := mem_keys_errorsIn.mp herror
  exact absurd (outcome_unique (nodup_outcomes hids c) hs ht hid) (by simp)

omit hids in
/-- Every stage returns or fails. -/
theorem mem_completedIn_or_errorsIn {id : String} :
    id ∈ completedIn (outcomes ordered c) ∨ id ∈ (errorsIn (outcomes ordered c)).map (·.1)
      ↔ id ∈ ordered.map (·.id) := by
  rw [mem_completedIn, mem_keys_errorsIn, ← map_id_outcomes ordered c, List.mem_map]
  constructor
  · rintro (⟨s, hs, hid⟩ | ⟨s, text, hs, hid⟩)
    · exact ⟨_, hs, hid⟩
    · exact ⟨_, hs, hid⟩
  · rintro ⟨⟨s, f⟩, hs, hid⟩
    cases f with
    | none => exact .inl ⟨s, hs, hid⟩
    | some text => exact .inr ⟨s, text, hs, hid⟩

end Agreement

section Fresh

variable {ordered : List (Stage σ)} (hids : (ordered.map (·.id)).Nodup) (a : σ)

include hids

/-- The events tell of each stage the status that the final progress gives it. -/
theorem streamStages_events_statusOf :
    (streamStages ordered.length 0 ordered { state := a }).1 =
      ordered.zipIdx.flatMap fun (s, i) =>
        s.notices i ordered.length ((runStages ordered { state := a }).statusOf s.id) := by
  -- the events follow the outcomes, and each outcome is found again in the final errors
  let start : Context σ := { state := a }
  have hstages : ordered.zipIdx = (outcomes ordered start).zipIdx.map fun o => (o.1.1, o.2) := by
    conv_lhs => rw [← map_fst_outcomes ordered start, List.zipIdx_map]
    rfl
  rw [streamStages_events, hstages, List.flatMap_map]
  apply List.flatMap_congr
  rintro ⟨⟨s, f⟩, i⟩ hmem
  have hs : (s, f) ∈ outcomes ordered start := List.fst_mem_of_mem_zipIdx hmem
  have hstatus : (runStages ordered { state := a }).statusOf s.id = endStatus f := by
    rw [Progress.statusOf, errors_runStages hids, lookup_errorsIn (nodup_outcomes hids start) hs]
  show s.notices i ordered.length (endStatus f) = _
  rw [← hstatus]

end Fresh

/-- Running and following a run agree. Either the stages have no order, and both fail with the same
error, with no stage called and the progress as it was. Or both call every stage once, in the order
of the registry and whatever has failed before, and end in the same progress: the completed stages
are those that returned and the errors have the texts of those that failed, each on the context that
the stages before it had left. The events are two for each stage, of which the second is an error
exactly where the progress has one. -/
theorem runFrom_streamFrom (r : Registry σ) (a : σ) :
    (∃ e, r.order = .error e ∧
      r.runFrom { state := a } = { progress := { state := a }, answer := .error e } ∧
      r.streamFrom { state := a } = { progress := { state := a }, answer := .error e }) ∨
    ∃ ordered final, r.order = .ok ordered ∧ ordered.Perm r.stages ∧
      r.runFrom { state := a } = { progress := final, answer := .ok () } ∧
      r.streamFrom { state := a } = {
        progress := final
        answer := .ok (ordered.zipIdx.flatMap fun (s, i) =>
          [s.event i ordered.length .running, s.event i ordered.length (final.statusOf s.id)]) } ∧
      final.called = ordered.map (·.id) ∧
      final.toContext = contextAfter ordered { state := a } ∧
      (∀ before s after, ordered = before ++ s :: after →
        (s.id ∈ final.completed ↔
          (s.action (contextAfter before { state := a })).failure = none) ∧
        final.errors.lookup s.id = (s.action (contextAfter before { state := a })).failure) ∧
      (∀ id ∈ final.completed, id ∉ final.errors.map (·.1)) ∧
      ∀ id, id ∈ final.completed ∨ id ∈ final.errors.map (·.1) ↔ id ∈ r.ids := by
  cases horder : r.order with
  | error e =>
      refine .inl ⟨e, rfl, ?_, ?_⟩
      · rw [Registry.runFrom, horder]
      · rw [Registry.streamFrom, horder]
  | ok ordered =>
      -- the order is one of all the stages, so that their ids differ
      have hperm : ordered.Perm r.stages := r.perm_of_order_eq_ok horder
      have hids : (ordered.map (·.id)).Nodup := (hperm.map _).nodup_iff.mpr r.ids_nodup
      let start : Context σ := { state := a }
      have hfinal := runStages_eq ordered { state := a }
      rw [List.nil_append] at hfinal
      have hcompleted := completed_runStages hids a
      have herrors := errors_runStages hids a
      refine .inr ⟨ordered, runStages ordered { state := a }, rfl, hperm, ?_, ?_, ?_, ?_, ?_, ?_,
        ?_⟩
      · rw [Registry.runFrom, horder]
      · rw [Registry.streamFrom, horder]
        show Ending.mk (streamStages ordered.length 0 ordered { state := a }).2 (.ok _) = _
        rw [streamStages_progress, streamStages_events_statusOf hids]
        rfl
      · rw [hfinal]
      · rw [hfinal]
      · intro before s after heq
        rw [hcompleted, herrors]
        exact completedIn_errorsIn_of_split hids start heq
      · intro id hid
        rw [hcompleted] at hid
        rw [herrors]
        exact disjoint_completedIn_errorsIn hids start hid
      · intro id
        rw [hcompleted, herrors, mem_completedIn_or_errorsIn]
        exact (hperm.map _).mem_iff

/-! ### Stages that do not look at the record -/

/-- What a stage does to a state before anything has been recorded. -/
def Stage.work (s : Stage σ) (a : σ) : Outcome σ := s.action { state := a }

/-- A stage does the same whatever has been recorded. -/
def Stage.IgnoresRecord (s : Stage σ) : Prop := ∀ c : Context σ, s.action c = s.work c.state

/-- The state after the work of stages one after the other. -/
def stateAfter (stages : List (Stage σ)) (a : σ) : σ :=
  stages.foldl (fun a s => (s.work a).state) a

theorem stateAfter_cons (s : Stage σ) (rest : List (Stage σ)) (a : σ) :
    stateAfter (s :: rest) a = stateAfter rest (s.work a).state := rfl

/-- The record of a call does not touch the state. -/
theorem Stage.state_call (s : Stage σ) (c : Context σ) : (s.call c).state = (s.action c).state := by
  rw [Stage.call]
  cases (s.action c).failure <;> rfl

/-- Where no stage looks at the record, a state leads to the same state whatever has been
recorded. -/
theorem state_contextAfter {stages : List (Stage σ)} (h : ∀ s ∈ stages, s.IgnoresRecord)
    (c : Context σ) : (contextAfter stages c).state = stateAfter stages c.state := by
  induction stages generalizing c with
  | nil => rfl
  | cons s rest ih =>
      obtain ⟨hs, hrest⟩ := List.forall_mem_cons.mp h
      rw [contextAfter_cons, ih hrest, s.state_call, hs, stateAfter_cons]

/-- Called one after the other from state `a` on, no stage fails, and the last one leaves state
`b`. -/
def Complete : List (Stage σ) → σ → σ → Prop
  | [], a, b => a = b
  | s :: rest, a, b => ∃ next, s.work a = { state := next } ∧ Complete rest next b

/-- A run without errors is one in which no stage fails. -/
theorem complete_of_errorsIn {stages : List (Stage σ)} (hstages : ∀ s ∈ stages, s.IgnoresRecord)
    {c : Context σ} (h : errorsIn (outcomes stages c) = []) :
    Complete stages c.state (stateAfter stages c.state) := by
  induction stages generalizing c with
  | nil => rfl
  | cons s rest ih =>
      obtain ⟨hs, hrest⟩ := List.forall_mem_cons.mp hstages
      rw [outcomes, errorsIn, List.filterMap_cons] at h
      -- the first stage has not failed, or its text would be among the errors
      cases hfailure : (s.action c).failure with
      | some text => simp [hfailure] at h
      | none =>
          simp only [hfailure, Option.map_none] at h
          have hnext := ih hrest h
          rw [s.state_call, hs] at hnext
          refine ⟨(s.work c.state).state, ?_, hnext⟩
          rw [← hfailure, hs]

/-- Stages that complete have no failure among their outcomes, and the last state is the final
one. -/
theorem outcomes_of_complete {stages : List (Stage σ)} (hstages : ∀ s ∈ stages, s.IgnoresRecord)
    {c : Context σ} {b : σ} (h : Complete stages c.state b) :
    outcomes stages c = stages.map (·, none) ∧ stateAfter stages c.state = b := by
  induction stages generalizing c with
  | nil => exact ⟨rfl, h⟩
  | cons s rest ih =>
      obtain ⟨hs, hrest⟩ := List.forall_mem_cons.mp hstages
      obtain ⟨next, hnext, hcomplete⟩ := h
      have hstate : (s.call c).state = next := by rw [s.state_call, hs, hnext]
      obtain ⟨houtcomes, hafter⟩ := ih hrest (c := s.call c) (hstate.symm ▸ hcomplete)
      rw [hstate] at hafter
      rw [outcomes, houtcomes, hs, hnext, stateAfter_cons, hnext]
      exact ⟨rfl, hafter⟩

/-- A run in which no stage fails completes all stages. -/
theorem runStages_of_complete {stages : List (Stage σ)} (hids : (stages.map (·.id)).Nodup)
    (hstages : ∀ s ∈ stages, s.IgnoresRecord) {a b : σ} (h : Complete stages a b) :
    runStages stages { state := a } = {
      state := b, completed := stages.map (·.id), called := stages.map (·.id) } := by
  let start : Context σ := { state := a }
  obtain ⟨houtcomes, hafter⟩ := outcomes_of_complete (c := start) hstages h
  have hstate : (contextAfter stages start).state = b :=
    (state_contextAfter hstages start).trans hafter
  have hcompleted : (contextAfter stages start).completed = stages.map (·.id) := by
    rw [completed_contextAfter hids, houtcomes]
    simp [completedIn, List.filter_map, Function.comp_def]
  have herrors : (contextAfter stages start).errors = [] := by
    rw [errors_contextAfter hids, houtcomes]
    simp [errorsIn]
  rw [runStages_eq, List.nil_append]
  exact congrArg (Progress.mk · _) (Context.ext hstate hcompleted herrors)

end CellAtlas
