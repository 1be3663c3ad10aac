import CellAtlas.Proofs.Analysis.Finished
import CellAtlas.Proofs.Service.Numbering

/-!
# The analyses of a file are its own

The analyses of a file refer to it by its id alone, and they stay when it is deleted. That they are
never taken for those of another file rests on three facts:

* an id is given out once, so a new file has no analyses (`Store.Issued`);
* whatever is stored under the id of a file later on is that file (`Store.Reserves`);
* an analysis is recorded for a file only if the file is still there (`Effect.latestOf?`).

The first two are invariants, kept by every request. Main statement: `latestAnalysis_own`.
-/

namespace CellAtlas

open Source Wire

/-! ### Ids of files -/

namespace Store

/-- The ids of the files, and of the files that were analyzed, have been given out. -/
structure Issued (store : Store) : Prop where
  files : ∀ file ∈ store.files, file.id < store.nextFileId
  analyses : ∀ record ∈ store.analyses, ∀ id ∈ record.fileId, id < store.nextFileId

/-- The id of a file has been given out, and no other file is stored under it. -/
structure Reserves (store : Store) (file : SourceFile) : Prop where
  files : ∀ other ∈ store.files, other.id = file.id → other = file
  issued : file.id < store.nextFileId

variable {store : Store} {file : SourceFile} {id : Int}

/-- What is found under a reserved id is the file it is reserved for. -/
theorem Reserves.eq_of_getFile {found : SourceFile} (h : store.Reserves file)
    (hfound : store.getFile file.id = .ok found) : found = file := by
  obtain ⟨hmem, hid⟩ := mem_of_getFile hfound
  exact h.files found hmem hid

theorem Issued.createFile_reserves (h : store.Issued) (now name content : String) :
    (store.createFile now name content).2.Reserves (store.createFile now name content).1 where
  files := by
    intro other hother hid
    simp only [createFile, List.mem_append, List.mem_singleton] at hother hid
    rcases hother with hother | rfl
    · have hlt := h.files other hother
      omega
    · rfl
  issued := by
    simp only [createFile]
    omega

/-- A new file has no analyses. -/
theorem Issued.createFile_latestOf? (h : store.Issued) (now name content : String) :
    (store.createFile now name content).2.latestOf?
      (some (store.createFile now name content).1.id) = none := by
  simp only [latestOf?, createFile, List.find?_eq_none, List.mem_reverse, beq_iff_eq]
  intro record hrecord hid
  exact absurd (h.analyses record hrecord _ hid) (lt_irrefl _)

end Store

namespace Service

variable {service : Service} {store : Store} {x : Arrival} {reply : Reply}

/-- A run is about a file that is stored, if it is about a file at all. -/
theorem Runs.fileId_lt {e : Endpoint} {fileId : Option Int} {p : Progress Analysis}
    (hruns : service.Runs store x e fileId p) (h : store.Issued) :
    ∀ id ∈ fileId, id < store.nextFileId := by
  cases hruns with
  | analyze | analyzeStream => simp
  | analyzeFile _ _ hfile =>
      rintro _ ⟨⟩
      obtain ⟨hmem, rfl⟩ := Store.mem_of_getFile hfile
      exact h.files _ hmem

variable [Machine]

/-- A request only gives out the next ids. -/
theorem Effect.issued (heffect : service.Effect store x reply) (h : store.Issued) :
    reply.2.Issued := by
  cases heffect with
  | kept => exact h
  | moved => exact ⟨h.files, h.analyses⟩
  | fileCreated =>
      constructor
      · intro file hfile
        simp only [Store.createFile, List.mem_append, List.mem_singleton] at hfile ⊢
        rcases hfile with hfile | rfl
        · have hlt := h.files file hfile
          omega
        · dsimp only
          omega
      · intro record hrecord id hid
        exact (h.analyses record hrecord id hid).trans (lt_add_one _)
  | fileDeleted _ _ hdelete =>
      obtain ⟨file, -, rfl⟩ := map_eq_ok.mp hdelete
      exact ⟨fun other hother => h.files other (List.mem_filter.mp hother).1, h.analyses⟩
  | recorded _ hruns =>
      refine ⟨h.files, ?_⟩
      intro record hrecord
      rcases List.mem_append.mp hrecord with hrecord | hrecord
      · exact h.analyses record hrecord
      · obtain rfl := List.mem_singleton.mp hrecord
        -- the run is about a file that is there, or about none
        exact hruns.fileId_lt h

/-- No request stores another file under an id that has been given out. -/
theorem Effect.reserves {file : SourceFile} (heffect : service.Effect store x reply)
    (h : store.Reserves file) : reply.2.Reserves file := by
  cases heffect with
  | kept => exact h
  | moved | recorded => exact ⟨h.files, h.issued⟩
  | fileCreated =>
      constructor
      · intro other hother hid
        have hlt := h.issued
        simp only [Store.createFile, List.mem_append, List.mem_singleton] at hother
        rcases hother with hother | rfl
        -- the new file gets a larger id
        · exact h.files other hother hid
        · dsimp only at hid
          omega
      · exact h.issued.trans (lt_add_one _)
  | fileDeleted _ _ hdelete =>
      obtain ⟨deleted, -, rfl⟩ := map_eq_ok.mp hdelete
      exact ⟨fun other hother => h.files other (List.mem_filter.mp hother).1, h.issued⟩

theorem after_issued (h : store.Issued) (arrivals : List Arrival) :
    (service.after store arrivals).Issued :=
  after_of_effect (fun _ _ _ => Effect.issued) h arrivals

/-- The id stays reserved, even if the file itself is deleted. -/
theorem after_reserves {file : SourceFile} (h : store.Reserves file) (arrivals : List Arrival) :
    (service.after store arrivals).Reserves file :=
  after_of_effect (fun _ _ _ => Effect.reserves) h arrivals

end Service

/-! ### Analyses of a file -/

def Arrival.fileToAnalyze? (x : Arrival) : Option Int :=
  match x.endpoint? with
  | some (.analyzeFile text) => (pathId "file_id" text).value?
  | _ => none

/-- The id of the file whose latest analysis is asked for. -/
def Arrival.fileAskedFor? (x : Arrival) : Option Int :=
  match x.endpoint? with
  | some (.latestAnalysis text) => (pathId "file_id" text).value?
  | _ => none

/-- An analysis of the file with an id was asked for, and the response says that it has been
done. -/
def analyzesFile (id : Int) (exchange : Arrival × Response) : Bool :=
  exchange.1.fileToAnalyze? == some id && exchange.2.status == 200

namespace Arrival

variable {x : Arrival} {id : Int}

/-- A request for the analysis of a file has its id in the path. -/
theorem fileToAnalyze?_eq_some : x.fileToAnalyze? = some id ↔
    ∃ text, x.endpoint? = some (.analyzeFile text) ∧ pathId "file_id" text = .valid id := by
  unfold fileToAnalyze?
  split <;> simp_all

theorem fileAskedFor?_eq_some : x.fileAskedFor? = some id ↔
    ∃ text, x.endpoint? = some (.latestAnalysis text) ∧ pathId "file_id" text = .valid id := by
  unfold fileAskedFor?
  split <;> simp_all

end Arrival

theorem analyzesFile_iff {id : Int} {x : Arrival} {response : Response} :
    analyzesFile id (x, response) ↔ x.fileToAnalyze? = some id ∧ response.status = 200 := by
  simp [analyzesFile]

namespace Service

variable {service : Service} {store : Store} {x : Arrival} {reply : Reply} {id : Int}

/-- A record is the latest one of its own file and of no other. -/
theorem latestOf?_record (service : Service) (store : Store) (clock : Clock)
    (p : Progress Analysis) (fileId other : Option Int) :
    (service.record store clock p fileId).2.latestOf? other =
      if fileId = other then some (service.record store clock p fileId).1
      else store.latestOf? other := by
  by_cases h : fileId = other <;>
    simp [record, Store.createAnalysis, Store.saveSession, Store.latestOf?, h]

variable [Machine]

/-- Only a request that has the file analyzed changes what the latest analysis of a file is. -/
theorem Effect.latestOf? (heffect : service.Effect store x reply)
    (h : ¬ analyzesFile id (x, reply.1)) :
    reply.2.latestOf? (some id) = store.latestOf? (some id) := by
  cases heffect with
  | kept | fileCreated | moved => rfl
  | fileDeleted _ _ hdelete =>
      obtain ⟨file, -, rfl⟩ := map_eq_ok.mp hdelete
      rfl
  | @recorded response e fileId p hendpoint hruns hstatus =>
      rw [latestOf?_record, if_neg]
      rintro rfl
      cases hruns with
      | analyzeFile hid =>
          exact h (analyzesFile_iff.mpr
            ⟨Arrival.fileToAnalyze?_eq_some.mpr ⟨_, hendpoint, hid⟩, hstatus⟩)

/-- As long as no analysis of a file is done its latest one stays the same. -/
theorem after_latestOf? (store : Store) (arrivals : List Arrival)
    (h : ∀ exchange ∈ service.transcript store arrivals, ¬ analyzesFile id exchange) :
    (service.after store arrivals).latestOf? (some id) = store.latestOf? (some id) := by
  induction arrivals generalizing store with
  | nil => rfl
  | cons x rest ih =>
      rw [transcript, List.forall_mem_cons] at h
      exact (ih _ h.2).trans ((service.reply_effect store x).latestOf? h.1)

end Service

/-! ### Replies -/

section Passed

variable {α : Type} {store : Store}

/-- What is answered with success has passed the check. -/
theorem Store.ifValid_passed {checked : Checked α} {next : α → Reply}
    (h : (store.ifValid checked next).1.status = 200) :
    ∃ a, checked = .valid a ∧ store.ifValid checked next = next a := by
  cases checked with
  | valid a => exact ⟨a, rfl, rfl⟩
  | invalid issues => exact absurd h (Response.malformed_status_ne issues)

theorem Store.ifRead_passed {body : ByteArray} {next : Option Json → Reply}
    (h : (store.ifRead body next).1.status = 200) :
    ∃ j, bodyValue body = .ok j ∧ store.ifRead body next = next j := by
  unfold Store.ifRead at h ⊢
  cases hbody : bodyValue body with
  | ok j => exact ⟨j, rfl, rfl⟩
  | error e =>
      rw [hbody] at h
      exact absurd h e.response_status_ne

theorem Store.ifFound_passed {found : Except StoreError α} {otherwise : String} {next : α → Reply}
    (h : (store.ifFound found otherwise next).1.status = 200) :
    ∃ a, found = .ok a ∧ store.ifFound found otherwise next = next a := by
  cases found with
  | ok a => exact ⟨a, rfl, rfl⟩
  | error e => simp [Store.ifFound, Response.refusal] at h

theorem Service.ifWithinLimit_passed {service : Service} {source : String} {next : Unit → Reply}
    (h : (service.ifWithinLimit store source next).1.status = 200) :
    service.ifWithinLimit store source next = next () := by
  unfold Service.ifWithinLimit at h ⊢
  dsimp only at h ⊢
  split at h
  · simp [Response.refusal] at h
  · next hsize => rw [if_neg hsize]

end Passed

namespace Service

variable {service : Service} {store : Store} {x : Arrival} {id : Int}

/-- The record of a run shows the findings of the run. -/
theorem response_record (service : Service) (store : Store) (clock : Clock)
    (p : Progress Analysis) (fileId : Option Int) :
    let entry := (service.record store clock p fileId).1
    entry.response = .ok (.obj [("id", .int entry.id), ("fileId", .ofInt? fileId),
      ("status", .str entry.status), ("analysis", p.state.report.toJson),
      ("errors", .ofTexts p.errors), ("createdAt", .str clock.now)]) := by
  simp only [AnalysisRecord.response, report?_record]
  rfl

variable [Machine]

/-- Asking for the latest analysis changes nothing, and is refused if there is none. -/
theorem reply_latestAnalysis (h : x.fileAskedFor? = some id) :
    service.reply store x =
      store.ifFound (store.latestAnalysis id) "Analysis not found for this file" fun entry =>
        (entry.response, store) := by
  obtain ⟨text, hendpoint, hid⟩ := Arrival.fileAskedFor?_eq_some.mp h
  rw [reply_of_endpoint hendpoint, answer, hid, Store.ifValid]

/-- A file that has been stored is answered as it is in the store. -/
theorem reply_createFile (h : x.endpoint? = some .createFile)
    (hstatus : (service.reply store x).1.status = 200) :
    ∃ r, Carries (requiredBody fileRequest) x.request.body r ∧
      service.reply store x =
        (.ok (store.createFile x.clock.now r.name r.content).1.toJson,
          (store.createFile x.clock.now r.name r.content).2) := by
  rw [reply_of_endpoint h, answer, withRequest] at hstatus ⊢
  obtain ⟨j, hj, heq⟩ := Store.ifRead_passed hstatus
  rw [heq] at hstatus ⊢
  obtain ⟨r, hr, heq⟩ := Store.ifValid_passed hstatus
  rw [heq, createFile] at hstatus ⊢
  exact ⟨r, ⟨j, hj, hr⟩, ifWithinLimit_passed hstatus⟩

/-- An analysis of a file that has been done is one of what is stored under the id, and it has been
recorded. -/
theorem reply_analyzeFile (h : analyzesFile id (x, (service.reply store x).1)) :
    ∃ file request p, store.getFile id = .ok file ∧
      Carries (optionalBody analyzeFileRequest) x.request.body request ∧
      service.registry.run (service.analysisOf file.content (request.getD {})) = .ok p ∧
      service.reply store x =
        (.ofOption (resultJson x.clock p (service.record store x.clock p (some id)).1),
          (service.record store x.clock p (some id)).2) := by
  obtain ⟨hasked, hstatus⟩ := analyzesFile_iff.mp h
  obtain ⟨text, hendpoint, hid⟩ := Arrival.fileToAnalyze?_eq_some.mp hasked
  rw [reply_of_endpoint hendpoint, answer] at hstatus ⊢
  obtain ⟨j, hj, heq⟩ := Store.ifRead_passed hstatus
  rw [heq] at hstatus ⊢
  obtain ⟨⟨id', request⟩, hchecked, heq⟩ := Store.ifValid_passed hstatus
  rw [heq] at hstatus ⊢
  dsimp only [analyzeFile] at hstatus ⊢
  simp only [Checked.seq_eq_valid, Checked.map_eq_valid, hid] at hchecked
  obtain ⟨_, _, ⟨_, ⟨⟩, rfl⟩, hrequest, ⟨⟩⟩ := hchecked
  obtain ⟨file, hfile, heq⟩ := Store.ifFound_passed hstatus
  rw [heq, analyze] at hstatus ⊢
  -- a run that could not be ordered would have been answered with a failure
  cases hrun : service.registry.run (service.analysisOf file.content (request.getD {})) with
  | error e =>
      rw [hrun] at hstatus
      simp [Response.failure] at hstatus
  | ok p => exact ⟨file, request, p, hfile, ⟨j, hj, hrequest⟩, hrun, rfl⟩

/-- An analysis of a stored file is done if the stages can be ordered. -/
theorem analyzesFile_of_run {file : SourceFile} {request : Option AnalyzeFileRequest}
    {p : Progress Analysis} (hasked : x.fileToAnalyze? = some id)
    (hbody : Carries (optionalBody analyzeFileRequest) x.request.body request)
    (hfile : store.getFile id = .ok file)
    (hrun : service.registry.run (service.analysisOf file.content (request.getD {})) = .ok p) :
    analyzesFile id (x, (service.reply store x).1) := by
  obtain ⟨text, hendpoint, hid⟩ := Arrival.fileToAnalyze?_eq_some.mp hasked
  obtain ⟨j, hj, hrequest⟩ := hbody
  obtain ⟨result, hresult⟩ := resultJson_record service store x.clock p (some id)
  refine analyzesFile_iff.mpr ⟨hasked, ?_⟩
  simp [reply_of_endpoint hendpoint, answer, Store.ifRead, hj, hid, hrequest, Store.ifValid,
    analyzeFile, hfile, Store.ifFound, analyze, hrun, hresult, Response.ofOption, Response.ok]

end Service

/-! ### The latest analysis -/

/-- A run over the content of a file, with what a request asks for. -/
structure Service.RunsOver [Machine] (service : Service) (file : SourceFile) (x : Arrival)
    (p : Progress Analysis) : Prop where
  run : ∃ request, Carries (optionalBody analyzeFileRequest) x.request.body request ∧
    service.registry.run (service.analysisOf file.content (request.getD {})) = .ok p
  structures : service.registry = Builtin.registry → p.state.structures = scan file.content

namespace Service

variable [Machine] {service : Service} {store : Store} {x : Arrival}

/-- A file that has been stored has its id for itself and no analyses. -/
theorem exists_created (h : store.Issued) (hcreation : x.endpoint? = some .createFile)
    (hstatus : (service.reply store x).1.status = 200) :
    ∃ file : SourceFile,
      Carries (requiredBody fileRequest) x.request.body ⟨file.name, file.content⟩ ∧
      (service.reply store x).1 = .ok file.toJson ∧ (service.reply store x).2.Reserves file ∧
      (service.reply store x).2.latestOf? (some file.id) = none := by
  obtain ⟨r, hbody, hreply⟩ := reply_createFile hcreation hstatus
  rw [hreply]
  exact ⟨_, hbody, rfl, h.createFile_reserves .., h.createFile_latestOf? ..⟩

/-- An analysis of a file is a run over its content, and stays the latest one of the file until
another one is done. -/
theorem latestOf?_of_done {file : SourceFile} {rest : List Arrival} (h : store.Reserves file)
    (hdone : analyzesFile file.id (x, (service.reply store x).1))
    (hquiet : ∀ exchange ∈ service.transcript (service.reply store x).2 rest,
      ¬ analyzesFile file.id exchange) :
    ∃ p, service.RunsOver file x p ∧
      let entry := (service.record store x.clock p (some file.id)).1
      (service.reply store x).1 = .ofOption (resultJson x.clock p entry) ∧
      (service.after (service.reply store x).2 rest).latestOf? (some file.id) = some entry := by
  obtain ⟨found, request, p, hfound, hrequest, hrun, hreply⟩ := reply_analyzeFile hdone
  -- what is stored under the id is still the file
  obtain rfl := h.eq_of_getFile hfound
  have hscan : service.registry = Builtin.registry → p.state.structures = scan found.content := by
    intro hregistry
    rw [hregistry] at hrun
    have hstructures := Builtin.structures_of_run hrun
    exact hstructures
  refine ⟨p, ⟨⟨request, hrequest, hrun⟩, hscan⟩, congrArg Prod.fst hreply, ?_⟩
  rw [service.after_latestOf? _ rest hquiet, hreply, latestOf?_record, if_pos rfl]

end Service

/-- A file that is created has no analysis to be asked for until one of this very file has been
done. From then on the latest one is answered, a run over the content that the file was created
with, whatever else is asked of the service, and even when the file has been deleted. -/
theorem latestAnalysis_own [Machine] (service : Service) (before : List Arrival)
    (creation : Arrival) (hcreation : creation.endpoint? = some .createFile)
    (hstatus : (service.reply (service.after .empty before) creation).1.status = 200) :
    ∃ file : SourceFile,
      Carries (requiredBody fileRequest) creation.request.body ⟨file.name, file.content⟩ ∧
      (service.reply (service.after .empty before) creation).1 = .ok file.toJson ∧
      ∀ (later : List Arrival) (y : Arrival), y.fileAskedFor? = some file.id →
        let created := service.after .empty (before ++ [creation])
        let store := service.after created later
        ((∀ exchange ∈ service.transcript created later, ¬ analyzesFile file.id exchange) →
          service.reply store y = (.refusal 404 "Analysis not found for this file", store)) ∧
        ∀ mid x rest, later = mid ++ x :: rest →
          let asked := service.after created mid
          analyzesFile file.id (x, (service.reply asked x).1) →
          (∀ exchange ∈ service.transcript (service.reply asked x).2 rest,
            ¬ analyzesFile file.id exchange) →
          ∃ p, service.RunsOver file x p ∧
            let entry := (service.record asked x.clock p (some file.id)).1
            (service.reply asked x).1 = .ofOption (Service.resultJson x.clock p entry) ∧
            service.reply store y = (.ok (.obj [("id", .int entry.id), ("fileId", .int file.id),
              ("status", .str entry.status), ("analysis", p.state.report.toJson),
              ("errors", .ofTexts p.errors), ("createdAt", .str x.clock.now)]), store) := by
  -- ids have been given out to all files so far, so that the new one is reserved for this file
  have hissued : (service.after .empty before).Issued :=
    Service.after_issued ⟨by simp [Store.empty], by simp [Store.empty]⟩ before
  obtain ⟨file, hbody, hreply, hreserved, hnone⟩ :=
    Service.exists_created hissued hcreation hstatus
  refine ⟨file, hbody, hreply, ?_⟩
  intro later y hy created store
  have hcreated : (service.reply (service.after .empty before) creation).2 = created :=
    (service.after_append .empty before [creation]).symm
  rw [hcreated] at hreserved hnone
  rw [Service.reply_latestAnalysis hy, Store.latestAnalysis]
  constructor
  · intro hquiet
    rw [service.after_latestOf? created later hquiet, hnone]
    rfl
  · rintro mid x rest rfl asked hdone hquiet
    -- whatever was asked in between, nothing else is stored under the id
    have hasked : asked.Reserves file := Service.after_reserves hreserved mid
    obtain ⟨p, hruns, hreplied, hlatest⟩ := Service.latestOf?_of_done hasked hdone hquiet
    have hstore : store = service.after (service.reply asked x).2 rest :=
      service.after_append created mid (x :: rest)
    refine ⟨p, hruns, hreplied, ?_⟩
    rw [hstore, hlatest]
    exact congrArg (·, _) (Service.response_record service asked x.clock p (some file.id))

def Arrival.bare (method path : String) : Arrival where
  clock := { now := "", elapsedMs := .null }
  request := { method, path := path.toList }

def Response.shownFile? (r : Response) : Option (Int × String) :=
  match r.payload with
  | .json (.obj ((_, .int id) :: _ :: (_, .str content) :: _)) => some (id, content)
  | _ => none

theorem shownFile?_toJson (file : SourceFile) :
    (Response.ok file.toJson).shownFile? = some (file.id, file.content) := rfl

/-- A file is analyzed and deleted, and another one is analyzed in between. -/
theorem latestAnalysis_own_deleted :
    let service : Service := .ofSettings {}
    let creation : Arrival :=
      .post "/api/files" "\x7b\"name\": \"a.h\", \"content\": \"struct A \x7b\x7d;\"\x7d"
    let other : Arrival :=
      .post "/api/files" "\x7b\"name\": \"b.h\", \"content\": \"struct B \x7b\x7d;\"\x7d"
    let analyze : Arrival := .post "/api/files/1/analyze" ""
    let analyzeOther : Arrival := .post "/api/files/2/analyze" ""
    let delete : Arrival := .bare "DELETE" "/api/files/1"
    let ask : Arrival := .bare "GET" "/api/analysis/file/1"
    let created := service.after .empty [creation]
    creation.endpoint? = some .createFile ∧
    (service.reply (service.after .empty []) creation).1.status = 200 ∧
    (service.reply (service.after created [other, analyzeOther]) ask).1 =
      .refusal 404 "Analysis not found for this file" ∧
    ∃ p : Progress Analysis, p.state.structures = scan "struct A \x7b\x7d;" ∧
      let entry := (service.record (service.after created [other]) analyze.clock p (some 1)).1
      (service.reply (service.after created [other, analyze, analyzeOther, delete]) ask).1 =
        .ok (.obj [("id", .int entry.id), ("fileId", .int 1), ("status", .str entry.status),
          ("analysis", p.state.report.toJson), ("errors", .ofTexts p.errors),
          ("createdAt", .str "")]) := by
  intro service creation other analyze analyzeOther delete ask created
  have hcreation : creation.endpoint? = some .createFile := by decide +kernel
  have hstatus : (service.reply (service.after .empty []) creation).1.status = 200 := by
    decide +kernel
  obtain ⟨file, -, hreply, h⟩ := latestAnalysis_own service [] creation hcreation hstatus
  have hshown : (service.reply (service.after .empty []) creation).1.shownFile? =
      some (1, "struct A \x7b\x7d;") := by
    decide +kernel
  rw [hreply, shownFile?_toJson, Option.some.injEq, Prod.mk.injEq] at hshown
  obtain ⟨hid, hcontent⟩ := hshown
  -- the other requests are for other files, or for something else
  have hquiet : ∀ x ∈ [other, analyzeOther, delete], ∀ response,
      ¬ analyzesFile file.id (x, response) := by
    have hnone : ∀ x ∈ [other, analyzeOther, delete], x.fileToAnalyze? ≠ some 1 := by
      decide +kernel
    intro x hx response hdone
    exact hnone x hx (hid ▸ (analyzesFile_iff.mp hdone).1)
  have hask : ask.fileAskedFor? = some file.id := by
    rw [hid]
    decide +kernel
  have hdone : analyzesFile file.id
      (analyze, (service.reply (service.after created [other]) analyze).1) := by
    have hasked : analyze.fileToAnalyze? = some file.id := by
      rw [hid]
      decide +kernel
    have hbody : Carries (optionalBody analyzeFileRequest) analyze.request.body none :=
      ⟨none, rfl, rfl⟩
    have hstored : (service.after created [other]).getFile file.id =
        .ok { id := 1, name := "a.h", content := "struct A \x7b\x7d;", uploadedAt := "" } := by
      rw [hid]
      decide +kernel
    have hrun := Builtin.run_eq_ok (service.analysisOf "struct A \x7b\x7d;" {})
    exact Service.analyzesFile_of_run hasked hbody hstored hrun
  refine ⟨hcreation, hstatus, ?_, ?_⟩
  · have hanswer := (h [other, analyzeOther] ask hask).1 (by simp [Service.transcript, hquiet])
    exact congrArg Prod.fst hanswer
  · obtain ⟨p, hruns, -, hanswer⟩ := (h _ ask hask).2 [other] analyze [analyzeOther, delete] rfl
      hdone (by simp [Service.transcript, hquiet])
    rw [hid] at hanswer
    refine ⟨p, ?_, congrArg Prod.fst hanswer⟩
    rw [hruns.structures rfl, hcontent]

end CellAtlas
