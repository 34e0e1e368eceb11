import SecureEdgeVision.Aggregator.Routes

/-! Requests that do not authenticate change nothing that an authenticated request depends on:
deleting them from a run leaves the answers to the others, the replay state, the registry, the
events and the others' alerts as they were. -/
namespace SecureEdge

/-- More rows in the two tables that ingestion writes. -/
def Tables.extend (tables : Tables) (rows : List DetectionEventRecord)
    (added : List SecurityAlert) : Tables :=
  { tables with
    detectionEvents := tables.detectionEvents ++ rows
    securityAlerts := tables.securityAlerts ++ added }

@[simp] theorem Tables.extend_nil (tables : Tables) : tables.extend [] [] = tables := by
  simp [extend]

/-- No stored alert has the ID that the factory gives. -/
def Tables.FreshFor (tables : Tables) (alertId : Option String) : Prop :=
  ∀ alert ∈ tables.securityAlerts, alertId ≠ some alert.alertId.text

theorem SecurityAlert.build_alertId {alertId category reason : String}
    {occurredAt : ClockReading} {body : DetectionEvent} {alert : SecurityAlert}
    (h : SecurityAlert.build alertId occurredAt category reason body = some alert) :
    alert.alertId.text = alertId := by
  unfold SecurityAlert.build at h
  split at h
  · split_ifs at h
    rw [← Option.some.inj h]
  · cases h

theorem Tables.insertAlert_fresh {tables : Tables} {alert : SecurityAlert}
    (h : tables.FreshFor (some alert.alertId.text)) :
    tables.insertAlert alert = some (tables.extend [] [alert]) := by
  have hfree : tables.securityAlerts.any (fun stored => stored.alertId = alert.alertId) =
      false := by
    rw [List.any_eq_false]
    intro stored hstored htaken
    rw [decide_eq_true_eq] at htaken
    exact h stored hstored (by rw [htaken])
  unfold insertAlert
  rw [hfree]
  simp [extend]

/-- With a fresh alert ID, a refusal does to all tables the same. -/
theorem refuse_extend (call : IngestCall) (failure : IngestFailure) :
    ∃ added outcome, (∀ alert ∈ added, call.alertId = some alert.alertId.text) ∧
      ∀ tables, tables.FreshFor call.alertId →
        refuse tables call failure = (tables.extend [] added, outcome) := by
  have hnothing : ∃ (added : List SecurityAlert) (outcome : IngestOutcome),
      (∀ alert ∈ added, call.alertId = some alert.alertId.text) ∧
      ∀ tables : Tables, tables.FreshFor call.alertId →
        (tables, IngestOutcome.serviceError) = (tables.extend [] added, outcome) :=
    ⟨[], .serviceError, by simp, fun tables _ => by simp⟩
  cases failure with
  | service => exact hnothing
  | rejection reason =>
    unfold refuse
    dsimp only
    unfold recordRejection
    cases alertCategoryByReason reason with
    | none => exact hnothing
    | some category =>
      cases halertId : call.alertId with
      | none =>
        rw [halertId] at hnothing
        exact hnothing
      | some alertId =>
        rw [halertId] at hnothing
        dsimp only
        cases hbuild : SecurityAlert.build alertId call.alertReading category reason.value
          call.envelope.body with
        | none => exact hnothing
        | some alert =>
          obtain rfl := SecurityAlert.build_alertId hbuild
          cases call.commit with
          | failed =>
            refine ⟨[], .serviceError, by simp, fun tables hfresh => ?_⟩
            simp [Tables.insertAlert_fresh hfresh, CommitOutcome.apply]
          | persisted =>
            refine ⟨[alert], .rejected reason, by simp, fun tables hfresh => ?_⟩
            simp [Tables.insertAlert_fresh hfresh, CommitOutcome.apply]
          | persistedRaised =>
            refine ⟨[alert], .serviceError, by simp, fun tables hfresh => ?_⟩
            simp [Tables.insertAlert_fresh hfresh, CommitOutcome.apply]

/-- Storing an event looks at the registry and at the stored events only. -/
theorem DetectionEventIngestor.recordEvent_extend (ingestor : DetectionEventIngestor)
    (origin : Tables) (call : IngestCall) (d : EventSecurityDecision) :
    ∃ rows outcome, ∀ tables : Tables, tables.registry = origin.registry →
      tables.detectionEvents = origin.detectionEvents →
        ingestor.recordEvent tables call d = (tables.extend rows [], outcome) := by
  have hnothing : ∃ (rows : List DetectionEventRecord) (outcome : IngestOutcome),
      ∀ tables : Tables, tables.registry = origin.registry →
        tables.detectionEvents = origin.detectionEvents →
          (tables, IngestOutcome.serviceError) = (tables.extend rows [], outcome) :=
    ⟨[], .serviceError, fun tables _ _ => by simp⟩
  unfold recordEvent
  cases DetectionEventRecord.fromEvent ingestor.reprFloat call.envelope.body d.acceptedAtUtc with
  | error e => exact hnothing
  | ok record =>
    dsimp only
    have hinsert : ∀ tables : Tables, tables.registry = origin.registry →
        tables.detectionEvents = origin.detectionEvents → tables.insertEvent record =
          if Tables.bindable record && Tables.checkConstraints record &&
              origin.registry.any (fun identity => identity.1 = record.nodeId) then
            some (tables.extend [{ record with recordId := some origin.nextRecordId }] [],
              { record with recordId := some origin.nextRecordId })
          else none := by
      intro tables hregistry hevents
      have hid : tables.nextRecordId = origin.nextRecordId := by
        rw [Tables.nextRecordId, Tables.nextRecordId, hevents]
      have hnodes : tables.nodes.any (fun node => node.nodeId = record.nodeId) =
          origin.registry.any fun identity => identity.1 = record.nodeId := by
        rw [← hregistry, Tables.registry, List.any_map]
        rfl
      unfold Tables.insertEvent
      rw [hnodes, hid]
      simp [Tables.extend]
    split_ifs at hinsert with hstorable
    · cases call.commit with
      | failed =>
        refine ⟨[], .serviceError, fun tables hregistry hevents => ?_⟩
        simp [hinsert tables hregistry hevents, CommitOutcome.apply]
      | persisted =>
        refine ⟨[{ record with recordId := some origin.nextRecordId }],
          .accepted origin.nextRecordId, fun tables hregistry hevents => ?_⟩
        simp [hinsert tables hregistry hevents, CommitOutcome.apply]
      | persistedRaised =>
        refine ⟨[{ record with recordId := some origin.nextRecordId }], .serviceError,
          fun tables hregistry hevents => ?_⟩
        simp [hinsert tables hregistry hevents, CommitOutcome.apply]
    · refine ⟨[], .serviceError, fun tables hregistry hevents => ?_⟩
      simp [hinsert tables hregistry hevents]

namespace DetectionEventIngestor

/-- What a call adds, on every process that has the same replay state, registry and events;
a call that does not authenticate adds alerts only. -/
theorem ingest_extend (ingestor : DetectionEventIngestor) (origin : IngestState)
    (call : IngestCall) : ∃ policy rows added outcome,
      (∀ alert ∈ added, call.alertId = some alert.alertId.text) ∧
      (ingestor.authenticate origin.tables call.lookupRaises call.envelope ≠ .ok () →
        policy = origin.policy ∧ rows = []) ∧
      ∀ tables : Tables, tables.registry = origin.tables.registry →
        tables.detectionEvents = origin.tables.detectionEvents →
        tables.FreshFor call.alertId →
        ingestor.ingest ⟨origin.policy, tables⟩ call =
          (⟨policy, tables.extend rows added⟩, outcome) := by
  have hrefuse : ∀ failure policy, ∃ added outcome,
      (∀ alert ∈ added, call.alertId = some alert.alertId.text) ∧
      ∀ tables, tables.FreshFor call.alertId →
        ((⟨policy, (refuse tables call failure).1⟩, (refuse tables call failure).2) :
          IngestState × IngestOutcome) = (⟨policy, tables.extend [] added⟩, outcome) := by
    intro failure policy
    obtain ⟨added, outcome, hids, h⟩ := refuse_extend call failure
    exact ⟨added, outcome, hids, fun tables hfresh => by rw [h tables hfresh]⟩
  cases hauth : ingestor.authenticate origin.tables call.lookupRaises call.envelope with
  | error failure =>
    obtain ⟨added, outcome, hids, h⟩ := hrefuse failure origin.policy
    refine ⟨origin.policy, [], added, outcome, hids, fun _ => ⟨rfl, rfl⟩, ?_⟩
    intro tables hregistry _ hfresh
    rw [← h tables hfresh, ingest, authenticate_registry hregistry, hauth]
  | ok u =>
    rcases hpolicy : acceptVerifiedEvent ingestor.settings origin.policy call.reading
      call.envelope.body with ⟨policy, e | d⟩
    · obtain ⟨added, outcome, hids, h⟩ := hrefuse (policyFailure e) policy
      refine ⟨policy, [], added, outcome, hids, fun hne => absurd rfl hne, ?_⟩
      intro tables hregistry _ hfresh
      rw [← h tables hfresh, ingest, authenticate_registry hregistry, hauth]
      dsimp only
      rw [hpolicy]
    · obtain ⟨rows, outcome, h⟩ := ingestor.recordEvent_extend origin.tables call d
      refine ⟨policy, rows, [], outcome, by simp, fun hne => absurd rfl hne, ?_⟩
      intro tables hregistry hevents _
      rw [ingest, authenticate_registry hregistry, hauth]
      dsimp only
      rw [hpolicy]
      dsimp only
      rw [h tables hregistry hevents]

/-- The node of the envelope is registered and the signature verifies under its key. -/
def verifies (ingestor : DetectionEventIngestor) (tables : Tables)
    (envelope : SignedDetectionEnvelope) : Bool :=
  match tables.getNode envelope.body.nodeId with
  | none => false
  | some node => ingestor.verifyNode node envelope = some true

theorem verifies_iff {ingestor : DetectionEventIngestor} {tables : Tables}
    {envelope : SignedDetectionEnvelope} : ingestor.verifies tables envelope = true ↔
      ingestor.authenticate tables false envelope = .ok () := by
  unfold verifies authenticate
  cases tables.getNode envelope.body.nodeId with
  | none => simp
  | some node =>
    dsimp only
    cases ingestor.verifyNode node envelope with
    | none => simp
    | some valid => cases valid <;> simp

end DetectionEventIngestor

/-- The ID that the alert factory gives to a request. -/
def AggregatorRequest.alertId? : AggregatorRequest → Option String
  | .detection _ surroundings => surroundings.alertId
  | .heartbeat _ _ => none

namespace AggregatorApp
variable {app : AggregatorApp}

/-- A detection post that is decoded to an envelope which verifies. -/
def authenticated (app : AggregatorApp) (tables : Tables) : AggregatorRequest → Bool
  | .detection request _ =>
    match app.readDetection request with
    | .error _ => false
    | .ok envelope => app.ingestor.verifies tables envelope
  | .heartbeat _ _ => false

/-- The alert IDs of the requests that do not authenticate. -/
def deletedAlertIds (app : AggregatorApp) (tables : Tables) (requests : List AggregatorRequest) :
    List String :=
  (requests.filter fun request => !app.authenticated tables request).filterMap
    AggregatorRequest.alertId?

theorem alertId?_ne_head {request other : AggregatorRequest} {rest : List AggregatorRequest}
    (hdistinct : ((request :: rest).filterMap AggregatorRequest.alertId?).Nodup)
    (hother : other ∈ rest) {alertId : String} (hhead : request.alertId? = some alertId) :
    other.alertId? ≠ some alertId := by
  intro heq
  rw [List.filterMap_cons_some hhead, List.nodup_cons] at hdistinct
  exact hdistinct.1 (List.mem_filterMap.mpr ⟨other, hother, heq⟩)

/-- Requests with distinct alert IDs are told apart by them. -/
theorem eq_of_alertId {requests : List AggregatorRequest}
    (hdistinct : (requests.filterMap AggregatorRequest.alertId?).Nodup)
    {a b : AggregatorRequest} (ha : a ∈ requests) (hb : b ∈ requests) {alertId : String}
    (haId : a.alertId? = some alertId) (hbId : b.alertId? = some alertId) : a = b := by
  induction requests with
  | nil => cases ha
  | cons request requests ih =>
    rcases List.mem_cons.mp ha with rfl | ha' <;> rcases List.mem_cons.mp hb with rfl | hb'
    · rfl
    · exact absurd hbId (alertId?_ne_head hdistinct hb' haId)
    · exact absurd haId (alertId?_ne_head hdistinct ha' hbId)
    · exact ih (hdistinct.sublist ((List.sublist_cons_self _ _).filterMap _)) ha' hb'

/-- Relates the full run to the run without the deleted requests, over the registry that both
started with. -/
structure Purged (app : AggregatorApp) (origin : Tables) (deleted : List String)
    (rest : List AggregatorRequest) (full purged : IngestState) : Prop where
  policy : full.policy = purged.policy
  registry : full.tables.registry = origin.registry
  purgedRegistry : purged.tables.registry = origin.registry
  events : full.tables.detectionEvents = purged.tables.detectionEvents
  alerts : (full.tables.securityAlerts.filter fun alert => alert.alertId.text ∉ deleted) =
    purged.tables.securityAlerts
  fresh : ∀ request ∈ rest, full.tables.FreshFor request.alertId?
  distinct : (rest.filterMap AggregatorRequest.alertId?).Nodup
  deleted_iff : ∀ request ∈ rest, ∀ alertId, request.alertId? = some alertId →
    (alertId ∈ deleted ↔ app.authenticated origin request = false)

section Purge
variable {origin : Tables} {deleted : List String} {request : AggregatorRequest}
  {rest : List AggregatorRequest} {full purged : IngestState}

/-- What the relation says about the requests after the next one. -/
theorem Purged.next (h : app.Purged origin deleted (request :: rest) full purged)
    {full' purged' : IngestState} {rows : List DetectionEventRecord} {added : List SecurityAlert}
    (hids : ∀ alert ∈ added, request.alertId? = some alert.alertId.text)
    (hpolicy : full'.policy = purged'.policy)
    (hregistry : full'.tables.registry = full.tables.registry)
    (hpurgedRegistry : purged'.tables.registry = purged.tables.registry)
    (hevents : full'.tables.detectionEvents = full.tables.detectionEvents ++ rows)
    (hpurgedEvents : purged'.tables.detectionEvents = purged.tables.detectionEvents ++ rows)
    (halerts : full'.tables.securityAlerts = full.tables.securityAlerts ++ added)
    (hpurgedAlerts : purged'.tables.securityAlerts =
      purged.tables.securityAlerts ++ if app.authenticated origin request then added else []) :
    app.Purged origin deleted rest full' purged' where
  policy := hpolicy
  registry := hregistry.trans h.registry
  purgedRegistry := hpurgedRegistry.trans h.purgedRegistry
  events := by rw [hevents, hpurgedEvents, h.events]
  alerts := by
    have hadded : ∀ alert ∈ added, (alert.alertId.text ∈ deleted ↔
        app.authenticated origin request = false) := fun alert ha =>
      h.deleted_iff request List.mem_cons_self _ (hids alert ha)
    rw [halerts, hpurgedAlerts, List.filter_append, h.alerts]
    congr 1
    cases hauth : app.authenticated origin request with
    | true =>
      rw [if_pos rfl, List.filter_eq_self]
      intro alert ha
      simp [hadded alert ha, hauth]
    | false =>
      rw [if_neg (by simp), List.filter_eq_nil_iff]
      intro alert ha
      simp [hadded alert ha, hauth]
  fresh other hother := by
    intro alert ha
    rw [halerts] at ha
    rcases List.mem_append.mp ha with ha | ha
    · exact h.fresh other (List.mem_cons_of_mem _ hother) alert ha
    · exact alertId?_ne_head h.distinct hother (hids alert ha)
  distinct := h.distinct.sublist ((List.sublist_cons_self _ _).filterMap _)
  deleted_iff other hother := h.deleted_iff other (List.mem_cons_of_mem _ hother)

theorem answer_detection {http : HttpRequest} {envelope : SignedDetectionEnvelope}
    (hread : app.readDetection http = .ok envelope) (surroundings : IngestSurroundings)
    (state : IngestState) : app.answer state (.detection http surroundings) =
      ((app.ingestor.ingest state (surroundings.call envelope)).1,
        (app.ingestor.ingest state (surroundings.call envelope)).2.response) := by
  simp only [answer, ingestDetection, hread]

theorem authenticated_detection {http : HttpRequest} {envelope : SignedDetectionEnvelope}
    (hread : app.readDetection http = .ok envelope) (surroundings : IngestSurroundings)
    (tables : Tables) : app.authenticated tables (.detection http surroundings) =
      app.ingestor.verifies tables envelope := by
  simp only [authenticated, hread]

/-- Step lemma for a request that both runs answer. -/
theorem Purged.keep (hkeep : app.authenticated origin request = true)
    (h : app.Purged origin deleted (request :: rest) full purged) :
    (app.answer full request).2 = (app.answer purged request).2 ∧
      app.Purged origin deleted rest (app.answer full request).1
        (app.answer purged request).1 := by
  cases request with
  | heartbeat http surroundings => cases hkeep
  | detection http surroundings =>
    cases hread : app.readDetection http with
    | error e => simp [authenticated, hread] at hkeep
    | ok envelope =>
      obtain ⟨policy, rows, added, outcome, hids, -, hingest⟩ :=
        app.ingestor.ingest_extend full (surroundings.call envelope)
      have hfresh : full.tables.FreshFor surroundings.alertId := h.fresh _ List.mem_cons_self
      have hpurgedFresh : purged.tables.FreshFor surroundings.alertId := by
        intro alert ha
        rw [← h.alerts] at ha
        exact hfresh alert (List.mem_of_mem_filter ha)
      have hfull : app.ingestor.ingest full (surroundings.call envelope) =
          (⟨policy, full.tables.extend rows added⟩, outcome) :=
        hingest full.tables rfl rfl hfresh
      have hpurged : app.ingestor.ingest purged (surroundings.call envelope) =
          (⟨policy, purged.tables.extend rows added⟩, outcome) := by
        have hcall := hingest purged.tables (h.purgedRegistry.trans h.registry.symm)
          h.events.symm hpurgedFresh
        rwa [h.policy] at hcall
      rw [answer_detection hread, answer_detection hread, hfull, hpurged]
      refine ⟨rfl, h.next hids rfl rfl rfl rfl rfl rfl ?_⟩
      rw [hkeep]
      rfl

/-- A heartbeat post leaves everything but the liveness columns as it is. -/
theorem recordHeartbeat_frame (app : AggregatorApp) (state : IngestState) (http : HttpRequest)
    (surroundings : HeartbeatSurroundings) :
    (app.recordHeartbeat state http surroundings).1.policy = state.policy ∧
      (app.recordHeartbeat state http surroundings).1.tables.registry = state.tables.registry ∧
      (app.recordHeartbeat state http surroundings).1.tables.detectionEvents =
        state.tables.detectionEvents ∧
      (app.recordHeartbeat state http surroundings).1.tables.securityAlerts =
        state.tables.securityAlerts := by
  unfold recordHeartbeat
  cases app.readHeartbeat http with
  | error e => exact ⟨rfl, rfl, rfl, rfl⟩
  | ok heartbeat =>
    obtain ⟨hregistry, hevents, halerts⟩ := HeartbeatService.record_frame
      app.ingestor.settings state.tables (surroundings.call heartbeat)
    exact ⟨rfl, hregistry, hevents, halerts⟩

/-- Step lemma for a request that only the full run answers. -/
theorem Purged.delete (hdelete : app.authenticated origin request = false)
    (h : app.Purged origin deleted (request :: rest) full purged) :
    app.Purged origin deleted rest (app.answer full request).1 purged := by
  have hquiet : ∀ full' : IngestState, full'.policy = full.policy →
      full'.tables.registry = full.tables.registry →
      full'.tables.detectionEvents = full.tables.detectionEvents →
      full'.tables.securityAlerts = full.tables.securityAlerts →
      app.Purged origin deleted rest full' purged := by
    intro full' hpolicy hregistry hevents halerts
    have hnone : ∀ alert ∈ ([] : List SecurityAlert),
        request.alertId? = some alert.alertId.text := by simp
    have hrows : full'.tables.detectionEvents =
        full.tables.detectionEvents ++ ([] : List DetectionEventRecord) := by simp [hevents]
    exact h.next hnone (hpolicy.trans h.policy) hregistry rfl hrows (by simp) (by simp [halerts])
      (by simp)
  cases request with
  | heartbeat http surroundings =>
    obtain ⟨hpolicy, hregistry, hevents, halerts⟩ :=
      app.recordHeartbeat_frame full http surroundings
    exact hquiet _ hpolicy hregistry hevents halerts
  | detection http surroundings =>
    cases hread : app.readDetection http with
    | error e =>
      unfold answer ingestDetection
      simp only [hread]
      exact hquiet full rfl rfl rfl rfl
    | ok envelope =>
      obtain ⟨policy, rows, added, outcome, hids, hrefused, hingest⟩ :=
        app.ingestor.ingest_extend full (surroundings.call envelope)
      have hauth : app.ingestor.authenticate full.tables surroundings.lookupRaises envelope ≠
          .ok () := by
        intro hok
        have hlookup := (DetectionEventIngestor.authenticate_eq_ok.mp hok).1
        rw [hlookup, DetectionEventIngestor.authenticate_registry h.registry,
          ← DetectionEventIngestor.verifies_iff, ← authenticated_detection hread surroundings,
          hdelete] at hok
        cases hok
      obtain ⟨rfl, rfl⟩ := hrefused hauth
      have hfull : app.ingestor.ingest full (surroundings.call envelope) =
          (⟨full.policy, full.tables.extend [] added⟩, outcome) :=
        hingest full.tables rfl rfl (h.fresh _ List.mem_cons_self)
      rw [answer_detection hread, hfull]
      refine h.next hids h.policy rfl rfl rfl (by simp) rfl ?_
      rw [hdelete]
      simp

end Purge

/-- Noninterference. From any state of a process, and in any run of detection and heartbeat
posts to which the alert factory gives fresh IDs, deleting every heartbeat, every post that is
not decoded, and every envelope whose node is not registered or whose signature does not verify
leaves the answers to all other requests, the replay state, the registry and the events
unchanged, and the alerts but for those of the deleted requests. -/
theorem unauthenticated_requests_do_not_interfere (app : AggregatorApp) (state : IngestState)
    (requests : List AggregatorRequest)
    (hdistinct : (requests.filterMap AggregatorRequest.alertId?).Nodup)
    (hfresh : ∀ request ∈ requests, state.tables.FreshFor request.alertId?) :
    let keep := app.authenticated state.tables
    let full := app.serve state requests
    let purged := app.serve state (requests.filter keep)
    let deleted := app.deletedAlertIds state.tables requests
    Runs.keptOutputs keep requests full.2 = purged.2 ∧
      full.1.policy = purged.1.policy ∧
      full.1.tables.registry = purged.1.tables.registry ∧
      full.1.tables.detectionEvents = purged.1.tables.detectionEvents ∧
      (full.1.tables.securityAlerts.filter fun alert => alert.alertId.text ∉ deleted) =
        purged.1.tables.securityAlerts := by
  intro keep full purged deleted
  have hdeleted : ∀ request ∈ requests, ∀ alertId, request.alertId? = some alertId →
      (alertId ∈ deleted ↔ keep request = false) := by
    intro request hrequest alertId hid
    constructor
    · intro hmem
      obtain ⟨other, hother, hotherId⟩ := List.mem_filterMap.mp hmem
      obtain ⟨hother, hkeep⟩ := List.mem_filter.mp hother
      rw [← eq_of_alertId hdistinct hother hrequest hotherId hid]
      simpa using hkeep
    · intro hkeep
      exact List.mem_filterMap.mpr ⟨request, List.mem_filter.mpr ⟨hrequest, by simpa using hkeep⟩,
        hid⟩
  have halerts : (state.tables.securityAlerts.filter fun alert =>
      alert.alertId.text ∉ deleted) = state.tables.securityAlerts := by
    rw [List.filter_eq_self]
    intro alert halert
    rw [decide_eq_true_eq]
    intro hmem
    obtain ⟨request, hrequest, hid⟩ := List.mem_filterMap.mp hmem
    exact hfresh request (List.mem_of_mem_filter hrequest) alert halert hid
  have hkeep : ∀ request rest s t, keep request = true →
      app.Purged state.tables deleted (request :: rest) s t →
      (app.answer s request).2 = (app.answer t request).2 ∧
        app.Purged state.tables deleted rest (app.answer s request).1 (app.answer t request).1 :=
    fun _ _ _ _ hrequest h => h.keep hrequest
  have hdelete : ∀ request rest s t, keep request = false →
      app.Purged state.tables deleted (request :: rest) s t →
      app.Purged state.tables deleted rest (app.answer s request).1 t :=
    fun _ _ _ _ hrequest h => h.delete hrequest
  obtain ⟨houtputs, h⟩ := Runs.run_deletion hkeep hdelete requests
    ⟨rfl, rfl, rfl, rfl, halerts, hfresh, hdistinct, hdeleted⟩
  exact ⟨houtputs, h.policy, h.registry.trans h.purgedRegistry.symm, h.events, h.alerts⟩

open DetectionEventIngestor (sampleNode sampleTables sampleEvent)

/-- A post of one body, served at the instant with the given alert ID. -/
def samplePost (contentType : Option String) (payload : ByteArray) (instant : UtcDatetime)
    (alertId : String) : AggregatorRequest :=
  .detection ⟨contentType, none, [], [payload], false⟩
    ⟨false, .utc instant, some alertId, .utc instant, .persisted⟩

/-- A body without its media type, a signed event, and a heartbeat. -/
def sampleRequests (payload : ByteArray) (instant : UtcDatetime) : List AggregatorRequest :=
  [samplePost none payload instant "alert-1",
    samplePost (some "application/json") payload instant "alert-2",
    .heartbeat ⟨some "application/json", none, [], [payload], false⟩
      ⟨false, .utc instant, false, .persisted⟩]

theorem authenticated_samplePost {instant : UtcDatetime} {payload : ByteArray}
    (hsend : sendDetection .checksum Json.exactRepr (7 : UInt8) (sampleEvent instant) = .ok payload)
    (hsize : payload.size ≤ SecuritySettings.sample.maxRequestBytes) (alertId : String) :
    authenticated ⟨.sample, 5⟩ sampleTables
      (samplePost (some "application/json") payload instant alertId) = true := by
  obtain ⟨envelope, hsign⟩ := DetectionEventIngestor.exists_sign_sampleEvent instant
  obtain ⟨payload', received, publicKey, signed, hsend', hparse, hagree, -, -, hload, hverify⟩ :=
    signed_event_verifies_after_wire Ed25519.checksum_lawful Json.exactRepr_floatRepr le_rfl _ _
      hsign
  obtain rfl := Except.ok.inj (hsend.symm.trans hsend')
  have hread := (readDetection_single ⟨.sample, 5⟩ hsize []).trans hparse
  have hnode : sampleTables.getNode received.body.nodeId = some sampleNode := by
    rw [hagree.nodeId]
    exact DetectionEventIngestor.getNode_sample instant
  rw [samplePost, authenticated_detection hread, DetectionEventIngestor.verifies_iff,
    DetectionEventIngestor.authenticate_eq_ok]
  refine ⟨rfl, sampleNode, (7 : UInt8), hnode, DetectionEventIngestor.registeredKey_sampleNode, ?_⟩
  have hkey := hload.symm.trans (loadPublicKey_encodePublicKey Ed25519.checksum_lawful _)
  obtain rfl := Except.ok.inj hkey
  exact hverify

theorem unauthenticated_requests_do_not_interfere_sample :
    let app : AggregatorApp := ⟨.sample, 5⟩
    let instant : UtcDatetime := ⟨63893000000000000, by decide⟩
    let state : IngestState := ⟨.initial, sampleTables⟩
    ∃ payload, sendDetection .checksum Json.exactRepr (7 : UInt8) (sampleEvent instant) =
        .ok payload ∧
      (sampleRequests payload instant).map (app.authenticated sampleTables) =
        [false, true, false] ∧
      Runs.keptOutputs (app.authenticated sampleTables) (sampleRequests payload instant)
          (app.serve state (sampleRequests payload instant)).2 =
        (app.serve state [samplePost (some "application/json") payload instant "alert-2"]).2 := by
  intro app instant state
  obtain ⟨envelope, hsign⟩ := DetectionEventIngestor.exists_sign_sampleEvent instant
  obtain ⟨text, -, hsend⟩ := sendDetection_eq_ok hsign
  have hlength : (Json.render (Json.numberText Json.exactRepr)
      (Document.event (sampleEvent instant))).length ≤ 1000 := by decide +kernel
  have hbound : text.toUTF8.size ≤ 4 * ((Json.render (Json.numberText Json.exactRepr)
      (Document.event (sampleEvent instant))).length + 2000) := sendDetection_size_le hsend
  have hsize : text.toUTF8.size ≤ 262144 :=
    hbound.trans ((Nat.mul_le_mul_left 4 (Nat.add_le_add_right hlength 2000)).trans (by decide))
  have hauth := authenticated_samplePost hsend hsize "alert-2"
  have hdistinct : ((sampleRequests text.toUTF8 instant).filterMap
      AggregatorRequest.alertId?).Nodup := by
    show ["alert-1", "alert-2"].Nodup
    decide
  obtain ⟨houtputs, -⟩ := unauthenticated_requests_do_not_interfere app state
    (sampleRequests text.toUTF8 instant) hdistinct (fun _ _ _ h => by cases h)
  have hmissing : app.authenticated sampleTables
      (samplePost none text.toUTF8 instant "alert-1") = false := by
    have hread : app.readDetection ⟨none, none, [], [text.toUTF8], false⟩ = .error _ :=
      app.readDetection_missing rfl
    simp only [authenticated, samplePost, hread]
  have hkept : (sampleRequests text.toUTF8 instant).map (app.authenticated sampleTables) =
      [false, true, false] := by
    rw [sampleRequests, List.map_cons, List.map_cons, hmissing, hauth]
    rfl
  refine ⟨text.toUTF8, hsend, hkept, houtputs.trans ?_⟩
  rw [sampleRequests, List.filter_cons_of_neg (Bool.eq_false_iff.mp hmissing),
    List.filter_cons_of_pos hauth]
  rfl

end AggregatorApp

end SecureEdge
