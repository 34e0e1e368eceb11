import SecureEdgeVision.Monitoring.Queries
import SecureEdgeVision.Runs.Transaction
import SecureEdgeVision.Store.Operations

/-! What the database operations of the aggregator do with their session, call by call. What the
body of an operation makes durable and ends in is what the operation does to the tables. -/
namespace SecureEdge

open Runs (Raising SessionMet SessionStep Settles Traced Within unitOfWork)

/-- An exception of `ingest`: one of its own, or one of its session that nothing converts. -/
inductive IngestRaised where
  | failure (failure : IngestFailure)
  | escaped
deriving DecidableEq

def IngestOutcome.result : IngestOutcome → Except IngestRaised ℕ
  | .accepted recordId => .ok recordId
  | .rejected reason => .error (.failure (.rejection reason))
  | .serviceError => .error (.failure .service)

def CommitOutcome.persists : CommitOutcome → Bool
  | .persisted => true
  | .failed => false
  | .persistedRaised => true

def CommitOutcome.raises : CommitOutcome → Bool
  | .persisted => false
  | .failed => true
  | .persistedRaised => true

/-- Row counts for the supervisor. -/
structure AggregatorHealth where
  registeredNodes : ℕ
  acceptedEvents : ℕ
  securityAlerts : ℕ
deriving DecidableEq

/-- A call of `get_aggregator_health`, with what it meets in its session. -/
structure HealthCall where
  met : SessionMet
  nodesRaise : Bool
  eventsRaise : Bool
  alertsRaise : Bool
deriving DecidableEq

/-- How many rows each table has. -/
def Tables.counts (tables : Tables) : AggregatorHealth :=
  ⟨tables.nodes.length, tables.detectionEvents.length, tables.securityAlerts.length⟩

/-- `get_aggregator_health` -/
def getAggregatorHealth (tables : Tables) (call : HealthCall) :
    Except MonitoringServiceError AggregatorHealth :=
  if call.met.openRaises || call.nodesRaise || call.eventsRaise || call.alertsRaise ||
    call.met.closeRaises then .error ⟨⟩
  else .ok tables.counts

section Steps
variable {ε α : Type}

/-- Raise without a call on the session. -/
def raise (e : ε) : Traced (SessionStep Tables) ε α := ⟨[], .error e⟩

/-- A query and what it raises, if it does. -/
def query (session : ℕ) (raised : Option ε) : Traced (SessionStep Tables) ε Unit :=
  .call (.queried session raised.isSome) (match raised with | none => .ok () | some e => .error e)

/-- A commit with what was added flushed; `none` is a flush that fails. -/
def save (session : ℕ) (copy : Option Tables) (commit : CommitOutcome) (e : ε) :
    Traced (SessionStep Tables) ε Unit :=
  match copy with
  | none => .call (.committed session false true) (.error e)
  | some copy =>
    ⟨[.wrote session copy, .committed session commit.persists commit.raises],
      if commit.raises then .error e else .ok ()⟩

/-- `_record_rejection` -/
def recordRejectionSteps (session : ℕ) (tables : Tables) (call : IngestCall)
    (reason : IngestionReason) : Traced (SessionStep Tables) IngestRaised ℕ :=
  match alertCategoryByReason reason, call.alertId with
  | some category, some alertId =>
    match SecurityAlert.build alertId call.alertReading category reason.value
      call.envelope.body with
    | none => raise (.failure .service)
    | some alert => do
      save session (tables.insertAlert alert) call.commit (.failure .service)
      raise (.failure (.rejection reason))
  | _, _ => raise (.failure .service)

def refuseSteps (session : ℕ) (tables : Tables) (call : IngestCall) :
    IngestFailure → Traced (SessionStep Tables) IngestRaised ℕ
  | .rejection reason => recordRejectionSteps session tables call reason
  | .service => raise (.failure .service)

namespace DetectionEventIngestor
variable (ingestor : DetectionEventIngestor)

/-- The end of an accepted call. -/
def recordEventSteps (session : ℕ) (tables : Tables) (call : IngestCall)
    (decision : EventSecurityDecision) : Traced (SessionStep Tables) IngestRaised ℕ :=
  match DetectionEventRecord.fromEvent ingestor.reprFloat call.envelope.body
    decision.acceptedAtUtc with
  | .error _ => raise (.failure .service)
  | .ok record => do
    save session ((tables.insertEvent record).map Prod.fst) call.commit (.failure .service)
    match (tables.insertEvent record).bind fun stored => stored.2.recordId with
    | some recordId => pure recordId
    | none => raise (.failure .service)

/-- `ingest` inside its session. -/
def ingestSteps (session : ℕ) (state : IngestState) (call : IngestCall) :
    Traced (SessionStep Tables) IngestRaised ℕ := do
  query session (if call.lookupRaises then some (.failure .service) else none)
  match ingestor.authenticate state.tables false call.envelope with
  | .error failure => refuseSteps session state.tables call failure
  | .ok () =>
    let accepted :=
      acceptVerifiedEvent ingestor.settings state.policy call.reading call.envelope.body
    match accepted.2 with
    | .error failure => refuseSteps session state.tables call (policyFailure failure)
    | .ok decision => ingestor.recordEventSteps session state.tables call decision

/-- The replay state that a call leaves. -/
def policyAfter (state : IngestState) (call : IngestCall) : ReplayState :=
  match ingestor.authenticate state.tables call.lookupRaises call.envelope with
  | .error _ => state.policy
  | .ok () => (acceptVerifiedEvent ingestor.settings state.policy call.reading
      call.envelope.body).1

end DetectionEventIngestor

/-- `HeartbeatService.record` inside its session. The update is rolled back unless it changed one
row. -/
def HeartbeatService.recordSteps (session : ℕ) (settings : SecuritySettings) (tables : Tables)
    (call : HeartbeatCall) : Traced (SessionStep Tables) HeartbeatFailure Unit := do
  query session (if call.lookupRaises then some .service else none)
  match tables.getNode call.heartbeat.nodeId with
  | none => raise (.rejection .unknownNode)
  | some _ =>
    match checkHeartbeatWindow settings call.reading call.heartbeat.timestampUtc.instant with
    | .error failure => raise failure
    | .ok () =>
      if call.updateRaises then query session (some .service)
      else
        let (after, rowcount) := tables.updateNodes call.heartbeat
        if rowcount ≠ 1 then ⟨[.wrote session after], .error (.rejection .outOfOrderHeartbeat)⟩
        else save session (some after) call.commit .service

/-- The body of `session_scope` in `seed_node_registry`. -/
def seedSteps (session : ℕ) (tables : Tables) (timestamp : UtcDatetime) (call : SeedCall)
    (entries : List (SafeIdentifier × NodeRegistration)) :
    Traced (SessionStep Tables) SeedFailure ℕ := do
  query session call.queryRaises
  match newRecords tables timestamp entries with
  | .error e => raise (.persistence e)
  | .ok records => do
    save session (tables.insertNodes records) call.commit (.persistence .transactionFailed)
    pure records.length

/-- The body of `get_aggregator_health`. -/
def healthSteps (session : ℕ) (tables : Tables) (call : HealthCall) :
    Traced (SessionStep Tables) MonitoringServiceError AggregatorHealth := do
  query session (if call.nodesRaise then some ⟨⟩ else none)
  query session (if call.eventsRaise then some ⟨⟩ else none)
  query session (if call.alertsRaise then some ⟨⟩ else none)
  pure tables.counts

/-- The body of a view: one query, and what is made of its rows. -/
def viewSteps (session : ℕ) (call : ListCall) (e : ε) (result : Except ε α) :
    Traced (SessionStep Tables) ε α := do
  query session (if call.queryRaises then some e else none)
  ⟨[], result⟩

end Steps

namespace Database
variable (database : Database)

/-- The rows of `list_node_health`. -/
def nodeHealths (limit : ℤ) : Except ReadFailure (List NodeHealth) := do
  let rows := (database.nodes.insertionSort NodeRow.before).take limit.toNat
  let records ← readBack (rows.mapM NodeRow.fetch)
  records.mapM NodeRecord.health

/-- The rows of `list_recent_events`. -/
def recentEvents (depth : ℕ) (limit : ℤ) : Except ReadFailure (List RecentDetectionEvent) := do
  let rows := (database.detectionEvents.insertionSort DetectionEventRow.before).take limit.toNat
  let records ← readBack (rows.mapM DetectionEventRow.fetch)
  records.mapM (DetectionEventRecord.recent depth)

/-- The rows of `list_security_alerts`. -/
def newestAlerts (limit : ℤ) : Except PersistenceError (List SecurityAlert) := do
  let rows := (database.securityAlerts.insertionSort SecurityAlertRow.before).take limit.toNat
  let records ← rows.mapM SecurityAlertRow.fetch
  records.mapM SecurityAlertRecord.toAlert

end Database

section Bodies
variable {ε α β : Type} {session : ℕ} {tables after : Tables} {result : Except ε α}

/-- What the steps of a body do: they stay within their session, and this is what they make durable
and what they end in. -/
structure Does (session : ℕ) (tables after : Tables) (result : Except ε α)
    (steps : Traced (SessionStep Tables) ε α) : Prop where
  within : Within session tables after steps.calls
  result : steps.result = result

theorem does_raise (session : ℕ) (tables : Tables) (e : ε) :
    Does session tables tables (.error e) (raise e : Traced (SessionStep Tables) ε α) :=
  ⟨Runs.within_nil, rfl⟩

theorem does_query_raises (session : ℕ) (tables : Tables) (e : ε)
    (f : Unit → Traced (SessionStep Tables) ε α) :
    Does session tables tables (.error e) (query session (some e) >>= f) :=
  ⟨Runs.within_nil.query true, rfl⟩

theorem Does.query {f : Unit → Traced (SessionStep Tables) ε α}
    (h : Does session tables after result (f ())) :
    Does session tables after result (query session none >>= f) :=
  ⟨h.within.query false, h.result⟩

/-- A commit followed by nothing but a result. -/
theorem does_save (session : ℕ) (tables : Tables) (copy : Option Tables) (commit : CommitOutcome)
    (e : ε) {f : Unit → Traced (SessionStep Tables) ε α} (hf : f () = ⟨[], result⟩) :
    Does session tables (copy.elim tables fun copy => (commit.apply tables copy).1)
      (copy.elim (.error e) fun copy => if (commit.apply tables copy).2 then result else .error e)
      (save session copy commit e >>= f) := by
  cases copy with
  | none => exact ⟨Runs.within_lost true, rfl⟩
  | some copy =>
    have hsaved : Within session tables (if commit.persists then copy else tables)
        [.wrote session copy, .committed session commit.persists commit.raises] :=
      Runs.within_saved copy commit.persists commit.raises
    cases commit with
    | failed => exact ⟨hsaved, rfl⟩
    | persistedRaised => exact ⟨hsaved, rfl⟩
    | persisted =>
      have hsteps : (save session (some copy) .persisted e >>= f) =
          ⟨[.wrote session copy, .committed session true false] ++ (f ()).calls, (f ()).result⟩ :=
        rfl
      rw [hsteps, hf, List.append_nil]
      exact ⟨hsaved, rfl⟩

theorem recordRejectionSteps_does (session : ℕ) (tables : Tables) (call : IngestCall)
    (reason : IngestionReason) :
    Does session tables (recordRejection tables call reason).1
      (recordRejection tables call reason).2.result
      (recordRejectionSteps session tables call reason) := by
  unfold recordRejection recordRejectionSteps
  cases alertCategoryByReason reason with
  | none => exact does_raise session tables _
  | some category =>
    cases call.alertId with
    | none => exact does_raise session tables _
    | some alertId =>
      dsimp only
      cases SecurityAlert.build alertId call.alertReading category reason.value
        call.envelope.body with
      | none => exact does_raise session tables _
      | some alert =>
        have hsave := does_save session tables (tables.insertAlert alert) call.commit
          (.failure .service : IngestRaised) (f := fun _ => (raise (.failure (.rejection reason)) :
            Traced (SessionStep Tables) IngestRaised ℕ)) rfl
        dsimp only
        cases hinsert : tables.insertAlert alert with
        | none =>
          rw [hinsert] at hsave
          exact hsave
        | some copy =>
          rw [hinsert] at hsave
          cases hcommit : call.commit <;> rw [hcommit] at hsave <;> exact hsave

theorem refuseSteps_does (session : ℕ) (tables : Tables) (call : IngestCall)
    (failure : IngestFailure) :
    Does session tables (refuse tables call failure).1 (refuse tables call failure).2.result
      (refuseSteps session tables call failure) := by
  cases failure with
  | service => exact does_raise session tables _
  | rejection reason => exact recordRejectionSteps_does session tables call reason

namespace DetectionEventIngestor
variable (ingestor : DetectionEventIngestor)

theorem recordEventSteps_does (session : ℕ) (tables : Tables) (call : IngestCall)
    (decision : EventSecurityDecision) :
    Does session tables (ingestor.recordEvent tables call decision).1
      (ingestor.recordEvent tables call decision).2.result
      (ingestor.recordEventSteps session tables call decision) := by
  unfold recordEvent recordEventSteps
  cases DetectionEventRecord.fromEvent ingestor.reprFloat call.envelope.body
    decision.acceptedAtUtc with
  | error e => exact does_raise session tables _
  | ok record =>
    dsimp only
    cases hinsert : tables.insertEvent record with
    | none => exact does_save session tables none call.commit _ rfl
    | some stored =>
      obtain ⟨copy, stored⟩ := stored
      cases hid : stored.recordId with
      | none =>
        have hsave := does_save session tables (some copy) call.commit
          (.failure .service : IngestRaised) (f := fun _ => (raise (.failure .service) :
            Traced (SessionStep Tables) IngestRaised ℕ)) rfl
        simp only [Option.map_some, Option.bind_some, hid]
        cases hcommit : call.commit <;> rw [hcommit] at hsave <;> exact hsave
      | some recordId =>
        have hsave := does_save session tables (some copy) call.commit
          (.failure .service : IngestRaised) (f := fun _ => (pure recordId :
            Traced (SessionStep Tables) IngestRaised ℕ)) rfl
        simp only [Option.map_some, Option.bind_some, hid]
        cases hcommit : call.commit <;> rw [hcommit] at hsave <;> exact hsave

/-- The steps of an ingest call do what the call does to the tables. -/
theorem ingestSteps_does (session : ℕ) (state : IngestState) (call : IngestCall) :
    Does session state.tables (ingestor.ingest state call).1.tables
      (ingestor.ingest state call).2.result (ingestor.ingestSteps session state call) ∧
    ingestor.policyAfter state call = (ingestor.ingest state call).1.policy := by
  unfold ingestSteps policyAfter ingest
  cases hlookup : call.lookupRaises with
  | true =>
    have hauth : ingestor.authenticate state.tables true call.envelope = .error .service := rfl
    rw [hauth]
    exact ⟨does_query_raises session state.tables _ _, rfl⟩
  | false =>
    cases ingestor.authenticate state.tables false call.envelope with
    | error failure => exact ⟨(refuseSteps_does session state.tables call failure).query, rfl⟩
    | ok u =>
      dsimp only
      rcases acceptVerifiedEvent ingestor.settings state.policy call.reading
        call.envelope.body with ⟨policy, failure | decision⟩
      · exact ⟨(refuseSteps_does session state.tables call (policyFailure failure)).query, rfl⟩
      · exact ⟨(ingestor.recordEventSteps_does session state.tables call decision).query, rfl⟩

end DetectionEventIngestor

theorem HeartbeatService.recordSteps_does (session : ℕ) (settings : SecuritySettings)
    (tables : Tables) (call : HeartbeatCall) :
    Does session tables (HeartbeatService.record settings tables call).1
      (HeartbeatService.record settings tables call).2
      (HeartbeatService.recordSteps session settings tables call) := by
  unfold record recordSteps
  cases hlookup : call.lookupRaises with
  | true => exact does_query_raises session tables _ _
  | false =>
    simp only [Bool.false_eq_true, if_false]
    apply Does.query
    cases tables.getNode call.heartbeat.nodeId with
    | none => exact does_raise session tables _
    | some node =>
      cases checkHeartbeatWindow settings call.reading call.heartbeat.timestampUtc.instant with
      | error failure => exact does_raise session tables failure
      | ok u =>
        dsimp only
        cases call.updateRaises with
        | true => exact ⟨Runs.within_nil.query true, rfl⟩
        | false =>
          simp only [Bool.false_eq_true, if_false]
          by_cases hrows : (tables.updateNodes call.heartbeat).2 ≠ 1
          · rw [if_pos hrows, if_pos hrows]
            exact ⟨Runs.within_wrote _, rfl⟩
          rw [if_neg hrows, if_neg hrows]
          have hsave := does_save session tables (some (tables.updateNodes call.heartbeat).1)
            call.commit HeartbeatFailure.service (f := pure) rfl
          cases hcommit : call.commit <;> rw [hcommit] at hsave <;> exact hsave

theorem seedSteps_does (session : ℕ) (tables : Tables) (timestamp : UtcDatetime) (call : SeedCall)
    {byId : Python.Dict SafeIdentifier NodeRegistration}
    (htime : call.registeredAt = .utc timestamp)
    (hcollect : call.registrations.foldlM collectRegistration Python.Dict.empty = .ok byId)
    (hentries : byId.entries ≠ []) :
    Does session tables (seedNodeRegistry tables call).1 (seedNodeRegistry tables call).2
      (seedSteps session tables timestamp call byId.entries) := by
  unfold seedNodeRegistry seedSteps
  simp only [htime, hcollect, if_neg hentries]
  cases hquery : call.queryRaises with
  | some failure => exact does_query_raises session tables failure _
  | none =>
    apply Does.query
    cases newRecords tables timestamp byId.entries with
    | error e => exact does_raise session tables _
    | ok records =>
      dsimp only
      have hsave := does_save session tables (tables.insertNodes records) call.commit
        (SeedFailure.persistence .transactionFailed) (f := fun _ => (pure records.length :
          Traced (SessionStep Tables) SeedFailure ℕ)) rfl
      cases hinsert : tables.insertNodes records with
      | none =>
        rw [hinsert] at hsave
        exact hsave
      | some copy =>
        rw [hinsert] at hsave
        cases hcommit : call.commit <;> rw [hcommit] at hsave <;> exact hsave

theorem healthSteps_does (session : ℕ) (tables : Tables) (call : HealthCall) :
    Does session tables tables
      (getAggregatorHealth tables { call with met := ⟨false, call.met.rollbackRaises, false⟩ })
      (healthSteps session tables call) := by
  unfold getAggregatorHealth healthSteps
  cases call.nodesRaise with
  | true => exact does_query_raises session tables _ _
  | false =>
    apply Does.query
    cases call.eventsRaise with
    | true => exact does_query_raises session tables _ _
    | false =>
      apply Does.query
      cases call.alertsRaise with
      | true => exact does_query_raises session tables _ _
      | false =>
        apply Does.query
        exact ⟨Runs.within_nil, rfl⟩

theorem viewSteps_does (session : ℕ) (tables : Tables) (call : ListCall) (e : ε)
    (result : Except ε α) :
    Does session tables tables (if call.queryRaises then .error e else result)
      (viewSteps session call e result) := by
  unfold viewSteps
  cases call.queryRaises with
  | true => exact does_query_raises session tables e _
  | false => exact Does.query ⟨Runs.within_nil, rfl⟩

theorem Does.settles {body : Traced (SessionStep Tables) ε α}
    (h : Does session tables after result body) (raising : Raising ε) {met : SessionMet}
    (hopen : met.openRaises = false) :
    (unitOfWork raising met session body).result = met.settle raising result ∧
      Settles session tables after (met.settle raising result).isOk
        (unitOfWork raising met session body).calls :=
  h.result ▸ ⟨rfl, Runs.unitOfWork_settles raising hopen h.within⟩

end Bodies

end SecureEdge
