import SecureEdgeVision.Monitoring.Heartbeat
import SecureEdgeVision.Persistence.Codec
import Mathlib.Data.List.Sort

/-! The read side: stored nodes, events and alerts as the monitoring views list them. A view
fails as a whole on one bad row. -/
namespace SecureEdge

/-- `NodeRecord.to_heartbeat` -/
def NodeRecord.toHeartbeat (record : NodeRecord) :
    Except PersistenceError (Option NodeHeartbeat) :=
  match record.lastSeenAtUtc, record.healthStatus with
  | none, none => .ok none
  | some lastSeen, some status =>
    match SafeIdentifier.ofText? record.nodeId with
    | none => .error ⟨"stored node health state is invalid"⟩
    | some nodeId => .ok (some ⟨nodeId, ⟨lastSeen, .utc⟩, status⟩)
  | _, _ => .error ⟨"stored node health state is invalid"⟩

/-- `SecurityAlertRecord.to_alert` -/
def SecurityAlertRecord.toAlert (record : SecurityAlertRecord) :
    Except PersistenceError SecurityAlert :=
  let alert : Option SecurityAlert := do
    let alertId ← SafeIdentifier.ofText? record.alertId
    let category ← MachineCode.ofText? record.category
    let reason ← MachineCode.ofText? record.reason
    let nodeId ← ofNullable? SafeIdentifier.ofText? record.nodeId
    let eventId ← ofNullable? SafeIdentifier.ofText? record.eventId
    let nonce ← ofNullable? SafeIdentifier.ofText? record.nonce
    pure ⟨alertId, record.occurredAtUtc, category, reason, nodeId, eventId, nonce⟩
  match alert with
  | none => .error ⟨"stored security alert is invalid"⟩
  | some alert => .ok alert

/-- What the database holds. -/
structure Database where
  nodes : List NodeRow
  detectionEvents : List DetectionEventRow
  securityAlerts : List SecurityAlertRow

/-- The rows of the tables. A record without a row was never stored. -/
def Tables.database (tables : Tables) : Database where
  nodes := tables.nodes.map NodeRecord.row
  detectionEvents := tables.detectionEvents.filterMap DetectionEventRecord.row
  securityAlerts := tables.securityAlerts.map fun alert => (SecurityAlertRecord.fromAlert alert).row

/-- A call of a view, with what it meets in its session. -/
structure ListCall where
  limit : ℤ
  openRaises : Bool
  queryRaises : Bool
  closeRaises : Bool
deriving DecidableEq

/-- `MAX_MONITORING_QUERY_LIMIT` and `MAX_SECURITY_ALERT_QUERY_LIMIT` -/
def maxQueryLimit : ℤ := 100

/-- `_validate_limit`, for an `int` -/
def ListCall.validLimit (call : ListCall) : Bool := 1 ≤ call.limit && call.limit ≤ maxQueryLimit

/-- Nothing goes wrong with the call itself. -/
def ListCall.healthy (call : ListCall) : Bool :=
  call.validLimit && !call.openRaises && !call.queryRaises && !call.closeRaises

/-- `MonitoringServiceError` -/
structure MonitoringServiceError where
deriving DecidableEq

def MonitoringServiceError.reason : HeartbeatReason := .serviceUnavailable

structure NodeHealth where
  nodeId : SafeIdentifier
  registeredAtUtc : UtcDatetime
  lastSeenAtUtc : Option UtcDatetime
  healthStatus : Option HealthStatus
deriving DecidableEq

structure RecentDetectionEvent where
  acceptedAtUtc : UtcDatetime
  event : DetectionEvent
deriving DecidableEq

section Views
variable {α : Type}

def readBack (result : Except PersistenceError α) : Except ReadFailure α :=
  match result with
  | .error e => .error (.persistence e)
  | .ok x => .ok x

/-- A session in which every exception becomes a `MonitoringServiceError`. -/
def monitored (call : ListCall) (result : Except ReadFailure α) :
    Except MonitoringServiceError α :=
  if call.validLimit then
    if call.openRaises || call.queryRaises then .error ⟨⟩
    else
      match result with
      | .error _ => .error ⟨⟩
      | .ok x => if call.closeRaises then .error ⟨⟩ else .ok x
  else .error ⟨⟩

/-- The columns of one node in the view. -/
def NodeRecord.health (record : NodeRecord) : Except ReadFailure NodeHealth := do
  let registration ← readBack record.toRegistration
  let heartbeat ← readBack record.toHeartbeat
  pure ⟨registration.nodeId, record.registeredAtUtc,
    heartbeat.map fun h => h.timestampUtc.instant, heartbeat.map NodeHeartbeat.status⟩

def DetectionEventRecord.recent (depth : ℕ) (record : DetectionEventRecord) :
    Except ReadFailure RecentDetectionEvent := do
  let event ← record.toEvent depth
  pure ⟨record.acceptedAtUtc, event⟩

/-- `order_by(node_id.asc())` -/
def NodeRow.before (a b : NodeRow) : Prop := a.nodeId ≤ b.nodeId

instance : DecidableRel NodeRow.before :=
  fun a b => inferInstanceAs (Decidable (a.nodeId ≤ b.nodeId))

/-- `order_by(accepted_at_utc.desc(), record_id.desc())` -/
def DetectionEventRow.before (a b : DetectionEventRow) : Prop :=
  b.acceptedAtUtc < a.acceptedAtUtc ∨ a.acceptedAtUtc = b.acceptedAtUtc ∧ b.recordId ≤ a.recordId

instance : DecidableRel DetectionEventRow.before := fun a b => inferInstanceAs (Decidable
  (b.acceptedAtUtc < a.acceptedAtUtc ∨ a.acceptedAtUtc = b.acceptedAtUtc ∧ b.recordId ≤ a.recordId))

/-- `order_by(occurred_at_utc.desc(), alert_id.desc())` -/
def SecurityAlertRow.before (a b : SecurityAlertRow) : Prop :=
  b.occurredAtUtc < a.occurredAtUtc ∨ a.occurredAtUtc = b.occurredAtUtc ∧ b.alertId ≤ a.alertId

instance : DecidableRel SecurityAlertRow.before := fun a b => inferInstanceAs (Decidable
  (b.occurredAtUtc < a.occurredAtUtc ∨ a.occurredAtUtc = b.occurredAtUtc ∧ b.alertId ≤ a.alertId))

/-- `list_node_health` -/
def listNodeHealth (database : Database) (call : ListCall) :
    Except MonitoringServiceError (List NodeHealth) :=
  monitored call do
    let rows := (database.nodes.insertionSort NodeRow.before).take call.limit.toNat
    let records ← readBack (rows.mapM NodeRow.fetch)
    records.mapM NodeRecord.health

/-- `list_recent_events` -/
def listRecentEvents (depth : ℕ) (database : Database) (call : ListCall) :
    Except MonitoringServiceError (List RecentDetectionEvent) :=
  monitored call do
    let rows := (database.detectionEvents.insertionSort DetectionEventRow.before).take
      call.limit.toNat
    let records ← readBack (rows.mapM DetectionEventRow.fetch)
    records.mapM (DetectionEventRecord.recent depth)

/-- `list_security_alerts` -/
def listSecurityAlerts (database : Database) (call : ListCall) :
    Except PersistenceError (List SecurityAlert) :=
  if call.validLimit then
    if call.openRaises || call.queryRaises || call.closeRaises then
      .error ⟨"security alert query failed"⟩
    else do
      let rows := (database.securityAlerts.insertionSort SecurityAlertRow.before).take
        call.limit.toNat
      let records ← rows.mapM SecurityAlertRow.fetch
      records.mapM SecurityAlertRecord.toAlert
  else .error ⟨"security alert query limit is invalid"⟩

end Views

section Total
variable {database : Database}

theorem isOk_monitored {α : Type} (call : ListCall) (x : α) :
    (monitored call (.ok x)).isOk = call.healthy := by
  unfold monitored ListCall.healthy
  cases call.validLimit <;> cases call.openRaises <;> cases call.queryRaises <;>
    cases call.closeRaises <;> rfl

/-- The rows a view reads are rows of the table. -/
theorem mem_of_mem_listed {α : Type} {before : α → α → Prop} [DecidableRel before]
    {rows : List α} {limit : ℕ} {row : α}
    (h : row ∈ (rows.insertionSort before).take limit) : row ∈ rows :=
  (List.mem_insertionSort before).mp (List.mem_of_mem_take h)

/-- Without a bad row the view fails only if the call does. -/
theorem isOk_listNodeHealth
    (h : ∀ row ∈ database.nodes, ∃ record, row.fetch = .ok record ∧
      ∃ health, record.health = .ok health) (call : ListCall) :
    (listNodeHealth database call).isOk = call.healthy := by
  obtain ⟨records, hrecords, hreadable⟩ := Python.exists_mapM_ok
    fun row (hrow : row ∈ (database.nodes.insertionSort NodeRow.before).take call.limit.toNat) =>
      h row (mem_of_mem_listed hrow)
  obtain ⟨healths, hhealths, -⟩ := Python.exists_mapM_ok (P := fun _ => True)
    fun record hrecord => (hreadable record hrecord).imp fun _ hhealth => ⟨hhealth, trivial⟩
  unfold listNodeHealth
  dsimp only
  rw [hrecords]
  show (monitored call (records.mapM NodeRecord.health)).isOk = _
  rw [hhealths, isOk_monitored]

theorem isOk_listRecentEvents {depth : ℕ}
    (h : ∀ row ∈ database.detectionEvents, ∃ record, row.fetch = .ok record ∧
      ∃ event, record.toEvent depth = .ok event) (call : ListCall) :
    (listRecentEvents depth database call).isOk = call.healthy := by
  obtain ⟨records, hrecords, hreadable⟩ := Python.exists_mapM_ok
    fun row (hrow : row ∈ (database.detectionEvents.insertionSort DetectionEventRow.before).take
      call.limit.toNat) => h row (mem_of_mem_listed hrow)
  have hevent : ∀ record ∈ records, ∃ recent,
      DetectionEventRecord.recent depth record = .ok recent ∧ True := by
    intro record hrecord
    obtain ⟨event, hevent⟩ := hreadable record hrecord
    unfold DetectionEventRecord.recent
    rw [hevent]
    exact ⟨_, rfl, trivial⟩
  obtain ⟨recents, hrecents, -⟩ := Python.exists_mapM_ok hevent
  unfold listRecentEvents
  dsimp only
  rw [hrecords]
  show (monitored call (records.mapM (DetectionEventRecord.recent depth))).isOk = _
  rw [hrecents, isOk_monitored]

theorem isOk_listSecurityAlerts
    (h : ∀ row ∈ database.securityAlerts, ∃ record, row.fetch = .ok record ∧
      ∃ alert, record.toAlert = .ok alert) (call : ListCall) :
    (listSecurityAlerts database call).isOk = call.healthy := by
  obtain ⟨records, hrecords, hreadable⟩ := Python.exists_mapM_ok
    fun row (hrow : row ∈ (database.securityAlerts.insertionSort SecurityAlertRow.before).take
      call.limit.toNat) => h row (mem_of_mem_listed hrow)
  obtain ⟨alerts, halerts, -⟩ := Python.exists_mapM_ok (P := fun _ => True)
    fun record hrecord => (hreadable record hrecord).imp fun _ halert => ⟨halert, trivial⟩
  unfold listSecurityAlerts ListCall.healthy
  dsimp only
  rw [hrecords]
  show (if call.validLimit then if _ then _ else records.mapM SecurityAlertRecord.toAlert
    else _).isOk = _
  rw [halerts]
  cases call.validLimit <;> cases call.openRaises <;> cases call.queryRaises <;>
    cases call.closeRaises <;> rfl

end Total

/-- An alert is read back as it was written. -/
theorem SecurityAlertRecord.toAlert_fromAlert (alert : SecurityAlert) :
    (fromAlert alert).toAlert = .ok alert := by
  unfold toAlert fromAlert
  dsimp only
  rw [ofNullable?_map SafeIdentifier.ofText?_text, ofNullable?_map SafeIdentifier.ofText?_text,
    ofNullable?_map SafeIdentifier.ofText?_text, SafeIdentifier.ofText?_text,
    MachineCode.ofText?_text, MachineCode.ofText?_text]
  rfl

end SecureEdge
