import SecureEdgeVision.Crypto
import SecureEdgeVision.Security.Policy

/-! The aggregator's tables: the stored records, their conversion from and to the contracts,
and what the database refuses to store. -/
namespace SecureEdge

open Binary64 (Finite)
open Json (dumps Value)

structure PersistenceError where
  message : String
deriving DecidableEq

/-- A row of `nodes`. The identity is stored as text and read back through its contract. -/
structure NodeRecord where
  nodeId : String
  publicKeyB64 : String
  registeredAtUtc : UtcDatetime
  lastSeenAtUtc : Option UtcDatetime
  healthStatus : Option HealthStatus
deriving DecidableEq

/-- What registration wrote. -/
def NodeRecord.identity (record : NodeRecord) : String × String × UtcDatetime :=
  (record.nodeId, record.publicKeyB64, record.registeredAtUtc)

/-- `NodeRecord.to_registration` -/
def NodeRecord.toRegistration (record : NodeRecord) : Except PersistenceError NodeRegistration :=
  if h : isSafeIdentifier record.nodeId = true then
    match validatePublicKeyB64 record.publicKeyB64 with
    | .error _ => .error ⟨"stored node record is invalid"⟩
    | .ok publicKeyB64 => .ok ⟨⟨record.nodeId, h⟩, publicKeyB64⟩
  else .error ⟨"stored node record is invalid"⟩

/-- A row of `detection_events`; the database assigns the ID when it stores the row. -/
structure DetectionEventRecord where
  recordId : Option ℕ
  schemaVersion : String
  eventId : String
  nodeId : String
  cameraId : String
  timestampUtc : UtcDatetime
  nonce : String
  frameSeq : ℕ
  jobId : Option String
  mode : String
  modelName : String
  modelSha256 : String
  frameWidth : ℕ
  frameHeight : ℕ
  detectionsJson : String
  decodeMs : Finite
  inferenceMs : Finite
  postprocessMs : Finite
  acceptedAtUtc : UtcDatetime
deriving DecidableEq

/-- `_serialize_detections` -/
def serializeDetections (reprFloat : Finite → String) (detections : List Detection) :
    Except PersistenceError String :=
  match dumps reprFloat (Value.array (detections.map Document.detection)).sortKeys with
  | none => .error ⟨"detection metadata is invalid"⟩
  | some text => .ok text

/-- `DetectionEventRecord.from_event` -/
def DetectionEventRecord.fromEvent (reprFloat : Finite → String) (event : DetectionEvent)
    (acceptedAtUtc : UtcDatetime) : Except PersistenceError DetectionEventRecord := do
  let detectionsJson ← serializeDetections reprFloat event.detections
  pure {
    recordId := none
    schemaVersion := event.schemaVersion.text
    eventId := event.eventId.text
    nodeId := event.nodeId.text
    cameraId := event.cameraId.text
    timestampUtc := event.instant
    nonce := event.nonce.text
    frameSeq := event.frameSeq
    jobId := event.jobId.map SafeIdentifier.text
    mode := event.mode.text
    modelName := event.model.name.text
    modelSha256 := event.model.sha256.text
    frameWidth := event.frame.width
    frameHeight := event.frame.height
    detectionsJson := detectionsJson
    decodeMs := event.performance.decodeMs.value
    inferenceMs := event.performance.inferenceMs.value
    postprocessMs := event.performance.postprocessMs.value
    acceptedAtUtc := acceptedAtUtc }

/-- `^[a-z][a-z0-9_.:-]*$` in one to 64 characters. -/
def isMachineCode (s : String) : Bool :=
  match s.toList with
  | [] => false
  | c :: rest => c.isLower && decide (rest.length + 1 ≤ 64) &&
      rest.all fun c => c.isLower || c.isDigit || c == '_' || c == '.' || c == ':' || c == '-'

structure MachineCode where
  text : String
  valid : isMachineCode text = true
deriving DecidableEq

/-- Sanitized alert metadata. Stored as it is, under `alert_id` as primary key. -/
structure SecurityAlert where
  alertId : SafeIdentifier
  occurredAtUtc : UtcDatetime
  category : MachineCode
  reason : MachineCode
  nodeId : Option SafeIdentifier
  eventId : Option SafeIdentifier
  nonce : Option SafeIdentifier
deriving DecidableEq

structure Tables where
  nodes : List NodeRecord
  detectionEvents : List DetectionEventRecord
  securityAlerts : List SecurityAlert
deriving DecidableEq

namespace Tables

/-- `session.get(NodeRecord, node_id)` -/
def getNode (tables : Tables) (nodeId : SafeIdentifier) : Option NodeRecord :=
  tables.nodes.find? fun record => record.nodeId = nodeId.text

/-- The contents of `nodes` that only registration writes. -/
def registry (tables : Tables) : List (String × String × UtcDatetime) :=
  tables.nodes.map NodeRecord.identity

/-- The largest value an integer column binds. -/
def maxInteger : ℕ := 2 ^ 63 - 1

/-- The named checks of `detection_events`. -/
def checkConstraints (record : DetectionEventRecord) : Bool :=
  record.schemaVersion = "1.0" && record.mode = "privacy" && 0 ≤ record.frameSeq &&
    0 < record.frameWidth && 0 < record.frameHeight && Finite.zero ≤ record.decodeMs &&
    Finite.zero ≤ record.inferenceMs && Finite.zero ≤ record.postprocessMs

/-- Integers that fit their columns. -/
def bindable (record : DetectionEventRecord) : Bool :=
  record.frameSeq ≤ maxInteger && record.frameWidth ≤ maxInteger &&
    record.frameHeight ≤ maxInteger

def nextRecordId (tables : Tables) : ℕ :=
  (tables.detectionEvents.filterMap DetectionEventRecord.recordId).foldr max 0 + 1

/-- Flush a new event row; `none` is an integrity or overflow error. -/
def insertEvent (tables : Tables) (record : DetectionEventRecord) :
    Option (Tables × DetectionEventRecord) :=
  if bindable record && checkConstraints record &&
      tables.nodes.any (fun node => node.nodeId = record.nodeId) then
    let stored := { record with recordId := some tables.nextRecordId }
    some ({ tables with detectionEvents := tables.detectionEvents ++ [stored] }, stored)
  else none

/-- Flush a new alert row; `none` is a primary key that is taken. -/
def insertAlert (tables : Tables) (alert : SecurityAlert) : Option Tables :=
  if tables.securityAlerts.any (fun stored => stored.alertId = alert.alertId) then none
  else some { tables with securityAlerts := tables.securityAlerts ++ [alert] }

end Tables

/-- How a `session.commit` ends once the flush went through. -/
inductive CommitOutcome where
  | persisted | failed | persistedRaised
deriving DecidableEq

/-- The tables after a commit, and whether it returned. -/
def CommitOutcome.apply (outcome : CommitOutcome) (before after : Tables) : Tables × Bool :=
  match outcome with
  | .persisted => (after, true)
  | .failed => (before, false)
  | .persistedRaised => (after, false)

theorem Tables.registry_congr {tables tables' : Tables} (h : tables.nodes = tables'.nodes) :
    tables.registry = tables'.registry := congrArg (List.map NodeRecord.identity) h

theorem Tables.getNode_identity (tables : Tables) (nodeId : SafeIdentifier) :
    (tables.getNode nodeId).map NodeRecord.identity =
      tables.registry.find? fun identity => identity.1 = nodeId.text := by
  rw [registry, List.find?_map]
  rfl

/-- A lookup finds what registration wrote, whatever the other columns say. -/
theorem Tables.getNode_registry {tables tables' : Tables}
    (h : tables.registry = tables'.registry) (nodeId : SafeIdentifier) :
    (tables.getNode nodeId).map NodeRecord.identity =
      (tables'.getNode nodeId).map NodeRecord.identity := by
  rw [getNode_identity, getNode_identity, h]

/-- Rows are the same whatever zero offset the event's timestamp was spelled with. -/
theorem fromEvent_congr (reprFloat : Finite → String) {a b : DetectionEvent} (h : a.Agree b)
    (acceptedAtUtc : UtcDatetime) :
    DetectionEventRecord.fromEvent reprFloat a acceptedAtUtc =
      DetectionEventRecord.fromEvent reprFloat b acceptedAtUtc := by
  unfold DetectionEventRecord.fromEvent
  rw [h.schemaVersion, h.eventId, h.nodeId, h.cameraId, h.instant, h.nonce, h.frameSeq, h.jobId,
    h.mode, h.model, h.frame, h.detections, h.performance]

/-- The columns that a record of an event copies. -/
structure DetectionEventRecord.RecordsEvent (record : DetectionEventRecord)
    (event : DetectionEvent) (acceptedAtUtc : UtcDatetime) : Prop where
  recordId : record.recordId = none
  eventId : record.eventId = event.eventId.text
  nodeId : record.nodeId = event.nodeId.text
  timestampUtc : record.timestampUtc = event.instant
  nonce : record.nonce = event.nonce.text
  acceptedAt : record.acceptedAtUtc = acceptedAtUtc

theorem fromEvent_records {reprFloat : Finite → String} {event : DetectionEvent}
    {acceptedAtUtc : UtcDatetime} {record : DetectionEventRecord}
    (h : DetectionEventRecord.fromEvent reprFloat event acceptedAtUtc = .ok record) :
    record.RecordsEvent event acceptedAtUtc := by
  obtain ⟨detectionsJson, -, h⟩ := Python.bind_eq_ok.mp h
  obtain rfl := Except.ok.inj h
  exact ⟨rfl, rfl, rfl, rfl, rfl, rfl⟩

/-- The row stores the event, accepted when the row says. -/
def DetectionEventRecord.IsOf (reprFloat : Finite → String) (row : DetectionEventRecord)
    (event : DetectionEvent) : Prop :=
  ∃ record, DetectionEventRecord.fromEvent reprFloat event row.acceptedAtUtc = .ok record ∧
    row = { record with recordId := row.recordId }

/-- The identity of an event among those of all nodes. -/
def DetectionEvent.identity (event : DetectionEvent) : String × String × UtcDatetime :=
  (event.nodeId.text, event.eventId.text, event.instant)

def DetectionEventRecord.identity (row : DetectionEventRecord) : String × String × UtcDatetime :=
  (row.nodeId, row.eventId, row.timestampUtc)

theorem DetectionEventRecord.IsOf.identity_eq {reprFloat : Finite → String}
    {row : DetectionEventRecord} {event : DetectionEvent} (h : row.IsOf reprFloat event) :
    row.identity = event.identity := by
  obtain ⟨record, hrecord, hrow⟩ := h
  have hcolumns := fromEvent_records hrecord
  rw [hrow]
  show (record.nodeId, record.eventId, record.timestampUtc) = _
  rw [hcolumns.nodeId, hcolumns.eventId, hcolumns.timestampUtc]
  rfl

theorem DetectionEventRecord.IsOf.congr {reprFloat : Finite → String}
    {row : DetectionEventRecord} {event event' : DetectionEvent} (h : row.IsOf reprFloat event)
    (hagree : event.Agree event') : row.IsOf reprFloat event' := by
  unfold IsOf
  rw [← fromEvent_congr reprFloat hagree]
  exact h

instance (reprFloat : Finite → String) (row : DetectionEventRecord) (event : DetectionEvent) :
    Decidable (row.IsOf reprFloat event) :=
  match h : DetectionEventRecord.fromEvent reprFloat event row.acceptedAtUtc with
  | .error _ => .isFalse fun ⟨_, hrecord, _⟩ => by simp [h] at hrecord
  | .ok record => decidable_of_iff (row = { record with recordId := row.recordId })
      (by simp [DetectionEventRecord.IsOf, h])

section Storable
variable {reprFloat : Finite → String} {event : DetectionEvent} {acceptedAtUtc : UtcDatetime}
  {record : DetectionEventRecord}

/-- The integers of the event fit their columns. -/
def DetectionEvent.FitsColumns (event : DetectionEvent) : Prop :=
  event.frameSeq ≤ Tables.maxInteger ∧ event.frame.width ≤ Tables.maxInteger ∧
    event.frame.height ≤ Tables.maxInteger

instance (event : DetectionEvent) : Decidable event.FitsColumns := by
  unfold DetectionEvent.FitsColumns
  infer_instance

/-- A record of a valid event passes every check of its table. -/
theorem checkConstraints_fromEvent
    (h : DetectionEventRecord.fromEvent reprFloat event acceptedAtUtc = .ok record) :
    Tables.checkConstraints record = true := by
  obtain ⟨detectionsJson, -, h⟩ := Python.bind_eq_ok.mp h
  obtain rfl := Except.ok.inj h
  have hversion : event.schemaVersion.text = "1.0" := by cases event.schemaVersion; rfl
  have hmode : event.mode.text = "privacy" := by cases event.mode; rfl
  simp [Tables.checkConstraints, hversion, hmode, event.frame.width.pos, event.frame.height.pos,
    event.performance.decodeMs.nonneg, event.performance.inferenceMs.nonneg,
    event.performance.postprocessMs.nonneg]

theorem bindable_fromEvent
    (h : DetectionEventRecord.fromEvent reprFloat event acceptedAtUtc = .ok record) :
    Tables.bindable record = true ↔ event.FitsColumns := by
  obtain ⟨detectionsJson, -, h⟩ := Python.bind_eq_ok.mp h
  obtain rfl := Except.ok.inj h
  simp [Tables.bindable, DetectionEvent.FitsColumns, and_assoc]

/-- What could be signed can be recorded. -/
theorem exists_fromEvent {bytes : ByteArray}
    (h : canonicalEventBytes reprFloat event = .ok bytes) (acceptedAtUtc : UtcDatetime) :
    ∃ record, DetectionEventRecord.fromEvent reprFloat event acceptedAtUtc = .ok record := by
  have hprintable := exists_canonicalEventBytes.mp ⟨bytes, h⟩
  have hdetections : ∀ n ∈ (Value.array (event.detections.map Document.detection)).sortKeys.numbers,
      n.printable = true := by
    intro n hn
    apply hprintable n
    unfold Document.event
    rw [Value.numbers, Value.numbersFields_eq]
    refine List.mem_flatMap.mpr ⟨("detections", .array (event.detections.map Document.detection)),
      by simp [Document.eventFields], (Value.numbers_sortKeys _).mem_iff.mp hn⟩
  have hjson : ∃ text, serializeDetections reprFloat event.detections = .ok text := by
    unfold serializeDetections dumps
    rw [if_pos hdetections]
    exact ⟨_, rfl⟩
  obtain ⟨text, htext⟩ := hjson
  exact ⟨_, Python.bind_eq_ok.mpr ⟨text, htext, rfl⟩⟩

end Storable

end SecureEdge
