import SecureEdgeVision.Persistence.TimestampText

/-! The rows of the tables: timestamps as text, integers of 64 bits, and the checks of each
table as part of its rows. What a record writes is read back as that record. -/
namespace SecureEdge

open Binary64 (Finite)
open UtcTimestampType (processBindParam processResultValue processResultValue_processBindParam)

/-- A value of an integer column. -/
structure SqlInteger where
  value : ℤ
  lower : -(Tables.maxInteger : ℤ) - 1 ≤ value
  upper : value ≤ Tables.maxInteger
deriving DecidableEq

/-- The driver's binding of an `int`; `none` is an `OverflowError`. -/
def bindInteger (n : ℤ) : Option SqlInteger :=
  if h : -(Tables.maxInteger : ℤ) - 1 ≤ n ∧ n ≤ Tables.maxInteger then some ⟨n, h.1, h.2⟩ else none

theorem bindInteger_natural {n : ℕ} (h : n ≤ Tables.maxInteger) :
    ∃ integer, bindInteger n = some integer ∧ integer.value = n := by
  refine ⟨⟨n, by omega, by omega⟩, ?_, rfl⟩
  unfold bindInteger
  rw [dif_pos ⟨by omega, by omega⟩]

theorem bindInteger_eq_some {n : ℤ} {integer : SqlInteger} (h : bindInteger n = some integer) :
    integer.value = n := by
  unfold bindInteger at h
  split_ifs at h
  rw [← Option.some.inj h]

theorem le_maxInteger_of_bindInteger {n : ℕ} {integer : SqlInteger}
    (h : bindInteger n = some integer) : n ≤ Tables.maxInteger := by
  have hupper := integer.upper
  rw [bindInteger_eq_some h] at hupper
  omega

/-- A row of `nodes`. -/
structure NodeRow where
  nodeId : String
  publicKeyB64 : String
  registeredAtUtc : String
  lastSeenAtUtc : Option String
  healthStatus : Option String
  ck_health_status : ∀ s ∈ healthStatus, s ∈ ["healthy", "degraded", "unhealthy"]

/-- A row of `detection_events`. -/
structure DetectionEventRow where
  recordId : ℕ
  schemaVersion : String
  eventId : String
  nodeId : String
  cameraId : String
  timestampUtc : String
  nonce : String
  frameSeq : SqlInteger
  jobId : Option String
  mode : String
  modelName : String
  modelSha256 : String
  frameWidth : SqlInteger
  frameHeight : SqlInteger
  detectionsJson : String
  decodeMs : Finite
  inferenceMs : Finite
  postprocessMs : Finite
  acceptedAtUtc : String
  ck_schema_version : schemaVersion = "1.0"
  ck_mode : mode = "privacy"
  ck_frame_seq : 0 ≤ frameSeq.value
  ck_frame_dimensions : 0 < frameWidth.value ∧ 0 < frameHeight.value
  ck_performance : Finite.zero ≤ decodeMs ∧ Finite.zero ≤ inferenceMs ∧
    Finite.zero ≤ postprocessMs

/-- An alert as the mapper holds it. -/
structure SecurityAlertRecord where
  alertId : String
  occurredAtUtc : UtcDatetime
  category : String
  reason : String
  nodeId : Option String
  eventId : Option String
  nonce : Option String
deriving DecidableEq

/-- A row of `security_alerts`. -/
structure SecurityAlertRow where
  alertId : String
  occurredAtUtc : String
  category : String
  reason : String
  nodeId : Option String
  eventId : Option String
  nonce : Option String
deriving DecidableEq

def HealthStatus.ofText? (s : String) : Option HealthStatus :=
  if s = HealthStatus.healthy.text then some .healthy
  else if s = HealthStatus.degraded.text then some .degraded
  else if s = HealthStatus.unhealthy.text then some .unhealthy
  else none

@[simp] theorem HealthStatus.ofText?_text (status : HealthStatus) :
    HealthStatus.ofText? status.text = some status := by cases status <;> rfl

namespace NodeRecord

/-- The row that the mapper writes for the record. -/
def row (record : NodeRecord) : NodeRow where
  nodeId := record.nodeId
  publicKeyB64 := record.publicKeyB64
  registeredAtUtc := processBindParam record.registeredAtUtc
  lastSeenAtUtc := record.lastSeenAtUtc.map processBindParam
  healthStatus := record.healthStatus.map HealthStatus.text
  ck_health_status s h := by
    obtain ⟨status, -, rfl⟩ := Option.map_eq_some_iff.mp h
    cases status <;> simp [HealthStatus.text]

end NodeRecord

/-- The record that the mapper loads from the row. -/
def NodeRow.fetch (row : NodeRow) : Except PersistenceError NodeRecord := do
  let registeredAtUtc ← processResultValue row.registeredAtUtc
  let lastSeenAtUtc ← row.lastSeenAtUtc.mapM processResultValue
  pure ⟨row.nodeId, row.publicKeyB64, registeredAtUtc, lastSeenAtUtc,
    row.healthStatus.bind HealthStatus.ofText?⟩

theorem mapM_processBindParam (value : Option UtcDatetime) :
    (value.map processBindParam).mapM processResultValue = .ok value := by
  cases value with
  | none => rfl
  | some t =>
    rw [Option.map_some, Option.mapM_some, processResultValue_processBindParam]
    rfl

theorem NodeRecord.fetch_row (record : NodeRecord) : record.row.fetch = .ok record := by
  have hstatus : (record.healthStatus.map HealthStatus.text).bind HealthStatus.ofText? =
      record.healthStatus := by
    cases record.healthStatus with
    | none => rfl
    | some status => exact HealthStatus.ofText?_text status
  unfold row NodeRow.fetch
  dsimp only
  rw [processResultValue_processBindParam, mapM_processBindParam, Python.ok_bind, Python.ok_bind,
    hstatus]
  rfl

namespace DetectionEventRecord

/-- The row of a record that the database stored. There is none without an ID, with an integer
that its column cannot hold, or against a check. -/
def row (record : DetectionEventRecord) : Option DetectionEventRow := do
  let recordId ← record.recordId
  let frameSeq ← bindInteger record.frameSeq
  let frameWidth ← bindInteger record.frameWidth
  let frameHeight ← bindInteger record.frameHeight
  if h : record.schemaVersion = "1.0" ∧ record.mode = "privacy" ∧ 0 ≤ frameSeq.value ∧
      (0 < frameWidth.value ∧ 0 < frameHeight.value) ∧ Finite.zero ≤ record.decodeMs ∧
      Finite.zero ≤ record.inferenceMs ∧ Finite.zero ≤ record.postprocessMs then
    some {
      recordId, frameSeq, frameWidth, frameHeight
      schemaVersion := record.schemaVersion
      eventId := record.eventId
      nodeId := record.nodeId
      cameraId := record.cameraId
      timestampUtc := processBindParam record.timestampUtc
      nonce := record.nonce
      jobId := record.jobId
      mode := record.mode
      modelName := record.modelName
      modelSha256 := record.modelSha256
      detectionsJson := record.detectionsJson
      decodeMs := record.decodeMs
      inferenceMs := record.inferenceMs
      postprocessMs := record.postprocessMs
      acceptedAtUtc := processBindParam record.acceptedAtUtc
      ck_schema_version := h.1
      ck_mode := h.2.1
      ck_frame_seq := h.2.2.1
      ck_frame_dimensions := h.2.2.2.1
      ck_performance := h.2.2.2.2 }
  else none

end DetectionEventRecord

def DetectionEventRow.fetch (row : DetectionEventRow) :
    Except PersistenceError DetectionEventRecord := do
  let timestampUtc ← processResultValue row.timestampUtc
  let acceptedAtUtc ← processResultValue row.acceptedAtUtc
  pure {
    recordId := some row.recordId
    schemaVersion := row.schemaVersion
    eventId := row.eventId
    nodeId := row.nodeId
    cameraId := row.cameraId
    timestampUtc
    nonce := row.nonce
    frameSeq := row.frameSeq.value.toNat
    jobId := row.jobId
    mode := row.mode
    modelName := row.modelName
    modelSha256 := row.modelSha256
    frameWidth := row.frameWidth.value.toNat
    frameHeight := row.frameHeight.value.toNat
    detectionsJson := row.detectionsJson
    decodeMs := row.decodeMs
    inferenceMs := row.inferenceMs
    postprocessMs := row.postprocessMs
    acceptedAtUtc }

/-- A stored record is read back as it is. -/
theorem DetectionEventRecord.fetch_row {record : DetectionEventRecord} {row : DetectionEventRow}
    (h : record.row = some row) : row.fetch = .ok record := by
  obtain ⟨recordId, hid, h⟩ := Option.bind_eq_some_iff.mp h
  obtain ⟨frameSeq, hseq, h⟩ := Option.bind_eq_some_iff.mp h
  obtain ⟨frameWidth, hwidth, h⟩ := Option.bind_eq_some_iff.mp h
  obtain ⟨frameHeight, hheight, h⟩ := Option.bind_eq_some_iff.mp h
  split_ifs at h
  obtain rfl := Option.some.inj h
  unfold DetectionEventRow.fetch
  dsimp only
  rw [processResultValue_processBindParam, processResultValue_processBindParam, Python.ok_bind,
    Python.ok_bind, bindInteger_eq_some hseq, bindInteger_eq_some hwidth,
    bindInteger_eq_some hheight, ← hid]
  rfl

/-- The rows there are: an ID, integers that fit, and the checks of the table. -/
theorem DetectionEventRecord.exists_row {record : DetectionEventRecord} :
    (∃ row, record.row = some row) ↔ record.recordId.isSome = true ∧
      Tables.bindable record = true ∧ Tables.checkConstraints record = true := by
  simp only [Tables.bindable, Tables.checkConstraints, Bool.and_eq_true, decide_eq_true_eq]
  constructor
  · rintro ⟨row, h⟩
    obtain ⟨recordId, hid, h⟩ := Option.bind_eq_some_iff.mp h
    obtain ⟨frameSeq, hseq, h⟩ := Option.bind_eq_some_iff.mp h
    obtain ⟨frameWidth, hwidth, h⟩ := Option.bind_eq_some_iff.mp h
    obtain ⟨frameHeight, hheight, h⟩ := Option.bind_eq_some_iff.mp h
    split_ifs at h with hchecks
    obtain ⟨hversion, hmode, -, ⟨hpos, hpos'⟩, hdecode, hinference, hpostprocess⟩ := hchecks
    rw [bindInteger_eq_some hwidth] at hpos
    rw [bindInteger_eq_some hheight] at hpos'
    refine ⟨by rw [hid]; rfl, ⟨⟨le_maxInteger_of_bindInteger hseq,
      le_maxInteger_of_bindInteger hwidth⟩, le_maxInteger_of_bindInteger hheight⟩, ?_⟩
    exact ⟨⟨⟨⟨⟨⟨⟨hversion, hmode⟩, Nat.zero_le _⟩, by omega⟩, by omega⟩, hdecode⟩, hinference⟩,
      hpostprocess⟩
  · rintro ⟨hid, ⟨⟨hseq, hwidth⟩, hheight⟩, ⟨⟨⟨⟨⟨⟨⟨hversion, hmode⟩, -⟩, hpos⟩, hpos'⟩, hdecode⟩,
      hinference⟩, hpostprocess⟩⟩
    obtain ⟨recordId, hid⟩ := Option.isSome_iff_exists.mp hid
    obtain ⟨frameSeq, hseq, hseq'⟩ := bindInteger_natural hseq
    obtain ⟨frameWidth, hwidth, hwidth'⟩ := bindInteger_natural hwidth
    obtain ⟨frameHeight, hheight, hheight'⟩ := bindInteger_natural hheight
    have hchecks : record.schemaVersion = "1.0" ∧ record.mode = "privacy" ∧ 0 ≤ frameSeq.value ∧
        (0 < frameWidth.value ∧ 0 < frameHeight.value) ∧ Finite.zero ≤ record.decodeMs ∧
        Finite.zero ≤ record.inferenceMs ∧ Finite.zero ≤ record.postprocessMs :=
      ⟨hversion, hmode, by omega, ⟨by omega, by omega⟩, hdecode, hinference, hpostprocess⟩
    refine ⟨_, Option.bind_eq_some_iff.mpr ⟨recordId, hid, Option.bind_eq_some_iff.mpr
      ⟨frameSeq, hseq, Option.bind_eq_some_iff.mpr ⟨frameWidth, hwidth,
        Option.bind_eq_some_iff.mpr ⟨frameHeight, hheight, dif_pos hchecks⟩⟩⟩⟩⟩

namespace SecurityAlertRecord

/-- `SecurityAlertRecord.from_alert` -/
def fromAlert (alert : SecurityAlert) : SecurityAlertRecord where
  alertId := alert.alertId.text
  occurredAtUtc := alert.occurredAtUtc
  category := alert.category.text
  reason := alert.reason.text
  nodeId := alert.nodeId.map SafeIdentifier.text
  eventId := alert.eventId.map SafeIdentifier.text
  nonce := alert.nonce.map SafeIdentifier.text

def row (record : SecurityAlertRecord) : SecurityAlertRow where
  alertId := record.alertId
  occurredAtUtc := processBindParam record.occurredAtUtc
  category := record.category
  reason := record.reason
  nodeId := record.nodeId
  eventId := record.eventId
  nonce := record.nonce

end SecurityAlertRecord

def SecurityAlertRow.fetch (row : SecurityAlertRow) :
    Except PersistenceError SecurityAlertRecord := do
  let occurredAtUtc ← processResultValue row.occurredAtUtc
  pure ⟨row.alertId, occurredAtUtc, row.category, row.reason, row.nodeId, row.eventId, row.nonce⟩

theorem SecurityAlertRecord.fetch_row (record : SecurityAlertRecord) :
    record.row.fetch = .ok record := by
  unfold row SecurityAlertRow.fetch
  dsimp only
  rw [processResultValue_processBindParam]
  rfl

end SecureEdge
