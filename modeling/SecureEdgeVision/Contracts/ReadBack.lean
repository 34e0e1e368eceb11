import SecureEdgeVision.Contracts.Validate

/-! Every document of a contract is validated to the value it was written for. -/
namespace SecureEdge

open Json (Value closedFields nullable listOf scanned required_scanned optional_scanned
  closedFields_scanned field?)
open Python (Str Datetime fromisoformat)

theorem validateStr_scanned (s : String) : validateStr (scanned (.string s)) = some s :=
  Str.toString?_ofString s

theorem validateLiteral_scanned (text : String) :
    validateLiteral text (scanned (.string text)) = some () := by
  simp [validateLiteral, validateStr_scanned]

theorem validateSafeIdentifier_scanned (s : SafeIdentifier) :
    validateSafeIdentifier (scanned (Document.identifier s)) = some s := by
  simp [validateSafeIdentifier, Document.identifier, validateStr_scanned, s.valid]

theorem validateNonBlankName_scanned (s : NonBlankName) :
    validateNonBlankName (scanned (.string s.text)) = some s := by
  simp [validateNonBlankName, validateStr_scanned, s.valid]

theorem validateSha256Hex_scanned (s : Sha256Hex) :
    validateSha256Hex (scanned (.string s.text)) = some s := by
  simp [validateSha256Hex, validateStr_scanned, s.valid]

theorem validateNonNegativeInt_scanned (n : ℕ) :
    validateNonNegativeInt (scanned (Document.natural n)) = some n := by
  simp [validateNonNegativeInt, Document.natural, scanned, Value.mapStrings, validateInt]

theorem validatePositiveInt_scanned (n : ℕ+) :
    validatePositiveInt (scanned (Document.natural n)) = some n := by
  simp [validatePositiveInt, Document.natural, scanned, Value.mapStrings, validateInt]
  rfl

theorem validateNonNegativeFloat_scanned (x : NonNegativeFloat) :
    validateNonNegativeFloat (scanned (Document.float x.value)) = some x := by
  simp [validateNonNegativeFloat, Document.float, scanned, Value.mapStrings, validateFloat,
    x.nonneg]

theorem validateNormalizedCoordinate_scanned (x : NormalizedCoordinate) :
    validateNormalizedCoordinate (scanned (Document.float x.value)) = some x := by
  simp [validateNormalizedCoordinate, Document.float, scanned, Value.mapStrings, validateFloat,
    x.nonneg, x.le_one]

theorem validateNormalizedBoundingBox_scanned (b : NormalizedBoundingBox) :
    validateNormalizedBoundingBox (scanned (Document.boundingBox b)) = some b := by
  have hitems := Json.listOf_scanned validateNormalizedCoordinate_scanned
    [b.xMin, b.yMin, b.xMax, b.yMax]
  unfold validateNormalizedBoundingBox Document.boundingBox
  simp only [List.map_cons, List.map_nil] at hitems
  rw [hitems]
  simp [b.x_ordered, b.y_ordered]

theorem nullable_scanned {α : Type} {validate : Data → Option α} {document : α → Document}
    (h : ∀ x, validate (scanned (document x)) = some x) (hnull : ∀ x, document x ≠ .null)
    (x : Option α) : nullable validate (scanned (Document.nullable document x)) = some x := by
  cases x with
  | none => rfl
  | some x =>
    have hx := h x
    unfold Document.nullable
    cases hd : document x <;> simp_all [scanned, Value.mapStrings, nullable]

theorem parseWireTimestamp_string {s : Str} {value : Datetime} (h : fromisoformat s = some value) :
    parseWireTimestamp (.string s) = some ⟨value, Python.fromisoformat_isValid h⟩ := by
  simp [parseWireTimestamp, h]

theorem UtcDatetime.datetime_micros (t : UtcDatetime) : t.datetime.micros = t.micros :=
  Datetime.micros_ofMicros _ _

theorem UtcDatetime.datetime_offset (t : UtcDatetime) : t.datetime.offset = some 0 := rfl

theorem UtcDatetime.fromisoformat_text (t : UtcDatetime) :
    fromisoformat (Str.ofString t.text) = some t.datetime := by
  rw [UtcDatetime.text, Str.ofString, String.toList_ofList]
  exact Python.fromisoformat_isoformat (Datetime.isValid_ofMicros t.micros_le _)

/-- The text of an instant is read back as that instant. -/
theorem validateUtcTimestamp_scanned (t : UtcTimestamp) :
    validateUtcTimestamp (scanned (Document.timestamp t)) = some t.astimezone := by
  have hscanned : scanned (Document.timestamp t) = .string (Str.ofString t.instant.text) := rfl
  rw [hscanned, validateUtcTimestamp, parseWireTimestamp_string t.instant.fromisoformat_text]
  simp [requireUtc, t.instant.datetime_offset, t.instant.datetime_micros, UtcTimestamp.astimezone]

theorem validateModelMetadata_scanned (m : ModelMetadata) :
    validateModelMetadata (scanned (.object (Document.modelFields m))) = some m := by
  unfold validateModelMetadata
  rw [closedFields_scanned (by simp [Document.modelFields]), Option.bind_some,
    required_scanned (v := .string m.name.text) (by simp [Document.modelFields, field?]),
    required_scanned (v := .string m.sha256.text) (by simp [Document.modelFields, field?]),
    validateNonBlankName_scanned, validateSha256Hex_scanned]
  rfl

theorem validateFrameMetadata_scanned (f : FrameMetadata) :
    validateFrameMetadata (scanned (.object (Document.frameFields f))) = some f := by
  unfold validateFrameMetadata
  rw [closedFields_scanned (by simp [Document.frameFields]), Option.bind_some,
    required_scanned (v := Document.natural f.width) (by simp [Document.frameFields, field?]),
    required_scanned (v := Document.natural f.height) (by simp [Document.frameFields, field?]),
    validatePositiveInt_scanned, validatePositiveInt_scanned]
  rfl

theorem validatePerformanceMetrics_scanned (p : PerformanceMetrics) :
    validatePerformanceMetrics (scanned (.object (Document.performanceFields p))) = some p := by
  unfold validatePerformanceMetrics
  rw [closedFields_scanned (by simp [Document.performanceFields]), Option.bind_some,
    required_scanned (v := Document.float p.decodeMs.value)
      (by simp [Document.performanceFields, field?]),
    required_scanned (v := Document.float p.inferenceMs.value)
      (by simp [Document.performanceFields, field?]),
    required_scanned (v := Document.float p.postprocessMs.value)
      (by simp [Document.performanceFields, field?]),
    validateNonNegativeFloat_scanned, validateNonNegativeFloat_scanned,
    validateNonNegativeFloat_scanned]
  rfl

theorem validateDetection_scanned (d : Detection) :
    validateDetection (scanned (Document.detection d)) = some d := by
  unfold validateDetection
  rw [Document.detection, closedFields_scanned (by simp [Document.detectionFields]),
    Option.bind_some,
    required_scanned (v := Document.natural d.classId) (by simp [Document.detectionFields, field?]),
    required_scanned (v := .string d.className.text)
      (by simp [Document.detectionFields, field?]),
    required_scanned (v := Document.float d.confidence.value)
      (by simp [Document.detectionFields, field?]),
    required_scanned (v := Document.boundingBox d.bboxXyxyNorm)
      (by simp [Document.detectionFields, field?]),
    optional_scanned (v := Document.nullable Document.natural d.trackId)
      (by simp [Document.detectionFields, field?]),
    validateNonNegativeInt_scanned, validateNonBlankName_scanned,
    validateNormalizedCoordinate_scanned, validateNormalizedBoundingBox_scanned,
    nullable_scanned validateNonNegativeInt_scanned (fun _ h => by cases h)]
  rfl

/-- A document of an event is validated to the event, its timestamp in UTC. -/
theorem validateDetectionEvent_scanned (e : DetectionEvent) :
    validateDetectionEvent (scanned (Document.event e)) = some e.astimezone := by
  have hfields : ∀ x ∈ Document.eventFields e, x.1 ∈ ["schema_version", "event_id", "node_id",
      "camera_id", "timestamp_utc", "nonce", "frame_seq", "job_id", "mode", "model", "frame",
      "detections", "performance"] := by
    simp [Document.eventFields]
  unfold validateDetectionEvent
  rw [Document.event, closedFields_scanned hfields, Option.bind_some,
    required_scanned (v := .string e.schemaVersion.text)
      (by simp [Document.eventFields, field?]),
    required_scanned (v := Document.identifier e.eventId)
      (by simp [Document.eventFields, field?]),
    required_scanned (v := Document.identifier e.nodeId)
      (by simp [Document.eventFields, field?]),
    required_scanned (v := Document.identifier e.cameraId)
      (by simp [Document.eventFields, field?]),
    required_scanned (v := Document.timestamp e.timestampUtc)
      (by simp [Document.eventFields, field?]),
    required_scanned (v := Document.identifier e.nonce)
      (by simp [Document.eventFields, field?]),
    required_scanned (v := Document.natural e.frameSeq)
      (by simp [Document.eventFields, field?]),
    required_scanned (v := Document.nullable Document.identifier e.jobId)
      (by simp [Document.eventFields, field?]),
    required_scanned (v := .string e.mode.text) (by simp [Document.eventFields, field?]),
    required_scanned (v := .object (Document.modelFields e.model))
      (by simp [Document.eventFields, field?]),
    required_scanned (v := .object (Document.frameFields e.frame))
      (by simp [Document.eventFields, field?]),
    required_scanned (v := .array (e.detections.map Document.detection))
      (by simp [Document.eventFields, field?]),
    required_scanned (v := .object (Document.performanceFields e.performance))
      (by simp [Document.eventFields, field?])]
  rw [validateLiteral_scanned, validateSafeIdentifier_scanned, validateSafeIdentifier_scanned,
    validateSafeIdentifier_scanned, validateUtcTimestamp_scanned, validateSafeIdentifier_scanned,
    validateNonNegativeInt_scanned,
    nullable_scanned validateSafeIdentifier_scanned (fun _ h => by cases h),
    validateLiteral_scanned, validateModelMetadata_scanned, validateFrameMetadata_scanned,
    Json.listOf_scanned validateDetection_scanned, validatePerformanceMetrics_scanned]
  rfl

theorem validateSignedDetectionEnvelope_scanned (e : SignedDetectionEnvelope) :
    validateSignedDetectionEnvelope (scanned (Document.envelope e)) = some e.astimezone := by
  have hsignature : validateText validateSignatureB64 (scanned (.string e.signatureB64.text)) =
      some e.signatureB64 := by
    simp [validateText, validateStr_scanned, validateSignatureB64, validateCanonicalBase64_text,
      Except.toOption]
  unfold validateSignedDetectionEnvelope
  rw [Document.envelope, closedFields_scanned (by simp [Document.envelopeFields]),
    Option.bind_some,
    required_scanned (v := Document.event e.body) (by simp [Document.envelopeFields, field?]),
    required_scanned (v := .string e.signatureAlgorithm.text)
      (by simp [Document.envelopeFields, field?]),
    required_scanned (v := .string e.signatureB64.text)
      (by simp [Document.envelopeFields, field?]),
    validateDetectionEvent_scanned, validateLiteral_scanned, hsignature]
  rfl

theorem validateHealthStatus_scanned (status : HealthStatus) :
    validateHealthStatus (scanned (.string status.text)) = some status := by
  cases status <;> simp [validateHealthStatus, validateStr_scanned, HealthStatus.text]

theorem validateNodeHeartbeat_scanned (h : NodeHeartbeat) :
    validateNodeHeartbeat (scanned (Document.heartbeat h)) = some h.astimezone := by
  unfold validateNodeHeartbeat
  rw [Document.heartbeat, closedFields_scanned (by simp [Document.heartbeatFields]),
    Option.bind_some,
    required_scanned (v := Document.identifier h.nodeId)
      (by simp [Document.heartbeatFields, field?]),
    required_scanned (v := Document.timestamp h.timestampUtc)
      (by simp [Document.heartbeatFields, field?]),
    required_scanned (v := .string h.status.text) (by simp [Document.heartbeatFields, field?]),
    validateSafeIdentifier_scanned, validateUtcTimestamp_scanned, validateHealthStatus_scanned]
  rfl

end SecureEdge
