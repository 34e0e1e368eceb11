import SecureEdgeVision.Contracts.Document
import SecureEdgeVision.Json.Record

/-! Strict validation of parsed JSON against the contracts. A failure of any kind is `none`:
the only caller turns every `ValidationError` into the same response. -/
namespace SecureEdge

open Json (PyNumber Value closedFields required optional nullable listOf IgnoresOrder
  required_reordered optional_reordered)
open Python (Str Datetime fromisoformat ValueError)
open Binary64 (Finite)

/-- What `json.loads` returns. -/
abbrev Data := Value Str PyNumber

/-- A string without lone surrogates. -/
def validateStr : Data → Option String
  | .string s => s.toString?
  | _ => none

/-- A strict `int`: no `bool`, no `float`. -/
def validateInt : Data → Option ℤ
  | .number (.int n) => some n
  | _ => none

/-- A strict `float`: an `int` counts, correctly rounded, a `bool` does not. -/
def validateFloat : Data → Option Finite
  | .number (.float x) => some x
  | .number (.int n) => Binary64.ofRatio (n < 0) n.natAbs 1
  | _ => none

def validateLiteral (text : String) (d : Data) : Option Unit := do
  let s ← validateStr d
  if s = text then some () else none

def validateSafeIdentifier (d : Data) : Option SafeIdentifier := do
  let s ← validateStr d
  if h : isSafeIdentifier s = true then some ⟨s, h⟩ else none

def validateNonBlankName (d : Data) : Option NonBlankName := do
  let s ← validateStr d
  if h : isNonBlankName s = true then some ⟨s, h⟩ else none

def validateSha256Hex (d : Data) : Option Sha256Hex := do
  let s ← validateStr d
  if h : isSha256Hex s = true then some ⟨s, h⟩ else none

def validateNonNegativeInt (d : Data) : Option ℕ := do
  let n ← validateInt d
  if 0 ≤ n then some n.toNat else none

def validatePositiveInt (d : Data) : Option ℕ+ := do
  let n ← validateInt d
  if h : 0 < n then some ⟨n.toNat, by omega⟩ else none

def validateNonNegativeFloat (d : Data) : Option NonNegativeFloat := do
  let x ← validateFloat d
  if h : Finite.zero ≤ x then some ⟨x, h⟩ else none

def validateNormalizedCoordinate (d : Data) : Option NormalizedCoordinate := do
  let x ← validateFloat d
  if h : Finite.zero ≤ x ∧ x ≤ Finite.one then some ⟨x, h.1, h.2⟩ else none

/-- Four coordinates, then `require_ordered_box`. -/
def validateNormalizedBoundingBox (d : Data) : Option NormalizedBoundingBox := do
  match ← listOf validateNormalizedCoordinate d with
  | [xMin, yMin, xMax, yMax] =>
    if h : xMin.value < xMax.value ∧ yMin.value < yMax.value then
      some ⟨xMin, yMin, xMax, yMax, h.1, h.2⟩
    else none
  | _ => none

/-- `_parse_wire_timestamp` for a value from JSON, which is never a `datetime`. -/
def parseWireTimestamp : Data → Option { value : Datetime // value.isValid = true }
  | .string s => (fromisoformat s).pmap Subtype.mk fun _ h => Python.fromisoformat_isValid h
  | _ => none

/-- `contracts._require_utc`: an offset, and the offset zero. -/
def requireUtc (value : { value : Datetime // value.isValid = true }) : Option UtcTimestamp :=
  if value.val.offset = some 0 then
    some ⟨⟨value.val.micros, by unfold maxMicros; exact Datetime.micros_le value.property⟩, .utc⟩
  else none

def validateUtcTimestamp (d : Data) : Option UtcTimestamp := (parseWireTimestamp d).bind requireUtc

def validateModelMetadata (d : Data) : Option ModelMetadata :=
  (closedFields ["name", "sha256"] d).bind fun fields => do
    let name ← required "name" validateNonBlankName fields
    let sha256 ← required "sha256" validateSha256Hex fields
    pure ⟨name, sha256⟩

def validateFrameMetadata (d : Data) : Option FrameMetadata :=
  (closedFields ["width", "height"] d).bind fun fields => do
    let width ← required "width" validatePositiveInt fields
    let height ← required "height" validatePositiveInt fields
    pure ⟨width, height⟩

def validateDetection (d : Data) : Option Detection :=
  (closedFields ["class_id", "class_name", "confidence", "bbox_xyxy_norm", "track_id"] d).bind
    fun fields => do
      let classId ← required "class_id" validateNonNegativeInt fields
      let className ← required "class_name" validateNonBlankName fields
      let confidence ← required "confidence" validateNormalizedCoordinate fields
      let bboxXyxyNorm ← required "bbox_xyxy_norm" validateNormalizedBoundingBox fields
      let trackId ← optional "track_id" none (nullable validateNonNegativeInt) fields
      pure ⟨classId, className, confidence, bboxXyxyNorm, trackId⟩

def validatePerformanceMetrics (d : Data) : Option PerformanceMetrics :=
  (closedFields ["decode_ms", "inference_ms", "postprocess_ms"] d).bind fun fields => do
    let decodeMs ← required "decode_ms" validateNonNegativeFloat fields
    let inferenceMs ← required "inference_ms" validateNonNegativeFloat fields
    let postprocessMs ← required "postprocess_ms" validateNonNegativeFloat fields
    pure ⟨decodeMs, inferenceMs, postprocessMs⟩

def validateDetectionEvent (d : Data) : Option DetectionEvent :=
  (closedFields ["schema_version", "event_id", "node_id", "camera_id", "timestamp_utc", "nonce",
    "frame_seq", "job_id", "mode", "model", "frame", "detections", "performance"] d).bind
    fun fields => do
      let _ ← required "schema_version" (validateLiteral SchemaVersion.v1_0.text) fields
      let eventId ← required "event_id" validateSafeIdentifier fields
      let nodeId ← required "node_id" validateSafeIdentifier fields
      let cameraId ← required "camera_id" validateSafeIdentifier fields
      let timestampUtc ← required "timestamp_utc" validateUtcTimestamp fields
      let nonce ← required "nonce" validateSafeIdentifier fields
      let frameSeq ← required "frame_seq" validateNonNegativeInt fields
      let jobId ← required "job_id" (nullable validateSafeIdentifier) fields
      let _ ← required "mode" (validateLiteral EventMode.privacy.text) fields
      let model ← required "model" validateModelMetadata fields
      let frame ← required "frame" validateFrameMetadata fields
      let detections ← required "detections" (listOf validateDetection) fields
      let performance ← required "performance" validatePerformanceMetrics fields
      pure ⟨.v1_0, eventId, nodeId, cameraId, timestampUtc, nonce, frameSeq, jobId, .privacy,
        model, frame, detections, performance⟩

/-- A string field with a validator of its own. -/
def validateText {α : Type} (validate : String → Except ValueError α) (d : Data) : Option α := do
  let s ← validateStr d
  (validate s).toOption

def validateSignedDetectionEnvelope (d : Data) : Option SignedDetectionEnvelope :=
  (closedFields ["body", "signature_algorithm", "signature_b64"] d).bind fun fields => do
    let body ← required "body" validateDetectionEvent fields
    let _ ← required "signature_algorithm" (validateLiteral SignatureAlgorithm.ed25519.text) fields
    let signatureB64 ← required "signature_b64" (validateText validateSignatureB64) fields
    pure ⟨body, .ed25519, signatureB64⟩

def validateHealthStatus (d : Data) : Option HealthStatus := do
  let s ← validateStr d
  if s = HealthStatus.healthy.text then some .healthy
  else if s = HealthStatus.degraded.text then some .degraded
  else if s = HealthStatus.unhealthy.text then some .unhealthy
  else none

def validateNodeHeartbeat (d : Data) : Option NodeHeartbeat :=
  (closedFields ["node_id", "timestamp_utc", "status"] d).bind fun fields => do
    let nodeId ← required "node_id" validateSafeIdentifier fields
    let timestampUtc ← required "timestamp_utc" validateUtcTimestamp fields
    let status ← required "status" validateHealthStatus fields
    pure ⟨nodeId, timestampUtc, status⟩

section Order

theorem validateStr_scalar {α : Type} (f : String → Option α) :
    IgnoresOrder fun d => (validateStr d).bind f :=
  .scalar (fun _ => rfl) fun _ => rfl

theorem validateInt_scalar {α : Type} (f : ℤ → Option α) :
    IgnoresOrder fun d => (validateInt d).bind f :=
  .scalar (fun _ => rfl) fun _ => rfl

theorem validateFloat_scalar {α : Type} (f : Finite → Option α) :
    IgnoresOrder fun d => (validateFloat d).bind f :=
  .scalar (fun _ => rfl) fun _ => rfl

theorem validateLiteral_ignoresOrder (text : String) : IgnoresOrder (validateLiteral text) :=
  validateStr_scalar _

theorem validateSafeIdentifier_ignoresOrder : IgnoresOrder validateSafeIdentifier :=
  validateStr_scalar _

theorem validateNonBlankName_ignoresOrder : IgnoresOrder validateNonBlankName :=
  validateStr_scalar _

theorem validateSha256Hex_ignoresOrder : IgnoresOrder validateSha256Hex := validateStr_scalar _

theorem validateNonNegativeInt_ignoresOrder : IgnoresOrder validateNonNegativeInt :=
  validateInt_scalar _

theorem validatePositiveInt_ignoresOrder : IgnoresOrder validatePositiveInt := validateInt_scalar _

theorem validateNonNegativeFloat_ignoresOrder : IgnoresOrder validateNonNegativeFloat :=
  validateFloat_scalar _

theorem validateNormalizedCoordinate_ignoresOrder : IgnoresOrder validateNormalizedCoordinate :=
  validateFloat_scalar _

theorem validateUtcTimestamp_ignoresOrder : IgnoresOrder validateUtcTimestamp :=
  .scalar (fun _ => rfl) fun _ => rfl

theorem validateNormalizedBoundingBox_ignoresOrder :
    IgnoresOrder validateNormalizedBoundingBox := by
  intro v w h
  unfold validateNormalizedBoundingBox
  rw [validateNormalizedCoordinate_ignoresOrder.listOf v w h]

theorem validateModelMetadata_ignoresOrder : IgnoresOrder validateModelMetadata :=
  .record fun a c h => by
    rw [required_reordered validateNonBlankName_ignoresOrder h,
      required_reordered validateSha256Hex_ignoresOrder h]

theorem validateFrameMetadata_ignoresOrder : IgnoresOrder validateFrameMetadata :=
  .record fun a c h => by
    simp only [required_reordered validatePositiveInt_ignoresOrder h]

theorem validateDetection_ignoresOrder : IgnoresOrder validateDetection :=
  .record fun a c h => by
    rw [required_reordered validateNonNegativeInt_ignoresOrder h,
      required_reordered validateNonBlankName_ignoresOrder h,
      required_reordered validateNormalizedCoordinate_ignoresOrder h,
      required_reordered validateNormalizedBoundingBox_ignoresOrder h,
      optional_reordered validateNonNegativeInt_ignoresOrder.nullable h]

theorem validatePerformanceMetrics_ignoresOrder : IgnoresOrder validatePerformanceMetrics :=
  .record fun a c h => by
    simp only [required_reordered validateNonNegativeFloat_ignoresOrder h]

/-- The order in which a document lists its fields does not reach the event. -/
theorem validateDetectionEvent_ignoresOrder : IgnoresOrder validateDetectionEvent :=
  .record fun a c h => by
    simp only [required_reordered (validateLiteral_ignoresOrder _) h,
      required_reordered validateSafeIdentifier_ignoresOrder h,
      required_reordered validateUtcTimestamp_ignoresOrder h,
      required_reordered validateNonNegativeInt_ignoresOrder h,
      required_reordered validateSafeIdentifier_ignoresOrder.nullable h,
      required_reordered validateModelMetadata_ignoresOrder h,
      required_reordered validateFrameMetadata_ignoresOrder h,
      required_reordered validateDetection_ignoresOrder.listOf h,
      required_reordered validatePerformanceMetrics_ignoresOrder h]

end Order

end SecureEdge
