import SecureEdgeVision.Contracts.Envelope
import SecureEdgeVision.Json.Fields
import SecureEdgeVision.Json.Number
import SecureEdgeVision.Python.IsoFormat

/-! `model_dump(mode="json")`: the contracts as JSON documents, fields in the order in which
the models declare them. -/
namespace SecureEdge

open Json (PyNumber Value field?)
open Python (Datetime isoformat)

abbrev Document := Value String PyNumber

/-- The fields of the instant as a `datetime` in UTC. -/
def UtcDatetime.datetime (t : UtcDatetime) : Datetime := Datetime.ofMicros t.micros (some 0)

/-- The text of a UTC datetime in JSON mode: its ISO form, with `Z` for the offset. -/
def UtcDatetime.text (t : UtcDatetime) : String :=
  String.ofList (isoformat t.datetime ++ ['Z'])

namespace Document

def natural (n : ℕ) : Document := .number (.int n)

def float (x : Binary64.Finite) : Document := .number (.float x)

def nullable {α : Type} (document : α → Document) : Option α → Document
  | none => .null
  | some x => document x

def identifier (s : SafeIdentifier) : Document := .string s.text

def timestamp (t : UtcTimestamp) : Document := .string t.instant.text

def boundingBox (b : NormalizedBoundingBox) : Document :=
  .array [float b.xMin.value, float b.yMin.value, float b.xMax.value, float b.yMax.value]

def detectionFields (d : Detection) : List (String × Document) :=
  [("class_id", natural d.classId), ("class_name", .string d.className.text),
    ("confidence", float d.confidence.value), ("bbox_xyxy_norm", boundingBox d.bboxXyxyNorm),
    ("track_id", nullable natural d.trackId)]

def detection (d : Detection) : Document := .object (detectionFields d)

def modelFields (m : ModelMetadata) : List (String × Document) :=
  [("name", .string m.name.text), ("sha256", .string m.sha256.text)]

def frameFields (f : FrameMetadata) : List (String × Document) :=
  [("width", natural f.width), ("height", natural f.height)]

def performanceFields (p : PerformanceMetrics) : List (String × Document) :=
  [("decode_ms", float p.decodeMs.value), ("inference_ms", float p.inferenceMs.value),
    ("postprocess_ms", float p.postprocessMs.value)]

def eventFields (e : DetectionEvent) : List (String × Document) :=
  [("schema_version", .string e.schemaVersion.text), ("event_id", identifier e.eventId),
    ("node_id", identifier e.nodeId), ("camera_id", identifier e.cameraId),
    ("timestamp_utc", timestamp e.timestampUtc), ("nonce", identifier e.nonce),
    ("frame_seq", natural e.frameSeq), ("job_id", nullable identifier e.jobId),
    ("mode", .string e.mode.text), ("model", .object (modelFields e.model)),
    ("frame", .object (frameFields e.frame)),
    ("detections", .array (e.detections.map detection)),
    ("performance", .object (performanceFields e.performance))]

def event (e : DetectionEvent) : Document := .object (eventFields e)

def envelopeFields (e : SignedDetectionEnvelope) : List (String × Document) :=
  [("body", event e.body), ("signature_algorithm", .string e.signatureAlgorithm.text),
    ("signature_b64", .string e.signatureB64.text)]

def envelope (e : SignedDetectionEnvelope) : Document := .object (envelopeFields e)

def heartbeatFields (h : NodeHeartbeat) : List (String × Document) :=
  [("node_id", identifier h.nodeId), ("timestamp_utc", timestamp h.timestampUtc),
    ("status", .string h.status.text)]

def heartbeat (h : NodeHeartbeat) : Document := .object (heartbeatFields h)

section Keys

theorem detectionFields_nodup (d : Detection) : ((detectionFields d).map Prod.fst).Nodup := by
  simp [detectionFields]

theorem modelFields_nodup (m : ModelMetadata) : ((modelFields m).map Prod.fst).Nodup := by
  simp [modelFields]

theorem frameFields_nodup (f : FrameMetadata) : ((frameFields f).map Prod.fst).Nodup := by
  simp [frameFields]

theorem performanceFields_nodup (p : PerformanceMetrics) :
    ((performanceFields p).map Prod.fst).Nodup := by
  simp [performanceFields]

theorem eventFields_nodup (e : DetectionEvent) : ((eventFields e).map Prod.fst).Nodup := by
  simp [eventFields]

theorem envelopeFields_nodup (e : SignedDetectionEnvelope) :
    ((envelopeFields e).map Prod.fst).Nodup := by
  simp [envelopeFields]

theorem heartbeatFields_nodup (h : NodeHeartbeat) :
    ((heartbeatFields h).map Prod.fst).Nodup := by
  simp [heartbeatFields]

end Keys

section Clean

/-- An object whose field values are clean. -/
theorem clean_fields {fields : List (String × Document)} (hkeys : (fields.map Prod.fst).Nodup)
    (h : ∀ v ∈ fields.map Prod.snd, v.Clean fun _ => True) :
    (Value.object fields).Clean fun _ => True :=
  .object hkeys fun _ hx => h _ (List.mem_map_of_mem hx)

theorem clean_nullable {α : Type} {document : α → Document}
    (h : ∀ x, (document x).Clean fun _ => True) (x : Option α) :
    (nullable document x).Clean fun _ => True := by
  cases x with
  | none => exact .null
  | some a => exact h a

theorem clean_detection (d : Detection) : (detection d).Clean fun _ => True := by
  refine clean_fields (detectionFields_nodup d) ?_
  simp only [detectionFields, List.map_cons, List.map_nil, List.forall_mem_cons]
  refine ⟨.number trivial, .string _, .number trivial, .array ?_,
    clean_nullable (fun _ => .number trivial) _, by simp⟩
  simp only [List.forall_mem_cons]
  exact ⟨.number trivial, .number trivial, .number trivial, .number trivial, by simp⟩

theorem clean_event (e : DetectionEvent) : (event e).Clean fun _ => True := by
  refine clean_fields (eventFields_nodup e) ?_
  simp only [eventFields, List.map_cons, List.map_nil, List.forall_mem_cons]
  refine ⟨.string _, .string _, .string _, .string _, .string _, .string _, .number trivial,
    clean_nullable (fun _ => .string _) _, .string _, clean_fields (modelFields_nodup _) ?_,
    clean_fields (frameFields_nodup _) ?_, .array ?_, clean_fields (performanceFields_nodup _) ?_,
    by simp⟩
  · simp only [modelFields, List.map_cons, List.map_nil, List.forall_mem_cons]
    exact ⟨.string _, .string _, by simp⟩
  · simp only [frameFields, List.map_cons, List.map_nil, List.forall_mem_cons]
    exact ⟨.number trivial, .number trivial, by simp⟩
  · intro v hv
    obtain ⟨d, -, rfl⟩ := List.mem_map.mp hv
    exact clean_detection d
  · simp only [performanceFields, List.map_cons, List.map_nil, List.forall_mem_cons]
    exact ⟨.number trivial, .number trivial, .number trivial, by simp⟩

theorem clean_envelope (e : SignedDetectionEnvelope) : (envelope e).Clean fun _ => True := by
  refine clean_fields (envelopeFields_nodup e) ?_
  simp only [envelopeFields, List.map_cons, List.map_nil, List.forall_mem_cons]
  exact ⟨clean_event e.body, .string _, .string _, by simp⟩

theorem clean_heartbeat (h : NodeHeartbeat) : (heartbeat h).Clean fun _ => True := by
  refine clean_fields (heartbeatFields_nodup h) ?_
  simp only [heartbeatFields, List.map_cons, List.map_nil, List.forall_mem_cons]
  exact ⟨.string _, .string _, .string _, by simp⟩

end Clean

section Nesting

theorem nesting_nullable {α : Type} {document : α → Document} (h : ∀ x, (document x).nesting = 0)
    (x : Option α) : (nullable document x).nesting = 0 := by
  cases x with
  | none => rfl
  | some a => exact h a

theorem nesting_detection (d : Detection) : (detection d).nesting = 2 := by
  have htrack : (nullable natural d.trackId).nesting = 0 := nesting_nullable (fun _ => rfl) _
  simp [detection, detectionFields, Value.nesting, Value.nestingFields, Value.nestingItems,
    natural, float, boundingBox, htrack]

theorem nesting_detections (ds : List Detection) :
    (Value.array (ds.map detection)).nesting ≤ 3 := by
  rw [Value.nesting]
  induction ds with
  | nil => simp [Value.nestingItems]
  | cons d ds ih =>
    rw [List.map_cons, Value.nestingItems, nesting_detection]
    omega

theorem nesting_event (e : DetectionEvent) : (event e).nesting ≤ 4 := by
  have hjob : (nullable identifier e.jobId).nesting = 0 := nesting_nullable (fun _ => rfl) _
  have hdetections := nesting_detections e.detections
  simp only [event, eventFields, modelFields, frameFields, performanceFields, identifier,
    timestamp, natural, float, Value.nesting, Value.nestingFields, hjob] at hdetections ⊢
  omega

theorem nesting_envelope (e : SignedDetectionEnvelope) : (envelope e).nesting ≤ 5 := by
  have hbody := nesting_event e.body
  simp only [envelope, envelopeFields, Value.nesting, Value.nestingFields]
  omega

theorem nesting_heartbeat (h : NodeHeartbeat) : (heartbeat h).nesting = 1 := by
  simp [heartbeat, heartbeatFields, identifier, timestamp, Value.nesting, Value.nestingFields]

end Nesting

end Document

end SecureEdge
