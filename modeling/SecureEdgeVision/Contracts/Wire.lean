import SecureEdgeVision.Binary64.Rounding
import SecureEdgeVision.Contracts.Instant
import Mathlib.Data.PNat.Basic

/-! The strict wire models. Each constrained field type carries the constraint it was
validated with, so a value of a model is a value its contract accepts. -/
namespace SecureEdge

/-- The characters `str.isspace` accepts. -/
def isSpace (c : Char) : Bool :=
  let n := c.toNat
  (0x9 ≤ n && n ≤ 0xd) || (0x1c ≤ n && n ≤ 0x20) || n == 0x85 || n == 0xa0 || n == 0x1680 ||
    (0x2000 ≤ n && n ≤ 0x200a) || n == 0x2028 || n == 0x2029 || n == 0x202f || n == 0x205f ||
    n == 0x3000

/-- `[A-Za-z0-9._:-]` -/
def isIdentifierChar (c : Char) : Bool :=
  c.isAlphanum || c == '.' || c == '_' || c == ':' || c == '-'

/-- One to 128 characters matching `^[A-Za-z0-9][A-Za-z0-9._:-]*$`. -/
def isSafeIdentifier (s : String) : Bool :=
  match s.toList with
  | [] => false
  | c :: rest => c.isAlphanum && rest.all isIdentifierChar && decide (rest.length + 1 ≤ 128)

structure SafeIdentifier where
  text : String
  valid : isSafeIdentifier text = true
deriving DecidableEq

theorem SafeIdentifier.ext {a b : SafeIdentifier} (h : a.text = b.text) : a = b := by
  cases a
  cases b
  simpa using h

/-- One to 255 characters, not all of them whitespace. -/
def isNonBlankName (s : String) : Bool :=
  decide (1 ≤ s.length) && decide (s.length ≤ 255) && s.toList.any (fun c => !isSpace c)

/-- A model or class name. -/
structure NonBlankName where
  text : String
  valid : isNonBlankName text = true
deriving DecidableEq

/-- `^[0-9a-f]{64}$` -/
def isSha256Hex (s : String) : Bool :=
  decide (s.length = 64) && s.toList.all fun c => c.isDigit || decide ('a' ≤ c ∧ c ≤ 'f')

structure Sha256Hex where
  text : String
  valid : isSha256Hex text = true
deriving DecidableEq

open Binary64 (Finite)

structure NonNegativeFloat where
  value : Finite
  nonneg : Finite.zero ≤ value
deriving DecidableEq

structure NormalizedCoordinate where
  value : Finite
  nonneg : Finite.zero ≤ value
  le_one : value ≤ Finite.one
deriving DecidableEq

/-- `[x_min, y_min, x_max, y_max]` -/
structure NormalizedBoundingBox where
  xMin : NormalizedCoordinate
  yMin : NormalizedCoordinate
  xMax : NormalizedCoordinate
  yMax : NormalizedCoordinate
  x_ordered : xMin.value < xMax.value
  y_ordered : yMin.value < yMax.value
deriving DecidableEq

inductive SchemaVersion where
  | v1_0
deriving DecidableEq

def SchemaVersion.text : SchemaVersion → String
  | .v1_0 => "1.0"

inductive EventMode where
  | privacy
deriving DecidableEq

def EventMode.text : EventMode → String
  | .privacy => "privacy"

structure ModelMetadata where
  name : NonBlankName
  sha256 : Sha256Hex
deriving DecidableEq

structure FrameMetadata where
  width : ℕ+
  height : ℕ+
deriving DecidableEq

structure Detection where
  classId : ℕ
  className : NonBlankName
  confidence : NormalizedCoordinate
  bboxXyxyNorm : NormalizedBoundingBox
  trackId : Option ℕ
deriving DecidableEq

structure PerformanceMetrics where
  decodeMs : NonNegativeFloat
  inferenceMs : NonNegativeFloat
  postprocessMs : NonNegativeFloat
deriving DecidableEq

structure DetectionEvent where
  schemaVersion : SchemaVersion
  eventId : SafeIdentifier
  nodeId : SafeIdentifier
  cameraId : SafeIdentifier
  timestampUtc : UtcTimestamp
  nonce : SafeIdentifier
  frameSeq : ℕ
  jobId : Option SafeIdentifier
  mode : EventMode
  model : ModelMetadata
  frame : FrameMetadata
  detections : List Detection
  performance : PerformanceMetrics
deriving DecidableEq

/-- The instant the event was stamped with. -/
def DetectionEvent.instant (e : DetectionEvent) : UtcDatetime := e.timestampUtc.instant

theorem edge_isSafe : isSafeIdentifier "edge-1" = true := by decide
theorem camera_isSafe : isSafeIdentifier "camera-1" = true := by decide
theorem event_isSafe : isSafeIdentifier "event-1" = true := by decide
theorem nonce_isSafe : isSafeIdentifier "nonce-1" = true := by decide
theorem sampleMicros_le : 63924944400000000 ≤ maxMicros := by decide

/-- An event without detections, for concrete runs. -/
def DetectionEvent.sample (nodeId eventId nonce : SafeIdentifier) (instant : UtcDatetime) :
    DetectionEvent where
  schemaVersion := .v1_0
  eventId := eventId
  nodeId := nodeId
  cameraId := ⟨"camera-1", camera_isSafe⟩
  timestampUtc := ⟨instant, .utc⟩
  nonce := nonce
  frameSeq := 0
  jobId := none
  mode := .privacy
  model := {
    name := ⟨"yolo26n.pt", by decide⟩
    sha256 := ⟨"aaaaaaaaaaaaaaaaaaaaaaaaaaaaaaaaaaaaaaaaaaaaaaaaaaaaaaaaaaaaaaaa", by decide⟩ }
  frame := ⟨640, 480⟩
  detections := []
  performance := {
    decodeMs := ⟨.zero, by decide⟩
    inferenceMs := ⟨.zero, by decide⟩
    postprocessMs := ⟨.zero, by decide⟩ }

/-- Agreement in every field, timestamps compared as instants. -/
structure DetectionEvent.Agree (a b : DetectionEvent) : Prop where
  schemaVersion : a.schemaVersion = b.schemaVersion
  eventId : a.eventId = b.eventId
  nodeId : a.nodeId = b.nodeId
  cameraId : a.cameraId = b.cameraId
  instant : a.instant = b.instant
  nonce : a.nonce = b.nonce
  frameSeq : a.frameSeq = b.frameSeq
  jobId : a.jobId = b.jobId
  mode : a.mode = b.mode
  model : a.model = b.model
  frame : a.frame = b.frame
  detections : a.detections = b.detections
  performance : a.performance = b.performance

theorem DetectionEvent.Agree.refl (a : DetectionEvent) : a.Agree a :=
  ⟨rfl, rfl, rfl, rfl, rfl, rfl, rfl, rfl, rfl, rfl, rfl, rfl, rfl⟩

theorem DetectionEvent.Agree.symm {a b : DetectionEvent} (h : a.Agree b) : b.Agree a :=
  ⟨h.1.symm, h.2.symm, h.3.symm, h.4.symm, h.5.symm, h.6.symm, h.7.symm, h.8.symm, h.9.symm,
    h.10.symm, h.11.symm, h.12.symm, h.13.symm⟩

end SecureEdge
