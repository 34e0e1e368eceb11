import SecureEdgeVision.Json.Plain
import SecureEdgeVision.Persistence.Columns

/-! Stored records as contracts again. Every column is validated when it is read, so that a
record written from a contract, and only a valid one, gives the contract back. -/
namespace SecureEdge

open Binary64 (Finite)
open Json (FloatRepr Value ScanError dumps finiteNumbers? loads plainScanner scanned)
open Python (Str)

/-- A `PersistenceError`, or the recursion error of a stored document that nests too deep. -/
inductive ReadFailure where
  | persistence (error : PersistenceError)
  | recursion
deriving DecidableEq

section Columns
variable {α : Type}

def SafeIdentifier.ofText? (s : String) : Option SafeIdentifier :=
  if h : isSafeIdentifier s = true then some ⟨s, h⟩ else none

def NonBlankName.ofText? (s : String) : Option NonBlankName :=
  if h : isNonBlankName s = true then some ⟨s, h⟩ else none

def Sha256Hex.ofText? (s : String) : Option Sha256Hex :=
  if h : isSha256Hex s = true then some ⟨s, h⟩ else none

def MachineCode.ofText? (s : String) : Option MachineCode :=
  if h : isMachineCode s = true then some ⟨s, h⟩ else none

def NonNegativeFloat.ofFinite? (x : Finite) : Option NonNegativeFloat :=
  if h : Finite.zero ≤ x then some ⟨x, h⟩ else none

def ofNullable? (ofText? : String → Option α) : Option String → Option (Option α)
  | none => some none
  | some s => (ofText? s).map some

def ModelMetadata.ofColumns? (name sha256 : String) : Option ModelMetadata := do
  let name ← NonBlankName.ofText? name
  let sha256 ← Sha256Hex.ofText? sha256
  pure ⟨name, sha256⟩

def FrameMetadata.ofColumns? (width height : ℕ) : Option FrameMetadata :=
  if h : 0 < width ∧ 0 < height then some ⟨⟨width, h.1⟩, ⟨height, h.2⟩⟩ else none

def PerformanceMetrics.ofColumns? (decodeMs inferenceMs postprocessMs : Finite) :
    Option PerformanceMetrics := do
  let decodeMs ← NonNegativeFloat.ofFinite? decodeMs
  let inferenceMs ← NonNegativeFloat.ofFinite? inferenceMs
  let postprocessMs ← NonNegativeFloat.ofFinite? postprocessMs
  pure ⟨decodeMs, inferenceMs, postprocessMs⟩

@[simp] theorem SafeIdentifier.ofText?_text (s : SafeIdentifier) :
    SafeIdentifier.ofText? s.text = some s := dif_pos s.valid

@[simp] theorem MachineCode.ofText?_text (s : MachineCode) : MachineCode.ofText? s.text = some s :=
  dif_pos s.valid

theorem ofNullable?_map {ofText? : String → Option α} {text : α → String}
    (h : ∀ x, ofText? (text x) = some x) (x : Option α) :
    ofNullable? ofText? (x.map text) = some x := by
  cases x with
  | none => rfl
  | some x =>
    rw [Option.map_some, ofNullable?, h]
    rfl

theorem ModelMetadata.ofColumns?_eq (m : ModelMetadata) :
    ModelMetadata.ofColumns? m.name.text m.sha256.text = some m := by
  have hname : NonBlankName.ofText? m.name.text = some m.name := dif_pos m.name.valid
  have hsha : Sha256Hex.ofText? m.sha256.text = some m.sha256 := dif_pos m.sha256.valid
  unfold ofColumns?
  rw [hname, hsha]
  rfl

theorem FrameMetadata.ofColumns?_eq (f : FrameMetadata) :
    FrameMetadata.ofColumns? f.width f.height = some f := dif_pos ⟨f.width.pos, f.height.pos⟩

theorem PerformanceMetrics.ofColumns?_eq (p : PerformanceMetrics) :
    PerformanceMetrics.ofColumns? p.decodeMs.value p.inferenceMs.value p.postprocessMs.value =
      some p := by
  have hof : ∀ x : NonNegativeFloat, NonNegativeFloat.ofFinite? x.value = some x :=
    fun x => dif_pos x.nonneg
  unfold ofColumns?
  rw [hof, hof, hof]
  rfl

end Columns

section Events

def PersistenceError.storedEvent : PersistenceError := ⟨"stored detection event is invalid"⟩

/-- A validation whose failure is a stored event that is invalid. -/
def validated {α : Type} : Option α → Except ReadFailure α
  | none => .error (.persistence .storedEvent)
  | some x => .ok x

/-- `_deserialize_detections` -/
def deserializeDetections (depth : ℕ) (value : String) : Except ReadFailure (List Detection) :=
  match loads plainScanner depth value.toList with
  | .error .recursion => .error .recursion
  | .error _ => .error (.persistence .storedEvent)
  | .ok (.array payload) =>
    validated (payload.mapM fun item => (finiteNumbers? item).bind validateDetection)
  | .ok _ => .error (.persistence .storedEvent)

/-- `DetectionEventRecord.to_event` -/
def DetectionEventRecord.toEvent (depth : ℕ) (record : DetectionEventRecord) :
    Except ReadFailure DetectionEvent := do
  let model ← validated (ModelMetadata.ofColumns? record.modelName record.modelSha256)
  let frame ← validated (FrameMetadata.ofColumns? record.frameWidth record.frameHeight)
  let detections ← deserializeDetections depth record.detectionsJson
  let performance ← validated
    (PerformanceMetrics.ofColumns? record.decodeMs record.inferenceMs record.postprocessMs)
  validated do
    let eventId ← SafeIdentifier.ofText? record.eventId
    let nodeId ← SafeIdentifier.ofText? record.nodeId
    let cameraId ← SafeIdentifier.ofText? record.cameraId
    let nonce ← SafeIdentifier.ofText? record.nonce
    let jobId ← ofNullable? SafeIdentifier.ofText? record.jobId
    if record.schemaVersion = SchemaVersion.v1_0.text ∧ record.mode = EventMode.privacy.text then
      some ⟨.v1_0, eventId, nodeId, cameraId, ⟨record.timestampUtc, .utc⟩, nonce, record.frameSeq,
        jobId, .privacy, model, frame, detections, performance⟩
    else none

variable {reprFloat : Finite → String} {depth : ℕ}

theorem deserializeDetections_serialize (hrepr : FloatRepr reprFloat) (hdepth : 3 ≤ depth)
    {detections : List Detection} {text : String}
    (h : serializeDetections reprFloat detections = .ok text) :
    deserializeDetections depth text = .ok detections := by
  unfold serializeDetections at h
  cases hdumps : dumps reprFloat (Value.array (detections.map Document.detection)).sortKeys with
  | none =>
    rw [hdumps] at h
    cases h
  | some written =>
    rw [hdumps] at h
    obtain rfl := Except.ok.inj h
    have hclean : (Value.array (detections.map Document.detection)).Clean fun _ => True := by
      refine .array fun v hv => ?_
      obtain ⟨d, -, rfl⟩ := List.mem_map.mp hv
      exact Document.clean_detection d
    have hloads := Json.loads_dumps_plain hrepr hclean
      ((Document.nesting_detections detections).trans hdepth) hdumps
    rw [Value.sortKeys, Value.sortItems_eq, Json.scanned_array, Value.mapNumbers,
      Value.mapNumbersItems_eq, List.map_map, List.map_map, List.map_map] at hloads
    have hitem : ∀ d : Detection, (finiteNumbers?
        ((scanned (Document.detection d).sortKeys).mapNumbers some)).bind validateDetection =
          some d := by
      intro d
      have hsorted := (Document.clean_detection d).reordered_sortKeys Str.ofString_injective
      rw [Json.finiteNumbers?_mapNumbers, Option.bind_some, scanned,
        ← validateDetection_ignoresOrder _ _ hsorted]
      exact validateDetection_scanned d
    unfold deserializeDetections
    rw [hloads]
    dsimp only
    have hpure : (fun d => (finiteNumbers?
        ((scanned (Document.detection d).sortKeys).mapNumbers some)).bind validateDetection) =
          fun d => (pure d : Option Detection) := funext hitem
    simp only [List.mapM_map, Function.comp_def]
    rw [hpure, List.mapM_pure, List.map_id']
    rfl

/-- The record of an event, under whatever ID, is read back as that event. -/
theorem toEvent_fromEvent (hrepr : FloatRepr reprFloat) (hdepth : 3 ≤ depth)
    {event : DetectionEvent} {acceptedAtUtc : UtcDatetime} {record : DetectionEventRecord}
    (h : DetectionEventRecord.fromEvent reprFloat event acceptedAtUtc = .ok record)
    (recordId : Option ℕ) :
    DetectionEventRecord.toEvent depth { record with recordId } = .ok event.astimezone := by
  obtain ⟨detectionsJson, hjson, h⟩ := Python.bind_eq_ok.mp h
  obtain rfl := Except.ok.inj h
  have hdetections := deserializeDetections_serialize hrepr hdepth hjson
  have hversion : event.schemaVersion = .v1_0 := by cases event.schemaVersion; rfl
  have hmode : event.mode = .privacy := by cases event.mode; rfl
  unfold DetectionEventRecord.toEvent
  dsimp only
  rw [ModelMetadata.ofColumns?_eq, FrameMetadata.ofColumns?_eq, PerformanceMetrics.ofColumns?_eq,
    hdetections, ofNullable?_map SafeIdentifier.ofText?_text, SafeIdentifier.ofText?_text,
    SafeIdentifier.ofText?_text, SafeIdentifier.ofText?_text, SafeIdentifier.ofText?_text, hversion,
    hmode]
  simp only [validated, Option.bind_eq_bind, Option.bind_some, Python.ok_bind, and_self, if_true]
  rw [← hversion, ← hmode]
  rfl

end Events

end SecureEdge
