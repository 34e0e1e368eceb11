import SecureEdgeVision.Contracts.Wire
import SecureEdgeVision.Python.Raise
import SecureEdgeVision.Runs.Serial
import Mathlib.Data.Finset.Insert

/-! The worker's assembly of one event from one frame. What the detector, the clocks and the
identifier factories do is part of the input of a call. -/
namespace SecureEdge

open Binary64 (Finite)

structure WorkerPipelineError where
  message : String
deriving DecidableEq

/-- What the worker raises: its own error, or an exception of another type. -/
inductive WorkerFailure where
  | pipeline (error : WorkerPipelineError)
  | escaped
deriving DecidableEq

instance : MonadLift (Except WorkerPipelineError) (Except WorkerFailure) :=
  ⟨fun x => x.mapError .pipeline⟩

/-- A value that may be a number: none or a `bool`, an `int`, or a `float`. -/
inductive PyReal where
  | other
  | int (n : ℤ)
  | nonFinite
  | float (x : Finite)
deriving DecidableEq

/-- What an injected callable did. -/
inductive Called (α : Type) where
  | raised
  | returned (value : α)
deriving DecidableEq

/-- What the worker's UTC clock returned: no datetime or a broken one, a datetime that is not
in UTC, or a timestamp. -/
inductive PyDatetime where
  | invalid
  | notUtc
  | utc (timestamp : UtcTimestamp)
deriving DecidableEq

structure CapturedFrame where
  decodeMs : PyReal
  sampleTimeSeconds : PyReal
deriving DecidableEq

structure VisionResult where
  frame : FrameMetadata
  model : ModelMetadata
  detections : List Detection
deriving DecidableEq

/-- What the detector returned: not a result, one whose detections cannot be listed, one whose
contents break the contract, or a sound one. -/
inductive Inferred where
  | invalid
  | unlistable
  | malformed
  | result (result : VisionResult)
deriving DecidableEq

inductive DetectorOutcome where
  | visionError
  | raised
  | returned (inferred : Inferred)
deriving DecidableEq

/-- One call of `process_frame`: its argument, and what it meets in order. -/
structure FrameCall where
  captured : Option CapturedFrame
  inferenceStarted : Called PyReal
  detector : DetectorOutcome
  inferenceFinished : Called PyReal
  postprocessStarted : Called PyReal
  timestamp : Called PyDatetime
  eventId : Called (Option String)
  nonce : Called (Option String)
  postprocessFinished : Called PyReal
deriving DecidableEq

/-- `_nonnegative_finite` -/
def nonnegativeFinite (value : PyReal) (label : String) :
    Except WorkerPipelineError NonNegativeFloat :=
  let number := match value with
    | .other => none
    | .int n => Binary64.ofInt n
    | .nonFinite => none
    | .float x => some x
  match number with
  | none => .error ⟨label ++ " is invalid"⟩
  | some x => if h : Finite.zero ≤ x then .ok ⟨x, h⟩ else .error ⟨label ++ " is invalid"⟩

/-- `_monotonic_value` -/
def monotonicValue (clock : Called PyReal) (label : String) :
    Except WorkerPipelineError NonNegativeFloat :=
  match clock with
  | .raised => .error ⟨label ++ " failed"⟩
  | .returned value => nonnegativeFinite value label

/-- `_elapsed_ms` -/
def elapsedMs (started finished : NonNegativeFloat) (label : String) :
    Except WorkerPipelineError NonNegativeFloat :=
  if finished.value < started.value then .error ⟨label ++ " moved backwards"⟩
  else
    match (finished.value.sub started.value).bind fun d => d.mul .thousand with
    | none => nonnegativeFinite .nonFinite label
    | some elapsed => nonnegativeFinite (.float elapsed) label

/-- `_utc_timestamp` -/
def utcTimestamp (clock : Called PyDatetime) : Except WorkerPipelineError UtcTimestamp :=
  match clock with
  | .raised => .error ⟨"worker UTC clock failed"⟩
  | .returned .invalid => .error ⟨"worker UTC clock is invalid"⟩
  | .returned .notUtc => .error ⟨"worker UTC clock must return UTC"⟩
  | .returned (.utc timestamp) => .ok timestamp

/-- `_factory_identifier`; `none` is a value that is no string. -/
def factoryIdentifier (factory : Called (Option String)) (label : String) :
    Except WorkerPipelineError SafeIdentifier :=
  match factory with
  | .raised => .error ⟨label ++ " factory failed"⟩
  | .returned none => .error ⟨label ++ " is invalid"⟩
  | .returned (some text) =>
    if h : isSafeIdentifier text = true then .ok ⟨text, h⟩ else .error ⟨label ++ " is invalid"⟩

/-- `if not condition: raise WorkerPipelineError(message)` -/
def require (condition : Prop) [Decidable condition] (message : String) :
    Except WorkerPipelineError Unit :=
  if condition then .ok () else .error ⟨message⟩

def capturedFrame (captured : Option CapturedFrame) : Except WorkerPipelineError CapturedFrame :=
  captured.elim (.error ⟨"captured frame metadata is invalid"⟩) .ok

/-- `infer` with its exceptions translated. -/
def infer (detector : DetectorOutcome) : Except WorkerPipelineError Inferred :=
  match detector with
  | .visionError => .error ⟨"local detection failed"⟩
  | .raised => .error ⟨"local detector failed unexpectedly"⟩
  | .returned inferred => .ok inferred

/-- `list(result.detections)` -/
def listDetections (inferred : Inferred) : Except WorkerFailure Unit :=
  match inferred with
  | .unlistable => .error .escaped
  | _ => .ok ()

/-- The validation of the event: only a result's contents can still break it. -/
def validResult (inferred : Inferred) : Except WorkerPipelineError VisionResult :=
  match inferred with
  | .result result => .ok result
  | _ => .error ⟨"detection event validation failed"⟩

structure PrivacyWorkerPipeline where
  nodeId : SafeIdentifier
  cameraId : SafeIdentifier

/-- `_next_frame_seq`, `_issued_event_ids` and `_issued_nonces`. -/
structure PipelineState where
  nextFrameSeq : ℕ
  issuedEventIds : Finset SafeIdentifier
  issuedNonces : Finset SafeIdentifier

def PipelineState.initial : PipelineState := ⟨0, ∅, ∅⟩

namespace PrivacyWorkerPipeline
variable (pipeline : PrivacyWorkerPipeline)

/-- `process_frame` up to the event it returns. -/
def assembleEvent (state : PipelineState) (call : FrameCall) :
    Except WorkerFailure DetectionEvent := do
  let captured ← capturedFrame call.captured
  let decodeMs ← nonnegativeFinite captured.decodeMs "frame decode timing"
  let _ ← nonnegativeFinite captured.sampleTimeSeconds "frame sample timing"
  let inferenceStarted ← monotonicValue call.inferenceStarted "worker monotonic clock"
  let inferred ← infer call.detector
  let inferenceFinished ← monotonicValue call.inferenceFinished "worker monotonic clock"
  let inferenceMs ← elapsedMs inferenceStarted inferenceFinished "worker inference timing"
  let _ ← require (inferred ≠ .invalid) "local detector returned invalid metadata"
  let postprocessStarted ← monotonicValue call.postprocessStarted "worker monotonic clock"
  let timestamp ← utcTimestamp call.timestamp
  let eventId ← factoryIdentifier call.eventId "event identifier"
  let nonce ← factoryIdentifier call.nonce "event nonce"
  let _ ← require (eventId ∉ state.issuedEventIds) "event identifier factory reused a value"
  let _ ← require (nonce ∉ state.issuedNonces) "event nonce factory reused a value"
  let _ ← listDetections inferred
  let postprocessFinished ← monotonicValue call.postprocessFinished "worker monotonic clock"
  let postprocessMs ← elapsedMs postprocessStarted postprocessFinished "worker postprocess timing"
  let result ← validResult inferred
  pure {
    schemaVersion := .v1_0
    eventId := eventId
    nodeId := pipeline.nodeId
    cameraId := pipeline.cameraId
    timestampUtc := timestamp
    nonce := nonce
    frameSeq := state.nextFrameSeq
    jobId := none
    mode := .privacy
    model := result.model
    frame := result.frame
    detections := result.detections
    performance := ⟨decodeMs, inferenceMs, postprocessMs⟩ }

/-- `PrivacyWorkerPipeline.process_frame` -/
def processFrame (state : PipelineState) (call : FrameCall) :
    PipelineState × Except WorkerFailure DetectionEvent :=
  match pipeline.assembleEvent state call with
  | .error e => (state, .error e)
  | .ok event =>
    (⟨state.nextFrameSeq + 1, insert event.eventId state.issuedEventIds,
      insert event.nonce state.issuedNonces⟩, .ok event)

/-- The events that a run of calls returned. -/
def emitted (state : PipelineState) (calls : List FrameCall) : List DetectionEvent :=
  (Runs.run pipeline.processFrame state calls).2.filterMap Except.toOption

variable {pipeline} {state : PipelineState} {call : FrameCall}

/-- What is known of an event that a call assembled. -/
structure Assembled (pipeline : PrivacyWorkerPipeline) (state : PipelineState)
    (event : DetectionEvent) : Prop where
  nodeId : event.nodeId = pipeline.nodeId
  frameSeq : event.frameSeq = state.nextFrameSeq
  freshEventId : event.eventId ∉ state.issuedEventIds
  freshNonce : event.nonce ∉ state.issuedNonces

theorem require_ok {condition : Prop} [Decidable condition] {message : String} {u : Unit}
    (h : require condition message = .ok u) : condition := by
  unfold require at h
  split_ifs at h with hc
  exact hc

theorem liftM_eq_ok {α : Type} {x : Except WorkerPipelineError α} {a : α} :
    (liftM x : Except WorkerFailure α) = .ok a ↔ x = .ok a := by
  cases x with
  | error e => exact ⟨nofun, nofun⟩
  | ok b => exact ⟨fun h => congrArg _ (Except.ok.inj h), fun h => congrArg _ (Except.ok.inj h)⟩

theorem assembleEvent_ok {event : DetectionEvent}
    (h : pipeline.assembleEvent state call = .ok event) : pipeline.Assembled state event := by
  unfold assembleEvent at h
  simp only [Python.bind_eq_ok, liftM_eq_ok] at h
  obtain ⟨_, -, _, -, _, -, _, -, _, -, _, -, _, -, _, -, _, -, _, -, eventId, -, nonce, -, _,
    hid, _, hnonce, _, -, _, -, _, -, result, -, h⟩ := h
  obtain rfl := Except.ok.inj h
  exact ⟨rfl, rfl, require_ok hid, require_ok hnonce⟩

/-- A call that raises changes nothing; one that returns uses up its number and identifiers. -/
theorem processFrame_cases (pipeline : PrivacyWorkerPipeline) (state : PipelineState)
    (call : FrameCall) :
    (∃ e, pipeline.processFrame state call = (state, .error e)) ∨
    ∃ event, pipeline.Assembled state event ∧ pipeline.processFrame state call =
      (⟨state.nextFrameSeq + 1, insert event.eventId state.issuedEventIds,
        insert event.nonce state.issuedNonces⟩, .ok event) := by
  unfold processFrame
  cases h : pipeline.assembleEvent state call with
  | error e => exact Or.inl ⟨e, rfl⟩
  | ok event => exact Or.inr ⟨event, assembleEvent_ok h, rfl⟩

/-- The events share neither identifier. -/
def Distinct (a b : DetectionEvent) : Prop := a.eventId ≠ b.eventId ∧ a.nonce ≠ b.nonce

instance : Std.Symm Distinct := ⟨fun _ _ h => ⟨h.1.symm, h.2.symm⟩⟩

/-- The events took the state to another one, each with the next number and its own fresh
identifiers. -/
def Issued (pipeline : PrivacyWorkerPipeline) (state : PipelineState) :
    List DetectionEvent → PipelineState → Prop
  | [], after => after = state
  | event :: events, after => pipeline.Assembled state event ∧
      Issued pipeline ⟨state.nextFrameSeq + 1, insert event.eventId state.issuedEventIds,
        insert event.nonce state.issuedNonces⟩ events after

section Issued
variable {after : PipelineState} {events : List DetectionEvent}

theorem Issued.append {middle : PipelineState} {later : List DetectionEvent}
    (h : pipeline.Issued state events middle) (h' : pipeline.Issued middle later after) :
    pipeline.Issued state (events ++ later) after := by
  induction events generalizing state with
  | nil =>
    obtain rfl : middle = state := h
    exact h'
  | cons event events ih => exact ⟨h.1, ih h.2⟩

/-- Issued events are of the pipeline's node, with identifiers that were not issued before. -/
theorem Issued.fresh (h : pipeline.Issued state events after) : ∀ event ∈ events,
    event.nodeId = pipeline.nodeId ∧ event.eventId ∉ state.issuedEventIds ∧
      event.nonce ∉ state.issuedNonces := by
  induction events generalizing state with
  | nil => simp
  | cons first events ih =>
    intro event hevent
    rcases List.mem_cons.mp hevent with rfl | hmem
    · exact ⟨h.1.nodeId, h.1.freshEventId, h.1.freshNonce⟩
    · obtain ⟨hnode, hid, hnonce⟩ := ih h.2 event hmem
      exact ⟨hnode, fun h => hid (Finset.mem_insert_of_mem h),
        fun h => hnonce (Finset.mem_insert_of_mem h)⟩

theorem Issued.distinct (h : pipeline.Issued state events after) : events.Pairwise Distinct := by
  induction events generalizing state with
  | nil => exact List.Pairwise.nil
  | cons first events ih =>
    refine List.pairwise_cons.mpr ⟨?_, ih h.2⟩
    intro event hevent
    obtain ⟨-, hid, hnonce⟩ := h.2.fresh event hevent
    exact ⟨fun h => hid (h ▸ Finset.mem_insert_self _ _),
      fun h => hnonce (h ▸ Finset.mem_insert_self _ _)⟩

/-- The numbers count on from the state's, without gap or repeat. -/
theorem Issued.frameSeq (h : pipeline.Issued state events after) :
    events.map DetectionEvent.frameSeq = List.range' state.nextFrameSeq events.length ∧
      after.nextFrameSeq = state.nextFrameSeq + events.length := by
  induction events generalizing state with
  | nil =>
    obtain rfl : after = state := h
    exact ⟨rfl, rfl⟩
  | cons first events ih =>
    obtain ⟨hseq, hnext⟩ := ih h.2
    dsimp only at hseq hnext
    rw [List.map_cons, hseq, List.length_cons, List.range'_succ, h.1.frameSeq, hnext]
    exact ⟨rfl, by omega⟩

theorem issued_processFrame (pipeline : PrivacyWorkerPipeline) (state : PipelineState)
    (call : FrameCall) : pipeline.Issued state (pipeline.processFrame state call).2.toOption.toList
      (pipeline.processFrame state call).1 := by
  rcases processFrame_cases pipeline state call with ⟨e, hs⟩ | ⟨event, hevent, hs⟩ <;> rw [hs]
  · exact rfl
  · exact ⟨hevent, rfl⟩

end Issued

theorem emitted_cons (pipeline : PrivacyWorkerPipeline) (state : PipelineState)
    (call : FrameCall) (calls : List FrameCall) :
    pipeline.emitted state (call :: calls) =
      (pipeline.processFrame state call).2.toOption.toList ++
        pipeline.emitted (pipeline.processFrame state call).1 calls := by
  unfold emitted
  rw [Runs.run_cons_outputs, List.filterMap_cons]
  cases (pipeline.processFrame state call).2 <;> rfl

/-- What a run of calls emits is issued. -/
theorem issued_emitted (pipeline : PrivacyWorkerPipeline) (state : PipelineState)
    (calls : List FrameCall) : pipeline.Issued state (pipeline.emitted state calls)
      (Runs.run pipeline.processFrame state calls).1 := by
  induction calls generalizing state with
  | nil => exact rfl
  | cons call calls ih =>
    rw [emitted_cons]
    exact (pipeline.issued_processFrame state call).append (ih _)

/-- Events of one run that share an identifier are the same event. -/
theorem emitted_eq {calls : List FrameCall} {a b : DetectionEvent}
    (ha : a ∈ pipeline.emitted state calls) (hb : b ∈ pipeline.emitted state calls)
    (h : a.eventId = b.eventId ∨ a.nonce = b.nonce) : a = b := by
  by_contra hne
  have hdistinct := (pipeline.issued_emitted state calls).distinct.forall ha hb hne
  rcases h with h | h
  · exact hdistinct.1 h
  · exact hdistinct.2 h

/-- A frame without detections, for concrete runs. -/
def sampleFrame (eventId nonce : SafeIdentifier) (instant : UtcDatetime) : FrameCall :=
  let event := DetectionEvent.sample eventId eventId nonce instant
  let zero : Called PyReal := .returned (.float .zero)
  ⟨some ⟨.float .zero, .float .zero⟩, zero, .returned (.result ⟨event.frame, event.model, []⟩),
    zero, zero, .returned (.utc event.timestampUtc), .returned (some eventId.text),
    .returned (some nonce.text), zero⟩

theorem emitted_sampleFrame (nodeId eventId nonce : SafeIdentifier) (instant : UtcDatetime) :
    (⟨nodeId, ⟨"camera-1", by decide⟩⟩ : PrivacyWorkerPipeline).emitted .initial
      [sampleFrame eventId nonce instant] = [.sample nodeId eventId nonce instant] := by
  have hle : Finite.zero ≤ Finite.zero := by decide
  have hzero : ∀ label, nonnegativeFinite (.float .zero) label = .ok ⟨.zero, hle⟩ := by
    intro label
    unfold nonnegativeFinite
    dsimp only
    exact dif_pos hle
  have hsub : (Finite.sub .zero .zero).bind (fun d => d.mul .thousand) = some .zero := by
    decide +kernel
  have hlt : ¬ Finite.zero < Finite.zero := by decide
  have helapsed : ∀ label, elapsedMs ⟨.zero, hle⟩ ⟨.zero, hle⟩ label = .ok ⟨.zero, hle⟩ := by
    intro label
    unfold elapsedMs
    rw [if_neg hlt, hsub]
    exact hzero label
  have hid : ∀ (id : SafeIdentifier) label,
      factoryIdentifier (.returned (some id.text)) label = .ok id :=
    fun id label => by simp [factoryIdentifier, id.valid]
  have hlift : ∀ {α : Type} (a : α),
      (liftM (.ok a : Except WorkerPipelineError α) : Except WorkerFailure α) = .ok a :=
    fun _ => rfl
  simp only [emitted, Runs.run, processFrame, assembleEvent, sampleFrame, capturedFrame,
    monotonicValue, hzero, infer, helapsed, hid, Option.elim_some, hlift, Python.ok_bind]
  rfl

end PrivacyWorkerPipeline

end SecureEdge
