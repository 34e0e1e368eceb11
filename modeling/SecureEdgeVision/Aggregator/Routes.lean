import SecureEdgeVision.Aggregator.Request
import SecureEdgeVision.Ingestion.Steps
import SecureEdgeVision.Monitoring.Heartbeat

/-! The two posts of the aggregator, and what a process answers to a sequence of them. -/
namespace SecureEdge

/-- An aggregator process: its ingestor, whose settings the heartbeat service shares, and the
nesting that the interpreter's stack has left when a body is decoded. -/
structure AggregatorApp where
  ingestor : DetectionEventIngestor
  depth : ℕ

/-- What an ingest call meets on its way, apart from the envelope. -/
structure IngestSurroundings where
  lookupRaises : Bool
  reading : ClockReading
  alertId : Option String
  alertReading : ClockReading
  commit : CommitOutcome
deriving DecidableEq

def IngestSurroundings.call (s : IngestSurroundings) (envelope : SignedDetectionEnvelope) :
    IngestCall :=
  ⟨envelope, s.lookupRaises, s.reading, s.alertId, s.alertReading, s.commit⟩

/-- What a heartbeat call meets on its way, apart from the heartbeat. -/
structure HeartbeatSurroundings where
  lookupRaises : Bool
  reading : ClockReading
  updateRaises : Bool
  commit : CommitOutcome
deriving DecidableEq

def HeartbeatSurroundings.call (s : HeartbeatSurroundings) (heartbeat : NodeHeartbeat) :
    HeartbeatCall :=
  ⟨heartbeat, s.lookupRaises, s.reading, s.updateRaises, s.commit⟩

inductive AggregatorRequest where
  | detection (request : HttpRequest) (surroundings : IngestSurroundings)
  | heartbeat (request : HttpRequest) (surroundings : HeartbeatSurroundings)

/-- An empty response with status 202, or `_json_error`. -/
inductive Response where
  | accepted
  | jsonError (failure : RequestFailure)
deriving DecidableEq

def Response.status : Response → ℕ
  | .accepted => 202
  | .jsonError failure => failure.statusCode

/-- The response to an exception of decoding; a recursion error is caught as any other. -/
def WireError.response : WireError → Response
  | .failure cause => .jsonError cause
  | .recursion => .jsonError ⟨503, IngestionReason.serviceUnavailable.value⟩

def IngestOutcome.response : IngestOutcome → Response
  | .accepted _ => .accepted
  | .rejected reason =>
    let status := if reason = .unknownNode ∨ reason = .invalidSignature then 401 else 409
    .jsonError ⟨status, reason.value⟩
  | .serviceError => .jsonError ⟨503, IngestionReason.serviceUnavailable.value⟩

def heartbeatResponse : Except HeartbeatFailure Unit → Response
  | .ok () => .accepted
  | .error (.rejection reason) =>
    let status := if reason = .unknownNode then 401 else 409
    .jsonError ⟨status, reason.value⟩
  | .error .service => .jsonError ⟨503, HeartbeatReason.serviceUnavailable.value⟩

namespace AggregatorApp
variable (app : AggregatorApp)

def maxRequestBytes : ℕ := app.ingestor.settings.maxRequestBytes

/-- The detection post up to the decoded envelope. -/
def readDetection (request : HttpRequest) : Except WireError SignedDetectionEnvelope := do
  (requireJson request).mapError .failure
  let payload ← (readBoundedBody request app.maxRequestBytes).mapError .failure
  parseDetectionEnvelope app.depth payload

/-- The heartbeat post up to the decoded heartbeat. -/
def readHeartbeat (request : HttpRequest) : Except WireError NodeHeartbeat := do
  (requireNoQuery request).mapError .failure
  (requireJson request).mapError .failure
  let payload ← (readBoundedBody request app.maxRequestBytes).mapError .failure
  parseNodeHeartbeat app.depth payload

theorem readDetection_single {payload : ByteArray} (hsize : payload.size ≤ app.maxRequestBytes)
    (query : List (String × String)) :
    app.readDetection ⟨some "application/json", none, query, [payload], false⟩ =
      parseDetectionEnvelope app.depth payload := by
  unfold readDetection
  rw [requireJson_json rfl, readBoundedBody_single hsize]
  rfl

theorem readDetection_missing {request : HttpRequest} (h : request.contentType = none) :
    app.readDetection request = .error (.failure .invalidRequest) := by
  unfold readDetection
  rw [requireJson_missing h]
  rfl

/-- `ingest_detection` -/
def ingestDetection (state : IngestState) (request : HttpRequest)
    (surroundings : IngestSurroundings) : IngestState × Response :=
  match app.readDetection request with
  | .error e => (state, e.response)
  | .ok envelope =>
    let (state, outcome) := app.ingestor.ingest state (surroundings.call envelope)
    (state, outcome.response)

/-- `record_heartbeat` -/
def recordHeartbeat (state : IngestState) (request : HttpRequest)
    (surroundings : HeartbeatSurroundings) : IngestState × Response :=
  match app.readHeartbeat request with
  | .error e => (state, e.response)
  | .ok heartbeat =>
    let (tables, outcome) := HeartbeatService.record app.ingestor.settings state.tables
      (surroundings.call heartbeat)
    (⟨state.policy, tables⟩, heartbeatResponse outcome)

def answer (state : IngestState) : AggregatorRequest → IngestState × Response
  | .detection request surroundings => app.ingestDetection state request surroundings
  | .heartbeat request surroundings => app.recordHeartbeat state request surroundings

/-- A process that answers one request after the other. -/
def serve (state : IngestState) (requests : List AggregatorRequest) :
    IngestState × List Response :=
  Runs.run app.answer state requests

end AggregatorApp

end SecureEdge
