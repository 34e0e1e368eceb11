import SecureEdgeVision.Persistence.Records
import SecureEdgeVision.Security.Steps

/-! One call of the ingestor: authenticate, reserve, store, with every failure it can meet
on the way. What the call reads from its surroundings is part of its input. -/
namespace SecureEdge

open Binary64 (Finite)

inductive IngestionReason where
  | unknownNode | invalidSignature | staleTimestamp | futureTimestamp | replayedEventId
  | replayedNonce | serviceUnavailable
deriving DecidableEq

def IngestionReason.value : IngestionReason → String
  | .unknownNode => "unknown_node"
  | .invalidSignature => "invalid_signature"
  | .staleTimestamp => "stale_timestamp"
  | .futureTimestamp => "future_timestamp"
  | .replayedEventId => "replayed_event_id"
  | .replayedNonce => "replayed_nonce"
  | .serviceUnavailable => "service_unavailable"

/-- `_SECURITY_REASON_MAP.get` -/
def securityReasonMap : EventSecurityReason → Option IngestionReason
  | .staleTimestamp => some .staleTimestamp
  | .futureTimestamp => some .futureTimestamp
  | .replayedEventId => some .replayedEventId
  | .replayedNonce => some .replayedNonce

/-- `_ALERT_CATEGORY_BY_REASON.get` -/
def alertCategoryByReason : IngestionReason → Option String
  | .unknownNode => some "identity"
  | .invalidSignature => some "integrity"
  | .staleTimestamp => some "freshness"
  | .futureTimestamp => some "freshness"
  | .replayedEventId => some "replay"
  | .replayedNonce => some "replay"
  | .serviceUnavailable => none

/-- Why a call stops: a reason that is recorded, or a service error. -/
inductive IngestFailure where
  | rejection (reason : IngestionReason)
  | service
deriving DecidableEq

/-- An `IngestionAcceptance`, an `IngestionRejection` or an `IngestionServiceError`. -/
inductive IngestOutcome where
  | accepted (recordId : ℕ)
  | rejected (reason : IngestionReason)
  | serviceError
deriving DecidableEq

/-- A call with what it will meet: whether the lookup raises, the clock of the policy, the
ID factory and the clock of the alerts, and the end of its one commit. -/
structure IngestCall where
  envelope : SignedDetectionEnvelope
  lookupRaises : Bool
  reading : ClockReading
  alertId : Option String
  alertReading : ClockReading
  commit : CommitOutcome
deriving DecidableEq

structure IngestState where
  policy : ReplayState
  tables : Tables

/-- What an ingestor is built from. -/
structure DetectionEventIngestor where
  ed : Ed25519
  reprFloat : Finite → String
  settings : SecuritySettings

/-- The sanitized alert of a rejected body; `none` is a validation error. -/
def SecurityAlert.build (alertId : String) (occurredAt : ClockReading) (category reason : String)
    (body : DetectionEvent) : Option SecurityAlert :=
  match occurredAt with
  | .utc occurredAtUtc =>
    if h : isSafeIdentifier alertId = true ∧ isMachineCode category = true ∧
        isMachineCode reason = true then
      some ⟨⟨alertId, h.1⟩, occurredAtUtc, ⟨category, h.2.1⟩, ⟨reason, h.2.2⟩, some body.nodeId,
        some body.eventId, some body.nonce⟩
    else none
  | _ => none

/-- Commit one alert before the rejection is exposed. -/
def recordRejection (tables : Tables) (call : IngestCall) (reason : IngestionReason) :
    Tables × IngestOutcome :=
  match alertCategoryByReason reason, call.alertId with
  | some category, some alertId =>
    match SecurityAlert.build alertId call.alertReading category reason.value
      call.envelope.body with
    | none => (tables, .serviceError)
    | some alert =>
      match tables.insertAlert alert with
      | none => (tables, .serviceError)
      | some after =>
        match call.commit.apply tables after with
        | (tables, true) => (tables, .rejected reason)
        | (tables, false) => (tables, .serviceError)
  | _, _ => (tables, .serviceError)

/-- The end of a call that does not accept. -/
def refuse (tables : Tables) (call : IngestCall) : IngestFailure → Tables × IngestOutcome
  | .rejection reason => recordRejection tables call reason
  | .service => (tables, .serviceError)

/-- How a call answers the policy's exceptions. -/
def policyFailure : PolicyFailure → IngestFailure
  | .rejection reason =>
    match securityReasonMap reason with
    | none => .service
    | some reason => .rejection reason
  | .configuration _ => .service

namespace DetectionEventIngestor
variable (ingestor : DetectionEventIngestor)

/-- The key registered for a node, read back from its record; `none` is an exception. -/
def registeredKey (node : NodeRecord) : Option ingestor.ed.PublicKey :=
  match node.toRegistration with
  | .error _ => none
  | .ok registration => (loadPublicKey ingestor.ed registration.publicKeyB64.text).toOption

/-- The signature check of a call; `none` is an exception. -/
def verifyNode (node : NodeRecord) (envelope : SignedDetectionEnvelope) : Option Bool := do
  let publicKey ← ingestor.registeredKey node
  (verifyDetectionEnvelope ingestor.ed ingestor.reprFloat envelope publicKey).toOption

/-- Lookup and signature check, before anything is reserved. -/
def authenticate (tables : Tables) (lookupRaises : Bool) (envelope : SignedDetectionEnvelope) :
    Except IngestFailure Unit :=
  if lookupRaises then .error .service
  else
    match tables.getNode envelope.body.nodeId with
    | none => .error (.rejection .unknownNode)
    | some node =>
      match ingestor.verifyNode node envelope with
      | none => .error .service
      | some false => .error (.rejection .invalidSignature)
      | some true => .ok ()

/-- Store the event of an accepted call. -/
def recordEvent (tables : Tables) (call : IngestCall) (decision : EventSecurityDecision) :
    Tables × IngestOutcome :=
  match DetectionEventRecord.fromEvent ingestor.reprFloat call.envelope.body
    decision.acceptedAtUtc with
  | .error _ => (tables, .serviceError)
  | .ok record =>
    match tables.insertEvent record with
    | none => (tables, .serviceError)
    | some (after, stored) =>
      match call.commit.apply tables after, stored.recordId with
      | (tables, true), some recordId => (tables, .accepted recordId)
      | (tables, _), _ => (tables, .serviceError)

/-- `DetectionEventIngestor.ingest` -/
def ingest (state : IngestState) (call : IngestCall) : IngestState × IngestOutcome :=
  match ingestor.authenticate state.tables call.lookupRaises call.envelope with
  | .error failure =>
    let (tables, outcome) := refuse state.tables call failure
    (⟨state.policy, tables⟩, outcome)
  | .ok () =>
    match acceptVerifiedEvent ingestor.settings state.policy call.reading call.envelope.body with
    | (policy, .error failure) =>
      let (tables, outcome) := refuse state.tables call (policyFailure failure)
      (⟨policy, tables⟩, outcome)
    | (policy, .ok decision) =>
      let (tables, outcome) := ingestor.recordEvent state.tables call decision
      (⟨policy, tables⟩, outcome)

end DetectionEventIngestor

end SecureEdge
