import SecureEdgeVision.Contracts.Wire
import SecureEdgeVision.Expiry.Table

/-! The process-local replay and timestamp policy. A call reads the clock and checks the
freshness window on its own; only the last part runs under the policy's lock. -/
namespace SecureEdge

structure SecuritySettings where
  maxClockSkewSeconds : ℕ
  nonceTtlSeconds : ℕ
  maxRequestBytes : ℕ
  skew_bounds : 1 ≤ maxClockSkewSeconds ∧ maxClockSkewSeconds ≤ 3600
  ttl_bounds : 1 ≤ nonceTtlSeconds ∧ nonceTtlSeconds ≤ 86400
  size_bounds : 1024 ≤ maxRequestBytes ∧ maxRequestBytes ≤ 16777216
deriving DecidableEq

/-- Settings for concrete runs. -/
def SecuritySettings.sample : SecuritySettings :=
  ⟨30, 300, 262144, by decide, by decide, by decide⟩

inductive EventSecurityReason where
  | staleTimestamp | futureTimestamp | replayedEventId | replayedNonce
deriving DecidableEq

/-- The causes of an `EventSecurityConfigurationError` during a call. -/
inductive ConfigurationError where
  | clockFailed | clockNotUtc | outsideSupportedRange | clockMovedBackwards
deriving DecidableEq

inductive PolicyFailure where
  | rejection (reason : EventSecurityReason)
  | configuration (error : ConfigurationError)
deriving DecidableEq

structure EventSecurityDecision where
  acceptedAtUtc : UtcDatetime
  replayProtectedUntilUtc : UtcDatetime
deriving DecidableEq

abbrev PolicyOutcome := Except PolicyFailure EventSecurityDecision

/-- What the injected clock did: raised, gave something else than a UTC datetime, or
gave an instant. -/
inductive ClockReading where
  | failed
  | notUtc
  | utc (now : UtcDatetime)
deriving DecidableEq

/-- The first component of a replay key. -/
inductive ReplayKeyKind where
  | eventId | nonce
deriving DecidableEq

structure ReplayKey where
  kind : ReplayKeyKind
  nodeId : SafeIdentifier
  value : SafeIdentifier
deriving DecidableEq

def DetectionEvent.eventKey (e : DetectionEvent) : ReplayKey := ⟨.eventId, e.nodeId, e.eventId⟩
def DetectionEvent.nonceKey (e : DetectionEvent) : ReplayKey := ⟨.nonce, e.nodeId, e.nonce⟩

def DetectionEvent.replayKeys (e : DetectionEvent) : List ReplayKey := [e.eventKey, e.nonceKey]

theorem DetectionEvent.eventKey_ne_nonceKey (a b : DetectionEvent) : a.eventKey ≠ b.nonceKey := by
  simp [eventKey, nonceKey]

theorem DetectionEvent.eventKey_mem {a b : DetectionEvent} :
    a.eventKey ∈ b.replayKeys ↔ b.nodeId = a.nodeId ∧ b.eventId = a.eventId := by
  simp [replayKeys, eventKey, nonceKey, eq_comm]

theorem DetectionEvent.nonceKey_mem {a b : DetectionEvent} :
    a.nonceKey ∈ b.replayKeys ↔ b.nodeId = a.nodeId ∧ b.nonce = a.nonce := by
  simp [replayKeys, eventKey, nonceKey, eq_comm]

/-- What a call carries into the locked section. -/
structure Reservation where
  event : DetectionEvent
  decision : EventSecurityDecision
deriving DecidableEq

namespace Reservation

def acceptedAt (r : Reservation) : UtcDatetime := r.decision.acceptedAtUtc
def horizon (r : Reservation) : UtcDatetime := r.decision.replayProtectedUntilUtc

/-- The reservation as a grant of the general expiry ledger. -/
def grant (r : Reservation) : Expiry.Grant ReplayKey UtcDatetime :=
  ⟨r.event.replayKeys, r.acceptedAt, r.horizon⟩

end Reservation

/-- `_require_utc_datetime` applied to the reading of the clock. -/
def requireClock : ClockReading → Except PolicyFailure UtcDatetime
  | .failed => .error (.configuration .clockFailed)
  | .notUtc => .error (.configuration .clockNotUtc)
  | .utc now => .ok now

/-- The checks between the clock reading and the lock. -/
def prepare (settings : SecuritySettings) (now : UtcDatetime) (event : DetectionEvent) :
    Except PolicyFailure Reservation :=
  match now.subSeconds settings.maxClockSkewSeconds,
    now.addSeconds settings.maxClockSkewSeconds with
  | some earliest, some latest =>
    if event.instant < earliest then .error (.rejection .staleTimestamp)
    else if latest < event.instant then .error (.rejection .futureTimestamp)
    else
      match now.addSeconds settings.nonceTtlSeconds,
        event.instant.addSeconds settings.maxClockSkewSeconds with
      | some ttlExpiry, some freshnessExpiry =>
        .ok ⟨event, now, max ttlExpiry freshnessExpiry⟩
      | _, _ => .error (.configuration .outsideSupportedRange)
  | _, _ => .error (.configuration .outsideSupportedRange)

/-- `_seen` and `_latest_accepted_at_utc`. -/
structure ReplayState where
  seen : Expiry.Table ReplayKey UtcDatetime
  latestAcceptedAtUtc : Option UtcDatetime

def ReplayState.initial : ReplayState := ⟨∅, none⟩

/-- The clock reading lies before the latest accepted instant. -/
def clockBehind (latest : Option UtcDatetime) (now : UtcDatetime) : Bool :=
  latest.any fun m => decide (now < m)

/-- The section under the lock. -/
def enterLock (state : ReplayState) (r : Reservation) : ReplayState × PolicyOutcome :=
  if clockBehind state.latestAcceptedAtUtc r.acceptedAt then
    (state, .error (.configuration .clockMovedBackwards))
  else
    let retained := Expiry.prune r.acceptedAt state.seen
    if r.event.eventKey ∈ retained then (state, .error (.rejection .replayedEventId))
    else if r.event.nonceKey ∈ retained then (state, .error (.rejection .replayedNonce))
    else
      (⟨Expiry.reserve r.event.replayKeys r.horizon retained, some r.acceptedAt⟩, .ok r.decision)

/-- One whole call, from the clock reading on. -/
def acceptVerifiedEvent (settings : SecuritySettings) (state : ReplayState)
    (reading : ClockReading) (event : DetectionEvent) : ReplayState × PolicyOutcome :=
  match requireClock reading with
  | .error e => (state, .error e)
  | .ok now =>
    match prepare settings now event with
    | .error e => (state, .error e)
    | .ok r => enterLock state r

theorem clockBehind_eq_false {latest : Option UtcDatetime} {now : UtcDatetime} :
    clockBehind latest now = false ↔ ∀ m ∈ latest, m ≤ now := by
  cases latest <;> simp [clockBehind]

/-- The timestamp lies in the inclusive skew window around the instant. -/
def WithinSkew (settings : SecuritySettings) (now timestamp : UtcDatetime) : Prop :=
  timestamp.micros ≤ now.micros + microsPerSecond * settings.maxClockSkewSeconds ∧
    now.micros ≤ timestamp.micros + microsPerSecond * settings.maxClockSkewSeconds

instance (settings : SecuritySettings) (now timestamp : UtcDatetime) :
    Decidable (WithinSkew settings now timestamp) := by unfold WithinSkew; infer_instance

/-- The sums and the difference `accept_verified_event` forms are datetimes. -/
structure SupportedRange (settings : SecuritySettings) (now timestamp : UtcDatetime) : Prop where
  earliest : microsPerSecond * settings.maxClockSkewSeconds ≤ now.micros
  latest : now.micros + microsPerSecond * settings.maxClockSkewSeconds ≤ maxMicros
  ttl : now.micros + microsPerSecond * settings.nonceTtlSeconds ≤ maxMicros
  freshness : timestamp.micros + microsPerSecond * settings.maxClockSkewSeconds ≤ maxMicros

/-- Everything a successful preparation says. -/
structure Prepared (settings : SecuritySettings) (now : UtcDatetime) (event : DetectionEvent)
    (r : Reservation) : Prop where
  event_eq : r.event = event
  acceptedAt_eq : r.acceptedAt = now
  fresh : WithinSkew settings now event.instant
  supported : SupportedRange settings now event.instant
  horizon_eq : r.horizon.micros =
    max (now.micros + microsPerSecond * settings.nonceTtlSeconds)
      (event.instant.micros + microsPerSecond * settings.maxClockSkewSeconds)

end SecureEdge
