import SecureEdgeVision.Persistence.Records

/-! Unsigned advisory heartbeats: one conditional update of the liveness columns of a known
node. -/
namespace SecureEdge

inductive HeartbeatReason where
  | unknownNode | staleTimestamp | futureTimestamp | outOfOrderHeartbeat | serviceUnavailable
deriving DecidableEq

def HeartbeatReason.value : HeartbeatReason → String
  | .unknownNode => "unknown_node"
  | .staleTimestamp => "stale_timestamp"
  | .futureTimestamp => "future_timestamp"
  | .outOfOrderHeartbeat => "out_of_order_heartbeat"
  | .serviceUnavailable => "service_unavailable"

/-- A `HeartbeatRejection` or a `MonitoringServiceError`. -/
inductive HeartbeatFailure where
  | rejection (reason : HeartbeatReason)
  | service
deriving DecidableEq

/-- A call with what it will meet: whether the lookup raises, the clock, whether the update raises,
and the commit. -/
structure HeartbeatCall where
  heartbeat : NodeHeartbeat
  lookupRaises : Bool
  reading : ClockReading
  updateRaises : Bool
  commit : CommitOutcome
deriving DecidableEq

/-- The skew window around the reading of the service's clock. -/
def checkHeartbeatWindow (settings : SecuritySettings) (reading : ClockReading)
    (timestamp : UtcDatetime) : Except HeartbeatFailure Unit :=
  match reading with
  | .utc now =>
    match now.subSeconds settings.maxClockSkewSeconds,
      now.addSeconds settings.maxClockSkewSeconds with
    | some earliest, some latest =>
      if timestamp < earliest then .error (.rejection .staleTimestamp)
      else if latest < timestamp then .error (.rejection .futureTimestamp)
      else .ok ()
    | _, _ => .error .service
  | _ => .error .service

/-- The `where` of the update. -/
def NodeRecord.advancedBy (record : NodeRecord) (heartbeat : NodeHeartbeat) : Bool :=
  record.nodeId = heartbeat.nodeId.text &&
    record.lastSeenAtUtc.all fun lastSeen => lastSeen < heartbeat.timestampUtc.instant

/-- The columns the update writes. -/
def NodeRecord.withHeartbeat (record : NodeRecord) (heartbeat : NodeHeartbeat) : NodeRecord :=
  { record with
    lastSeenAtUtc := some heartbeat.timestampUtc.instant
    healthStatus := some heartbeat.status }

/-- The conditional update, with its row count. -/
def Tables.updateNodes (tables : Tables) (heartbeat : NodeHeartbeat) : Tables × ℕ :=
  ({ tables with
      nodes := tables.nodes.map fun record =>
        if record.advancedBy heartbeat then record.withHeartbeat heartbeat else record },
    tables.nodes.countP fun record => record.advancedBy heartbeat)

/-- `HeartbeatService.record` -/
def HeartbeatService.record (settings : SecuritySettings) (tables : Tables)
    (call : HeartbeatCall) : Tables × Except HeartbeatFailure Unit :=
  if call.lookupRaises then (tables, .error .service)
  else
    match tables.getNode call.heartbeat.nodeId with
    | none => (tables, .error (.rejection .unknownNode))
    | some _ =>
      match checkHeartbeatWindow settings call.reading call.heartbeat.timestampUtc.instant with
      | .error failure => (tables, .error failure)
      | .ok () =>
        if call.updateRaises then (tables, .error .service)
        else
          let (after, rowcount) := tables.updateNodes call.heartbeat
          if rowcount ≠ 1 then (tables, .error (.rejection .outOfOrderHeartbeat))
          else
            match call.commit.apply tables after with
            | (tables, true) => (tables, .ok ())
            | (tables, false) => (tables, .error .service)

variable {settings : SecuritySettings}

/-- A heartbeat updates one row, or the call raises; then the update stands only if the commit
raised after it persisted. -/
theorem HeartbeatService.record_cases (settings : SecuritySettings) (tables : Tables)
    (call : HeartbeatCall) :
    (∃ failure, record settings tables call = (tables, .error failure)) ∨
    call.lookupRaises = false ∧
      checkHeartbeatWindow settings call.reading call.heartbeat.timestampUtc.instant = .ok () ∧
      (tables.updateNodes call.heartbeat).2 = 1 ∧
      (call.commit = .persisted ∧
        record settings tables call = ((tables.updateNodes call.heartbeat).1, .ok ()) ∨
      call.commit = .persistedRaised ∧
        record settings tables call =
          ((tables.updateNodes call.heartbeat).1, .error .service)) := by
  unfold record
  by_cases hlookup : call.lookupRaises = true
  · rw [if_pos hlookup]
    exact Or.inl ⟨_, rfl⟩
  rw [if_neg hlookup]
  cases tables.getNode call.heartbeat.nodeId with
  | none => exact Or.inl ⟨_, rfl⟩
  | some node =>
    cases hwindow : checkHeartbeatWindow settings call.reading
      call.heartbeat.timestampUtc.instant with
    | error failure => exact Or.inl ⟨failure, rfl⟩
    | ok u =>
      dsimp only
      split_ifs with hupdate hrows
      · exact Or.inl ⟨_, rfl⟩
      · exact Or.inl ⟨_, rfl⟩
      · rw [not_not] at hrows
        cases hcommit : call.commit with
        | failed => exact Or.inl ⟨_, rfl⟩
        | persisted =>
          exact Or.inr ⟨by simpa using hlookup, rfl, hrows, Or.inl ⟨rfl, rfl⟩⟩
        | persistedRaised =>
          exact Or.inr ⟨by simpa using hlookup, rfl, hrows, Or.inr ⟨rfl, rfl⟩⟩

theorem Tables.updateNodes_registry (tables : Tables) (heartbeat : NodeHeartbeat) :
    (tables.updateNodes heartbeat).1.registry = tables.registry := by
  unfold registry updateNodes
  rw [List.map_map]
  apply List.map_congr_left
  intro record _
  by_cases h : record.advancedBy heartbeat = true
  · simp [h, NodeRecord.withHeartbeat, NodeRecord.identity]
  · simp [h]

/-- A heartbeat leaves the identities, the events and the alerts as they are. -/
theorem HeartbeatService.record_frame (settings : SecuritySettings) (tables : Tables)
    (call : HeartbeatCall) :
    (record settings tables call).1.registry = tables.registry ∧
      (record settings tables call).1.detectionEvents = tables.detectionEvents ∧
      (record settings tables call).1.securityAlerts = tables.securityAlerts := by
  rcases record_cases settings tables call with
    ⟨failure, h⟩ | ⟨-, -, -, ⟨-, h⟩ | ⟨-, h⟩⟩ <;> rw [h]
  · exact ⟨rfl, rfl, rfl⟩
  · exact ⟨tables.updateNodes_registry _, rfl, rfl⟩
  · exact ⟨tables.updateNodes_registry _, rfl, rfl⟩

end SecureEdge
