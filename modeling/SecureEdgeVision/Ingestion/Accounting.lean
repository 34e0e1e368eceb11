import SecureEdgeVision.Ingestion.Steps
import SecureEdgeVision.Security.Interleaving

/-! Exact accounting of serial ingestion: which rows each answer stands for, and what a
failed commit leaves behind. -/
namespace SecureEdge

/-- A state of a running process: its policy has come from the initial one by some schedule
of concurrent calls. The tables may be any. -/
def IngestState.Reachable (settings : SecuritySettings) (state : IngestState) : Prop :=
  ∃ actions, state.policy = ((PolicySystem.start .initial).run settings actions).policy

/-- What the log holds is kept in the table while it is protected. -/
theorem Logged.accept_seen {settings : SecuritySettings} {policy : ReplayState}
    {reading : ClockReading} {event : DetectionEvent} {d : EventSecurityDecision}
    (hd : (acceptVerifiedEvent settings policy reading event).2 = .ok d) {k : ReplayKey}
    (hk : k ∈ event.replayKeys) :
    (acceptVerifiedEvent settings policy reading event).1.seen.lookup k =
      some d.replayProtectedUntilUtc := by
  rcases acceptVerifiedEvent_cases settings policy reading event with
    ⟨e, -, hs⟩ | ⟨now, e, -, -, hs⟩ | ⟨now, r, -, hr, hs⟩
  · rw [hs] at hd
    cases hd
  · rw [hs] at hd
    cases hd
  · rw [hs] at hd ⊢
    obtain ⟨rfl, -, -, -, hstate⟩ := enterLock_ok hd
    rw [hstate]
    rw [← hr.event_eq] at hk
    dsimp only
    rw [Expiry.lookup_reserve, if_pos hk]
    rfl

namespace DetectionEventIngestor
variable (ingestor : DetectionEventIngestor)

/-- A serial run of calls. -/
def serve (state : IngestState) (calls : List IngestCall) : IngestState × List IngestOutcome :=
  Runs.run ingestor.ingest state calls

/-- The policy reserved the event, and the call then failed. -/
structure FailedAfterReservation (state : IngestState) (call : IngestCall) : Prop where
  authentic : ingestor.authenticate state.tables call.lookupRaises call.envelope = .ok ()
  reserved : ∃ d, (acceptVerifiedEvent ingestor.settings state.policy call.reading
    call.envelope.body).2 = .ok d
  failed : (ingestor.ingest state call).2 = .serviceError

variable {ingestor} {state : IngestState} {call : IngestCall}

theorem Stores.recordId {tables : Tables} {event : DetectionEvent} {acceptedAt : UtcDatetime}
    {stored : DetectionEventRecord} (h : ingestor.Stores tables event acceptedAt stored) :
    stored.recordId = some tables.nextRecordId := by
  obtain ⟨record, -, rfl⟩ := h
  rfl

/-- A call keeps what the log holds. -/
theorem Logged.ingest {log : List Reservation}
    (h : Logged ingestor.settings state.policy log) (call : IngestCall) :
    ∃ log', Logged ingestor.settings (ingestor.ingest state call).1.policy log' ∧ log <+: log' := by
  rcases ingest_cases ingestor state call with ⟨failure, hs, -⟩ | ⟨d, -, hd, hs⟩
  · rw [hs]
    exact ⟨log, h, List.prefix_rfl⟩
  · rw [hs]
    obtain ⟨r, -, -, -, hlogged⟩ := h.accept hd
    exact ⟨log ++ [r], hlogged, List.prefix_append _ _⟩

/-- An authenticated call that the policy accepts leaves the policy's new state. -/
theorem ingest_policy_accepted (hauth : ingestor.authenticate state.tables call.lookupRaises
      call.envelope = .ok ()) {d : EventSecurityDecision}
    (hd : (acceptVerifiedEvent ingestor.settings state.policy call.reading
      call.envelope.body).2 = .ok d) :
    (ingestor.ingest state call).1.policy =
      (acceptVerifiedEvent ingestor.settings state.policy call.reading call.envelope.body).1 := by
  rcases ingest_cases ingestor state call with
    ⟨failure, -, hfailure | ⟨-, e, he, -⟩⟩ | ⟨_, -, -, hs⟩
  · rw [hauth] at hfailure
    cases hfailure
  · rw [hd] at he
    cases he
  · rw [hs]

/-- A reservation outlives the failure of its call. -/
theorem FailedAfterReservation.seen (h : ingestor.FailedAfterReservation state call) :
    ∀ k ∈ call.envelope.body.replayKeys, k ∈ (ingestor.ingest state call).1.policy.seen := by
  obtain ⟨d, hd⟩ := h.reserved
  intro k hk
  rw [ingest_policy_accepted h.authentic hd, Expiry.mem_iff_lookup]
  exact ⟨_, Logged.accept_seen hd hk⟩

theorem serve_append (state : IngestState) (before after : List IngestCall) :
    (ingestor.serve state (before ++ after)).1 =
      (ingestor.serve (ingestor.serve state before).1 after).1 :=
  Runs.run_append_state ingestor.ingest state before after

end DetectionEventIngestor

end SecureEdge
