import SecureEdgeVision.Aggregator.Noninterference

/-! The two halves of an ingest call. It is decided without writing to the tables, and settled
by what it then writes, which depends on no other row but for the number of its own. -/
namespace SecureEdge

/-- How a call is decided: refused, or accepted by the policy. -/
abbrev Resolution := Except IngestFailure EventSecurityDecision

/-- The columns of a row that its event gives. -/
def DetectionEventRecord.unnumbered (row : DetectionEventRecord) : DetectionEventRecord :=
  { row with recordId := none }

/-- What a decided call adds to the tables, and what it answers. -/
structure Effect where
  rows : List DetectionEventRecord
  alerts : List SecurityAlert
  response : Response

namespace DetectionEventIngestor
variable (ingestor : DetectionEventIngestor)

def resolve (state : IngestState) (call : IngestCall) : ReplayState × Resolution :=
  match ingestor.authenticate state.tables call.lookupRaises call.envelope with
  | .error failure => (state.policy, .error failure)
  | .ok () =>
    match acceptVerifiedEvent ingestor.settings state.policy call.reading call.envelope.body with
    | (policy, .error failure) => (policy, .error (policyFailure failure))
    | (policy, .ok d) => (policy, .ok d)

def settle (tables : Tables) (call : IngestCall) : Resolution → Tables × IngestOutcome
  | .error failure => refuse tables call failure
  | .ok d => ingestor.recordEvent tables call d

/-- What settling adds to tables that hold nodes only. -/
def effect (nodes : List NodeRecord) (call : IngestCall) (resolution : Resolution) : Effect :=
  let (tables, outcome) := ingestor.settle ⟨nodes, [], []⟩ call resolution
  ⟨tables.detectionEvents.map DetectionEventRecord.unnumbered, tables.securityAlerts,
    outcome.response⟩

variable {call : IngestCall}

theorem ingest_eq_settle (state : IngestState) (call : IngestCall) :
    ingestor.ingest state call =
      (⟨(ingestor.resolve state call).1,
        (ingestor.settle state.tables call (ingestor.resolve state call).2).1⟩,
        (ingestor.settle state.tables call (ingestor.resolve state call).2).2) := by
  unfold ingest resolve
  cases ingestor.authenticate state.tables call.lookupRaises call.envelope with
  | error failure => rfl
  | ok _ =>
    dsimp only
    cases acceptVerifiedEvent ingestor.settings state.policy call.reading call.envelope.body with
    | mk policy outcome => cases outcome <;> rfl

theorem resolve_nodes {state state' : IngestState} (hpolicy : state.policy = state'.policy)
    (hnodes : state.tables.nodes = state'.tables.nodes) (call : IngestCall) :
    ingestor.resolve state call = ingestor.resolve state' call := by
  unfold resolve
  rw [authenticate_registry (Tables.registry_congr hnodes), hpolicy]

/-- Up to its number, the row of an event depends on the nodes only. -/
theorem recordEvent_effect (nodes : List NodeRecord) (call : IngestCall)
    (d : EventSecurityDecision) : ∃ rows response, ∀ tables : Tables, tables.nodes = nodes →
      (ingestor.recordEvent tables call d).1.detectionEvents.map
          DetectionEventRecord.unnumbered =
        tables.detectionEvents.map DetectionEventRecord.unnumbered ++ rows ∧
      (ingestor.recordEvent tables call d).1.securityAlerts = tables.securityAlerts ∧
      (ingestor.recordEvent tables call d).2.response = response := by
  cases hrecord : DetectionEventRecord.fromEvent ingestor.reprFloat call.envelope.body
    d.acceptedAtUtc with
  | error e =>
    refine ⟨[], IngestOutcome.serviceError.response, fun tables _ => ?_⟩
    simp [recordEvent, hrecord]
  | ok record =>
    by_cases hstorable : (Tables.bindable record && Tables.checkConstraints record &&
        nodes.any fun node => node.nodeId = record.nodeId) = true
    · have hinsert : ∀ tables : Tables, tables.nodes = nodes → tables.insertEvent record =
          some (tables.addEvent { record with recordId := some tables.nextRecordId },
            { record with recordId := some tables.nextRecordId }) := by
        intro tables hnodes
        subst hnodes
        unfold Tables.insertEvent
        rw [if_pos hstorable]
        rfl
      cases hcommit : call.commit with
      | failed =>
        refine ⟨[], IngestOutcome.serviceError.response, fun tables hnodes => ?_⟩
        simp [recordEvent, hrecord, hinsert tables hnodes, hcommit, CommitOutcome.apply]
      | persisted =>
        refine ⟨[record.unnumbered], (IngestOutcome.accepted 0).response, fun tables hnodes => ?_⟩
        simp [recordEvent, hrecord, hinsert tables hnodes, hcommit, CommitOutcome.apply,
          DetectionEventRecord.unnumbered, IngestOutcome.response]
      | persistedRaised =>
        refine ⟨[record.unnumbered], IngestOutcome.serviceError.response, fun tables hnodes => ?_⟩
        simp [recordEvent, hrecord, hinsert tables hnodes, hcommit, CommitOutcome.apply,
          DetectionEventRecord.unnumbered]
    · refine ⟨[], IngestOutcome.serviceError.response, fun tables hnodes => ?_⟩
      have hinsert : tables.insertEvent record = none := by
        unfold Tables.insertEvent
        rw [hnodes, if_neg hstorable]
      simp [recordEvent, hrecord, hinsert]

/-- The alert of a call carries the ID that its factory gave. -/
theorem effect_alertId {ingestor : DetectionEventIngestor} {nodes : List NodeRecord}
    {resolution : Resolution} {alert : SecurityAlert}
    (h : alert ∈ (ingestor.effect nodes call resolution).alerts) :
    call.alertId = some alert.alertId.text := by
  cases resolution with
  | error failure =>
    obtain ⟨added, outcome, hids, hadds⟩ := refuse_extend call failure
    have hempty := hadds ⟨nodes, [], []⟩ (fun alert ha => by cases ha)
    simp only [effect, settle, hempty, Tables.extend, List.nil_append] at h
    exact hids alert h
  | ok d =>
    obtain ⟨rows, response, hadds⟩ := ingestor.recordEvent_effect nodes call d
    have hempty := (hadds ⟨nodes, [], []⟩ rfl).2.1
    simp [effect, settle, hempty] at h

/-- With a fresh alert ID, settling a call does to all tables the same. -/
theorem settle_effect {tables : Tables} (hfresh : tables.FreshFor call.alertId)
    (resolution : Resolution) :
    (ingestor.settle tables call resolution).1.nodes = tables.nodes ∧
      (ingestor.settle tables call resolution).1.detectionEvents.map
          DetectionEventRecord.unnumbered =
        tables.detectionEvents.map DetectionEventRecord.unnumbered ++
          (ingestor.effect tables.nodes call resolution).rows ∧
      (ingestor.settle tables call resolution).1.securityAlerts =
        tables.securityAlerts ++ (ingestor.effect tables.nodes call resolution).alerts ∧
      (ingestor.settle tables call resolution).2.response =
        (ingestor.effect tables.nodes call resolution).response := by
  cases resolution with
  | error failure =>
    obtain ⟨added, outcome, -, hadds⟩ := refuse_extend call failure
    have hempty := hadds ⟨tables.nodes, [], []⟩ (fun alert ha => by cases ha)
    simp [settle, effect, hadds tables hfresh, hempty, Tables.extend]
  | ok d =>
    obtain ⟨rows, response, hadds⟩ := ingestor.recordEvent_effect tables.nodes call d
    obtain ⟨hrows, halerts, hresponse⟩ := hadds tables rfl
    obtain ⟨hrows', halerts', hresponse'⟩ := hadds ⟨tables.nodes, [], []⟩ rfl
    refine ⟨recordEvent_nodes tables call d, ?_⟩
    simp [settle, effect, hrows, halerts, hresponse, hrows', halerts', hresponse']

end DetectionEventIngestor

end SecureEdge
