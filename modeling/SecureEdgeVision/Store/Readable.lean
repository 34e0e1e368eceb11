import SecureEdgeVision.Monitoring.Queries
import SecureEdgeVision.Store.Operations

/-! Everything that the operations write is readable, whatever went wrong in between. -/
namespace SecureEdge

open Json (FloatRepr)

section Nodes
variable {tables : Tables} {record : NodeRecord}

/-- The identity of a node is valid, and its liveness columns are both set or both null. -/
structure NodeRecord.Readable (record : NodeRecord) : Prop where
  registration : ∃ registration, record.toRegistration = .ok registration
  liveness : record.lastSeenAtUtc = none ↔ record.healthStatus = none

theorem NodeRecord.Readable.toHeartbeat (h : record.Readable) :
    ∃ heartbeat, record.toHeartbeat = .ok heartbeat := by
  obtain ⟨registration, hregistration⟩ := h.registration
  have hid : isSafeIdentifier record.nodeId = true := by
    by_contra hid
    unfold toRegistration at hregistration
    rw [dif_neg hid] at hregistration
    cases hregistration
  have hliveness := h.liveness
  unfold NodeRecord.toHeartbeat
  cases hseen : record.lastSeenAtUtc with
  | none =>
    rw [hliveness.mp hseen]
    exact ⟨none, rfl⟩
  | some lastSeen =>
    cases hstatus : record.healthStatus with
    | none =>
      rw [hliveness.mpr hstatus] at hseen
      cases hseen
    | some status =>
      unfold SafeIdentifier.ofText?
      rw [dif_pos hid]
      exact ⟨_, rfl⟩

theorem NodeRecord.Readable.health (h : record.Readable) :
    ∃ health, record.health = .ok health := by
  obtain ⟨registration, hregistration⟩ := h.registration
  obtain ⟨heartbeat, hheartbeat⟩ := h.toHeartbeat
  unfold NodeRecord.health
  rw [hregistration, hheartbeat]
  exact ⟨_, rfl⟩

theorem NodeRecord.readable_fromRegistration (registration : NodeRegistration)
    (timestamp : UtcDatetime) : (fromRegistration registration timestamp).Readable :=
  ⟨⟨registration, toRegistration_of_text rfl rfl⟩, fun _ => rfl, fun _ => rfl⟩

theorem NodeRecord.Readable.withHeartbeat (h : record.Readable) (heartbeat : NodeHeartbeat) :
    (record.withHeartbeat heartbeat).Readable := by
  obtain ⟨registration, hregistration⟩ := h.registration
  have hsame : (record.withHeartbeat heartbeat).toRegistration = record.toRegistration :=
    toRegistration_congr rfl
  exact ⟨⟨registration, hsame.trans hregistration⟩, ⟨nofun, nofun⟩⟩

/-- Every call keeps the nodes readable. -/
theorem store_nodes_readable (ingestor : DetectionEventIngestor)
    (h : ∀ record ∈ tables.nodes, record.Readable) (call : StoreCall) :
    ∀ record ∈ (ingestor.store tables call).1.nodes, record.Readable := by
  cases call with
  | seed call =>
    show ∀ record ∈ (seedNodeRegistry tables call).1.nodes, _
    have hadded : ∀ {timestamp added}, Adds tables call.registrations timestamp added →
        ∀ record ∈ (tables.addNodes added).nodes, record.Readable := by
      intro timestamp added hadds record hmem
      rcases List.mem_append.mp hmem with hmem | hmem
      · exact h record hmem
      · obtain ⟨registration, -, -, rfl⟩ := (hadds.mem record).mp hmem
        exact NodeRecord.readable_fromRegistration registration timestamp
    rcases seedNodeRegistry_cases tables call with
      ⟨failure, hs⟩ | ⟨timestamp, added, -, hadds, hs | ⟨-, failure, hs⟩⟩ <;> rw [hs]
    · exact h
    · exact hadded hadds
    · exact hadded hadds
  | ingest policy call =>
    rw [(DetectionEventIngestor.store_writes ingestor tables (.ingest policy call)).1]
    exact h
  | record call =>
    show ∀ record ∈ (HeartbeatService.record ingestor.settings tables call).1.nodes, _
    rcases DetectionEventIngestor.record_tables ingestor.settings tables call with
      hs | ⟨above, row, below, hsplit, -, hs⟩ <;> rw [hs]
    · exact h
    · rw [hsplit] at h
      intro record hmem
      rcases List.mem_append.mp hmem with hmem | hmem
      · exact h record (List.mem_append_left _ hmem)
      · rcases List.mem_cons.mp hmem with rfl | hmem
        · exact (h row (List.mem_append_right _ List.mem_cons_self)).withHeartbeat _
        · exact h record (List.mem_append_right _ (List.mem_cons_of_mem _ hmem))

end Nodes

section Alerts
variable {tables : Tables}

/-- The category and the reason are one of the fixed pairs. -/
def SecurityAlert.FixedPair (alert : SecurityAlert) : Prop :=
  ∃ reason, alert.reason.text = reason.value ∧
    alertCategoryByReason reason = some alert.category.text

theorem store_alerts_fixed (ingestor : DetectionEventIngestor)
    (h : ∀ alert ∈ tables.securityAlerts, alert.FixedPair) (call : StoreCall) :
    ∀ alert ∈ (ingestor.store tables call).1.securityAlerts, alert.FixedPair := by
  have hwrites := DetectionEventIngestor.store_writes ingestor tables call
  cases call with
  | seed call =>
    rw [hwrites.2.2]
    exact h
  | record call =>
    rw [hwrites.2.2]
    exact h
  | ingest policy call =>
    show ∀ alert ∈ (ingestor.ingest ⟨policy, tables⟩ call).1.tables.securityAlerts, _
    rcases DetectionEventIngestor.ingest_tables ingestor ⟨policy, tables⟩ call with
      hs | ⟨reason, added, hadded, hs⟩ | ⟨acceptedAtUtc, row, -, -, hs⟩ <;> rw [hs]
    · exact h
    · intro alert hmem
      rcases List.mem_append.mp hmem with hmem | hmem
      · exact h alert hmem
      · rw [List.mem_singleton.mp hmem]
        exact ⟨reason, hadded.reasonText, hadded.category⟩
    · exact h

end Alerts

section Events
variable {ingestor : DetectionEventIngestor} {tables : Tables}

/-- The ingest call of the sequence that wrote the row. -/
structure WrittenBy (ingestor : DetectionEventIngestor) (tables : Tables)
    (calls : List StoreCall) (record : DetectionEventRecord) (before : List StoreCall)
    (policy : ReplayState) (call : IngestCall) : Prop where
  split : ∃ after, calls = before ++ .ingest policy call :: after
  authentic : ingestor.authenticate (ingestor.stored tables before) call.lookupRaises
    call.envelope = .ok ()
  written : (ingestor.store (ingestor.stored tables before) (.ingest policy call)).1 =
    (ingestor.stored tables before).addEvent record
  storable : ∃ row, record.row = some row
  acceptance : ∃ acceptedAtUtc, ingestor.Stores (ingestor.stored tables before)
    call.envelope.body acceptedAtUtc record

/-- A new event row passed the checks of its table. -/
theorem recordEvent_storable (call : IngestCall) (d : EventSecurityDecision)
    {record : DetectionEventRecord}
    (h : record ∈ (ingestor.recordEvent tables call d).1.detectionEvents) :
    record ∈ tables.detectionEvents ∨ ∃ row, record.row = some row := by
  rw [DetectionEventRecord.exists_row]
  unfold DetectionEventIngestor.recordEvent at h
  split at h
  · exact Or.inl h
  · rename_i written hwritten
    cases hinsert : tables.insertEvent written with
    | none =>
      rw [hinsert] at h
      exact Or.inl h
    | some result =>
      obtain ⟨after, stored⟩ := result
      obtain ⟨rfl, rfl⟩ := DetectionEventIngestor.insertEvent_eq_some hinsert
      rw [hinsert] at h
      have hchecks := hinsert
      unfold Tables.insertEvent at hchecks
      split_ifs at hchecks with hvalid
      simp only [Bool.and_eq_true] at hvalid
      have hmem : record ∈ tables.detectionEvents ∨
          record = { written with recordId := some tables.nextRecordId } := by
        cases hcommit : call.commit with
        | failed =>
          rw [hcommit] at h
          exact Or.inl h
        | persisted =>
          rw [hcommit] at h
          exact (List.mem_append.mp h).imp_right List.mem_singleton.mp
        | persistedRaised =>
          rw [hcommit] at h
          exact (List.mem_append.mp h).imp_right List.mem_singleton.mp
      rcases hmem with hmem | rfl
      · exact Or.inl hmem
      · exact Or.inr ⟨rfl, hvalid.1⟩

theorem ingest_storable (state : IngestState) (call : IngestCall) {record : DetectionEventRecord}
    (h : record ∈ (ingestor.ingest state call).1.tables.detectionEvents) :
    record ∈ state.tables.detectionEvents ∨ ∃ row, record.row = some row := by
  rcases DetectionEventIngestor.ingest_cases ingestor state call with
    ⟨failure, hs, -⟩ | ⟨d, -, -, hs⟩ <;> rw [hs] at h
  · rw [(refuse_events state.tables call failure).1] at h
    exact Or.inl h
  · exact recordEvent_storable call d h

/-- Every event row was written by one of the calls. -/
theorem exists_writtenBy (hempty : tables.detectionEvents = []) (calls : List StoreCall)
    {record : DetectionEventRecord}
    (h : record ∈ (ingestor.stored tables calls).detectionEvents) :
    ∃ before policy call, WrittenBy ingestor tables calls record before policy call := by
  induction calls using List.reverseRecOn with
  | nil =>
    have hmem : record ∈ tables.detectionEvents := h
    rw [hempty] at hmem
    cases hmem
  | append_singleton calls last ih =>
    rw [DetectionEventIngestor.stored_concat] at h
    have hearlier : record ∈ (ingestor.stored tables calls).detectionEvents →
        ∃ before policy call,
          WrittenBy ingestor tables (calls ++ [last]) record before policy call := by
      intro hmem
      obtain ⟨before, policy, call, hwritten⟩ := ih hmem
      obtain ⟨after, hsplit⟩ := hwritten.split
      refine ⟨before, policy, call, ⟨after ++ [last], ?_⟩, hwritten.authentic, hwritten.written,
        hwritten.storable, hwritten.acceptance⟩
      rw [hsplit, List.append_assoc, List.cons_append]
    have hwrites := DetectionEventIngestor.store_writes ingestor
      (ingestor.stored tables calls) last
    cases last with
    | seed call =>
      rw [hwrites.2.1] at h
      exact hearlier h
    | record call =>
      rw [hwrites.2.1] at h
      exact hearlier h
    | ingest policy call =>
      have hafter : record ∈ (ingestor.ingest ⟨policy, ingestor.stored tables calls⟩
        call).1.tables.detectionEvents := h
      rcases ingest_storable ⟨policy, ingestor.stored tables calls⟩ call h with hmem | hrow
      · exact hearlier hmem
      rcases DetectionEventIngestor.ingest_tables ingestor
        ⟨policy, ingestor.stored tables calls⟩ call with
        hs | ⟨reason, alert, -, hs⟩ | ⟨acceptedAtUtc, row, hauth, hstores, hs⟩ <;>
        rw [hs] at hafter
      · exact hearlier hafter
      · exact hearlier hafter
      · rcases List.mem_append.mp hafter with hmem | hmem
        · exact hearlier hmem
        · obtain rfl := List.mem_singleton.mp hmem
          exact ⟨calls, policy, call, ⟨[], rfl⟩, hauth, hs, hrow, acceptedAtUtc, hstores⟩

/-- The node of a written row is registered. -/
theorem WrittenBy.registered {calls before : List StoreCall} {record : DetectionEventRecord}
    {policy : ReplayState} {call : IngestCall}
    (h : WrittenBy ingestor tables calls record before policy call) :
    ∃ node ∈ (ingestor.stored tables calls).nodes, node.nodeId = record.nodeId := by
  obtain ⟨-, node, publicKey, hnode, -⟩ := DetectionEventIngestor.authenticate_eq_ok.mp h.authentic
  obtain ⟨after, rfl⟩ := h.split
  obtain ⟨acceptedAtUtc, written, hwritten, rfl⟩ := h.acceptance
  have hextends := (DetectionEventIngestor.store_extends ingestor
    (ingestor.stored tables before) (.ingest policy call)).trans
      (DetectionEventIngestor.stored_extends ingestor _ after)
  obtain ⟨later, hlater, -⟩ := hextends.getNode hnode
  rw [DetectionEventIngestor.stored_append]
  refine ⟨later, List.mem_of_find?_eq_some hlater, ?_⟩
  rw [Tables.getNode_nodeId hlater]
  exact (fromEvent_records hwritten).nodeId.symm

end Events

open DetectionEventIngestor in
/-- Everything written is readable, along every sequence of calls on an empty database. -/
theorem stored_rows_readable {ingestor : DetectionEventIngestor}
    (hrepr : FloatRepr ingestor.reprFloat) {depth : ℕ} (hdepth : 3 ≤ depth)
    (calls : List StoreCall) :
    let tables := ingestor.stored ⟨[], [], []⟩ calls
    (∀ record ∈ tables.nodes, record.row.fetch = .ok record ∧
      (∃ registration, record.toRegistration = .ok registration) ∧
      (∃ heartbeat, record.toHeartbeat = .ok heartbeat) ∧
      (record.lastSeenAtUtc = none ↔ record.healthStatus = none)) ∧
    (∀ record ∈ tables.detectionEvents,
      (∃ row, record.row = some row ∧ row.fetch = .ok record) ∧
      (∃ node ∈ tables.nodes, node.nodeId = record.nodeId) ∧
      ∃ before policy call, WrittenBy ingestor ⟨[], [], []⟩ calls record before policy call ∧
        record.toEvent depth = .ok call.envelope.body.astimezone) ∧
    (∀ alert ∈ tables.securityAlerts,
      (SecurityAlertRecord.fromAlert alert).row.fetch = .ok (.fromAlert alert) ∧
      (SecurityAlertRecord.fromAlert alert).toAlert = .ok alert ∧ alert.FixedPair) ∧
    ∀ call, (listNodeHealth tables.database call).isOk = call.healthy ∧
      (listRecentEvents depth tables.database call).isOk = call.healthy ∧
      (listSecurityAlerts tables.database call).isOk = call.healthy := by
  intro tables
  have hnodesStep : ∀ (tables : Tables) (call : StoreCall),
      (∀ record ∈ tables.nodes, record.Readable) →
      ∀ record ∈ (ingestor.store tables call).1.nodes, record.Readable :=
    fun _ call h => store_nodes_readable ingestor h call
  have hnodes : ∀ record ∈ tables.nodes, record.Readable :=
    Runs.run_invariant hnodesStep (fun _ hmem => absurd hmem List.not_mem_nil) calls
  have halertsStep : ∀ (tables : Tables) (call : StoreCall),
      (∀ alert ∈ tables.securityAlerts, alert.FixedPair) →
      ∀ alert ∈ (ingestor.store tables call).1.securityAlerts, alert.FixedPair :=
    fun _ call h => store_alerts_fixed ingestor h call
  have halerts : ∀ alert ∈ tables.securityAlerts, alert.FixedPair :=
    Runs.run_invariant halertsStep (fun _ hmem => absurd hmem List.not_mem_nil) calls
  have hevents : ∀ record ∈ tables.detectionEvents,
      (∃ row, record.row = some row ∧ row.fetch = .ok record) ∧
      (∃ node ∈ tables.nodes, node.nodeId = record.nodeId) ∧
      ∃ before policy call, WrittenBy ingestor ⟨[], [], []⟩ calls record before policy call ∧
        record.toEvent depth = .ok call.envelope.body.astimezone := by
    intro record hmem
    obtain ⟨before, policy, call, hwritten⟩ := exists_writtenBy rfl calls hmem
    obtain ⟨row, hrow⟩ := hwritten.storable
    obtain ⟨acceptedAtUtc, written, hfrom, hrecord⟩ := hwritten.acceptance
    refine ⟨⟨row, hrow, DetectionEventRecord.fetch_row hrow⟩, hwritten.registered,
      before, policy, call, hwritten, ?_⟩
    rw [hrecord]
    exact toEvent_fromEvent hrepr hdepth hfrom _
  refine ⟨fun record hmem => ?_, hevents, fun alert hmem => ?_, fun call => ⟨?_, ?_, ?_⟩⟩
  · have hrecord := hnodes record hmem
    exact ⟨record.fetch_row, hrecord.registration, hrecord.toHeartbeat, hrecord.liveness⟩
  · exact ⟨SecurityAlertRecord.fetch_row _, SecurityAlertRecord.toAlert_fromAlert alert,
      halerts alert hmem⟩
  · refine isOk_listNodeHealth (fun row hrow => ?_) call
    obtain ⟨record, hmem, rfl⟩ := List.mem_map.mp hrow
    exact ⟨record, record.fetch_row, (hnodes record hmem).health⟩
  · refine isOk_listRecentEvents (fun row hrow => ?_) call
    obtain ⟨record, hmem, hrecord⟩ := List.mem_filterMap.mp hrow
    obtain ⟨-, -, before, policy, ingest, -, hevent⟩ := hevents record hmem
    exact ⟨record, DetectionEventRecord.fetch_row hrecord, _, hevent⟩
  · refine isOk_listSecurityAlerts (fun row hrow => ?_) call
    obtain ⟨alert, -, rfl⟩ := List.mem_map.mp hrow
    exact ⟨_, SecurityAlertRecord.fetch_row _, alert, SecurityAlertRecord.toAlert_fromAlert alert⟩

open DetectionEventIngestor in
/-- An event of an unknown node, the node, its heartbeat: an alert and a node to read. -/
theorem stored_rows_readable_three :
    let edge : NodeRegistration := ⟨⟨"edge-1", by decide⟩,
      CanonicalBase64.encode (List.replicate 32 1) (List.length_replicate ..)⟩
    let now : UtcDatetime := ⟨63893000000000000, by decide⟩
    let envelope : SignedDetectionEnvelope := ⟨sampleEvent now, .ed25519,
      CanonicalBase64.encode (List.replicate 64 1) (List.length_replicate ..)⟩
    let tables := sample.stored ⟨[], [], []⟩
      [.ingest .initial (sampleCall envelope .persisted), .seed (.healthy [edge] now),
        .record ⟨⟨edge.nodeId, ⟨now, .utc⟩, .healthy⟩, false, .utc now, false, .persisted⟩]
    let call : ListCall := ⟨50, false, false, false⟩
    tables.nodes.length = 1 ∧ tables.securityAlerts.length = 1 ∧
      (listNodeHealth tables.database call).isOk = true ∧
      (listRecentEvents 3 tables.database call).isOk = true ∧
      (listSecurityAlerts tables.database call).isOk = true := by
  intro edge now envelope tables call
  have hnodes : tables.nodes.length = 1 := by decide +kernel
  have halerts : tables.securityAlerts.length = 1 := by decide +kernel
  refine ⟨hnodes, halerts, ?_⟩
  have hrepr : FloatRepr sample.reprFloat := Json.exactRepr_floatRepr
  exact (stored_rows_readable hrepr le_rfl
    [.ingest .initial (sampleCall envelope .persisted), .seed (.healthy [edge] now),
      .record ⟨⟨edge.nodeId, ⟨now, .utc⟩, .healthy⟩, false, .utc now, false,
        .persisted⟩]).2.2.2 call

end SecureEdge
