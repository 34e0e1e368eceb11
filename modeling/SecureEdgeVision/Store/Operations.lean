import SecureEdgeVision.Ingestion.Steps
import SecureEdgeVision.Monitoring.Heartbeat
import SecureEdgeVision.Persistence.Seeding

/-! The three operations that write to the store, and what each one can do to the tables:
seeding adds nodes, an ingest adds one event or one alert, a heartbeat updates one node. -/
namespace SecureEdge

open Runs (run)

/-- A call with what it will meet. An ingest also meets the replay state of the process that
serves it, whatever that process has seen. -/
inductive StoreCall where
  | seed (call : SeedCall)
  | ingest (policy : ReplayState) (call : IngestCall)
  | record (call : HeartbeatCall)

inductive StoreOutcome where
  | seeded (outcome : Except SeedFailure ℕ)
  | ingested (outcome : IngestOutcome)
  | recorded (outcome : Except HeartbeatFailure Unit)

namespace DetectionEventIngestor
variable (ingestor : DetectionEventIngestor)

/-- One call on the tables. -/
def store (tables : Tables) : StoreCall → Tables × StoreOutcome
  | .seed call =>
    let (tables, outcome) := seedNodeRegistry tables call
    (tables, .seeded outcome)
  | .ingest policy call =>
    let (state, outcome) := ingestor.ingest ⟨policy, tables⟩ call
    (state.tables, .ingested outcome)
  | .record call =>
    let (tables, outcome) := HeartbeatService.record ingestor.settings tables call
    (tables, .recorded outcome)

/-- The tables after a sequence of calls. -/
def stored (tables : Tables) (calls : List StoreCall) : Tables :=
  (run ingestor.store tables calls).1

theorem stored_append (tables : Tables) (before : List StoreCall) (call : StoreCall)
    (after : List StoreCall) :
    ingestor.stored tables (before ++ call :: after) =
      ingestor.stored (ingestor.store (ingestor.stored tables before) call).1 after :=
  Runs.run_append_state _ tables before (call :: after)

theorem stored_concat (tables : Tables) (calls : List StoreCall) (call : StoreCall) :
    ingestor.stored tables (calls ++ [call]) =
      (ingestor.store (ingestor.stored tables calls) call).1 :=
  ingestor.stored_append tables calls call []

end DetectionEventIngestor

/-- Nothing is removed or rewritten, liveness columns apart. -/
structure Tables.Extends (before after : Tables) : Prop where
  registry : before.registry <+: after.registry
  detectionEvents : before.detectionEvents <+: after.detectionEvents
  securityAlerts : before.securityAlerts <+: after.securityAlerts

/-- What a call may write: new nodes, a row at the end of one log, or the liveness columns of
the heartbeat's own node. -/
def StoreCall.Writes (before after : Tables) : StoreCall → Prop
  | .seed _ => (∃ added, after.nodes = before.nodes ++ added) ∧
      after.detectionEvents = before.detectionEvents ∧
      after.securityAlerts = before.securityAlerts
  | .ingest _ _ => after.nodes = before.nodes ∧
      before.detectionEvents <+: after.detectionEvents ∧
      before.securityAlerts <+: after.securityAlerts
  | .record call => (after.nodes = before.nodes ∨
      ∃ above row below lastSeenAtUtc healthStatus, row.nodeId = call.heartbeat.nodeId.text ∧
        before.nodes = above ++ row :: below ∧
        after.nodes = above ++ { row with lastSeenAtUtc, healthStatus } :: below) ∧
      after.detectionEvents = before.detectionEvents ∧
      after.securityAlerts = before.securityAlerts

section Frames
variable {tables : Tables}

theorem Tables.Extends.refl (tables : Tables) : tables.Extends tables :=
  ⟨List.prefix_rfl, List.prefix_rfl, List.prefix_rfl⟩

theorem Tables.Extends.trans {a b c : Tables} (h : a.Extends b) (h' : b.Extends c) :
    a.Extends c :=
  ⟨h.registry.trans h'.registry, h.detectionEvents.trans h'.detectionEvents,
    h.securityAlerts.trans h'.securityAlerts⟩

/-- Where a node is found, a later lookup finds the same identity. -/
theorem Tables.Extends.getNode {tables' : Tables} (h : tables.Extends tables')
    {nodeId : SafeIdentifier} {node : NodeRecord} (hnode : tables.getNode nodeId = some node) :
    ∃ node', tables'.getNode nodeId = some node' ∧ node'.identity = node.identity := by
  obtain ⟨added, hadded⟩ := h.registry
  have hbefore := tables.getNode_identity nodeId
  have hafter := tables'.getNode_identity nodeId
  rw [hnode, Option.map_some] at hbefore
  rw [← hadded, List.find?_append, ← hbefore, Option.some_or] at hafter
  exact Option.map_eq_some_iff.mp hafter

theorem NodeRecord.toRegistration_congr {node node' : NodeRecord}
    (h : node'.identity = node.identity) : node'.toRegistration = node.toRegistration := by
  obtain ⟨hid, hkey, -⟩ : _ ∧ _ ∧ _ := by simpa [NodeRecord.identity] using h
  unfold toRegistration
  simp only [hid, hkey]

/-- A row that is the only one to satisfy a test splits its table. -/
theorem exists_split_of_countP {α : Type} {p : α → Bool} {rows : List α}
    (h : rows.countP p = 1) : ∃ above row below, rows = above ++ row :: below ∧ p row = true ∧
      (∀ x ∈ above, p x = false) ∧ ∀ x ∈ below, p x = false := by
  obtain ⟨row, hmem, hrow⟩ := List.countP_pos_iff.mp (Nat.lt_of_lt_of_eq Nat.zero_lt_one h.symm)
  obtain ⟨above, below, rfl⟩ := List.append_of_mem hmem
  rw [List.countP_append, List.countP_cons_of_pos hrow] at h
  refine ⟨above, row, below, rfl, hrow, ?_, ?_⟩
  · exact fun x hx => by simpa using List.countP_eq_zero.mp (by omega) x hx
  · exact fun x hx => by simpa using List.countP_eq_zero.mp (by omega) x hx

/-- The update of a single row. -/
theorem Tables.updateNodes_split {heartbeat : NodeHeartbeat}
    (h : (tables.updateNodes heartbeat).2 = 1) : ∃ above row below,
      tables.nodes = above ++ row :: below ∧ row.advancedBy heartbeat = true ∧
      (tables.updateNodes heartbeat).1.nodes =
        above ++ row.withHeartbeat heartbeat :: below := by
  obtain ⟨above, row, below, hsplit, hrow, habove, hbelow⟩ := exists_split_of_countP h
  refine ⟨above, row, below, hsplit, hrow, ?_⟩
  have hsame : ∀ rows : List NodeRecord, (∀ x ∈ rows, x.advancedBy heartbeat = false) →
      (rows.map fun record =>
        if record.advancedBy heartbeat then record.withHeartbeat heartbeat else record) = rows := by
    intro rows hrows
    conv_rhs => rw [← List.map_id rows]
    refine List.map_congr_left fun x hx => ?_
    rw [hrows x hx]
    rfl
  show tables.nodes.map _ = _
  rw [hsplit, List.map_append, List.map_cons, hsame above habove, hsame below hbelow, hrow]
  rfl

end Frames

namespace DetectionEventIngestor
variable {ingestor : DetectionEventIngestor} {tables : Tables}

/-- An ingest leaves the tables alone, adds one alert, or adds the event of an envelope that
it authenticated. -/
theorem ingest_tables (ingestor : DetectionEventIngestor) (state : IngestState)
    (call : IngestCall) :
    (ingestor.ingest state call).1.tables = state.tables ∨
    (∃ reason alert, SecurityAlert.Records alert reason call.envelope.body ∧
      (ingestor.ingest state call).1.tables = state.tables.addAlert alert) ∨
    ∃ acceptedAtUtc row,
      ingestor.authenticate state.tables call.lookupRaises call.envelope = .ok () ∧
      ingestor.Stores state.tables call.envelope.body acceptedAtUtc row ∧
      (ingestor.ingest state call).1.tables = state.tables.addEvent row := by
  rcases ingest_cases ingestor state call with ⟨failure, h, -⟩ | ⟨d, hauth, -, h⟩
  · rw [h]
    rcases refuse_cases state.tables call failure with
      hr | ⟨reason, -, alert, halert, ⟨-, hr⟩ | ⟨-, hr⟩⟩
    · exact Or.inl (by rw [hr])
    · exact Or.inr (Or.inl ⟨reason, alert, halert, by rw [hr]⟩)
    · exact Or.inr (Or.inl ⟨reason, alert, halert, by rw [hr]⟩)
  · rw [h]
    rcases recordEvent_tables state.tables call d with hr | ⟨row, hrow, hr⟩
    · exact Or.inl hr
    · exact Or.inr (Or.inr ⟨d.acceptedAtUtc, row, hauth, hrow, hr⟩)

/-- A heartbeat leaves the tables alone or updates one row of its node. -/
theorem record_tables (settings : SecuritySettings) (tables : Tables) (call : HeartbeatCall) :
    (HeartbeatService.record settings tables call).1 = tables ∨
    ∃ above row below, tables.nodes = above ++ row :: below ∧
      row.advancedBy call.heartbeat = true ∧
      (HeartbeatService.record settings tables call).1 =
        { tables with nodes := above ++ row.withHeartbeat call.heartbeat :: below } := by
  rcases HeartbeatService.record_cases settings tables call with
    ⟨failure, h⟩ | ⟨-, -, hrows, hcommit⟩
  · exact Or.inl (by rw [h])
  · obtain ⟨above, row, below, hsplit, hrow, hnodes⟩ := Tables.updateNodes_split hrows
    refine Or.inr ⟨above, row, below, hsplit, hrow, ?_⟩
    rw [← hnodes]
    rcases hcommit with ⟨-, h⟩ | ⟨-, h⟩ <;> rw [h] <;> rfl

/-- Every call writes only what it may. -/
theorem store_writes (ingestor : DetectionEventIngestor) (tables : Tables) (call : StoreCall) :
    call.Writes tables (ingestor.store tables call).1 := by
  cases call with
  | seed call =>
    show StoreCall.Writes tables (seedNodeRegistry tables call).1 (.seed call)
    rcases seedNodeRegistry_cases tables call with
      ⟨failure, h⟩ | ⟨timestamp, added, -, -, h | ⟨-, failure, h⟩⟩ <;> rw [h]
    · exact ⟨⟨[], (List.append_nil _).symm⟩, rfl, rfl⟩
    · exact ⟨⟨added, rfl⟩, rfl, rfl⟩
    · exact ⟨⟨added, rfl⟩, rfl, rfl⟩
  | ingest policy call =>
    show StoreCall.Writes tables (ingestor.ingest ⟨policy, tables⟩ call).1.tables
      (.ingest policy call)
    rcases ingest_tables ingestor ⟨policy, tables⟩ call with
      h | ⟨reason, alert, -, h⟩ | ⟨acceptedAtUtc, row, -, -, h⟩ <;> rw [h]
    · exact ⟨rfl, List.prefix_rfl, List.prefix_rfl⟩
    · exact ⟨rfl, List.prefix_rfl, List.prefix_append _ _⟩
    · exact ⟨rfl, List.prefix_append _ _, List.prefix_rfl⟩
  | record call =>
    show StoreCall.Writes tables (HeartbeatService.record ingestor.settings tables call).1
      (.record call)
    rcases record_tables ingestor.settings tables call with
      h | ⟨above, row, below, hsplit, hrow, h⟩ <;> rw [h]
    · exact ⟨Or.inl rfl, rfl, rfl⟩
    · refine ⟨Or.inr ⟨above, row, below, _, _, ?_, hsplit, rfl⟩, rfl, rfl⟩
      unfold NodeRecord.advancedBy at hrow
      simpa using (Bool.and_eq_true_iff.mp hrow).1

/-- What a call writes never removes or rewrites. -/
theorem store_extends (ingestor : DetectionEventIngestor) (tables : Tables) (call : StoreCall) :
    tables.Extends (ingestor.store tables call).1 := by
  have hwrites := store_writes ingestor tables call
  cases call with
  | seed call =>
    obtain ⟨⟨added, hnodes⟩, hevents, halerts⟩ := hwrites
    refine ⟨?_, hevents ▸ List.prefix_rfl, halerts ▸ List.prefix_rfl⟩
    unfold Tables.registry
    rw [hnodes, List.map_append]
    exact List.prefix_append _ _
  | ingest policy call =>
    obtain ⟨hnodes, hevents, halerts⟩ := hwrites
    exact ⟨(Tables.registry_congr hnodes) ▸ List.prefix_rfl, hevents, halerts⟩
  | record call =>
    obtain ⟨hnodes, hevents, halerts⟩ := hwrites
    refine ⟨?_, hevents ▸ List.prefix_rfl, halerts ▸ List.prefix_rfl⟩
    rcases hnodes with hnodes | ⟨above, row, below, _, _, -, hbefore, hafter⟩
    · exact (Tables.registry_congr hnodes) ▸ List.prefix_rfl
    · unfold Tables.registry
      rw [hbefore, hafter, List.map_append, List.map_append]
      exact List.prefix_rfl

theorem stored_extends (ingestor : DetectionEventIngestor) (tables : Tables)
    (calls : List StoreCall) : tables.Extends (ingestor.stored tables calls) :=
  Runs.run_related Tables.Extends.refl (fun _ _ _ h h' => h.trans h') (store_extends ingestor)
    tables calls

end DetectionEventIngestor

end SecureEdge
