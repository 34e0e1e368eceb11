import SecureEdgeVision.Monitoring.Queries

/-! SQL compares the timestamp columns as text. The comparisons that the service makes there
are those of the instants. -/
namespace SecureEdge

open UtcTimestampType (processBindParam processResultValue)

namespace UtcTimestampType

/-- `impl = String(32)` -/
def columnLength : ℕ := 32

theorem processBindParam_length (t : UtcDatetime) :
    (processBindParam t).length ≤ columnLength := by
  rw [← String.length_toList, processBindParam_toList, List.length_append,
    Python.isoformatMicroseconds_length]
  simp [columnLength]

theorem processBindParam_inj {a b : UtcDatetime} :
    processBindParam a = processBindParam b ↔ a = b := processBindParam_strictMono.injective.eq_iff

end UtcTimestampType

/-- The `where` of the heartbeat update, on the row. -/
def NodeRow.advancedBy (row : NodeRow) (heartbeat : NodeHeartbeat) : Bool :=
  row.nodeId = heartbeat.nodeId.text &&
    row.lastSeenAtUtc.all fun lastSeen =>
      lastSeen < processBindParam heartbeat.timestampUtc.instant

theorem NodeRecord.advancedBy_row (record : NodeRecord) (heartbeat : NodeHeartbeat) :
    record.row.advancedBy heartbeat = record.advancedBy heartbeat := by
  unfold NodeRow.advancedBy NodeRecord.advancedBy NodeRecord.row
  cases record.lastSeenAtUtc with
  | none => rfl
  | some lastSeen =>
    simp only [Option.map_some, Option.all_some, UtcTimestampType.processBindParam_lt_iff]

theorem DetectionEventRecord.row_columns {record : DetectionEventRecord}
    {row : DetectionEventRow} (h : record.row = some row) :
    record.recordId = some row.recordId ∧
      row.acceptedAtUtc = processBindParam record.acceptedAtUtc := by
  obtain ⟨recordId, hid, h⟩ := Option.bind_eq_some_iff.mp h
  obtain ⟨frameSeq, -, h⟩ := Option.bind_eq_some_iff.mp h
  obtain ⟨frameWidth, -, h⟩ := Option.bind_eq_some_iff.mp h
  obtain ⟨frameHeight, -, h⟩ := Option.bind_eq_some_iff.mp h
  split_ifs at h
  obtain rfl := Option.some.inj h
  exact ⟨hid, rfl⟩

/-- Newest first on the rows is newest first on the records. -/
theorem DetectionEventRow.before_iff {a b : DetectionEventRecord} {rowA rowB : DetectionEventRow}
    (ha : a.row = some rowA) (hb : b.row = some rowB) :
    rowA.before rowB ↔ b.acceptedAtUtc < a.acceptedAtUtc ∨
      a.acceptedAtUtc = b.acceptedAtUtc ∧ rowB.recordId ≤ rowA.recordId := by
  unfold before
  rw [(DetectionEventRecord.row_columns ha).2, (DetectionEventRecord.row_columns hb).2,
    UtcTimestampType.processBindParam_lt_iff, UtcTimestampType.processBindParam_inj]

theorem SecurityAlertRow.before_iff (a b : SecurityAlertRecord) :
    a.row.before b.row ↔ b.occurredAtUtc < a.occurredAtUtc ∨
      a.occurredAtUtc = b.occurredAtUtc ∧ b.alertId ≤ a.alertId := by
  unfold before SecurityAlertRecord.row
  rw [UtcTimestampType.processBindParam_lt_iff, UtcTimestampType.processBindParam_inj]

/-- The stored text embeds the order of the instants, fits its column and reads back exactly. So
the update of the liveness columns and the newest-first views compare instants. -/
theorem stored_timestamps_embed :
    (∀ a b, a < b ↔ processBindParam a < processBindParam b) ∧
    (∀ t, (processBindParam t).length ≤ UtcTimestampType.columnLength) ∧
    (∀ t, processResultValue (processBindParam t) = .ok t) ∧
    (∀ (record : NodeRecord) heartbeat,
      record.row.advancedBy heartbeat = record.advancedBy heartbeat) ∧
    (∀ (a b : DetectionEventRecord) rowA rowB, a.row = some rowA → b.row = some rowB →
      (rowA.before rowB ↔ b.acceptedAtUtc < a.acceptedAtUtc ∨
        a.acceptedAtUtc = b.acceptedAtUtc ∧ rowB.recordId ≤ rowA.recordId)) ∧
    ∀ a b : SecurityAlertRecord, a.row.before b.row ↔ b.occurredAtUtc < a.occurredAtUtc ∨
      a.occurredAtUtc = b.occurredAtUtc ∧ b.alertId ≤ a.alertId := by
  refine ⟨?_, ?_, ?_, ?_, ?_, ?_⟩
  · intro a b
    exact UtcTimestampType.processBindParam_lt_iff.symm
  · exact UtcTimestampType.processBindParam_length
  · exact UtcTimestampType.processResultValue_processBindParam
  · exact NodeRecord.advancedBy_row
  · intro a b rowA rowB ha hb
    exact DetectionEventRow.before_iff ha hb
  · exact SecurityAlertRow.before_iff

end SecureEdge
