import SecureEdgeVision.Monitoring.Heartbeat
import SecureEdgeVision.Persistence.Columns
import SecureEdgeVision.Persistence.Seeding
import SecureEdgeVision.Runs.LastWrite
import Mathlib.Order.WithBot

/-! Heartbeats recorded concurrently: the lookup, the clock reading and the update of an open
call are steps of their own, taken between those of other calls in any order. -/
namespace SecureEdge

open UtcTimestampType (processBindParam processBindParam_lt_iff)

/-- The `where` of the update on a row, whose timestamp is text. -/
def NodeRow.matchedBy (row : NodeRow) (heartbeat : NodeHeartbeat) : Bool :=
  row.nodeId = heartbeat.nodeId.text &&
    row.lastSeenAtUtc.all fun lastSeen =>
      lastSeen < processBindParam heartbeat.timestampUtc.instant

/-- The update as the database runs it on the rows, with its row count. -/
def Tables.executeUpdate (tables : Tables) (heartbeat : NodeHeartbeat) : Tables × ℕ :=
  ({ tables with
      nodes := tables.nodes.map fun record =>
        if record.row.matchedBy heartbeat then record.withHeartbeat heartbeat else record },
    tables.nodes.countP fun record => record.row.matchedBy heartbeat)

/-- Texts are compared as the instants are. -/
theorem NodeRecord.row_matchedBy (record : NodeRecord) (heartbeat : NodeHeartbeat) :
    record.row.matchedBy heartbeat = record.advancedBy heartbeat := by
  unfold NodeRow.matchedBy advancedBy row
  cases record.lastSeenAtUtc with
  | none => rfl
  | some lastSeen => simp only [Option.map_some, Option.all_some, processBindParam_lt_iff]

theorem Tables.executeUpdate_eq (tables : Tables) (heartbeat : NodeHeartbeat) :
    tables.executeUpdate heartbeat = tables.updateNodes heartbeat := by
  unfold executeUpdate updateNodes
  simp only [NodeRecord.row_matchedBy]

/-- Where an open call stands: before its lookup, before its clock reading, before its update, or
answered. -/
inductive HeartbeatPhase where
  | opened
  | known
  | fresh
  | finished (outcome : Except HeartbeatFailure Unit)
deriving DecidableEq

structure OpenHeartbeat where
  call : HeartbeatCall
  phase : HeartbeatPhase
deriving DecidableEq

/-- One step of an open call. The update and its commit are one step. -/
def HeartbeatService.advance (settings : SecuritySettings) (tables : Tables)
    (c : OpenHeartbeat) : Tables × HeartbeatPhase :=
  match c.phase with
  | .opened =>
    if c.call.lookupRaises then (tables, .finished (.error .service))
    else
      match tables.getNode c.call.heartbeat.nodeId with
      | none => (tables, .finished (.error (.rejection .unknownNode)))
      | some _ => (tables, .known)
  | .known =>
    match checkHeartbeatWindow settings c.call.reading c.call.heartbeat.timestampUtc.instant with
    | .error failure => (tables, .finished (.error failure))
    | .ok () => (tables, .fresh)
  | .fresh =>
    if c.call.updateRaises then (tables, .finished (.error .service))
    else
      let (after, rowcount) := tables.executeUpdate c.call.heartbeat
      if rowcount ≠ 1 then (tables, .finished (.error (.rejection .outOfOrderHeartbeat)))
      else
        match c.call.commit.apply tables after with
        | (tables, true) => (tables, .finished (.ok ()))
        | (tables, false) => (tables, .finished (.error .service))
  | .finished outcome => (tables, .finished outcome)

structure HeartbeatAnswer where
  heartbeat : NodeHeartbeat
  outcome : Except HeartbeatFailure Unit

/-- The answer of a call whose step ended it. -/
def OpenHeartbeat.answer? (c : OpenHeartbeat) : HeartbeatPhase → Option HeartbeatAnswer
  | .finished outcome =>
    match c.phase with
    | .finished _ => none
    | _ => some ⟨c.call.heartbeat, outcome⟩
  | _ => none

/-- The tables, the open calls, and the answers given so far in order. -/
structure HeartbeatServer where
  tables : Tables
  calls : List OpenHeartbeat
  answers : List HeartbeatAnswer

inductive HeartbeatAction where
  | submit (call : HeartbeatCall)
  | advance (index : ℕ)

namespace HeartbeatServer

def start (tables : Tables) : HeartbeatServer := ⟨tables, [], []⟩

/-- The call at the index moved on. -/
def update (s : HeartbeatServer) (i : ℕ) (c : OpenHeartbeat) (next : Tables × HeartbeatPhase) :
    HeartbeatServer where
  tables := next.1
  calls := s.calls.set i { c with phase := next.2 }
  answers := s.answers ++ (c.answer? next.2).toList

def step (settings : SecuritySettings) (s : HeartbeatServer) : HeartbeatAction → HeartbeatServer
  | .submit call => { s with calls := s.calls ++ [⟨call, .opened⟩] }
  | .advance i =>
    match s.calls[i]? with
    | none => s
    | some c => s.update i c (HeartbeatService.advance settings s.tables c)

def run (settings : SecuritySettings) (s : HeartbeatServer) (actions : List HeartbeatAction) :
    HeartbeatServer := actions.foldl (step settings) s

end HeartbeatServer

section Advance
variable {settings : SecuritySettings}

/-- The window check knows nothing of other heartbeats. -/
theorem checkHeartbeatWindow_failure {reading : ClockReading} {timestamp : UtcDatetime}
    {failure : HeartbeatFailure}
    (h : checkHeartbeatWindow settings reading timestamp = .error failure) :
    failure ≠ .rejection .outOfOrderHeartbeat := by
  rintro rfl
  unfold checkHeartbeatWindow at h
  split at h
  · split at h
    · split_ifs at h <;> cases h
    · cases h
  · cases h

/-- What one step of a call can do. -/
theorem HeartbeatService.advance_cases (settings : SecuritySettings) (tables : Tables)
    (c : OpenHeartbeat) :
    (∃ outcome, c.phase = .finished outcome ∧
      advance settings tables c = (tables, .finished outcome)) ∨
    (∃ failure, advance settings tables c = (tables, .finished (.error failure)) ∧
      failure ≠ .rejection .outOfOrderHeartbeat ∧
      ((c.phase = .opened ∧
          (c.call.lookupRaises = true ∨ tables.getNode c.call.heartbeat.nodeId = none)) ∨
        (c.phase = .known ∧ checkHeartbeatWindow settings c.call.reading
          c.call.heartbeat.timestampUtc.instant = .error failure) ∨
        c.phase = .fresh ∧ (c.call.updateRaises = true ∨ c.call.commit = .failed))) ∨
    (∃ phase, advance settings tables c = (tables, phase) ∧
      (c.phase = .opened ∧ phase = .known ∨ c.phase = .known ∧ phase = .fresh)) ∨
    c.phase = .fresh ∧
      ((tables.updateNodes c.call.heartbeat).2 ≠ 1 ∧ advance settings tables c =
          (tables, .finished (.error (.rejection .outOfOrderHeartbeat))) ∨
        (tables.updateNodes c.call.heartbeat).2 = 1 ∧
          (c.call.commit = .persisted ∧ advance settings tables c =
              ((tables.updateNodes c.call.heartbeat).1, .finished (.ok ())) ∨
            c.call.commit = .persistedRaised ∧ advance settings tables c =
              ((tables.updateNodes c.call.heartbeat).1, .finished (.error .service)))) := by
  obtain ⟨call, phase⟩ := c
  cases phase with
  | opened =>
    by_cases hlookup : call.lookupRaises = true
    · refine Or.inr (Or.inl ⟨.service, ?_, nofun, Or.inl ⟨rfl, Or.inl hlookup⟩⟩)
      exact if_pos hlookup
    · cases hnode : tables.getNode call.heartbeat.nodeId with
      | none =>
        refine Or.inr (Or.inl ⟨.rejection .unknownNode, ?_, nofun, Or.inl ⟨rfl, Or.inr rfl⟩⟩)
        simp [advance, hlookup, hnode]
      | some node =>
        refine Or.inr (Or.inr (Or.inl ⟨.known, ?_, Or.inl ⟨rfl, rfl⟩⟩))
        simp [advance, hlookup, hnode]
  | known =>
    cases hwindow : checkHeartbeatWindow settings call.reading
      call.heartbeat.timestampUtc.instant with
    | error failure =>
      refine Or.inr (Or.inl ⟨failure, ?_, checkHeartbeatWindow_failure hwindow,
        Or.inr (Or.inl ⟨rfl, rfl⟩)⟩)
      simp [advance, hwindow]
    | ok u =>
      refine Or.inr (Or.inr (Or.inl ⟨.fresh, ?_, Or.inr ⟨rfl, rfl⟩⟩))
      simp [advance, hwindow]
  | fresh =>
    by_cases hupdate : call.updateRaises = true
    · refine Or.inr (Or.inl ⟨.service, ?_, nofun, Or.inr (Or.inr ⟨rfl, Or.inl hupdate⟩)⟩)
      exact if_pos hupdate
    by_cases hrows : (tables.updateNodes call.heartbeat).2 = 1
    · cases hcommit : call.commit with
      | failed =>
        refine Or.inr (Or.inl ⟨.service, ?_, nofun, Or.inr (Or.inr ⟨rfl, Or.inr rfl⟩)⟩)
        simp [advance, Tables.executeUpdate_eq, hupdate, hrows, hcommit, CommitOutcome.apply]
      | persisted =>
        refine Or.inr (Or.inr (Or.inr ⟨rfl, Or.inr ⟨hrows, Or.inl ⟨rfl, ?_⟩⟩⟩))
        simp [advance, Tables.executeUpdate_eq, hupdate, hrows, hcommit, CommitOutcome.apply]
      | persistedRaised =>
        refine Or.inr (Or.inr (Or.inr ⟨rfl, Or.inr ⟨hrows, Or.inr ⟨rfl, ?_⟩⟩⟩))
        simp [advance, Tables.executeUpdate_eq, hupdate, hrows, hcommit, CommitOutcome.apply]
    · refine Or.inr (Or.inr (Or.inr ⟨rfl, Or.inl ⟨hrows, ?_⟩⟩))
      simp [advance, Tables.executeUpdate_eq, hupdate, hrows]
  | finished outcome => exact Or.inl ⟨outcome, rfl, rfl⟩

end Advance

namespace HeartbeatServer
variable {settings : SecuritySettings}

theorem step_absent {s : HeartbeatServer} {i : ℕ} (h : s.calls[i]? = none) :
    s.step settings (.advance i) = s := by
  simp [step, h]

theorem step_advance {s : HeartbeatServer} {i : ℕ} {c : OpenHeartbeat} (h : s.calls[i]? = some c) :
    s.step settings (.advance i) =
      s.update i c (HeartbeatService.advance settings s.tables c) := by
  simp [step, h]

/-- Advancing the newest call. -/
theorem step_newest (tables : Tables) (calls : List OpenHeartbeat) (c : OpenHeartbeat)
    (answers : List HeartbeatAnswer) :
    step settings ⟨tables, calls ++ [c], answers⟩ (.advance calls.length) =
      ⟨(HeartbeatService.advance settings tables c).1,
        calls ++ [⟨c.call, (HeartbeatService.advance settings tables c).2⟩],
        answers ++ (c.answer? (HeartbeatService.advance settings tables c).2).toList⟩ := by
  simp [step, update]

/-- A call whose steps are not interleaved with others is a serial call. -/
theorem run_serial (s : HeartbeatServer) (call : HeartbeatCall) :
    let i := s.calls.length
    let result := HeartbeatService.record settings s.tables call
    s.run settings [.submit call, .advance i, .advance i, .advance i] =
      ⟨result.1, s.calls ++ [⟨call, .finished result.2⟩],
        s.answers ++ [⟨call.heartbeat, result.2⟩]⟩ := by
  intro i result
  have hfinished : ∀ outcome, HeartbeatService.advance settings s.tables
      ⟨call, .finished outcome⟩ = (s.tables, .finished outcome) := fun _ => rfl
  have hsubmit : s.step settings (.submit call) =
      ⟨s.tables, s.calls ++ [⟨call, .opened⟩], s.answers⟩ := rfl
  simp only [run, List.foldl_cons, List.foldl_nil, hsubmit, i, step_newest, result]
  by_cases hlookup : call.lookupRaises = true
  · have hopened : HeartbeatService.advance settings s.tables ⟨call, .opened⟩ =
        (s.tables, .finished (.error .service)) := if_pos hlookup
    simp [hopened, hfinished, OpenHeartbeat.answer?, HeartbeatService.record, hlookup]
  cases hnode : s.tables.getNode call.heartbeat.nodeId with
  | none =>
    have hopened : HeartbeatService.advance settings s.tables ⟨call, .opened⟩ =
        (s.tables, .finished (.error (.rejection .unknownNode))) := by
      simp [HeartbeatService.advance, hlookup, hnode]
    simp [hopened, hfinished, OpenHeartbeat.answer?, HeartbeatService.record, hlookup, hnode]
  | some node =>
    have hopened : HeartbeatService.advance settings s.tables ⟨call, .opened⟩ =
        (s.tables, .known) := by
      simp [HeartbeatService.advance, hlookup, hnode]
    rw [hopened]
    cases hwindow : checkHeartbeatWindow settings call.reading
      call.heartbeat.timestampUtc.instant with
    | error failure =>
      have hknown : HeartbeatService.advance settings s.tables ⟨call, .known⟩ =
          (s.tables, .finished (.error failure)) := by
        simp [HeartbeatService.advance, hwindow]
      simp [hknown, hfinished, OpenHeartbeat.answer?, HeartbeatService.record, hlookup, hnode,
        hwindow]
    | ok u =>
      have hknown : HeartbeatService.advance settings s.tables ⟨call, .known⟩ =
          (s.tables, .fresh) := by
        simp [HeartbeatService.advance, hwindow]
      rw [hknown]
      by_cases hupdate : call.updateRaises = true
      · simp [HeartbeatService.advance, OpenHeartbeat.answer?, HeartbeatService.record, hlookup,
          hnode, hwindow, hupdate]
      by_cases hrows : (s.tables.updateNodes call.heartbeat).2 = 1
      · cases hcommit : call.commit <;>
          simp [HeartbeatService.advance, Tables.executeUpdate_eq, OpenHeartbeat.answer?,
            HeartbeatService.record, hlookup, hnode, hwindow, hupdate, hrows, hcommit,
            CommitOutcome.apply]
      · simp [HeartbeatService.advance, Tables.executeUpdate_eq, OpenHeartbeat.answer?,
          HeartbeatService.record, hlookup, hnode, hwindow, hupdate, hrows]

end HeartbeatServer

end SecureEdge
