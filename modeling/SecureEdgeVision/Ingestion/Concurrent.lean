import SecureEdgeVision.Ingestion.Steps

/-! Concurrent calls on one aggregator process. Workers sign, the network submits whatever it
likes, and the open calls advance one step at a time in any order. -/
namespace SecureEdge

/-- Where an open call stands: before its lookup, before its clock reading, before the lock,
before its commit, before the commit of its alert, or answered. -/
inductive CallPhase where
  | opened
  | verified
  | waiting (r : Reservation)
  | storing (d : EventSecurityDecision)
  | rejecting (reason : IngestionReason)
  | finished (outcome : IngestOutcome)

def CallPhase.fail : IngestFailure → CallPhase
  | .rejection reason => .rejecting reason
  | .service => .finished .serviceError

structure OpenCall where
  call : IngestCall
  phase : CallPhase

namespace OpenCall

def body (c : OpenCall) : DetectionEvent := c.call.envelope.body

/-- The reservation of a call that has yet to commit it. -/
def storing? (c : OpenCall) : Option Reservation :=
  match c.phase with
  | .storing d => some ⟨c.body, d⟩
  | _ => none

end OpenCall

/-- One step of an open call. -/
def DetectionEventIngestor.advance (ingestor : DetectionEventIngestor) (state : IngestState)
    (c : OpenCall) : IngestState × CallPhase :=
  match c.phase with
  | .opened =>
    match ingestor.authenticate state.tables c.call.lookupRaises c.call.envelope with
    | .error failure => (state, .fail failure)
    | .ok () => (state, .verified)
  | .verified =>
    match requireClock c.call.reading with
    | .error e => (state, .fail (policyFailure e))
    | .ok now =>
      match prepare ingestor.settings now c.body with
      | .error e => (state, .fail (policyFailure e))
      | .ok r => (state, .waiting r)
  | .waiting r =>
    match enterLock state.policy r with
    | (policy, .error e) => (⟨policy, state.tables⟩, .fail (policyFailure e))
    | (policy, .ok d) => (⟨policy, state.tables⟩, .storing d)
  | .storing d =>
    let (tables, outcome) := ingestor.recordEvent state.tables c.call d
    (⟨state.policy, tables⟩, .finished outcome)
  | .rejecting reason =>
    let (tables, outcome) := recordRejection state.tables c.call reason
    (⟨state.policy, tables⟩, .finished outcome)
  | .finished outcome => (state, .finished outcome)

/-- What one step of a call can do. -/
theorem advance_cases (ingestor : DetectionEventIngestor) (state : IngestState) (c : OpenCall) :
    (∃ failure, c.storing? = none ∧ ingestor.advance state c = (state, .fail failure)) ∨
    (c.phase = .opened ∧
      ingestor.authenticate state.tables c.call.lookupRaises c.call.envelope = .ok () ∧
      ingestor.advance state c = (state, .verified)) ∨
    (∃ now r, c.phase = .verified ∧ Prepared ingestor.settings now c.body r ∧
      ingestor.advance state c = (state, .waiting r)) ∨
    (∃ r d, c.phase = .waiting r ∧ (enterLock state.policy r).2 = .ok d ∧
      ingestor.advance state c = (⟨(enterLock state.policy r).1, state.tables⟩, .storing d)) ∨
    (∃ d, c.phase = .storing d ∧ ingestor.advance state c =
      (⟨state.policy, (ingestor.recordEvent state.tables c.call d).1⟩,
        .finished (ingestor.recordEvent state.tables c.call d).2)) ∨
    ∃ tables outcome, c.storing? = none ∧ tables.detectionEvents = state.tables.detectionEvents ∧
      tables.nodes = state.tables.nodes ∧
      ingestor.advance state c = (⟨state.policy, tables⟩, .finished outcome) := by
  obtain ⟨call, phase⟩ := c
  cases phase with
  | opened =>
    cases hauth : ingestor.authenticate state.tables call.lookupRaises call.envelope with
    | error failure =>
      exact Or.inl ⟨failure, rfl, by simp [DetectionEventIngestor.advance, hauth]⟩
    | ok _ =>
      exact Or.inr (Or.inl ⟨rfl, rfl, by simp [DetectionEventIngestor.advance, hauth]⟩)
  | verified =>
    cases hclock : requireClock call.reading with
    | error e =>
      exact Or.inl ⟨policyFailure e, rfl, by simp [DetectionEventIngestor.advance, hclock]⟩
    | ok now =>
      cases hp : prepare ingestor.settings now call.envelope.body with
      | error e =>
        exact Or.inl ⟨policyFailure e, rfl, by
          simp [DetectionEventIngestor.advance, hclock, OpenCall.body, hp]⟩
      | ok r =>
        exact Or.inr (Or.inr (Or.inl ⟨now, r, rfl, prepare_ok_iff.mp hp, by
          simp [DetectionEventIngestor.advance, hclock, OpenCall.body, hp]⟩))
  | waiting r =>
    cases hlock : (enterLock state.policy r).2 with
    | error e =>
      have hstate := enterLock_error_state hlock
      refine Or.inl ⟨policyFailure e, rfl, ?_⟩
      rcases hout : enterLock state.policy r with ⟨policy, outcome⟩
      rw [hout] at hlock hstate
      simp_all [DetectionEventIngestor.advance]
    | ok d =>
      refine Or.inr (Or.inr (Or.inr (Or.inl ⟨r, d, rfl, hlock, ?_⟩)))
      rcases hout : enterLock state.policy r with ⟨policy, outcome⟩
      rw [hout] at hlock
      simp_all [DetectionEventIngestor.advance]
  | storing d => exact Or.inr (Or.inr (Or.inr (Or.inr (Or.inl ⟨d, rfl, rfl⟩))))
  | rejecting reason =>
    obtain ⟨hevents, hnodes⟩ := refuse_events state.tables call (.rejection reason)
    exact Or.inr (Or.inr (Or.inr (Or.inr (Or.inr ⟨_, _, rfl, hevents, hnodes, rfl⟩))))
  | finished outcome =>
    exact Or.inr (Or.inr (Or.inr (Or.inr (Or.inr ⟨_, _, rfl, rfl, rfl, rfl⟩))))

/-- An envelope and the key it was signed with. -/
structure Signing (ed : Ed25519) where
  privateKey : ed.PrivateKey
  envelope : SignedDetectionEnvelope

/-- The process, its open calls, and what the workers have signed so far. -/
structure Aggregator (ed : Ed25519) where
  state : IngestState
  calls : List OpenCall
  signed : List (Signing ed)

/-- A worker signs an event, the network submits an envelope, or an open call advances. -/
inductive AggregatorAction (ed : Ed25519) where
  | sign (privateKey : ed.PrivateKey) (event : DetectionEvent)
  | submit (call : IngestCall)
  | advance (index : ℕ)

namespace Aggregator
variable {ingestor : DetectionEventIngestor}

/-- A process that just started on these tables, before anything was signed. -/
def start (ed : Ed25519) (tables : Tables) : Aggregator ed := ⟨⟨.initial, tables⟩, [], []⟩

/-- The call at the index moved on. -/
def update (s : Aggregator ingestor.ed) (i : ℕ) (c : OpenCall)
    (next : IngestState × CallPhase) : Aggregator ingestor.ed :=
  { s with state := next.1, calls := s.calls.set i { c with phase := next.2 } }

def step (s : Aggregator ingestor.ed) : AggregatorAction ingestor.ed → Aggregator ingestor.ed
  | .sign privateKey event =>
    match signDetectionEvent ingestor.ed ingestor.reprFloat event privateKey with
    | .error _ => s
    | .ok envelope => { s with signed := s.signed ++ [⟨privateKey, envelope⟩] }
  | .submit call => { s with calls := s.calls ++ [⟨call, .opened⟩] }
  | .advance i =>
    match s.calls[i]? with
    | none => s
    | some c => s.update i c (ingestor.advance s.state c)

def run (s : Aggregator ingestor.ed) (actions : List (AggregatorAction ingestor.ed)) :
    Aggregator ingestor.ed := actions.foldl step s

theorem step_sign (s : Aggregator ingestor.ed) {privateKey : ingestor.ed.PrivateKey}
    {event : DetectionEvent} {envelope : SignedDetectionEnvelope}
    (h : signDetectionEvent ingestor.ed ingestor.reprFloat event privateKey = .ok envelope) :
    s.step (.sign privateKey event) =
      { s with signed := s.signed ++ [⟨privateKey, envelope⟩] } := by
  simp [step, h]

theorem step_absent {s : Aggregator ingestor.ed} {i : ℕ} (h : s.calls[i]? = none) :
    s.step (.advance i) = s := by
  simp [step, h]

theorem step_advance {s : Aggregator ingestor.ed} {i : ℕ} {c : OpenCall}
    (h : s.calls[i]? = some c) :
    s.step (.advance i) = s.update i c (ingestor.advance s.state c) := by
  simp [step, h]

/-- What one action can do. -/
theorem step_cases (s : Aggregator ingestor.ed) (a : AggregatorAction ingestor.ed) :
    s.step a = s ∨
    (∃ x, signDetectionEvent ingestor.ed ingestor.reprFloat x.envelope.body x.privateKey =
        .ok x.envelope ∧ s.step a = { s with signed := s.signed ++ [x] }) ∨
    (∃ call, s.step a = { s with calls := s.calls ++ [⟨call, .opened⟩] }) ∨
    ∃ i c, a = .advance i ∧ s.calls[i]? = some c ∧
      s.step a = s.update i c (ingestor.advance s.state c) := by
  cases a with
  | sign privateKey event =>
    cases hsign : signDetectionEvent ingestor.ed ingestor.reprFloat event privateKey with
    | error e => exact Or.inl (by simp [step, hsign])
    | ok envelope =>
      obtain ⟨rfl, -⟩ := signDetectionEvent_eq_ok hsign
      exact Or.inr (Or.inl ⟨⟨privateKey, envelope⟩, hsign, s.step_sign hsign⟩)
  | submit call => exact Or.inr (Or.inr (Or.inl ⟨call, rfl⟩))
  | advance i =>
    cases hi : s.calls[i]? with
    | none => exact Or.inl (step_absent hi)
    | some c => exact Or.inr (Or.inr (Or.inr ⟨i, c, rfl, hi, step_advance hi⟩))

/-- Advancing the newest call. -/
theorem step_newest (state : IngestState) (calls : List OpenCall) (c : OpenCall)
    (signed : List (Signing ingestor.ed)) :
    (⟨state, calls ++ [c], signed⟩ : Aggregator ingestor.ed).step (.advance calls.length) =
      ⟨(ingestor.advance state c).1, calls ++ [⟨c.call, (ingestor.advance state c).2⟩],
        signed⟩ := by
  simp [step, update]

/-- A failed call answers with its next step. -/
theorem advance_fail (state : IngestState) (call : IngestCall) (failure : IngestFailure) :
    ingestor.advance state ⟨call, .fail failure⟩ =
      (⟨state.policy, (refuse state.tables call failure).1⟩,
        .finished (refuse state.tables call failure).2) := by
  cases failure <;> rfl

theorem advance_storing (state : IngestState) (call : IngestCall) (d : EventSecurityDecision) :
    ingestor.advance state ⟨call, .storing d⟩ =
      (⟨state.policy, (ingestor.recordEvent state.tables call d).1⟩,
        .finished (ingestor.recordEvent state.tables call d).2) := rfl

theorem advance_finished (state : IngestState) (call : IngestCall) (outcome : IngestOutcome) :
    ingestor.advance state ⟨call, .finished outcome⟩ = (state, .finished outcome) := rfl

/-- A call whose steps are not interleaved with others is a serial call. -/
theorem run_serial (s : Aggregator ingestor.ed) (call : IngestCall) :
    let i := s.calls.length
    s.run [.submit call, .advance i, .advance i, .advance i, .advance i] =
      { s with
        state := (ingestor.ingest s.state call).1
        calls := s.calls ++ [⟨call, .finished (ingestor.ingest s.state call).2⟩] } := by
  intro i
  have hsubmit : s.step (.submit call) = ⟨s.state, s.calls ++ [⟨call, .opened⟩], s.signed⟩ := rfl
  simp only [run, List.foldl_cons, List.foldl_nil, hsubmit, i, step_newest]
  cases hauth : ingestor.authenticate s.state.tables call.lookupRaises call.envelope with
  | error failure =>
    have hopened : ingestor.advance s.state ⟨call, .opened⟩ = (s.state, .fail failure) := by
      simp [DetectionEventIngestor.advance, hauth]
    simp [hopened, advance_fail, advance_finished, DetectionEventIngestor.ingest, hauth]
  | ok _ =>
    have hopened : ingestor.advance s.state ⟨call, .opened⟩ = (s.state, .verified) := by
      simp [DetectionEventIngestor.advance, hauth]
    rw [hopened]
    unfold DetectionEventIngestor.ingest acceptVerifiedEvent
    rw [hauth]
    dsimp only
    cases hclock : requireClock call.reading with
    | error e =>
      have hverified : ingestor.advance s.state ⟨call, .verified⟩ =
          (s.state, .fail (policyFailure e)) := by
        simp [DetectionEventIngestor.advance, hclock]
      simp [hverified, advance_fail, advance_finished]
    | ok now =>
      cases hprepare : prepare ingestor.settings now call.envelope.body with
      | error e =>
        have hverified : ingestor.advance s.state ⟨call, .verified⟩ =
            (s.state, .fail (policyFailure e)) := by
          simp [DetectionEventIngestor.advance, hclock, OpenCall.body, hprepare]
        simp [hverified, advance_fail, advance_finished, hprepare]
      | ok r =>
        have hverified : ingestor.advance s.state ⟨call, .verified⟩ = (s.state, .waiting r) := by
          simp [DetectionEventIngestor.advance, hclock, OpenCall.body, hprepare]
        rw [hverified]
        rcases hlock : enterLock s.state.policy r with ⟨policy, e | d⟩
        · have hwaiting : ingestor.advance s.state ⟨call, .waiting r⟩ =
              (⟨policy, s.state.tables⟩, .fail (policyFailure e)) := by
            simp [DetectionEventIngestor.advance, hlock]
          simp [hwaiting, advance_fail, hprepare, hlock]
        · have hwaiting : ingestor.advance s.state ⟨call, .waiting r⟩ =
              (⟨policy, s.state.tables⟩, .storing d) := by
            simp [DetectionEventIngestor.advance, hlock]
          simp [hwaiting, advance_storing, hprepare, hlock]

end Aggregator

end SecureEdge
