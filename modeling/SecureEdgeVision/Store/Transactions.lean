import SecureEdgeVision.Runs.Serial
import SecureEdgeVision.Store.Sessions

/-! The database operations of one aggregator, each a unit of work in a session of its own, and the
same operations in one step on the tables. -/
namespace SecureEdge

open Runs (Custody Raising SessionMet SessionStep Settles Store Traced run unitOfWork)

section Work
variable {α : Type}

/-- `ingest` converts nothing that its session factory, rollback or close raises. -/
def ingestRaising : Raising IngestRaised := ⟨.escaped, fun _ => .escaped, .escaped⟩

/-- `_open_session`, `_rollback` and `_close` of the heartbeat service. -/
def heartbeatRaising : Raising HeartbeatFailure := ⟨.service, fun _ => .service, .service⟩

def seedRaising : Raising SeedFailure := ⟨.other, fun _ => .other, .other⟩

def monitoringRaising : Raising MonitoringServiceError := ⟨⟨⟩, fun _ => ⟨⟩, ⟨⟩⟩

/-- The alert view swallows what its rollback raises. -/
def alertRaising : Raising PersistenceError :=
  ⟨⟨"security alert query failed"⟩, id, ⟨"security alert query failed"⟩⟩

/-- The session of a call of a view. -/
def ListCall.met (call : ListCall) (rollbackRaises : Bool) : SessionMet :=
  ⟨call.openRaises, rollbackRaises, call.closeRaises⟩

/-- A view of the monitoring module. -/
def monitoredWork (session : ℕ) (rollbackRaises : Bool) (call : ListCall)
    (result : Except ReadFailure α) : Traced (SessionStep Tables) MonitoringServiceError α :=
  if call.validLimit then
    unitOfWork monitoringRaising (call.met rollbackRaises) session
      (viewSteps session call ⟨⟩ (result.mapError fun _ => ⟨⟩))
  else raise ⟨⟩

/-- The view of the alerts. -/
def alertsWork (session : ℕ) (rollbackRaises : Bool) (call : ListCall)
    (result : Except PersistenceError α) : Traced (SessionStep Tables) PersistenceError α :=
  if call.validLimit then
    unitOfWork alertRaising (call.met rollbackRaises) session
      (viewSteps session call ⟨"security alert query failed"⟩ result)
  else raise ⟨"security alert query limit is invalid"⟩

/-- `seed_node_registry` opens a session unless it raises or returns before. -/
def seedWork (session : ℕ) (tables : Tables) (met : SessionMet) (call : SeedCall) :
    Traced (SessionStep Tables) SeedFailure ℕ :=
  match call.registeredAt with
  | .utc timestamp =>
    match call.registrations.foldlM collectRegistration Python.Dict.empty with
    | .error e => raise (.persistence e)
    | .ok byId =>
      if byId.entries = [] then pure 0
      else unitOfWork seedRaising met session (seedSteps session tables timestamp call byId.entries)
  | _ => raise (.persistence ⟨"registration timestamp must be aware UTC"⟩)

/-- A batch that is collected and not empty. -/
def SeedCall.opens (call : SeedCall) : Bool :=
  match call.registeredAt with
  | .utc _ =>
    match call.registrations.foldlM collectRegistration Python.Dict.empty with
    | .error _ => false
    | .ok byId => !byId.entries.isEmpty
  | _ => false

end Work

/-- A call of an operation on the database, with what its session meets. -/
inductive DatabaseCall where
  | ingest (met : SessionMet) (call : IngestCall)
  | record (met : SessionMet) (call : HeartbeatCall)
  | seed (met : SessionMet) (call : SeedCall)
  | aggregatorHealth (call : HealthCall)
  | nodeHealth (rollbackRaises : Bool) (call : ListCall)
  | recentEvents (rollbackRaises : Bool) (call : ListCall)
  | securityAlerts (rollbackRaises : Bool) (call : ListCall)

inductive DatabaseAnswer where
  | ingested (result : Except IngestRaised ℕ)
  | recorded (result : Except HeartbeatFailure Unit)
  | seeded (result : Except SeedFailure ℕ)
  | aggregatorHealth (result : Except MonitoringServiceError AggregatorHealth)
  | nodeHealth (result : Except MonitoringServiceError (List NodeHealth))
  | recentEvents (result : Except MonitoringServiceError (List RecentDetectionEvent))
  | securityAlerts (result : Except PersistenceError (List SecurityAlert))

def DatabaseAnswer.returned : DatabaseAnswer → Bool
  | .ingested result => result.isOk
  | .recorded result => result.isOk
  | .seeded result => result.isOk
  | .aggregatorHealth result => result.isOk
  | .nodeHealth result => result.isOk
  | .recentEvents result => result.isOk
  | .securityAlerts result => result.isOk

/-- What an operation answered and did with its session. -/
structure Performed where
  answer : DatabaseAnswer
  steps : List (SessionStep Tables)

def performed {ε α : Type} (answer : Except ε α → DatabaseAnswer)
    (work : Traced (SessionStep Tables) ε α) : Performed :=
  ⟨answer work.result, work.calls⟩

/-- The replay state of the process, the store, and the number of sessions opened so far. -/
structure DatabaseProcess where
  policy : ReplayState
  store : Store Tables
  sessions : ℕ

namespace DetectionEventIngestor
variable (ingestor : DetectionEventIngestor) (depth : ℕ)

/-- What a call does in the next session on what is durable. -/
def work (state : IngestState) (session : ℕ) : DatabaseCall → Performed
  | .ingest met call => performed .ingested
      (unitOfWork ingestRaising met session (ingestor.ingestSteps session state call))
  | .record met call => performed .recorded (unitOfWork heartbeatRaising met session
      (HeartbeatService.recordSteps session ingestor.settings state.tables call))
  | .seed met call => performed .seeded (seedWork session state.tables met call)
  | .aggregatorHealth call => performed .aggregatorHealth
      (unitOfWork monitoringRaising call.met session (healthSteps session state.tables call))
  | .nodeHealth rollbackRaises call => performed .nodeHealth
      (monitoredWork session rollbackRaises call (state.tables.database.nodeHealths call.limit))
  | .recentEvents rollbackRaises call => performed .recentEvents (monitoredWork session
      rollbackRaises call (state.tables.database.recentEvents depth call.limit))
  | .securityAlerts rollbackRaises call => performed .securityAlerts
      (alertsWork session rollbackRaises call (state.tables.database.newestAlerts call.limit))

/-- The replay state after a call. Only an ingest that has its session reaches it. -/
def policyThrough (state : IngestState) : DatabaseCall → ReplayState
  | .ingest met call =>
    if met.openRaises then state.policy else ingestor.policyAfter state call
  | _ => state.policy

/-- One call, session step by session step. -/
def perform (process : DatabaseProcess) (call : DatabaseCall) : DatabaseProcess × Performed :=
  let state : IngestState := ⟨process.policy, process.store.durable⟩
  let done := ingestor.work depth state process.sessions call
  (⟨ingestor.policyThrough state call, process.store.after done.steps,
    process.sessions + done.steps.countP SessionStep.isOpening⟩, done)

/-- One call in one step on the tables. -/
def atomic (state : IngestState) : DatabaseCall → IngestState × DatabaseAnswer
  | .ingest met call =>
    let (after, outcome) := ingestor.ingest state
      { call with lookupRaises := met.openRaises || call.lookupRaises }
    (after, .ingested (met.settle ingestRaising outcome.result))
  | .record met call =>
    let (tables, outcome) := HeartbeatService.record ingestor.settings state.tables
      { call with lookupRaises := met.openRaises || call.lookupRaises }
    (⟨state.policy, tables⟩, .recorded (met.settle heartbeatRaising outcome))
  | .seed met call =>
    let (tables, outcome) := seedNodeRegistry state.tables
      { call with queryRaises := if met.openRaises then some .other else call.queryRaises }
    (⟨state.policy, tables⟩,
      .seeded (if call.opens then met.settle seedRaising outcome else outcome))
  | .aggregatorHealth call => (state, .aggregatorHealth (getAggregatorHealth state.tables call))
  | .nodeHealth _ call => (state, .nodeHealth (listNodeHealth state.tables.database call))
  | .recentEvents _ call => (state, .recentEvents
      (listRecentEvents depth state.tables.database call))
  | .securityAlerts _ call => (state, .securityAlerts
      (listSecurityAlerts state.tables.database call))

end DetectionEventIngestor

/-- The answer of an operation and what its steps make of the tables. -/
structure Performed.Achieves (done : Performed) (session : ℕ) (before after : Tables)
    (answered : DatabaseAnswer) : Prop where
  answer : done.answer = answered
  settles : Settles session before after answered.returned done.steps

section Operations
variable {ε α : Type} {session : ℕ} {before after : Tables} {answer : Except ε α → DatabaseAnswer}

/-- A unit of work achieves what its body does, and nothing if it has no session. -/
theorem unitOfWork_achieves (hanswer : ∀ result, (answer result).returned = result.isOk)
    {body : Traced (SessionStep Tables) ε α} {result : Except ε α} (raising : Raising ε)
    (met : SessionMet) (hopened : met.openRaises = false → Does session before after result body)
    (hunopened : met.openRaises = true → after = before) :
    (performed answer (unitOfWork raising met session body)).Achieves session before after
      (answer (met.settle raising result)) := by
  cases hopen : met.openRaises with
  | true =>
    rw [hunopened hopen, Runs.settle_of_openRaises raising hopen]
    constructor
    · show answer (met.settle raising body.result) = _
      rw [Runs.settle_of_openRaises raising hopen]
    · rw [hanswer]
      exact Runs.settles_unopened raising hopen session before body
  | false =>
    obtain ⟨hresult, hsettles⟩ := (hopened hopen).settles raising hopen
    constructor
    · show answer (unitOfWork raising met session body).result = _
      rw [hresult]
    · rw [hanswer]
      exact hsettles

/-- An operation that ends before it opens a session. -/
theorem unopened_achieves (session : ℕ) (tables : Tables) (result : Except ε α) :
    (performed answer ⟨[], result⟩).Achieves session tables tables (answer result) :=
  ⟨rfl, Runs.settles_nothing session tables _⟩

theorem monitored_eq_settle (call : ListCall) (rollbackRaises : Bool)
    (result : Except ReadFailure α) :
    monitored call result = if call.validLimit then
      (call.met rollbackRaises).settle monitoringRaising
        (if call.queryRaises then .error ⟨⟩ else result.mapError fun _ => ⟨⟩)
      else .error ⟨⟩ := by
  unfold monitored SessionMet.settle ListCall.met
  cases call.validLimit <;> cases call.openRaises <;> cases call.queryRaises <;>
    cases call.closeRaises <;> cases result <;> simp [Except.mapError, monitoringRaising]

theorem monitoredWork_achieves {answer : Except MonitoringServiceError α → DatabaseAnswer}
    (hanswer : ∀ result, (answer result).returned = result.isOk) (tables : Tables)
    (rollbackRaises : Bool) (call : ListCall) (result : Except ReadFailure α) :
    (performed answer (monitoredWork session rollbackRaises call result)).Achieves session tables
      tables (answer (monitored call result)) := by
  rw [monitored_eq_settle call rollbackRaises]
  unfold monitoredWork
  cases call.validLimit with
  | true =>
    exact unitOfWork_achieves hanswer monitoringRaising (call.met rollbackRaises)
      (fun _ => viewSteps_does session tables call _ _) fun _ => rfl
  | false => exact unopened_achieves session tables _

theorem alertsWork_achieves {answer : Except PersistenceError α → DatabaseAnswer}
    (hanswer : ∀ result, (answer result).returned = result.isOk) (tables : Tables)
    (rollbackRaises : Bool) (call : ListCall) (result : Except PersistenceError α) :
    (performed answer (alertsWork session rollbackRaises call result)).Achieves session tables
      tables (answer (if call.validLimit then
        if call.openRaises || call.queryRaises || call.closeRaises then
          .error ⟨"security alert query failed"⟩
        else result
      else .error ⟨"security alert query limit is invalid"⟩)) := by
  unfold alertsWork
  cases call.validLimit with
  | false => exact unopened_achieves session tables _
  | true =>
    have hsettle : (call.met rollbackRaises).settle alertRaising
        (if call.queryRaises then .error ⟨"security alert query failed"⟩ else result) =
      if call.openRaises || call.queryRaises || call.closeRaises then
        .error ⟨"security alert query failed"⟩ else result := by
      unfold SessionMet.settle ListCall.met
      cases call.openRaises <;> cases call.queryRaises <;> cases call.closeRaises <;>
        cases result <;> simp [alertRaising]
    simp only [if_true]
    rw [← hsettle]
    exact unitOfWork_achieves hanswer alertRaising (call.met rollbackRaises)
      (fun _ => viewSteps_does session tables call _ _) fun _ => rfl

theorem healthWork_achieves (session : ℕ) (tables : Tables) (call : HealthCall) :
    (performed .aggregatorHealth (unitOfWork monitoringRaising call.met session
      (healthSteps session tables call))).Achieves session tables tables
      (.aggregatorHealth (getAggregatorHealth tables call)) := by
  have hsettle : call.met.settle monitoringRaising (getAggregatorHealth tables
      { call with met := ⟨false, call.met.rollbackRaises, false⟩ }) =
      getAggregatorHealth tables call := by
    unfold SessionMet.settle getAggregatorHealth
    cases call.met.openRaises <;> cases call.met.closeRaises <;> cases call.nodesRaise <;>
      cases call.eventsRaise <;> cases call.alertsRaise <;> simp [monitoringRaising]
  rw [← hsettle]
  exact unitOfWork_achieves (fun _ => rfl) monitoringRaising call.met
    (fun _ => healthSteps_does session tables call) fun _ => rfl

end Operations

section Seeding

theorem SeedCall.opens_eq_true {call : SeedCall} (h : call.opens = true) :
    ∃ timestamp byId, call.registeredAt = .utc timestamp ∧
      call.registrations.foldlM collectRegistration Python.Dict.empty = .ok byId ∧
      byId.entries ≠ [] := by
  unfold SeedCall.opens at h
  cases htime : call.registeredAt <;> simp only [htime, Bool.false_eq_true] at h
  cases hcollect : call.registrations.foldlM collectRegistration Python.Dict.empty <;>
    simp only [hcollect, Bool.false_eq_true] at h
  exact ⟨_, _, rfl, rfl, by simpa using h⟩

/-- A seeding that opens no session ends the same on any tables. -/
theorem seedWork_unopened {call : SeedCall} (h : call.opens = false) (session : ℕ)
    (tables : Tables) (met : SessionMet) (queryRaises : Option SeedFailure) : ∃ result,
      seedNodeRegistry tables { call with queryRaises } = (tables, result) ∧
      seedWork session tables met call = ⟨[], result⟩ := by
  unfold SeedCall.opens at h
  unfold seedNodeRegistry seedWork
  cases htime : call.registeredAt with
  | utc timestamp =>
    dsimp only
    cases hcollect : call.registrations.foldlM collectRegistration Python.Dict.empty with
    | error e => exact ⟨_, rfl, rfl⟩
    | ok byId =>
      have hentries : byId.entries = [] := by simpa [htime, hcollect] using h
      dsimp only
      rw [if_pos hentries, if_pos hentries]
      exact ⟨_, rfl, rfl⟩
  | failed => exact ⟨_, rfl, rfl⟩
  | notUtc => exact ⟨_, rfl, rfl⟩

theorem seedWork_achieves (session : ℕ) (tables : Tables) (met : SessionMet) (call : SeedCall) :
    let call' : SeedCall :=
      { call with queryRaises := if met.openRaises then some .other else call.queryRaises }
    (performed .seeded (seedWork session tables met call)).Achieves session tables
      (seedNodeRegistry tables call').1
      (.seeded (if call.opens then met.settle seedRaising (seedNodeRegistry tables call').2
        else (seedNodeRegistry tables call').2)) := by
  intro call'
  cases hopens : call.opens with
  | false =>
    obtain ⟨result, hseed, hwork⟩ := seedWork_unopened hopens session tables met call'.queryRaises
    rw [hwork, show seedNodeRegistry tables call' = _ from hseed]
    exact unopened_achieves session tables result
  | true =>
    obtain ⟨timestamp, byId, htime, hcollect, hentries⟩ := SeedCall.opens_eq_true hopens
    have hwork : seedWork session tables met call = unitOfWork seedRaising met session
        (seedSteps session tables timestamp call byId.entries) := by
      simp [seedWork, htime, hcollect, hentries]
    rw [hwork, if_pos rfl]
    apply unitOfWork_achieves (fun _ => rfl) seedRaising met
    · intro hopen
      have hcall : call' = call := by simp [call', hopen]
      rw [hcall]
      exact seedSteps_does session tables timestamp call htime hcollect hentries
    · intro hopen
      simp [seedNodeRegistry, call', htime, hcollect, hentries, hopen]

end Seeding

namespace DetectionEventIngestor
variable (ingestor : DetectionEventIngestor) (depth : ℕ)

theorem ingest_of_lookupRaises (state : IngestState) (call : IngestCall)
    (h : call.lookupRaises = true) : ingestor.ingest state call = (state, .serviceError) := by
  have hauth : ingestor.authenticate state.tables true call.envelope = .error .service := rfl
  unfold ingest
  rw [h, hauth]
  rfl

/-- Every call achieves in its session what it does in one step on the tables. -/
theorem work_achieves (state : IngestState) (session : ℕ) (call : DatabaseCall) :
    (ingestor.work depth state session call).Achieves session state.tables
        (ingestor.atomic depth state call).1.tables (ingestor.atomic depth state call).2 ∧
      ingestor.policyThrough state call = (ingestor.atomic depth state call).1.policy := by
  cases call with
  | ingest met call =>
    unfold work policyThrough atomic
    dsimp only
    cases hopen : met.openRaises with
    | true =>
      have hsteps := ingestor.ingest_of_lookupRaises state { call with lookupRaises := true } rfl
      simp only [Bool.true_or, hsteps, if_true]
      refine ⟨?_, trivial⟩
      apply unitOfWork_achieves (fun _ => rfl) ingestRaising met
      · intro hopened
        rw [hopen] at hopened
        cases hopened
      · exact fun _ => rfl
    | false =>
      obtain ⟨hdoes, hpolicy⟩ := ingestor.ingestSteps_does session state call
      simp only [Bool.false_or]
      refine ⟨?_, hpolicy⟩
      apply unitOfWork_achieves (fun _ => rfl) ingestRaising met (fun _ => hdoes)
      intro hopened
      rw [hopen] at hopened
      cases hopened
  | record met call =>
    refine ⟨?_, rfl⟩
    unfold work atomic
    dsimp only
    apply unitOfWork_achieves (fun _ => rfl) heartbeatRaising met
    · intro hopen
      rw [hopen, Bool.false_or]
      exact HeartbeatService.recordSteps_does session ingestor.settings state.tables call
    · intro hopen
      rw [hopen, Bool.true_or]
      rfl
  | seed met call => exact ⟨seedWork_achieves session state.tables met call, rfl⟩
  | aggregatorHealth call => exact ⟨healthWork_achieves session state.tables call, rfl⟩
  | nodeHealth rollbackRaises call =>
    exact ⟨monitoredWork_achieves (fun _ => rfl) state.tables rollbackRaises call _, rfl⟩
  | recentEvents rollbackRaises call =>
    exact ⟨monitoredWork_achieves (fun _ => rfl) state.tables rollbackRaises call _, rfl⟩
  | securityAlerts rollbackRaises call =>
    exact ⟨alertsWork_achieves (fun _ => rfl) state.tables rollbackRaises call _, rfl⟩

/-- One call keeps the session discipline and goes from one durable state to the next. -/
theorem perform_eq (state : IngestState) (sessions : ℕ) (call : DatabaseCall) :
    let done := ingestor.work depth state sessions call
    ingestor.perform depth ⟨state.policy, ⟨state.tables, none⟩, sessions⟩ call =
      (⟨(ingestor.atomic depth state call).1.policy,
        ⟨(ingestor.atomic depth state call).1.tables, none⟩,
        sessions + done.steps.countP SessionStep.isOpening⟩, done) := by
  intro done
  obtain ⟨hachieves, hpolicy⟩ := ingestor.work_achieves depth state sessions call
  unfold perform
  dsimp only
  rw [hpolicy, hachieves.settles.store]

/-- What the operations answered, made durable and did with their sessions, along a run. -/
structure Disciplined (sessions : ℕ) (done : List Performed) (process : DatabaseProcess)
    (spec : IngestState × List DatabaseAnswer) : Prop where
  answers : done.map Performed.answer = spec.2
  policy : process.policy = spec.1.policy
  store : process.store = ⟨spec.1.tables, none⟩
  custody : Custody.follow ⟨sessions, none⟩
    ((done.flatMap Performed.steps).filterMap SessionStep.handling?) =
      some ⟨process.sessions, none⟩
  each : ∀ d ∈ done, ∃ session before after,
    Settles session before after d.answer.returned d.steps

theorem run_disciplined (state : IngestState) (sessions : ℕ) (calls : List DatabaseCall) :
    let real := run (ingestor.perform depth) ⟨state.policy, ⟨state.tables, none⟩, sessions⟩ calls
    Disciplined sessions real.2 real.1 (run (ingestor.atomic depth) state calls) := by
  induction calls generalizing state sessions with
  | nil => exact ⟨rfl, rfl, rfl, rfl, by simp⟩
  | cons call calls ih =>
    have hstep := ingestor.perform_eq depth state sessions call
    obtain ⟨hachieves, -⟩ := ingestor.work_achieves depth state sessions call
    have hrest := ih (ingestor.atomic depth state call).1
      (sessions + (ingestor.work depth state sessions call).steps.countP SessionStep.isOpening)
    simp only [Runs.run_cons_state, Runs.run_cons_outputs, hstep]
    constructor
    · simp [hachieves.answer, hrest.answers]
    · exact hrest.policy
    · exact hrest.store
    · rw [List.flatMap_cons, List.filterMap_append, Custody.follow_append,
        hachieves.settles.custody]
      exact hrest.custody
    · intro d hd
      rcases List.mem_cons.mp hd with rfl | hd
      · exact ⟨_, _, _, hachieves.answer ▸ hachieves.settles⟩
      · exact hrest.each d hd

/-- Session by session the operations do what they do in one step on the tables. Every session is
opened and closed once and used only in between, and an operation commits at most once and rolls
back exactly when it raises. -/
theorem sessions_refine_tables (ingestor : DetectionEventIngestor) (depth : ℕ)
    (state : IngestState) (calls : List DatabaseCall) :
    let real := run (ingestor.perform depth) ⟨state.policy, ⟨state.tables, none⟩, 0⟩ calls
    let spec := run (ingestor.atomic depth) state calls
    let log := (real.2.flatMap Performed.steps).filterMap SessionStep.handling?
    real.2.map Performed.answer = spec.2 ∧
    real.1.policy = spec.1.policy ∧ real.1.store = ⟨spec.1.tables, none⟩ ∧
    (∀ session, log.count (.acquire session) = (if session < real.1.sessions then 1 else 0) ∧
      log.count (.release session) = if session < real.1.sessions then 1 else 0) ∧
    (∀ before session after, log = before ++ .use session :: after →
      before.count (.acquire session) = 1 ∧ before.count (.release session) = 0) ∧
    ∀ done ∈ real.2, done.steps.countP SessionStep.isCommit ≤ 1 ∧
      done.steps.countP SessionStep.isRollback ≤ 1 ∧
      (done.answer.returned = true → done.steps.countP SessionStep.isRollback = 0) ∧
      (done.answer.returned = false → 0 < done.steps.countP SessionStep.isOpening →
        (∀ session, .closed session true ∉ done.steps) →
        done.steps.countP SessionStep.isRollback = 1) := by
  intro real spec log
  have hrun : Disciplined 0 real.2 real.1 spec := ingestor.run_disciplined depth state 0 calls
  have haccounts := Custody.accounts_of_follow hrun.custody
  refine ⟨hrun.answers, hrun.policy, hrun.store, ?_, ?_, ?_⟩
  · intro session
    refine ⟨haccounts.acquired session, ?_⟩
    simpa using haccounts.released session
  · intro before session after hlog
    have hcustody : Custody.follow ⟨0, none⟩ log = some ⟨real.1.sessions, none⟩ := hrun.custody
    rw [hlog] at hcustody
    exact Custody.held_at_use hcustody
  · intro done hdone
    obtain ⟨_, _, _, hsettles⟩ := hrun.each done hdone
    exact ⟨hsettles.commits, hsettles.rollbacks, hsettles.returned, hsettles.raised⟩

end DetectionEventIngestor

end SecureEdge
