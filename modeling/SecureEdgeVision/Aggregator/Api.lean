import SecureEdgeVision.Aggregator.QueryLimit
import SecureEdgeVision.Aggregator.Responses
import SecureEdgeVision.Store.Transactions

/-! All routes of the aggregator over its database sessions: the two posts, the health counts and
the three views. -/
namespace SecureEdge

open Runs (SessionMet SessionStep run)

/-- What a view meets in its session. -/
structure ViewSurroundings where
  met : SessionMet
  queryRaises : Bool
deriving DecidableEq

def ViewSurroundings.call (s : ViewSurroundings) (limit : ℕ) : ListCall :=
  ⟨limit, s.met.openRaises, s.queryRaises, s.met.closeRaises⟩

inductive ApiRequest where
  | ingestDetection (request : HttpRequest) (met : SessionMet) (surroundings : IngestSurroundings)
  | recordHeartbeat (request : HttpRequest) (met : SessionMet)
      (surroundings : HeartbeatSurroundings)
  | getHealth (request : HttpRequest) (call : HealthCall)
  | getNodes (request : HttpRequest) (surroundings : ViewSurroundings)
  | getEvents (request : HttpRequest) (surroundings : ViewSurroundings)
  | getSecurityAlerts (request : HttpRequest) (surroundings : ViewSurroundings)

/-- The empty response and `_json_error`, whose body an `HTTPException` also has, or the model that
a read returns. -/
inductive ApiResponse where
  | plain (response : Response)
  | health (health : AggregatorHealth)
  | nodes (nodes : List NodeHealth)
  | events (events : List RecentDetectionEvent)
  | securityAlerts (alerts : List SecurityAlert)

def ApiResponse.status : ApiResponse → ℕ
  | .plain response => response.status
  | _ => 200

/-- The clauses of `ingest_detection` after the request is read. -/
def ingestResponse : Except IngestRaised ℕ → Response
  | .ok recordId => (IngestOutcome.accepted recordId).response
  | .error (.failure (.rejection reason)) => (IngestOutcome.rejected reason).response
  | .error (.failure .service) => IngestOutcome.serviceError.response
  | .error .escaped => IngestOutcome.serviceError.response

/-- A read that raised, with the code its route has for an outage. -/
def outage (code : String) : ApiResponse := .plain (.jsonError ⟨503, code⟩)

def DatabaseAnswer.response : DatabaseAnswer → ApiResponse
  | .ingested result => .plain (ingestResponse result)
  | .recorded result => .plain (heartbeatResponse result)
  -- no route seeds the registry
  | .seeded _ => outage HeartbeatReason.serviceUnavailable.value
  | .aggregatorHealth (.ok health) => .health health
  | .aggregatorHealth (.error _) => outage HeartbeatReason.serviceUnavailable.value
  | .nodeHealth (.ok nodes) => .nodes nodes
  | .nodeHealth (.error _) => outage HeartbeatReason.serviceUnavailable.value
  | .recentEvents (.ok events) => .events events
  | .recentEvents (.error _) => outage HeartbeatReason.serviceUnavailable.value
  | .securityAlerts (.ok alerts) => .securityAlerts alerts
  | .securityAlerts (.error _) => outage IngestionReason.serviceUnavailable.value

/-- What a request does: its session steps and its response. -/
structure Handled where
  response : ApiResponse
  steps : List (SessionStep Tables)

namespace AggregatorApp
variable (app : AggregatorApp) (viewDepth : ℕ)

/-- `_bounded_limit` with the default and maximum of the list routes. -/
def routeLimit (request : HttpRequest) : Except WireError ℕ :=
  (boundedLimit request defaultQueryLimit maxQueryLimit.toNat).mapError .failure

/-- The checks of a route, and the database call they lead to. -/
def databaseCall : ApiRequest → Except WireError DatabaseCall
  | .ingestDetection request met surroundings => do
    let envelope ← app.readDetection request
    pure (.ingest met (surroundings.call envelope))
  | .recordHeartbeat request met surroundings => do
    let heartbeat ← app.readHeartbeat request
    pure (.record met (surroundings.call heartbeat))
  | .getHealth request call => do
    (requireNoQuery request).mapError .failure
    pure (.aggregatorHealth call)
  | .getNodes request surroundings => do
    let limit ← routeLimit request
    pure (.nodeHealth surroundings.met.rollbackRaises (surroundings.call limit))
  | .getEvents request surroundings => do
    let limit ← routeLimit request
    pure (.recentEvents surroundings.met.rollbackRaises (surroundings.call limit))
  | .getSecurityAlerts request surroundings => do
    let limit ← routeLimit request
    pure (.securityAlerts surroundings.met.rollbackRaises (surroundings.call limit))

/-- One request. What its checks raise is answered without a session. -/
def handle (process : DatabaseProcess) (request : ApiRequest) : DatabaseProcess × Handled :=
  match app.databaseCall request with
  | .error e => (process, ⟨.plain e.response, []⟩)
  | .ok call =>
    let (process, done) := app.ingestor.perform viewDepth process call
    (process, ⟨done.answer.response, done.steps⟩)

/-- One request in one step on the tables. -/
def resolve (state : IngestState) (request : ApiRequest) : IngestState × ApiResponse :=
  match app.databaseCall request with
  | .error e => (state, .plain e.response)
  | .ok call =>
    let (state, answer) := app.ingestor.atomic viewDepth state call
    (state, answer.response)

/-- The process between two requests, with no session open. -/
def idle (state : IngestState) (sessions : ℕ) : DatabaseProcess :=
  ⟨state.policy, ⟨state.tables, none⟩, sessions⟩

/-- Every request is answered and takes effect as in one step on the tables. -/
theorem handle_resolves (state : IngestState) (sessions : ℕ) (request : ApiRequest) :
    ∃ sessions', (app.handle viewDepth (idle state sessions) request).1 =
        idle (app.resolve viewDepth state request).1 sessions' ∧
      (app.handle viewDepth (idle state sessions) request).2.response =
        (app.resolve viewDepth state request).2 := by
  unfold handle resolve
  cases app.databaseCall request with
  | error e => exact ⟨sessions, rfl, rfl⟩
  | ok call =>
    have hperform := app.ingestor.perform_eq viewDepth state sessions call
    obtain ⟨hachieves, -⟩ := app.ingestor.work_achieves viewDepth state sessions call
    refine ⟨_, congrArg Prod.fst hperform, ?_⟩
    show (app.ingestor.perform viewDepth (idle state sessions) call).2.answer.response = _
    rw [show (app.ingestor.perform viewDepth (idle state sessions) call).2 = _ from
      congrArg Prod.snd hperform, hachieves.answer]

/-- Run lemma. -/
theorem run_handle (state : IngestState) (sessions : ℕ) (requests : List ApiRequest) :
    let real := run (app.handle viewDepth) (idle state sessions) requests
    let spec := run (app.resolve viewDepth) state requests
    (∃ sessions', real.1 = idle spec.1 sessions') ∧ real.2.map Handled.response = spec.2 := by
  induction requests generalizing state sessions with
  | nil => exact ⟨⟨sessions, rfl⟩, rfl⟩
  | cons request requests ih =>
    obtain ⟨sessions', hnext, hresponse⟩ := app.handle_resolves viewDepth state sessions request
    obtain ⟨hlast, hresponses⟩ := ih (app.resolve viewDepth state request).1 sessions'
    simp only [Runs.run_cons_state, Runs.run_cons_outputs, hnext, List.map_cons, hresponse]
    exact ⟨hlast, congrArg _ hresponses⟩

end AggregatorApp

section Counting

def ApiRequest.isDetection : ApiRequest → Bool
  | .ingestDetection _ _ _ => true
  | _ => false

/-- How many detection posts were answered with one of the statuses. -/
def detectionsAnswered (statuses : List ℕ) (exchanges : List (ApiRequest × ApiResponse)) : ℕ :=
  exchanges.countP fun x => x.1.isDetection && statuses.contains x.2.status

/-- The rows that were added account for the responses. An outage may have added a row. -/
structure Accounts (before after : Tables) (exchanges : List (ApiRequest × ApiResponse)) :
    Prop where
  nodes : after.nodes.length = before.nodes.length
  events : before.detectionEvents.length + detectionsAnswered [202] exchanges ≤
    after.detectionEvents.length
  alerts : before.securityAlerts.length + detectionsAnswered [401, 409] exchanges ≤
    after.securityAlerts.length
  total : after.detectionEvents.length + after.securityAlerts.length ≤
    before.detectionEvents.length + before.securityAlerts.length +
      detectionsAnswered [202, 401, 409, 503] exchanges

theorem Accounts.trans {a b c : Tables} {x : ApiRequest × ApiResponse}
    {exchanges : List (ApiRequest × ApiResponse)} (h : Accounts a b [x])
    (h' : Accounts b c exchanges) : Accounts a c (x :: exchanges) := by
  have hcons : ∀ statuses, detectionsAnswered statuses (x :: exchanges) =
      detectionsAnswered statuses [x] + detectionsAnswered statuses exchanges := by
    intro statuses
    unfold detectionsAnswered
    rw [← List.countP_append, List.singleton_append]
  obtain ⟨hnodes, hevents, halerts, htotal⟩ := h
  obtain ⟨hnodes', hevents', halerts', htotal'⟩ := h'
  refine ⟨hnodes'.trans hnodes, ?_, ?_, ?_⟩ <;> rw [hcons] <;> omega

/-- A request that adds neither an event nor an alert. -/
theorem Accounts.of_same {before after : Tables} {x : ApiRequest × ApiResponse}
    (hnodes : after.nodes.length = before.nodes.length)
    (hevents : after.detectionEvents = before.detectionEvents)
    (halerts : after.securityAlerts = before.securityAlerts)
    (hx : x.1.isDetection = true → [202, 401, 409].contains x.2.status = false) :
    Accounts before after [x] := by
  have hnone : ∀ statuses, (∀ s ∈ statuses, s ∈ [202, 401, 409]) →
      detectionsAnswered statuses [x] = 0 := by
    intro statuses hstatuses
    unfold detectionsAnswered
    rw [List.countP_eq_zero]
    simp only [List.mem_singleton, forall_eq, Bool.and_eq_true, List.contains_iff_mem, not_and]
    intro hdetection hstatus
    have hother := hx hdetection
    simp only [List.contains_eq_mem, decide_eq_false_iff_not] at hother
    exact hother (hstatuses _ hstatus)
  constructor
  · exact hnodes
  · rw [hevents, hnone [202] (by decide), Nat.add_zero]
  · rw [halerts, hnone [401, 409] (by decide), Nat.add_zero]
  · rw [hevents, halerts]
    exact Nat.le_add_right _ _

/-- What an ingest call adds, by its answer. -/
theorem DetectionEventIngestor.ingest_adds (ingestor : DetectionEventIngestor)
    (state : IngestState) (call : IngestCall) :
    (∃ recordId stored, ingestor.ingest state call =
      (⟨(ingestor.ingest state call).1.policy, state.tables.addEvent stored⟩,
        .accepted recordId)) ∨
    (∃ reason alert, ingestor.ingest state call =
      (⟨(ingestor.ingest state call).1.policy, state.tables.addAlert alert⟩,
        .rejected reason)) ∨
    (ingestor.ingest state call).2 = .serviceError ∧
      ((ingestor.ingest state call).1.tables = state.tables ∨
        (∃ stored, (ingestor.ingest state call).1.tables = state.tables.addEvent stored) ∨
        ∃ alert, (ingestor.ingest state call).1.tables = state.tables.addAlert alert) := by
  rcases ingest_cases ingestor state call with ⟨failure, h, -⟩ | ⟨d, -, -, h⟩
  · rcases refuse_cases state.tables call failure with
      hr | ⟨reason, -, alert, -, ⟨-, hr⟩ | ⟨-, hr⟩⟩
    · rw [h, hr]
      exact Or.inr (Or.inr ⟨rfl, Or.inl rfl⟩)
    · rw [h, hr]
      exact Or.inr (Or.inl ⟨reason, alert, rfl⟩)
    · rw [h, hr]
      exact Or.inr (Or.inr ⟨rfl, Or.inr (Or.inr ⟨alert, rfl⟩)⟩)
  · rcases @recordEvent_cases ingestor state.tables call d with
      hr | ⟨stored, -, ⟨-, hr⟩ | ⟨-, hr⟩⟩
    · rw [h, hr]
      exact Or.inr (Or.inr ⟨rfl, Or.inl rfl⟩)
    · rw [h, hr]
      exact Or.inl ⟨_, stored, rfl⟩
    · rw [h, hr]
      exact Or.inr (Or.inr ⟨rfl, Or.inr (Or.inl ⟨stored, rfl⟩)⟩)

/-- A session that raises turns any answer into an outage. -/
theorem ingestResponse_settle (met : SessionMet) (outcome : IngestOutcome) :
    ingestResponse (met.settle ingestRaising outcome.result) = outcome.response ∨
      ingestResponse (met.settle ingestRaising outcome.result) =
        IngestOutcome.serviceError.response := by
  unfold SessionMet.settle
  cases met.openRaises <;> cases met.closeRaises <;> cases met.rollbackRaises <;>
    cases outcome <;> simp [IngestOutcome.result, ingestResponse, ingestRaising]

theorem rejected_status (reason : IngestionReason) :
    (IngestOutcome.rejected reason).response.status = 401 ∨
      (IngestOutcome.rejected reason).response.status = 409 := by
  cases reason <;> simp [IngestOutcome.response, Response.status]

/-- One detection post that reached the ingestor. -/
theorem ingest_accounts (ingestor : DetectionEventIngestor) (state : IngestState)
    (call : IngestCall) (met : SessionMet) {request : ApiRequest}
    (hrequest : request.isDetection = true) {response : ApiResponse}
    (hresponse : response = .plain
      (ingestResponse (met.settle ingestRaising (ingestor.ingest state call).2.result))) :
    Accounts state.tables (ingestor.ingest state call).1.tables [(request, response)] := by
  have hcount : ∀ statuses, detectionsAnswered statuses [(request, response)] =
      if statuses.contains response.status then 1 else 0 := by
    intro statuses
    simp [detectionsAnswered, hrequest, List.countP_cons]
  have hstatus : response.status = (ingestor.ingest state call).2.response.status ∨
      response.status = 503 := by
    rw [hresponse]
    exact (ingestResponse_settle met _).imp (congrArg Response.status) (congrArg Response.status)
  rcases ingestor.ingest_adds state call with
    ⟨recordId, stored, h⟩ | ⟨reason, alert, h⟩ | ⟨houtcome, h⟩
  · rw [h] at hstatus ⊢
    have hstatus : response.status = 202 ∨ response.status = 503 := hstatus
    rcases hstatus with hs | hs <;>
      exact ⟨rfl, by simp [hcount, hs], by simp [hcount, hs], by simp [hcount, hs]; omega⟩
  · rw [h] at hstatus ⊢
    have hstatus : response.status = 401 ∨ response.status = 409 ∨ response.status = 503 := by
      rcases hstatus with hs | hs
      · exact (rejected_status reason).imp hs.trans fun hr => Or.inl (hs.trans hr)
      · exact Or.inr (Or.inr hs)
    rcases hstatus with hs | hs | hs <;>
      exact ⟨rfl, by simp [hcount, hs], by simp [hcount, hs], by simp [hcount, hs]; omega⟩
  · have hstatus : response.status = 503 := by
      rw [houtcome] at hstatus
      exact hstatus.elim id id
    rcases h with h | ⟨stored, h⟩ | ⟨alert, h⟩ <;> rw [h] <;>
      exact ⟨rfl, by simp [hcount, hstatus], by simp [hcount, hstatus],
        by simp [hcount, hstatus] <;> omega⟩

namespace AggregatorApp
variable {app : AggregatorApp}

theorem requireNoQuery_early {request : HttpRequest} {failure : RequestFailure}
    (h : requireNoQuery request = .error failure) : failure.Early := by
  unfold requireNoQuery at h
  split_ifs at h
  cases h
  exact Or.inl rfl

theorem boundedLimit_early {request : HttpRequest} {default maximum : ℕ}
    {failure : RequestFailure} (h : boundedLimit request default maximum = .error failure) :
    failure.Early := by
  unfold boundedLimit boundedLimitConversions at h
  split at h
  · cases h
  · dsimp only at h
    split_ifs at h <;> cases h <;> exact Or.inl rfl
  · cases h
    exact Or.inl rfl

/-- What the checks before the decoding of a body raise. -/
theorem mapError_early {α : Type} {x : Except RequestFailure α} {e : WireError}
    (hx : ∀ failure, x = .error failure → failure.Early)
    (h : x.mapError WireError.failure = .error e) :
    (∃ failure : RequestFailure, e = .failure failure ∧ failure.Early) ∨ e = .recursion := by
  obtain ⟨failure, hfailure, rfl⟩ := mapError_eq_error h
  exact Or.inl ⟨failure, rfl, hx failure hfailure⟩

theorem readHeartbeat_error {request : HttpRequest} {e : WireError}
    (h : app.readHeartbeat request = .error e) :
    (∃ failure : RequestFailure, e = .failure failure ∧ failure.Early) ∨ e = .recursion := by
  unfold readHeartbeat at h
  rcases Python.bind_eq_error.mp h with h | ⟨-, -, h⟩
  · exact mapError_early (fun _ => requireNoQuery_early) h
  rcases Python.bind_eq_error.mp h with h | ⟨-, -, h⟩
  · exact mapError_early (fun _ => requireJson_early) h
  rcases Python.bind_eq_error.mp h with h | ⟨payload, -, h⟩
  · exact mapError_early (fun _ => readBoundedBody_early) h
  rcases parseWireModel_cases validateNodeHeartbeat app.depth payload with
    (⟨model, hok⟩ | hfailed) | hdeep
  · cases h.symm.trans hok
  · cases h.symm.trans hfailed
    exact Or.inl ⟨_, rfl, Or.inl rfl⟩
  · cases h.symm.trans hdeep
    exact Or.inr rfl

/-- Where the checks of a route fail, the request is malformed or too large, or its body is nested
too deep. -/
theorem databaseCall_error {request : ApiRequest} {e : WireError}
    (h : app.databaseCall request = .error e) :
    (∃ failure : RequestFailure, e = .failure failure ∧ failure.Early) ∨ e = .recursion := by
  have hlimit : ∀ http, routeLimit http = .error e →
      (∃ failure : RequestFailure, e = .failure failure ∧ failure.Early) ∨ e = .recursion :=
    fun _ => mapError_early fun _ => boundedLimit_early
  cases request <;> unfold databaseCall at h <;>
    rcases Python.bind_eq_error.mp h with h | ⟨_, -, h⟩
  case ingestDetection.inl => exact readDetection_error h
  case recordHeartbeat.inl => exact readHeartbeat_error h
  case getHealth.inl => exact mapError_early (fun _ => requireNoQuery_early) h
  case getNodes.inl => exact hlimit _ h
  case getEvents.inl => exact hlimit _ h
  case getSecurityAlerts.inl => exact hlimit _ h
  all_goals cases h

/-- Step lemma. -/
theorem resolve_accounts (app : AggregatorApp) (viewDepth : ℕ) (state : IngestState)
    (request : ApiRequest) :
    Accounts state.tables (app.resolve viewDepth state request).1.tables
      [(request, (app.resolve viewDepth state request).2)] := by
  unfold resolve
  cases hcall : app.databaseCall request with
  | error e =>
    apply Accounts.of_same rfl rfl rfl
    intro _
    rcases databaseCall_error hcall with ⟨failure, rfl, rfl | rfl⟩ | rfl <;> rfl
  | ok call =>
    dsimp only
    cases request <;> unfold databaseCall at hcall <;>
      obtain ⟨_, -, hcall⟩ := Python.bind_eq_ok.mp hcall <;>
      obtain rfl := Except.ok.inj hcall
    case ingestDetection => exact ingest_accounts app.ingestor state _ _ rfl rfl
    case recordHeartbeat =>
      obtain ⟨hregistry, hevents, halerts⟩ :=
        HeartbeatService.record_frame app.ingestor.settings state.tables _
      have hnodes := congrArg List.length hregistry
      unfold Tables.registry at hnodes
      rw [List.length_map, List.length_map] at hnodes
      exact Accounts.of_same hnodes hevents halerts fun h => Bool.noConfusion h
    all_goals exact Accounts.of_same rfl rfl rfl fun h => Bool.noConfusion h

/-- Run lemma. -/
theorem run_accounts (app : AggregatorApp) (viewDepth : ℕ) (state : IngestState)
    (requests : List ApiRequest) :
    Accounts state.tables (run (app.resolve viewDepth) state requests).1.tables
      (requests.zip (run (app.resolve viewDepth) state requests).2) := by
  induction requests generalizing state with
  | nil => exact ⟨rfl, Nat.le_refl _, Nat.le_refl _, Nat.le_refl _⟩
  | cons request requests ih =>
    have hstep := app.resolve_accounts viewDepth state request
    exact hstep.trans (ih (app.resolve viewDepth state request).1)

/-- What `get_health` answers. -/
theorem resolve_getHealth (app : AggregatorApp) (viewDepth : ℕ) (state : IngestState)
    (request : HttpRequest) (call : HealthCall) :
    (app.resolve viewDepth state (.getHealth request call)).2 =
      if request.query ≠ [] then .plain (.jsonError .invalidRequest)
      else if call.met.openRaises || call.nodesRaise || call.eventsRaise || call.alertsRaise ||
        call.met.closeRaises then outage HeartbeatReason.serviceUnavailable.value
      else .health state.tables.counts := by
  have hcall : app.databaseCall (.getHealth request call) =
      if request.query ≠ [] then .error (.failure .invalidRequest)
      else .ok (.aggregatorHealth call) := by
    unfold databaseCall requireNoQuery
    by_cases hquery : request.query = [] <;> simp [hquery, Except.mapError, Python.ok_bind,
      Python.error_bind, pure, Except.pure]
  unfold resolve
  rw [hcall]
  by_cases hquery : request.query ≠ []
  · rw [if_pos hquery, if_pos hquery]
    rfl
  · rw [if_neg hquery, if_neg hquery]
    show (DatabaseAnswer.aggregatorHealth (getAggregatorHealth state.tables call)).response = _
    unfold getAggregatorHealth
    split_ifs <;> rfl

/-- The health counts account for the responses that clients have had. Whatever requests were served
and whatever their sessions met, the counts lie between the rows that the responses to detections
promise and those that outages may have left besides, and the node count never moves. -/
theorem health_accounts_for_responses (app : AggregatorApp) (viewDepth : ℕ) (state : IngestState)
    (requests : List ApiRequest) (request : HttpRequest) (call : HealthCall) :
    let real := run (app.handle viewDepth) (idle state 0) requests
    let exchanges := requests.zip (real.2.map Handled.response)
    let counts := real.1.store.durable.counts
    (app.handle viewDepth real.1 (.getHealth request call)).2.response =
      (if request.query ≠ [] then .plain (.jsonError .invalidRequest)
      else if call.met.openRaises || call.nodesRaise || call.eventsRaise || call.alertsRaise ||
        call.met.closeRaises then outage HeartbeatReason.serviceUnavailable.value
      else .health counts) ∧
    counts.registeredNodes = state.tables.nodes.length ∧
    state.tables.detectionEvents.length + detectionsAnswered [202] exchanges ≤
      counts.acceptedEvents ∧
    state.tables.securityAlerts.length + detectionsAnswered [401, 409] exchanges ≤
      counts.securityAlerts ∧
    counts.acceptedEvents + counts.securityAlerts ≤
      state.tables.detectionEvents.length + state.tables.securityAlerts.length +
        detectionsAnswered [202, 401, 409, 503] exchanges := by
  intro real exchanges counts
  obtain ⟨⟨sessions, hreal⟩, hresponses⟩ := app.run_handle viewDepth state 0 requests
  obtain ⟨hnodes, hevents, halerts, htotal⟩ := app.run_accounts viewDepth state requests
  rw [← hresponses] at hevents halerts htotal
  have hcounts : counts = (run (app.resolve viewDepth) state requests).1.tables.counts :=
    congrArg (fun process : DatabaseProcess => process.store.durable.counts) hreal
  refine ⟨?_, hcounts ▸ hnodes, hcounts ▸ hevents, hcounts ▸ halerts, hcounts ▸ htotal⟩
  obtain ⟨_, -, hresponse⟩ := app.handle_resolves viewDepth
    (run (app.resolve viewDepth) state requests).1 sessions (.getHealth request call)
  rw [show real.1 = _ from hreal, hresponse, hcounts]
  exact app.resolve_getHealth viewDepth _ request call

end AggregatorApp

end Counting

section Deletion

def DatabaseCall.isWrite : DatabaseCall → Bool
  | .ingest _ _ => true
  | .record _ _ => true
  | .seed _ _ => true
  | _ => false

/-- The requests that pass the checks of their route and reach an operation that may write. -/
def AggregatorApp.reachesWrite (app : AggregatorApp) (request : ApiRequest) : Bool :=
  match app.databaseCall request with
  | .error _ => false
  | .ok call => call.isWrite

/-- No answer of a database operation looks like a malformed or too large request. -/
theorem answer_status (answer : DatabaseAnswer) :
    answer.response.status ≠ 413 ∧ answer.response.status ≠ 422 := by
  rcases answer with result | result | result | result | result | result | result
  · rcases result with (failure | _) | recordId
    · cases failure with
      | service => decide
      | rejection reason => cases reason <;> decide
    · decide
    · show Response.status .accepted ≠ 413 ∧ Response.status .accepted ≠ 422
      decide
  · rcases result with failure | u
    · cases failure with
      | service => decide
      | rejection reason => cases reason <;> decide
    · show Response.status .accepted ≠ 413 ∧ Response.status .accepted ≠ 422
      decide
  all_goals
    cases result <;> simp [DatabaseAnswer.response, outage, ApiResponse.status, Response.status]

namespace AggregatorApp
variable (app : AggregatorApp) (viewDepth : ℕ)

theorem atomic_of_read (state : IngestState) {call : DatabaseCall} (h : call.isWrite = false) :
    (app.ingestor.atomic viewDepth state call).1 = state := by
  cases call <;> first | rfl | exact Bool.noConfusion h

theorem resolve_of_read (state : IngestState) {request : ApiRequest}
    (h : app.reachesWrite request = false) : (app.resolve viewDepth state request).1 = state := by
  unfold reachesWrite at h
  unfold resolve
  cases hcall : app.databaseCall request with
  | error e => rfl
  | ok call =>
    rw [hcall] at h
    exact app.atomic_of_read viewDepth state h

/-- A request that is refused as malformed or too large has had no session. -/
theorem handle_refused (process : DatabaseProcess) (request : ApiRequest)
    (h : (app.handle viewDepth process request).2.response.status ∈ [413, 422]) :
    (app.handle viewDepth process request).2.steps = [] := by
  unfold handle at h ⊢
  cases hcall : app.databaseCall request with
  | error e => rfl
  | ok call =>
    rw [hcall] at h
    obtain ⟨hlarge, hinvalid⟩ := answer_status
      (app.ingestor.perform viewDepth process call).2.answer
    simp only [List.mem_cons, List.not_mem_nil, or_false] at h
    exact absurd h (not_or.mpr ⟨hlarge, hinvalid⟩)

theorem run_refused (process : DatabaseProcess) (requests : List ApiRequest) :
    ∀ handled ∈ (run (app.handle viewDepth) process requests).2,
      handled.response.status ∈ [413, 422] → handled.steps = [] := by
  induction requests generalizing process with
  | nil => simp
  | cons request requests ih =>
    intro handled hhandled
    rcases List.mem_cons.mp hhandled with rfl | hlater
    · exact app.handle_refused viewDepth process request
    · exact ih _ handled hlater

/-- Reads and refused requests leave no trace. Deleting from a run the reads and the posts that fail
their checks changes no other response, nor the replay state or what is durable, whatever their
sessions met. A request refused as malformed or too large has not even had a session. -/
theorem reads_and_refusals_leave_no_trace (app : AggregatorApp) (viewDepth : ℕ)
    (state : IngestState) (requests : List ApiRequest) :
    let real := run (app.handle viewDepth) (idle state 0) requests
    let kept := run (app.handle viewDepth) (idle state 0) (requests.filter app.reachesWrite)
    Runs.keptOutputs app.reachesWrite requests (real.2.map Handled.response) =
        kept.2.map Handled.response ∧
      real.1.policy = kept.1.policy ∧ real.1.store = kept.1.store ∧
      ∀ handled ∈ real.2, handled.response.status ∈ [413, 422] → handled.steps = [] := by
  intro real kept
  obtain ⟨⟨sessions, hreal⟩, hresponses⟩ := app.run_handle viewDepth state 0 requests
  obtain ⟨⟨sessions', hkept⟩, hresponses'⟩ := app.run_handle viewDepth state 0
    (requests.filter app.reachesWrite)
  have hkeep : ∀ (request : ApiRequest) (rest : List ApiRequest) (s t : IngestState),
      app.reachesWrite request = true → s = t →
        (app.resolve viewDepth s request).2 = (app.resolve viewDepth t request).2 ∧
          (app.resolve viewDepth s request).1 = (app.resolve viewDepth t request).1 := by
    intro request rest s t _ hst
    rw [hst]
    exact ⟨rfl, rfl⟩
  have hdelete : ∀ (request : ApiRequest) (rest : List ApiRequest) (s t : IngestState),
      app.reachesWrite request = false → s = t →
        (app.resolve viewDepth s request).1 = t := by
    intro request rest s t hread hst
    rw [app.resolve_of_read viewDepth s hread, hst]
  obtain ⟨houtputs, hstate⟩ := Runs.run_deletion (R := fun _ s t => s = t) hkeep hdelete requests
    (rfl : state = state)
  refine ⟨?_, ?_, ?_, app.run_refused viewDepth _ requests⟩
  · rw [show real.2.map Handled.response = _ from hresponses,
      show kept.2.map Handled.response = _ from hresponses', houtputs]
  · rw [show real.1 = _ from hreal, show kept.1 = _ from hkept, hstate]
    rfl
  · rw [show real.1 = _ from hreal, show kept.1 = _ from hkept, hstate]
    rfl

end AggregatorApp

end Deletion

end SecureEdge
