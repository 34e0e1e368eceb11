import SecureEdgeVision.Aggregator.Api
import SecureEdgeVision.Aggregator.ClosedLoop
import SecureEdgeVision.Monitoring.Register
import Mathlib.Logic.Function.Basic

/-! Workers whose heartbeats go over a network that loses posts and answers, to an aggregator that
serves other traffic too: what a node is shown to be against what was sent. -/
namespace SecureEdge

open Json (FloatRepr)
open Runs (SessionMet run)

/-- What becomes of a heartbeat: lost, or handed to the aggregator, whose answer may be lost. -/
inductive HeartbeatFate where
  | lost
  | handled (contentLength : Option String) (streamRaises : Bool) (met : SessionMet)
      (surroundings : HeartbeatSurroundings) (answered : Bool) (close : Called Unit)

/-- How a heartbeat goes over the network: how its body is cut into chunks, and its fate. -/
structure HeartbeatDelivery where
  chunks : ByteArray → List ByteArray
  join : ∀ body, joinChunks (chunks body) = body
  fate : HeartbeatFate

/-- The request that reaches the aggregator. -/
def HeartbeatDelivery.request (delivery : HeartbeatDelivery) (body : ByteArray) :
    Option ApiRequest :=
  match delivery.fate with
  | .lost => none
  | .handled contentLength streamRaises met surroundings _ _ =>
    some (.recordHeartbeat ⟨some "application/json", contentLength, [], delivery.chunks body,
      streamRaises⟩ met surroundings)

/-- What the client meets when the aggregator answers. -/
def HeartbeatDelivery.met (delivery : HeartbeatDelivery) (status : ℕ) : PostMet :=
  match delivery.fate with
  | .handled _ _ _ _ true close => ⟨.returned status, close⟩
  | _ => ⟨.raised, .returned ()⟩

theorem HeartbeatDelivery.status_of_met {delivery : HeartbeatDelivery} {status answered : ℕ}
    (h : (delivery.met status).response = .returned answered) : status = answered := by
  unfold met at h
  split at h
  · exact Called.returned.inj h
  · cases h

/-- What happens next: a worker sends a heartbeat, a request of anyone is served, or a worker calls
its transport for something else, whose posts are requests of their own. -/
inductive LinkAction (ι : Type) where
  | beat (worker : ι) (heartbeat : NodeHeartbeat) (delivery : HeartbeatDelivery)
  | traffic (request : ApiRequest)
  | client (worker : ι) (call : TransportCall)

/-- The aggregator and the transports of the workers. -/
structure LinkState (ι : Type) where
  process : DatabaseProcess
  clients : ι → TransportState

/-- An action with the request that reached the aggregator, and whether a send returned. -/
structure LinkRecord (ι : Type) where
  action : LinkAction ι
  reached : Option ApiRequest
  returned : Bool

namespace AggregatorApp
variable {ed : Ed25519} {ι : Type} [DecidableEq ι] (app : AggregatorApp) (viewDepth : ℕ)
  (transports : ι → SignedWorkerTransport ed)

/-- The body of a heartbeat that is put on the network: none on a closed client. -/
def putOnNetwork (transport : SignedWorkerTransport ed) (client : TransportState)
    (heartbeat : NodeHeartbeat) : Option ByteArray :=
  if client.client.isSome then transport.heartbeatBody heartbeat else none

def link (s : LinkState ι) (action : LinkAction ι) : LinkState ι × LinkRecord ι :=
  match action with
  | .beat worker heartbeat delivery =>
    let transport := transports worker
    let client := s.clients worker
    match (putOnNetwork transport client heartbeat).bind delivery.request with
    | none =>
      let sent := transport.sendHeartbeat client heartbeat ⟨.raised, .returned ()⟩
      (⟨s.process, Function.update s.clients worker sent.state⟩,
        ⟨action, none, sent.answer.isOk⟩)
    | some request =>
      let (process, handled) := app.handle viewDepth s.process request
      let sent := transport.sendHeartbeat client heartbeat (delivery.met handled.response.status)
      (⟨process, Function.update s.clients worker sent.state⟩,
        ⟨action, some request, sent.answer.isOk⟩)
  | .traffic request =>
    (⟨(app.handle viewDepth s.process request).1, s.clients⟩, ⟨action, some request, false⟩)
  | .client worker call =>
    (⟨s.process, Function.update s.clients worker
      ((transports worker).step (s.clients worker) call).state⟩, ⟨action, none, false⟩)

/-- What a request offers to the register of a node, if its body is that of a heartbeat. -/
def offers (nodeId : SafeIdentifier) : ApiRequest → List Liveness
  | .recordHeartbeat request _ _ =>
    match app.readHeartbeat request with
    | .ok heartbeat => heartbeat.offers nodeId
    | .error _ => []
  | _ => []

end AggregatorApp

namespace LinkRecord
variable {ι : Type} (nodeId : SafeIdentifier) (record : LinkRecord ι)

/-- What reached the aggregator for the node. -/
def posted (app : AggregatorApp) : List Liveness :=
  match record.reached with
  | none => []
  | some request => app.offers nodeId request

/-- What was sent for the node by a call that returned. -/
def delivered : List Liveness :=
  match record.action with
  | .beat _ heartbeat _ => if record.returned then heartbeat.offers nodeId else []
  | _ => []

end LinkRecord

namespace AggregatorApp
variable {ed : Ed25519} {ι : Type} [DecidableEq ι] {app : AggregatorApp} {viewDepth : ℕ}
  {transports : ι → SignedWorkerTransport ed} {nodeId : SafeIdentifier}

/-- A body that the transport made is decoded to its heartbeat. -/
theorem parse_heartbeatBody {transport : SignedWorkerTransport ed}
    (hrepr : FloatRepr transport.reprFloat) {depth : ℕ} (hdepth : 1 ≤ depth)
    {heartbeat : NodeHeartbeat} {body : ByteArray}
    (hbody : transport.heartbeatBody heartbeat = some body) :
    parseNodeHeartbeat depth body = .ok heartbeat.astimezone := by
  obtain ⟨payload, hpayload, rfl⟩ := Option.map_eq_some_iff.mp hbody
  exact parseWireModel_dumps hrepr (Document.clean_heartbeat heartbeat)
    ((Document.nesting_heartbeat heartbeat).le.trans hdepth) hpayload
    (validateNodeHeartbeat_scanned heartbeat)

theorem readHeartbeat_ok {request : HttpRequest} {heartbeat : NodeHeartbeat}
    (h : app.readHeartbeat request = .ok heartbeat) :
    parseNodeHeartbeat app.depth (joinChunks request.chunks) = .ok heartbeat := by
  unfold readHeartbeat at h
  obtain ⟨-, -, h⟩ := Python.bind_eq_ok.mp h
  obtain ⟨-, -, h⟩ := Python.bind_eq_ok.mp h
  obtain ⟨payload, hread, h⟩ := Python.bind_eq_ok.mp h
  cases hbody : readBoundedBody request app.maxRequestBytes with
  | error failure =>
    rw [hbody] at hread
    cases hread
  | ok body =>
    rw [hbody] at hread
    obtain rfl := Except.ok.inj hread
    rwa [← readBoundedBody_join hbody]

theorem readHeartbeat_single {payload : ByteArray} (hsize : payload.size ≤ app.maxRequestBytes) :
    app.readHeartbeat ⟨some "application/json", none, [], [payload], false⟩ =
      parseNodeHeartbeat app.depth payload := by
  unfold readHeartbeat
  rw [requireJson_json rfl, readBoundedBody_single hsize]
  rfl

theorem heartbeat_status_accepted {result : Except HeartbeatFailure Unit}
    (h : (heartbeatResponse result).status = acceptedStatus) : result = .ok () := by
  rcases result with (reason | _) | u
  · unfold heartbeatResponse acceptedStatus at h
    dsimp only [Response.status] at h
    split_ifs at h <;> cases h
  · cases h
  · rfl

/-- Step lemma for a request; what is confirmed by the accepted status was written. -/
theorem resolve_beats (app : AggregatorApp) (viewDepth : ℕ) (nodeId : SafeIdentifier)
    {state : IngestState} (hkeys : state.tables.NodesDistinct) (request : ApiRequest)
    {confirmed : List Liveness} (hconfirmed : confirmed.Sublist (app.offers nodeId request))
    (haccepted : confirmed ≠ [] →
      (app.resolve viewDepth state request).2.status = acceptedStatus) :
    Tables.Beats nodeId state.tables (app.resolve viewDepth state request).1.tables
      (app.offers nodeId request) confirmed := by
  unfold resolve at haccepted ⊢
  cases hcall : app.databaseCall request with
  | error e =>
    have hnone : confirmed = [] := by
      by_contra hsome
      rw [hcall] at haccepted
      exact early_status (databaseCall_error hcall) (haccepted hsome)
    rw [hnone]
    exact .of_nodes rfl _
  | ok call =>
    rw [hcall] at haccepted
    dsimp only at haccepted ⊢
    cases request <;> unfold databaseCall at hcall <;>
      obtain ⟨read, hread, hcall⟩ := Python.bind_eq_ok.mp hcall <;>
      obtain rfl := Except.ok.inj hcall
    case recordHeartbeat http met surroundings _ =>
      have hoffers : app.offers nodeId (.recordHeartbeat http met surroundings) =
          read.offers nodeId := by
        simp only [offers, hread]
      rw [hoffers] at hconfirmed ⊢
      refine HeartbeatService.record_beats app.ingestor.settings hkeys _ hconfirmed fun hsome => ?_
      exact Runs.result_of_settle (heartbeat_status_accepted (haccepted hsome))
    case ingestDetection =>
      obtain rfl := List.sublist_nil.mp hconfirmed
      exact .of_nodes (app.ingestor.ingest_nodes state _) _
    all_goals
      obtain rfl := List.sublist_nil.mp hconfirmed
      exact .of_nodes rfl _

/-- A request that is answered with the accepted status offered what the worker sent. -/
theorem offers_request (nodeId : SafeIdentifier) {transport : SignedWorkerTransport ed}
    (hrepr : FloatRepr transport.reprFloat) (hdepth : 1 ≤ app.depth) {heartbeat : NodeHeartbeat}
    {body : ByteArray} (hbody : transport.heartbeatBody heartbeat = some body)
    {delivery : HeartbeatDelivery} {request : ApiRequest}
    (hrequest : delivery.request body = some request) {state : IngestState}
    (hstatus : (app.resolve viewDepth state request).2.status = acceptedStatus) :
    app.offers nodeId request = heartbeat.offers nodeId := by
  unfold HeartbeatDelivery.request at hrequest
  split at hrequest
  next => cases hrequest
  next contentLength streamRaises met surroundings answered close hfate =>
    obtain rfl := Option.some.inj hrequest
    cases hread : app.readHeartbeat ⟨some "application/json", contentLength, [],
        delivery.chunks body, streamRaises⟩ with
    | error e =>
      have hcall : app.databaseCall (.recordHeartbeat ⟨some "application/json", contentLength, [],
          delivery.chunks body, streamRaises⟩ met surroundings) = .error e := by
        simp only [databaseCall, hread, Python.error_bind]
      simp only [resolve, hcall] at hstatus
      exact absurd hstatus (early_status (databaseCall_error hcall))
    | ok read =>
      have hparse := readHeartbeat_ok hread
      rw [delivery.join, parse_heartbeatBody hrepr hdepth hbody] at hparse
      obtain rfl := Except.ok.inj hparse
      simp only [offers, hread]
      rfl

/-- A heartbeat whose send returned met the accepted status. -/
theorem sendHeartbeat_isOk {transport : SignedWorkerTransport ed} {client : TransportState}
    {heartbeat : NodeHeartbeat} {met : PostMet}
    (h : (transport.sendHeartbeat client heartbeat met).answer.isOk = true) :
    met.response = .returned acceptedStatus := by
  obtain ⟨u, hanswer⟩ := Python.isOk_eq_true.mp h
  have hsends := transport.step_sends client (.sendHeartbeat heartbeat met)
  obtain ⟨-, -, hmet⟩ := (hsends.accepted met rfl).mp hanswer
  rw [hmet]

/-- Step lemma for a heartbeat. -/
theorem link_beat (hrepr : ∀ worker, FloatRepr (transports worker).reprFloat)
    (hdepth : 1 ≤ app.depth) {state : IngestState} (hkeys : state.tables.NodesDistinct)
    (sessions : ℕ) (clients : ι → TransportState) (worker : ι) (heartbeat : NodeHeartbeat)
    (delivery : HeartbeatDelivery) :
    let stepped := app.link viewDepth transports ⟨idle state sessions, clients⟩
      (.beat worker heartbeat delivery)
    ∃ state' sessions', stepped.1.process = idle state' sessions' ∧
      Tables.Beats nodeId state.tables state'.tables (stepped.2.posted nodeId app)
        (stepped.2.delivered nodeId) := by
  cases hput : (putOnNetwork (transports worker) (clients worker) heartbeat).bind
    delivery.request with
  | none =>
    have hraised : ((transports worker).sendHeartbeat (clients worker) heartbeat
        ⟨.raised, .returned ()⟩).answer.isOk = false := by
      by_contra hok
      cases sendHeartbeat_isOk (Bool.not_eq_false _ ▸ hok)
    simp only [link, hput, LinkRecord.posted, LinkRecord.delivered, hraised]
    exact ⟨state, sessions, rfl, .of_nodes rfl []⟩
  | some request =>
    obtain ⟨body, hbody, hrequest⟩ := Option.bind_eq_some_iff.mp hput
    have hmade : (transports worker).heartbeatBody heartbeat = some body := by
      unfold putOnNetwork at hbody
      split_ifs at hbody
      exact hbody
    obtain ⟨sessions', hprocess, hresponse⟩ := app.handle_resolves viewDepth state sessions request
    simp only [link, hput, LinkRecord.posted, LinkRecord.delivered, hresponse]
    refine ⟨(app.resolve viewDepth state request).1, sessions', hprocess, ?_⟩
    cases hreturned : ((transports worker).sendHeartbeat (clients worker) heartbeat
      (delivery.met (app.resolve viewDepth state request).2.status)).answer.isOk with
    | false => exact resolve_beats app viewDepth nodeId hkeys request (List.nil_sublist _) (by simp)
    | true =>
      have hstatus := HeartbeatDelivery.status_of_met (sendHeartbeat_isOk hreturned)
      have hoffers := offers_request nodeId (hrepr worker) hdepth hmade hrequest hstatus
      rw [if_pos rfl, ← hoffers]
      exact resolve_beats app viewDepth nodeId hkeys request (.refl _) fun _ => hstatus

variable (viewDepth nodeId)

/-- Step lemma for the network. -/
theorem link_beats (hrepr : ∀ worker, FloatRepr (transports worker).reprFloat)
    (hdepth : 1 ≤ app.depth) {state : IngestState} (hkeys : state.tables.NodesDistinct)
    (sessions : ℕ) (clients : ι → TransportState) (action : LinkAction ι) :
    let stepped := app.link viewDepth transports ⟨idle state sessions, clients⟩ action
    ∃ state' sessions', stepped.1.process = idle state' sessions' ∧
      Tables.Beats nodeId state.tables state'.tables (stepped.2.posted nodeId app)
        (stepped.2.delivered nodeId) := by
  cases action with
  | beat worker heartbeat delivery =>
    exact link_beat hrepr hdepth hkeys sessions clients worker heartbeat delivery
  | traffic request =>
    obtain ⟨sessions', hprocess, -⟩ := app.handle_resolves viewDepth state sessions request
    have hbeats : Tables.Beats nodeId state.tables (app.resolve viewDepth state request).1.tables
        (app.offers nodeId request) [] :=
      resolve_beats app viewDepth nodeId hkeys request (List.nil_sublist _) (by simp)
    exact ⟨(app.resolve viewDepth state request).1, sessions', hprocess, hbeats⟩
  | client worker call => exact ⟨state, sessions, rfl, .of_nodes rfl []⟩

/-- Run lemma. -/
theorem run_beats (hrepr : ∀ worker, FloatRepr (transports worker).reprFloat)
    (hdepth : 1 ≤ app.depth) {state : IngestState} (hkeys : state.tables.NodesDistinct)
    (sessions : ℕ) (clients : ι → TransportState) (actions : List (LinkAction ι)) :
    let ran := run (app.link viewDepth transports) ⟨idle state sessions, clients⟩ actions
    ∃ state' sessions', ran.1.process = idle state' sessions' ∧
      Tables.Beats nodeId state.tables state'.tables
        (ran.2.flatMap fun record => record.posted nodeId app)
        (ran.2.flatMap fun record => record.delivered nodeId) := by
  induction actions generalizing state sessions clients with
  | nil => exact ⟨state, sessions, rfl, .of_nodes rfl []⟩
  | cons action actions ih =>
    let stepped := app.link viewDepth transports ⟨idle state sessions, clients⟩ action
    obtain ⟨state', sessions', hprocess, hbeats⟩ : ∃ state' sessions',
        stepped.1.process = idle state' sessions' ∧ Tables.Beats nodeId state.tables state'.tables
          (stepped.2.posted nodeId app) (stepped.2.delivered nodeId) :=
      link_beats viewDepth nodeId hrepr hdepth hkeys sessions clients action
    obtain ⟨last, lastSessions, hlast, hrest⟩ := ih (hkeys.congr hbeats.registry) sessions'
      stepped.1.clients
    have hstate : stepped.1 = ⟨idle state' sessions', stepped.1.clients⟩ := by rw [← hprocess]
    rw [← hstate] at hlast hrest
    refine ⟨last, lastSessions, hlast, ?_⟩
    rw [Runs.run_cons_outputs, List.flatMap_cons, List.flatMap_cons]
    exact hbeats.trans hrest

/-- What the route of the node view returns is what the view lists. -/
theorem listed_of_getNodes {state : IngestState} {request : HttpRequest}
    {surroundings : ViewSurroundings} {healths : List NodeHealth}
    (h : (app.resolve viewDepth state (.getNodes request surroundings)).2 = .nodes healths) :
    ∃ call, listNodeHealth state.tables.database call = .ok healths := by
  unfold resolve at h
  cases hcall : app.databaseCall (.getNodes request surroundings) with
  | error e =>
    rw [hcall] at h
    cases h
  | ok call =>
    rw [hcall] at h
    unfold databaseCall at hcall
    obtain ⟨limit, -, hcall⟩ := Python.bind_eq_ok.mp hcall
    obtain rfl := Except.ok.inj hcall
    refine ⟨surroundings.call limit, ?_⟩
    dsimp only [DetectionEventIngestor.atomic] at h
    cases hlist : listNodeHealth state.tables.database (surroundings.call limit) with
    | error e =>
      rw [hlist] at h
      cases h
    | ok nodes =>
      rw [hlist] at h
      exact congrArg Except.ok (ApiResponse.nodes.inj h)

/-- Delivered heartbeats stand. Over any network that loses posts and answers, with any workers and
any other traffic and failures, every heartbeat whose send returned was written, what was written
had reached the aggregator, each write is newer than the one before it, and the node view shows the
last one. -/
theorem delivered_heartbeats_stand (app : AggregatorApp) (viewDepth : ℕ)
    (transports : ι → SignedWorkerTransport ed)
    (hrepr : ∀ worker, FloatRepr (transports worker).reprFloat) (hdepth : 1 ≤ app.depth)
    (state : IngestState) (hkeys : state.tables.NodesDistinct) (clients : ι → TransportState)
    (actions : List (LinkAction ι)) (nodeId : SafeIdentifier) :
    let ran := run (app.link viewDepth transports) ⟨idle state 0, clients⟩ actions
    let delivered := ran.2.flatMap fun record => record.delivered nodeId
    let posted := ran.2.flatMap fun record => record.posted nodeId app
    (state.tables.liveness nodeId = none → delivered = []) ∧
    ∀ stored, state.tables.liveness nodeId = some stored → ∃ written,
      delivered.Sublist written ∧ written.Sublist posted ∧
      ((stored :: written).map Liveness.key).Pairwise (· < ·) ∧
      ran.1.process.store.durable.liveness nodeId = some (written.getLast?.getD stored) ∧
      ∀ request surroundings healths,
        (app.handle viewDepth ran.1.process (.getNodes request surroundings)).2.response =
          .nodes healths →
        ∀ health ∈ healths, health.nodeId = nodeId →
          health.liveness = written.getLast?.getD stored := by
  intro ran delivered posted
  obtain ⟨state', sessions, hprocess, hbeats⟩ := run_beats viewDepth nodeId hrepr hdepth hkeys 0
    clients actions
  refine ⟨fun hnone => (hbeats.unknown hnone).2, fun stored hstored => ?_⟩
  obtain ⟨last, hlast, hevolves⟩ := hbeats.known stored hstored
  obtain ⟨written, hdelivered, hposted, hincreasing, rfl⟩ := hevolves.written
  refine ⟨written, hdelivered, hposted, hincreasing, ?_, ?_⟩
  · rw [show ran.1.process = _ from hprocess]
    exact hlast
  · intro request surroundings healths hresponse health hhealth hid
    obtain ⟨-, -, hresolved⟩ := app.handle_resolves viewDepth state' sessions
      (.getNodes request surroundings)
    rw [show ran.1.process = _ from hprocess, hresolved] at hresponse
    obtain ⟨call, hlisted⟩ := listed_of_getNodes viewDepth hresponse
    have hshown := listNodeHealth_liveness (hkeys.congr hbeats.registry) hlisted hhealth
    rw [hid, hlast] at hshown
    exact (Option.some.inj hshown).symm

section Sample
open DetectionEventIngestor (sample sampleTables)

def sampleHeartbeat (instant : UtcDatetime) : NodeHeartbeat :=
  ⟨⟨"edge-1", edge_isSafe⟩, ⟨instant, .utc⟩, .healthy⟩

def sampleBeatSurroundings (instant : UtcDatetime) : HeartbeatSurroundings :=
  ⟨false, .utc instant, false, .persisted⟩

theorem joinChunks_single (body : ByteArray) : joinChunks [body] = body := by
  simp [joinChunks]

/-- A post in one chunk, served at the time of the heartbeat. -/
def sampleBeat (instant : UtcDatetime) (answered : Bool) : HeartbeatDelivery where
  chunks body := [body]
  join := joinChunks_single
  fate := .handled none false ⟨false, false, false⟩ (sampleBeatSurroundings instant) answered
    (.returned ())

/-- The request that the aggregator is handed. -/
def sampleBeatRequest (instant : UtcDatetime) (body : ByteArray) : ApiRequest :=
  .recordHeartbeat ⟨some "application/json", none, [], [body], false⟩ ⟨false, false, false⟩
    (sampleBeatSurroundings instant)

variable {instant : UtcDatetime} {tables recorded : Tables} {body : ByteArray}

theorem exists_sample_body (hshort : (Json.render (Json.numberText Json.exactRepr)
      (Document.heartbeat (sampleHeartbeat instant))).length ≤ 1000) :
    ∃ body, sampleTransport.heartbeatBody (sampleHeartbeat instant) = some body ∧
      body.size ≤ SecuritySettings.sample.maxRequestBytes := by
  have hdumps : Json.dumps Json.exactRepr (Document.heartbeat (sampleHeartbeat instant)) =
      some (String.ofList (Json.render (Json.numberText Json.exactRepr)
        (Document.heartbeat (sampleHeartbeat instant)))) := rfl
  have hsize := Python.size_toUTF8_le (String.ofList (Json.render (Json.numberText Json.exactRepr)
    (Document.heartbeat (sampleHeartbeat instant))))
  rw [String.toList_ofList] at hsize
  have hbound : SecuritySettings.sample.maxRequestBytes = 262144 := rfl
  refine ⟨_, congrArg (Option.map String.toUTF8) hdumps, ?_⟩
  omega

/-- A heartbeat that is recorded is answered as accepted. -/
theorem resolve_sample (policy : ReplayState)
    (hbody : sampleTransport.heartbeatBody (sampleHeartbeat instant) = some body)
    (hsize : body.size ≤ SecuritySettings.sample.maxRequestBytes)
    (hrecord : HeartbeatService.record .sample tables
      ((sampleBeatSurroundings instant).call (sampleHeartbeat instant)) = (recorded, .ok ())) :
    (resolve ⟨sample, 1⟩ 1 ⟨policy, tables⟩ (sampleBeatRequest instant body)).1 =
        ⟨policy, recorded⟩ ∧
      (resolve ⟨sample, 1⟩ 1 ⟨policy, tables⟩ (sampleBeatRequest instant body)).2.status =
        acceptedStatus ∧
      offers ⟨sample, 1⟩ ⟨"edge-1", edge_isSafe⟩ (sampleBeatRequest instant body) =
        [(sampleHeartbeat instant).liveness] := by
  have hparse : parseNodeHeartbeat 1 body = .ok (sampleHeartbeat instant) :=
    parse_heartbeatBody Json.exactRepr_floatRepr le_rfl hbody
  have hread : readHeartbeat ⟨sample, 1⟩ ⟨some "application/json", none, [], [body], false⟩ =
      .ok (sampleHeartbeat instant) := (readHeartbeat_single hsize).trans hparse
  have hcall : databaseCall ⟨sample, 1⟩ (sampleBeatRequest instant body) =
      .ok (.record ⟨false, false, false⟩
        ((sampleBeatSurroundings instant).call (sampleHeartbeat instant))) := by
    simp only [databaseCall, sampleBeatRequest, hread, Python.ok_bind]
    rfl
  refine ⟨?_, ?_, ?_⟩
  · unfold resolve
    rw [hcall]
    exact congrArg (fun result => (⟨policy, result.1⟩ : IngestState)) hrecord
  · unfold resolve
    rw [hcall]
    show (DatabaseAnswer.recorded (SessionMet.settle ⟨false, false, false⟩ heartbeatRaising
      (HeartbeatService.record .sample tables
        ((sampleBeatSurroundings instant).call (sampleHeartbeat instant))).2)).response.status = _
    rw [hrecord]
    rfl
  · simp only [offers, sampleBeatRequest, hread]
    rfl

theorem liveness_sample :
    sampleTables.liveness ⟨"edge-1", edge_isSafe⟩ = some ⟨none, none⟩ :=
  congrArg (Option.map NodeRecord.liveness)
    (DetectionEventIngestor.getNode_sample ⟨0, by decide⟩)

theorem distinct_sample : sampleTables.NodesDistinct := List.nodup_singleton _

/-- Its send raises if and only if the answer is lost. -/
theorem link_sample (policy : ReplayState) (sessions responses : ℕ) (answered : Bool)
    (hshort : (Json.render (Json.numberText Json.exactRepr)
      (Document.heartbeat (sampleHeartbeat instant))).length ≤ 1000)
    (hrecord : HeartbeatService.record .sample tables
      ((sampleBeatSurroundings instant).call (sampleHeartbeat instant)) = (recorded, .ok ())) :
    let stepped := link ⟨sample, 1⟩ 1 (fun _ : Unit => sampleTransport)
      ⟨idle ⟨policy, tables⟩ sessions, fun _ => ⟨some 0, 1, responses⟩⟩
      (.beat () (sampleHeartbeat instant) (sampleBeat instant answered))
    (∃ sessions', stepped.1 = ⟨idle ⟨policy, recorded⟩ sessions',
        fun _ => ⟨some 0, 1, responses + answered.toNat⟩⟩) ∧
      stepped.2.delivered ⟨"edge-1", edge_isSafe⟩ =
        (if answered then [(sampleHeartbeat instant).liveness] else []) ∧
      stepped.2.posted ⟨"edge-1", edge_isSafe⟩ ⟨sample, 1⟩ =
        [(sampleHeartbeat instant).liveness] := by
  dsimp only
  obtain ⟨body, hbody, hsize⟩ := exists_sample_body hshort
  obtain ⟨hstate, hstatus, hoffers⟩ := resolve_sample policy hbody hsize hrecord
  have hput : (putOnNetwork sampleTransport ⟨some 0, 1, responses⟩ (sampleHeartbeat instant)).bind
      (sampleBeat instant answered).request = some (sampleBeatRequest instant body) := by
    simp only [putOnNetwork, hbody]
    rfl
  obtain ⟨sessions', hprocess, hresponse⟩ := handle_resolves ⟨sample, 1⟩ 1 ⟨policy, tables⟩ sessions
    (sampleBeatRequest instant body)
  rw [hstate] at hprocess
  obtain ⟨hclient, hanswer⟩ : (sampleTransport.sendHeartbeat ⟨some 0, 1, responses⟩
        (sampleHeartbeat instant) ((sampleBeat instant answered).met acceptedStatus)).state =
          ⟨some 0, 1, responses + answered.toNat⟩ ∧
      (sampleTransport.sendHeartbeat ⟨some 0, 1, responses⟩ (sampleHeartbeat instant)
        ((sampleBeat instant answered).met acceptedStatus)).answer.isOk = answered := by
    unfold SignedWorkerTransport.sendHeartbeat
    rw [hbody]
    cases answered <;> exact ⟨rfl, rfl⟩
  simp only [link, hput, hprocess, hresponse, hstatus, hclient, hanswer, LinkRecord.delivered,
    LinkRecord.posted, hoffers]
  refine ⟨⟨sessions', ?_⟩, ?_, trivial⟩
  · congr 1
  · cases answered <;> rfl

/-- Two heartbeats that are recorded one after the other. -/
theorem exists_recorded_sample : ∃ (first second : UtcDatetime) (one two : Tables), first < second ∧
    (Json.render (Json.numberText Json.exactRepr)
      (Document.heartbeat (sampleHeartbeat first))).length ≤ 1000 ∧
    (Json.render (Json.numberText Json.exactRepr)
      (Document.heartbeat (sampleHeartbeat second))).length ≤ 1000 ∧
    two.liveness ⟨"edge-1", edge_isSafe⟩ = some (sampleHeartbeat second).liveness ∧
    HeartbeatService.record .sample sampleTables
      ((sampleBeatSurroundings first).call (sampleHeartbeat first)) = (one, .ok ()) ∧
    HeartbeatService.record .sample one
      ((sampleBeatSurroundings second).call (sampleHeartbeat second)) = (two, .ok ()) := by
  let first : UtcDatetime := ⟨63893000000000000, by decide⟩
  let second : UtcDatetime := ⟨63893000001000000, by decide⟩
  let one := (HeartbeatService.record .sample sampleTables
    ((sampleBeatSurroundings first).call (sampleHeartbeat first))).1
  let two := (HeartbeatService.record .sample one
    ((sampleBeatSurroundings second).call (sampleHeartbeat second))).1
  have hone : (HeartbeatService.record .sample sampleTables
      ((sampleBeatSurroundings first).call (sampleHeartbeat first))).2 = .ok () := by
    decide +kernel
  have htwo : (HeartbeatService.record .sample one
      ((sampleBeatSurroundings second).call (sampleHeartbeat second))).2 = .ok () := by
    decide +kernel
  refine ⟨first, second, one, two, ?_, ?_, ?_, ?_,
    Prod.mk.eta.symm.trans (congrArg (Prod.mk one) hone),
    Prod.mk.eta.symm.trans (congrArg (Prod.mk two) htwo)⟩ <;> decide +kernel

/-- Two heartbeats are stored; the answer to the second is lost, and it is shown all the same. -/
theorem delivered_heartbeats_stand_lost_answer : ∃ first second : UtcDatetime, first < second ∧
    let nodeId : SafeIdentifier := ⟨"edge-1", edge_isSafe⟩
    let ran := run (link ⟨sample, 1⟩ 1 fun _ : Unit => sampleTransport)
      ⟨idle ⟨.initial, sampleTables⟩ 0, fun _ => ⟨some 0, 1, 0⟩⟩
      [.beat () (sampleHeartbeat first) (sampleBeat first true),
        .beat () (sampleHeartbeat second) (sampleBeat second false)]
    (ran.2.flatMap fun record => record.delivered nodeId) = [(sampleHeartbeat first).liveness] ∧
      (ran.2.flatMap fun record => record.posted nodeId ⟨sample, 1⟩) =
        [(sampleHeartbeat first).liveness, (sampleHeartbeat second).liveness] ∧
      ∀ request surroundings healths,
        (handle ⟨sample, 1⟩ 1 ran.1.process (.getNodes request surroundings)).2.response =
          .nodes healths →
        ∀ health ∈ healths, health.nodeId = nodeId →
          health.liveness = (sampleHeartbeat second).liveness := by
  obtain ⟨first, second, one, two, hlt, hshort, hshort', hlast, hone, htwo⟩ :=
    exists_recorded_sample
  refine ⟨first, second, hlt, ?_⟩
  dsimp only
  obtain ⟨⟨sessions, hstate⟩, hdelivered, hposted⟩ := link_sample .initial 0 0 true hshort hone
  obtain ⟨⟨sessions', hstate'⟩, hdelivered', hposted'⟩ :=
    link_sample .initial sessions 1 false hshort' htwo
  obtain ⟨-, hknown⟩ := delivered_heartbeats_stand ⟨sample, 1⟩ 1
    (fun _ : Unit => sampleTransport) (fun _ => Json.exactRepr_floatRepr) (Nat.le_refl 1)
    ⟨.initial, sampleTables⟩ distinct_sample (fun _ => ⟨some 0, 1, 0⟩)
    [.beat () (sampleHeartbeat first) (sampleBeat first true),
      .beat () (sampleHeartbeat second) (sampleBeat second false)] ⟨"edge-1", edge_isSafe⟩
  obtain ⟨written, -, -, -, hdurable, hview⟩ := hknown ⟨none, none⟩ liveness_sample
  simp only [Bool.toNat_true, Nat.zero_add] at hstate
  simp only [Runs.run_cons_state, Runs.run_cons_outputs, Runs.run_nil, List.flatMap_cons,
    List.flatMap_nil, List.append_nil, hstate, hstate', hdelivered, hdelivered', hposted,
    hposted'] at hdurable hview ⊢
  have hshown : (sampleHeartbeat second).liveness = written.getLast?.getD ⟨none, none⟩ :=
    Option.some.inj (hlast.symm.trans hdurable)
  rw [hshown]
  exact ⟨rfl, rfl, hview⟩

end Sample

end AggregatorApp

end SecureEdge
