import SecureEdgeVision.Runs.Custody
import SecureEdgeVision.Runs.Serial
import SecureEdgeVision.Transport
import SecureEdgeVision.Worker.Pipeline

/-! The HTTP client of a worker's transport: which client it holds, what it posts, and the responses
that it has to close. What the client library does is part of a call. -/
namespace SecureEdge

open Binary64 (Finite)
open Json (dumps)
open Runs (Custody Handling)

def detectionPath : String := "/v1/events/detections"
def heartbeatPath : String := "/v1/nodes/heartbeat"
def acceptedStatus : ℕ := 202

structure SignedWorkerTransport (ed : Ed25519) where
  origin : String
  privateKey : ed.PrivateKey
  hasInjectedClient : Bool
  reprFloat : Finite → String

/-- The client that is open, and how many clients were taken and responses received. Each is named
by its number. -/
structure TransportState where
  client : Option ℕ
  clients : ℕ
  responses : ℕ
deriving DecidableEq

def TransportState.initial : TransportState := ⟨none, 0, 0⟩

/-- What `client.post` meets: the status of a response or an exception, and the closing of the
response. -/
structure PostMet where
  response : Called ℕ
  close : Called Unit
deriving DecidableEq

/-- One call on the transport. `isClosed` is read from the client that would be taken. -/
inductive TransportCall where
  | enter (factory : Called Unit) (isClosed : Called Bool)
  | exit (raising : Bool) (close : Called Unit)
  | sendDetection (event : DetectionEvent) (met : PostMet)
  | sendHeartbeat (heartbeat : NodeHeartbeat) (met : PostMet)

/-- A `TransportError`, or an exception that nothing converted. -/
inductive TransportFailure where
  | transport (error : TransportError)
  | escaped
deriving DecidableEq

inductive TransportEffect where
  | client (handling : Handling)
  | request (url : String) (body : ByteArray)
  | response (handling : Handling)

structure Transported where
  state : TransportState
  effects : List TransportEffect
  answer : Except TransportFailure Unit

def Transported.fail (state : TransportState) (effects : List TransportEffect) (message : String) :
    Transported :=
  ⟨state, effects, .error (.transport ⟨message⟩)⟩

namespace SignedWorkerTransport
variable {ed : Ed25519} (transport : SignedWorkerTransport ed)

/-- `__enter__`. A client of the factory that is not taken, as it is closed or does not say whether
it is, is left as it is. -/
def enter (state : TransportState) (factory : Called Unit) (isClosed : Called Bool) :
    Transported :=
  if state.client.isSome then .fail state [] "metadata transport is already open"
  else
    match (if transport.hasInjectedClient then .returned () else factory), isClosed with
    | .raised, _ => .fail state [] "metadata transport could not be opened"
    | .returned (), .raised => .fail state [] "metadata transport could not be opened"
    | .returned (), .returned true => .fail state [] "metadata transport client is closed"
    | .returned (), .returned false =>
      ⟨{ state with client := some state.clients, clients := state.clients + 1 },
        [.client (.acquire state.clients)], .ok ()⟩

/-- `__exit__`: a client that cannot be closed is reported unless an exception is on its way. -/
def exit (state : TransportState) (raising : Bool) (close : Called Unit) : Transported :=
  match state.client with
  | none => ⟨state, [], .ok ()⟩
  | some client =>
    let closed := { state with client := none }
    if close = .raised ∧ raising = false then
      .fail closed [.client (.release client)] "metadata transport could not be closed"
    else ⟨closed, [.client (.release client)], .ok ()⟩

/-- `_post`. Writing the payload as JSON is part of `client.post`, and the response is closed
whatever its status. -/
def post (state : TransportState) (path : String) (payload : Option ByteArray)
    (failureMessage : String) (met : PostMet) : Transported :=
  match state.client with
  | none => .fail state [] "metadata transport is not open"
  | some client =>
    match payload with
    | none => .fail state [.client (.use client)] failureMessage
    | some body =>
      let sent := [.client (.use client), .request (transport.origin ++ path) body]
      match met.response with
      | .raised => .fail state sent failureMessage
      | .returned status =>
        let response := state.responses
        let received := { state with responses := response + 1 }
        let effects := sent ++ [.response (.acquire response), .response (.use response),
          .response (.release response)]
        match met.close with
        | .raised => ⟨received, effects, .error .escaped⟩
        | .returned () =>
          if status ≠ acceptedStatus then .fail received effects failureMessage
          else ⟨received, effects, .ok ()⟩

/-- The JSON body of a heartbeat. -/
def heartbeatBody (heartbeat : NodeHeartbeat) : Option ByteArray :=
  (dumps transport.reprFloat (Document.heartbeat heartbeat)).map String.toUTF8

/-- The JSON body of a signed envelope. -/
def envelopeBody (envelope : SignedDetectionEnvelope) : Option ByteArray :=
  (dumps transport.reprFloat (Document.envelope envelope)).map String.toUTF8

/-- `send_detection` -/
def sendDetection (state : TransportState) (event : DetectionEvent) (met : PostMet) :
    Transported :=
  match signDetectionEvent ed transport.reprFloat event transport.privateKey with
  | .error _ => .fail state [] "detection event could not be signed"
  | .ok envelope => transport.post state detectionPath (transport.envelopeBody envelope)
      "detection delivery failed" met

/-- `send_heartbeat` -/
def sendHeartbeat (state : TransportState) (heartbeat : NodeHeartbeat) (met : PostMet) :
    Transported :=
  transport.post state heartbeatPath (transport.heartbeatBody heartbeat)
    "heartbeat delivery failed" met

def step (state : TransportState) : TransportCall → Transported
  | .enter factory isClosed => transport.enter state factory isClosed
  | .exit raising close => exit state raising close
  | .sendDetection event met => transport.sendDetection state event met
  | .sendHeartbeat heartbeat met => transport.sendHeartbeat state heartbeat met

end SignedWorkerTransport

/-- One call with the state it found and what it did. -/
structure TransportRecord where
  call : TransportCall
  found : TransportState
  effects : List TransportEffect
  answer : Except TransportFailure Unit

namespace SignedWorkerTransport
variable {ed : Ed25519} (transport : SignedWorkerTransport ed)

/-- The transport as a machine that answers calls and keeps a record of them. -/
def machine (state : TransportState) (call : TransportCall) : TransportState × TransportRecord :=
  let stepped := transport.step state call
  (stepped.state, ⟨call, state, stepped.effects, stepped.answer⟩)

def after (calls : List TransportCall) : TransportState :=
  (Runs.run transport.machine .initial calls).1

def history (calls : List TransportCall) : List TransportRecord :=
  (Runs.run transport.machine .initial calls).2

end SignedWorkerTransport

/-- What was done with clients. -/
def TransportEffect.client? : TransportEffect → Option Handling
  | .client handling => some handling
  | _ => none

/-- What was done with responses. -/
def TransportEffect.response? : TransportEffect → Option Handling
  | .response handling => some handling
  | _ => none

/-- A request that was handed to the client. -/
def TransportEffect.request? : TransportEffect → Option (String × ByteArray)
  | .request url body => some (url, body)
  | _ => none

/-- The body that a send would post. -/
def SignedWorkerTransport.body? {ed : Ed25519} (transport : SignedWorkerTransport ed) :
    TransportCall → Option (String × ByteArray)
  | .sendDetection event _ =>
    match SecureEdge.sendDetection ed transport.reprFloat transport.privateKey event with
    | .error _ => none
    | .ok body => some (transport.origin ++ detectionPath, body)
  | .sendHeartbeat heartbeat _ =>
    (transport.heartbeatBody heartbeat).map fun body => (transport.origin ++ heartbeatPath, body)
  | _ => none

/-- What a send meets at the client. -/
def TransportCall.met? : TransportCall → Option PostMet
  | .sendDetection _ met => some met
  | .sendHeartbeat _ met => some met
  | _ => none

namespace SignedWorkerTransport
variable {ed : Ed25519} (transport : SignedWorkerTransport ed)

/-- What one post does. -/
structure Posts (state : TransportState) (path : String) (payload : Option ByteArray)
    (met : PostMet) (posted : Transported) : Prop where
  client : posted.state.client = state.client ∧ posted.state.clients = state.clients
  uses : ∀ client, state.client = some client →
    posted.effects.filterMap TransportEffect.client? = [.use client]
  closed : state.client = none → posted.effects = []
  responses : posted.effects.filterMap TransportEffect.response? =
      [] ∧ posted.state.responses = state.responses ∨
    posted.effects.filterMap TransportEffect.response? =
      [.acquire state.responses, .use state.responses, .release state.responses] ∧
    posted.state.responses = state.responses + 1
  requests : posted.effects.filterMap TransportEffect.request? =
    if state.client.isSome then
      (payload.map fun body => (transport.origin ++ path, body)).toList
    else []
  accepted : posted.answer = .ok () ↔ state.client.isSome ∧ payload.isSome ∧
    met = ⟨.returned acceptedStatus, .returned ()⟩

theorem post_posts (state : TransportState) (path : String) (payload : Option ByteArray)
    (failureMessage : String) (met : PostMet) :
    transport.Posts state path payload met
      (transport.post state path payload failureMessage met) := by
  obtain ⟨response, close⟩ := met
  unfold post
  cases hclient : state.client with
  | none =>
    constructor <;> simp [Transported.fail, hclient]
  | some client =>
    cases payload with
    | none => constructor <;> simp [Transported.fail, hclient, TransportEffect.client?,
        TransportEffect.response?, TransportEffect.request?, List.filterMap_cons]
    | some body =>
      cases response with
      | raised => constructor <;> simp [Transported.fail, hclient, TransportEffect.client?,
          TransportEffect.response?, TransportEffect.request?, List.filterMap_cons]
      | returned status =>
        cases close with
        | raised => constructor <;> simp [hclient, TransportEffect.client?,
            TransportEffect.response?, TransportEffect.request?, List.filterMap_cons]
        | returned u =>
          by_cases hstatus : status = acceptedStatus
          · constructor <;> simp [hclient, hstatus, TransportEffect.client?,
              TransportEffect.response?, TransportEffect.request?, List.filterMap_cons]
          · constructor <;> simp [Transported.fail, hclient, hstatus, TransportEffect.client?,
              TransportEffect.response?, TransportEffect.request?, List.filterMap_cons]

/-- The bodies of the detections that the transport posts. -/
theorem body?_sendDetection (event : DetectionEvent) (met : PostMet) :
    transport.body? (.sendDetection event met) =
      match signDetectionEvent ed transport.reprFloat event transport.privateKey with
      | .error _ => none
      | .ok envelope => (transport.envelopeBody envelope).map fun body =>
          (transport.origin ++ detectionPath, body) := by
  cases hsign : signDetectionEvent ed transport.reprFloat event transport.privateKey with
  | error e =>
    have hsend : SecureEdge.sendDetection ed transport.reprFloat transport.privateKey event =
        .error ⟨"detection event could not be signed"⟩ := by
      simp only [SecureEdge.sendDetection, hsign]
    simp only [body?, hsend]
  | ok envelope =>
    obtain ⟨payload, hpayload, hsend⟩ := sendDetection_eq_ok hsign
    simp only [body?, hsend, envelopeBody, hpayload, Option.map_some]

/-- The client custody of a state. -/
def clientCustody (state : TransportState) : Custody := ⟨state.clients, state.client⟩

/-- What every call does: clients and responses are in custody, and a send posts its body once if
the transport is open. -/
structure Sends (state : TransportState) (call : TransportCall) (stepped : Transported) : Prop where
  clients : (clientCustody state).follow (stepped.effects.filterMap TransportEffect.client?) =
    some (clientCustody stepped.state)
  responses : Custody.follow ⟨state.responses, none⟩
      (stepped.effects.filterMap TransportEffect.response?) = some ⟨stepped.state.responses, none⟩
  requests : stepped.effects.filterMap TransportEffect.request? =
    if state.client.isSome then (transport.body? call).toList else []
  accepted : ∀ met, call.met? = some met → (stepped.answer = .ok () ↔
    state.client.isSome ∧ (transport.body? call).isSome ∧
      met = ⟨.returned acceptedStatus, .returned ()⟩)

variable {transport}

theorem Posts.sends {state : TransportState} {path : String} {payload : Option ByteArray}
    {met : PostMet} {posted : Transported} (h : transport.Posts state path payload met posted)
    {call : TransportCall} (hmet : call.met? = some met)
    (hbody : transport.body? call = payload.map fun body => (transport.origin ++ path, body)) :
    transport.Sends state call posted where
  clients := by
    obtain ⟨hclient, hclients⟩ := h.client
    have hsame : clientCustody posted.state = clientCustody state := by
      simp [clientCustody, hclient, hclients]
    rw [hsame]
    cases hheld : state.client with
    | none => simp [h.closed hheld, Custody.follow]
    | some client => simp [h.uses client hheld, Custody.follow, Custody.step, clientCustody, hheld]
  responses := by
    rcases h.responses with ⟨hnone, hcount⟩ | ⟨hone, hcount⟩
    · rw [hnone, hcount]
      rfl
    · rw [hone, hcount]
      simp [Custody.follow, Custody.step]
  requests := by
    rw [h.requests, hbody]
  accepted met' hmet' := by
    obtain rfl := Option.some.inj (hmet.symm.trans hmet')
    rw [h.accepted, hbody, Option.isSome_map]

variable (transport)

/-- Step lemma. -/
theorem step_sends (state : TransportState) (call : TransportCall) :
    transport.Sends state call (transport.step state call) := by
  cases call with
  | enter factory isClosed =>
    simp only [step, enter]
    by_cases hopen : state.client.isSome = true
    · constructor <;> simp [Transported.fail, hopen, Custody.follow, body?, TransportCall.met?]
    · have hnone : state.client = none := by simpa using hopen
      rw [if_neg hopen]
      split <;> constructor <;>
        simp [Transported.fail, hnone, Custody.follow, Custody.step, clientCustody, body?,
          TransportCall.met?, TransportEffect.client?, TransportEffect.response?,
          TransportEffect.request?, List.filterMap_cons]
  | exit raising close =>
    simp only [step, exit]
    cases hclient : state.client with
    | none => constructor <;> simp [hclient, Custody.follow, body?, TransportCall.met?]
    | some client =>
      dsimp only
      split_ifs <;> constructor <;>
        simp [Transported.fail, hclient, Custody.follow, Custody.step, clientCustody, body?,
          TransportCall.met?, TransportEffect.client?, TransportEffect.response?,
          TransportEffect.request?, List.filterMap_cons]
  | sendHeartbeat heartbeat met =>
    have hposts := transport.post_posts state heartbeatPath (transport.heartbeatBody heartbeat)
      "heartbeat delivery failed" met
    exact hposts.sends rfl rfl
  | sendDetection event met =>
    have hbody := transport.body?_sendDetection event met
    simp only [step, sendDetection]
    cases hsign : signDetectionEvent ed transport.reprFloat event transport.privateKey with
    | error e =>
      rw [hsign] at hbody
      constructor <;> simp [Transported.fail, Custody.follow, hbody]
    | ok envelope =>
      rw [hsign] at hbody
      exact (transport.post_posts state detectionPath _ _ met).sends rfl hbody

/-- Run lemma: over all calls clients and responses are in custody. -/
theorem run_custody (state : TransportState) (calls : List TransportCall) :
    let ran := Runs.run transport.machine state calls
    let log := ran.2.flatMap TransportRecord.effects
    (clientCustody state).follow (log.filterMap TransportEffect.client?) =
        some (clientCustody ran.1) ∧
      Custody.follow ⟨state.responses, none⟩ (log.filterMap TransportEffect.response?) =
        some ⟨ran.1.responses, none⟩ := by
  induction calls generalizing state with
  | nil => exact ⟨rfl, rfl⟩
  | cons call calls ih =>
    have hstep := transport.step_sends state call
    obtain ⟨hclients, hresponses⟩ := ih (transport.step state call).state
    simp only [Runs.run_cons_state, Runs.run_cons_outputs, List.flatMap_cons,
      List.filterMap_append, Custody.follow_append]
    simp only [machine, hstep.clients, hstep.responses, Option.bind_some]
    exact ⟨hclients, hresponses⟩

theorem run_sends (state : TransportState) (calls : List TransportCall) :
    ∀ record ∈ (Runs.run transport.machine state calls).2,
      transport.Sends record.found record.call
        ⟨(transport.step record.found record.call).state, record.effects, record.answer⟩ := by
  induction calls generalizing state with
  | nil => simp
  | cons call calls ih =>
    intro record hrecord
    rw [Runs.run_cons_outputs] at hrecord
    rcases List.mem_cons.mp hrecord with rfl | hrecord
    · exact transport.step_sends state call
    · exact ih _ record hrecord

/-- Along any calls on one transport, whatever the client library does: every client that
`__enter__` took is closed once unless it is the one held, and used only in between; every response
is closed once; a send posts its body exactly once if the transport is open and the body can be
made, and nothing else; and it returns only for a response with the accepted status that was
closed. -/
theorem transport_posts_and_closes_once (transport : SignedWorkerTransport ed)
    (calls : List TransportCall) :
    let log := (transport.history calls).flatMap TransportRecord.effects
    let clients := log.filterMap TransportEffect.client?
    let responses := log.filterMap TransportEffect.response?
    let state := transport.after calls
    (∀ k, clients.count (.release k) =
      if k < state.clients ∧ state.client ≠ some k then 1 else 0) ∧
    (∀ before k after, clients = before ++ .use k :: after →
      before.count (.acquire k) = 1 ∧ before.count (.release k) = 0) ∧
    (∀ k, responses.count (.acquire k) = responses.count (.release k) ∧
      responses.count (.release k) ≤ 1) ∧
    ∀ record ∈ transport.history calls,
      record.effects.filterMap TransportEffect.request? =
        (if record.found.client.isSome then (transport.body? record.call).toList else []) ∧
      ∀ met, record.call.met? = some met → (record.answer = .ok () ↔
        record.found.client.isSome ∧ (transport.body? record.call).isSome ∧
          met = ⟨.returned acceptedStatus, .returned ()⟩) := by
  intro log clients responses state
  obtain ⟨hclients, hresponses⟩ := transport.run_custody .initial calls
  have haccounts := Custody.accounts_of_follow hclients
  have hanswered := Custody.accounts_of_follow hresponses
  refine ⟨haccounts.released, ?_, ?_, ?_⟩
  · intro before k after hsplit
    apply Custody.held_at_use
    rw [← hsplit]
    exact hclients
  · intro k
    have hacquired : responses.count (.acquire k) = _ := hanswered.acquired k
    have hreleased : responses.count (.release k) = _ := hanswered.released k
    rw [hacquired, hreleased]
    simp only [ne_eq, reduceCtorEq, not_false_eq_true, and_true, true_and]
    split_ifs <;> omega
  · intro record hrecord
    have hsends := transport.run_sends .initial calls record hrecord
    exact ⟨hsends.requests, hsends.accepted⟩

end SignedWorkerTransport

end SecureEdge
