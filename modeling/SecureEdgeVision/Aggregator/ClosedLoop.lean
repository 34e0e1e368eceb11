import SecureEdgeVision.Aggregator.Responses
import SecureEdgeVision.Worker.Emission

/-! A worker run whose sink is the transport, over a network that may lose a post or its answer, to
an aggregator that serves other traffic too: what the worker counts against what is stored. -/
namespace SecureEdge

open Json (FloatRepr)

/-- What becomes of a post: lost, or handed to the aggregator, whose answer may be lost. -/
inductive PostFate where
  | lost
  | handled (contentLength : Option String) (streamRaises : Bool)
      (surroundings : IngestSurroundings) (answered : Bool) (close : Called Unit)

/-- One send over the network: the requests that the aggregator answers before it, how its body is
cut into chunks, and its fate. -/
structure Delivery where
  before : List AggregatorRequest
  chunks : ByteArray → List ByteArray
  join : ∀ body, joinChunks (chunks body) = body
  fate : PostFate

namespace AggregatorApp
variable {ed : Ed25519} (app : AggregatorApp) (transport : SignedWorkerTransport ed)

/-- The request of a body that is handed over. -/
def Delivery.request (delivery : Delivery) (body : ByteArray) (contentLength : Option String)
    (streamRaises : Bool) : HttpRequest :=
  ⟨some "application/json", contentLength, [], delivery.chunks body, streamRaises⟩

/-- What the aggregator does with a body, and what the client meets. -/
def meet (state : IngestState) (delivery : Delivery) (body : Option ByteArray) :
    IngestState × PostMet :=
  match body, delivery.fate with
  | some body, .handled contentLength streamRaises surroundings answered close =>
    let (state, response) := app.answer state
      (.detection (Delivery.request delivery body contentLength streamRaises) surroundings)
    (state, ⟨if answered then .returned response.status else .raised, close⟩)
  | _, _ => (state, ⟨.raised, .returned ()⟩)

/-- The body of a detection that is put on the network: none on a closed client. -/
def posted (client : TransportState) (event : DetectionEvent) : Option ByteArray :=
  if client.client.isSome then
    (sendDetection ed transport.reprFloat transport.privateKey event).toOption
  else none

/-- One send of the worker, and whether it raised. -/
def exchange (state : IngestState × TransportState) (send : DetectionEvent × Delivery) :
    (IngestState × TransportState) × Bool :=
  let served := (app.serve state.1 send.2.before).1
  let met := app.meet served send.2 (posted transport state.2 send.1)
  let sent := transport.sendDetection state.2 send.1 met.2
  ((met.1, sent.state), !sent.answer.isOk)

/-- The sends of a run, in order. -/
def exchanges (tables : Tables) (client : TransportState)
    (sends : List (DetectionEvent × Delivery)) : (IngestState × TransportState) × List Bool :=
  Runs.run (app.exchange transport) (⟨.initial, tables⟩, client) sends

end AggregatorApp

namespace AggregatorApp
variable {ed : Ed25519} {app : AggregatorApp} {transport : SignedWorkerTransport ed}
  {found : List DetectionEventRecord}

/-- A body that the transport made is decoded to its event. -/
theorem parse_sendDetection {ed : Ed25519} {transport : SignedWorkerTransport ed}
    (hrepr : FloatRepr transport.reprFloat) {depth : ℕ} (hdepth : 5 ≤ depth)
    {event : DetectionEvent} {body : ByteArray}
    (hsend : sendDetection ed transport.reprFloat transport.privateKey event = .ok body)
    {envelope : SignedDetectionEnvelope}
    (hparse : parseDetectionEnvelope depth body = .ok envelope) :
    envelope.body.Agree event := by
  cases hsign : signDetectionEvent ed transport.reprFloat event transport.privateKey with
  | error e =>
    unfold sendDetection at hsend
    rw [hsign] at hsend
    cases hsend
  | ok signed =>
    obtain ⟨payload, hpayload, hsent⟩ := sendDetection_eq_ok hsign
    obtain rfl := Except.ok.inj (hsend.symm.trans hsent)
    have hread : parseDetectionEnvelope depth payload.toUTF8 = .ok signed.astimezone :=
      parseWireModel_dumps hrepr (Document.clean_envelope signed)
        ((Document.nesting_envelope signed).trans hdepth) hpayload
        (validateSignedDetectionEnvelope_scanned signed)
    obtain rfl := Except.ok.inj (hread.symm.trans hparse)
    exact (signDetectionEvent_eq_ok hsign).1 ▸ signed.body.agree_astimezone

theorem meet_keeps (app : AggregatorApp) (found : List DetectionEventRecord)
    (state : IngestState) (delivery : Delivery) (body : Option ByteArray) :
    app.ingestor.Keeps found state (app.meet state delivery body).1 := by
  unfold meet
  split
  · exact app.answer_keeps found state _
  · exact .of_same rfl rfl

/-- A client that meets the accepted status has its body decoded and stored. -/
theorem meet_accepted (app : AggregatorApp) (state : IngestState) (delivery : Delivery)
    (body : Option ByteArray)
    (h : (app.meet state delivery body).2.response = .returned acceptedStatus) :
    ∃ payload envelope, body = some payload ∧
      parseDetectionEnvelope app.depth payload = .ok envelope ∧
      ∃ row ∈ (app.meet state delivery body).1.tables.detectionEvents,
        row.IsOf app.ingestor.reprFloat envelope.body := by
  unfold meet at h ⊢
  split at h
  next payload contentLength streamRaises surroundings answered close hfate =>
    cases answered with
    | false => cases h
    | true =>
      generalize hanswer : app.answer state
        (.detection (Delivery.request delivery payload contentLength streamRaises) surroundings) =
          result at h ⊢
      have hstatus : result.2.status = acceptedStatus := Called.returned.inj h
      rw [← hanswer] at hstatus
      obtain ⟨envelope, hread, hstored⟩ := answer_accepted hstatus
      have hparse := readDetection_ok hread
      rw [Delivery.request, delivery.join] at hparse
      rw [hanswer] at hstored
      exact ⟨payload, envelope, rfl, hparse, hstored⟩
  next => cases h

/-- The body that is put on the network is the one the transport made. -/
theorem sendDetection_of_posted {client : TransportState} {event : DetectionEvent}
    {payload : ByteArray} (h : posted transport client event = some payload) :
    sendDetection ed transport.reprFloat transport.privateKey event = .ok payload := by
  unfold posted at h
  split_ifs at h
  cases hmade : sendDetection ed transport.reprFloat transport.privateKey event with
  | error e =>
    rw [hmade] at h
    cases h
  | ok body =>
    rw [hmade] at h
    exact congrArg _ (Option.some.inj h)

theorem eq_ok_of_isOk {ε : Type} {x : Except ε Unit} (h : (!x.isOk) = false) : x = .ok () := by
  cases x with
  | error e => cases h
  | ok u => rfl

/-- Step lemma for a send: one that does not raise has its event stored. -/
theorem exchange_keeps (hrepr : FloatRepr transport.reprFloat) (hdepth : 5 ≤ app.depth)
    (found : List DetectionEventRecord) (state : IngestState × TransportState)
    (send : DetectionEvent × Delivery) :
    app.ingestor.Keeps found state.1 (app.exchange transport state send).1.1 ∧
      ((app.exchange transport state send).2 = false →
        ∃ row ∈ (app.exchange transport state send).1.1.tables.detectionEvents,
          row.IsOf app.ingestor.reprFloat send.1) := by
  have hserved := app.serve_keeps found state.1 send.2.before
  have hmet := app.meet_keeps found (app.serve state.1 send.2.before).1 send.2
    (posted transport state.2 send.1)
  have hstored := app.meet_accepted (app.serve state.1 send.2.before).1 send.2
    (posted transport state.2 send.1)
  unfold exchange
  dsimp only
  generalize app.meet (app.serve state.1 send.2.before).1 send.2
    (posted transport state.2 send.1) = met at hmet hstored ⊢
  refine ⟨hserved.trans hmet, ?_⟩
  intro hsent
  have hsends := transport.step_sends state.2 (.sendDetection send.1 met.2)
  obtain ⟨-, -, hstatus⟩ := (hsends.accepted met.2 rfl).mp (eq_ok_of_isOk hsent)
  obtain ⟨payload, envelope, hposted, hparse, row, hrow, hof⟩ :=
    hstored (congrArg PostMet.response hstatus)
  have hagree := parse_sendDetection hrepr hdepth (sendDetection_of_posted hposted) hparse
  exact ⟨row, hrow, hof.congr hagree⟩

/-- Run lemma over the sends. -/
theorem exchanges_keep (hrepr : FloatRepr transport.reprFloat) (hdepth : 5 ≤ app.depth)
    (found : List DetectionEventRecord) (state : IngestState × TransportState)
    (sends : List (DetectionEvent × Delivery)) :
    app.ingestor.Keeps found state.1 (Runs.run (app.exchange transport) state sends).1.1 ∧
      ∀ sent ∈ (sends.map Prod.fst).zip (Runs.run (app.exchange transport) state sends).2,
        sent.2 = false →
          ∃ row ∈ (Runs.run (app.exchange transport) state sends).1.1.tables.detectionEvents,
            row.IsOf app.ingestor.reprFloat sent.1 := by
  induction sends generalizing state with
  | nil => exact ⟨.of_same rfl rfl, by simp⟩
  | cons send sends ih =>
    obtain ⟨hstep, hstored⟩ := exchange_keeps hrepr hdepth found state send
    obtain ⟨hrest, hlater⟩ := ih (app.exchange transport state send).1
    rw [Runs.run_cons_state, Runs.run_cons_outputs, List.map_cons, List.zip_cons_cons]
    refine ⟨hstep.trans hrest, ?_⟩
    intro sent hsent hraised
    rcases List.mem_cons.mp hsent with hhead | hsent
    · simp only [hhead] at hraised ⊢
      obtain ⟨row, hrow, hof⟩ := hstored hraised
      exact ⟨row, hrest.rows.subset hrow, hof⟩
    · exact hlater sent hsent hraised

end AggregatorApp

section Worker

/-- An event that the sink was given, and whether it raised. -/
def RunEffect.sunk? : RunEffect → Option (DetectionEvent × Bool)
  | .sunk event raised => some (event, raised)
  | _ => none

namespace PrivacyWorkerPipeline
variable (pipeline : PrivacyWorkerPipeline) (rate : SampleFps) (state : PipelineState)
  (call : RunCall)

/-- The calls of the sink in a run. -/
def sunk : List (DetectionEvent × Bool) :=
  (pipeline.run rate state call).2.1.filterMap RunEffect.sunk?

/-- The events for which the sink did not raise. -/
def deliveredOf (sunk : List (DetectionEvent × Bool)) : List DetectionEvent :=
  (sunk.filter fun sent => !sent.2).map Prod.fst

theorem map_sunk (steps : List WorkerStep) :
    ((steps.filterMap WorkerStep.effect?).filterMap RunEffect.sunk?).map Prod.fst =
        steps.filterMap WorkerStep.sent? ∧
      deliveredOf ((steps.filterMap WorkerStep.effect?).filterMap RunEffect.sunk?) =
        steps.filterMap WorkerStep.delivered? ∧
      (steps.filterMap WorkerStep.effect?).filterMap RunEffect.returned? =
        steps.filterMap WorkerStep.returned? := by
  unfold deliveredOf
  induction steps with
  | nil => simp
  | cons step steps ih =>
    cases step with
    | check outcome => simpa [List.filterMap_cons, WorkerStep.effect?, WorkerStep.sent?,
        WorkerStep.delivered?, WorkerStep.returned?] using ih
    | read outcome => simpa [List.filterMap_cons, WorkerStep.effect?, WorkerStep.sent?,
        WorkerStep.delivered?, WorkerStep.returned?, RunEffect.sunk?, RunEffect.returned?] using ih
    | sample captured outcome => simpa [List.filterMap_cons, WorkerStep.effect?, WorkerStep.sent?,
        WorkerStep.delivered?, WorkerStep.returned?] using ih
    | process frame outcome =>
      cases outcome <;> simpa [List.filterMap_cons, WorkerStep.effect?, WorkerStep.sent?,
        WorkerStep.delivered?, WorkerStep.returned?, RunEffect.sunk?, RunEffect.returned?] using ih
    | send event raised =>
      cases raised <;> simpa [List.filterMap_cons, WorkerStep.effect?, WorkerStep.sent?,
        WorkerStep.delivered?, WorkerStep.returned?, RunEffect.sunk?, RunEffect.returned?] using ih

/-- What a run hands to the sink: distinct events, of which at most the last is not delivered; then
the run raises. -/
structure Sinks (sunk : List (DetectionEvent × Bool))
    (outcome : Except WorkerPipelineError ℕ) : Prop where
  distinct : (sunk.map Prod.fst).Pairwise Distinct
  delivered : Upto (∃ e, outcome = .error e) (sunk.map Prod.fst) (deliveredOf sunk)
  count : ∀ n, outcome = .ok n → n = (deliveredOf sunk).length

theorem run_sinks : Sinks (pipeline.sunk rate state call) (pipeline.run rate state call).2.2 := by
  obtain ⟨heffects, hreturned⟩ := pipeline.runSteps_traces rate state call
  obtain ⟨offered, ended, -, h, hcut⟩ := pipeline.runSteps_emits rate state call
  have hissued := pipeline.issued_run rate state call
  obtain ⟨hsent, hdelivered, hevents⟩ := map_sunk (pipeline.runSteps rate state call).calls
  rw [heffects] at hsent hdelivered hevents
  rw [hevents] at hissued
  have hprefix : (pipeline.runSteps rate state call).calls.filterMap WorkerStep.sent? <+:
      (pipeline.runSteps rate state call).calls.filterMap WorkerStep.returned? := by
    rcases h.sent with heq | ⟨-, event, heq⟩
    · rw [heq]
    · rw [heq]
      exact List.prefix_append _ _
  have hraised : ended = none → ∃ e, (pipeline.run rate state call).2.2 = .error e := by
    intro hended
    obtain ⟨e, he⟩ := hcut hended
    cases hrun : (pipeline.run rate state call).2.2 with
    | error e' => exact ⟨e', rfl⟩
    | ok n =>
      have hresult := (hreturned n hrun).1
      simp [he] at hresult
  unfold sunk
  constructor
  · rw [hsent]
    exact hissued.distinct.sublist hprefix.sublist
  · rw [hsent, hdelivered]
    exact h.delivered.mono hraised
  · intro n hn
    rw [hdelivered]
    exact pipeline.runSteps_count rate state call (hreturned n hn).1

end PrivacyWorkerPipeline

end Worker

section Counting

/-- As many rows have one of the identities as there are identities that have a row, if none has
two. -/
theorem countP_mem_eq {α : Type} [BEq α] [LawfulBEq α] {rows keys : List α} (hkeys : keys.Nodup)
    (hcount : ∀ key ∈ keys, rows.count key ≤ 1) :
    rows.countP (· ∈ keys) = (keys.filter fun key => key ∈ rows).length := by
  have hrows : (rows.filter (· ∈ keys)).Nodup := by
    rw [List.nodup_iff_count_le_one]
    intro key
    by_cases hkey : key ∈ keys
    · exact (List.filter_sublist.count_le key).trans (hcount key hkey)
    · have hnone : key ∉ rows.filter (· ∈ keys) := by simp [hkey]
      rw [List.count_eq_zero.mpr hnone]
      exact Nat.zero_le 1
  have hperm : (rows.filter (· ∈ keys)).Perm (keys.filter fun key => key ∈ rows) := by
    rw [List.perm_ext_iff_of_nodup hrows (hkeys.filter _)]
    intro key
    simp [and_comm]
  rw [List.countP_eq_length_filter, hperm.length_eq]

end Counting

/-- The events that have a row. -/
def storedOf (rows : List DetectionEventRecord) (events : List DetectionEvent) :
    List DetectionEvent :=
  events.filter fun event => event.identity ∈ rows.map DetectionEventRecord.identity

theorem storedOf_single (rows : List DetectionEventRecord) (event : DetectionEvent) :
    storedOf rows [event] = [event] ∨ storedOf rows [event] = [] := by
  unfold storedOf
  rw [List.filter_cons]
  split_ifs
  · exact .inl rfl
  · exact .inr rfl

/-- As many rows are of the events as there are events that have a row. -/
theorem length_storedOf {rows : List DetectionEventRecord} {events : List DetectionEvent}
    (hdistinct : events.Pairwise PrivacyWorkerPipeline.Distinct)
    (hcopies : ∀ event ∈ events, copies rows event ≤ 1) :
    (rows.countP fun row => row.identity ∈ events.map DetectionEvent.identity) =
      (storedOf rows events).length := by
  have hkeys : (events.map DetectionEvent.identity).Nodup := by
    refine List.pairwise_map.mpr (hdistinct.imp ?_)
    intro a b hne heq
    have hid : a.eventId.text = b.eventId.text := congrArg (fun identity => identity.2.1) heq
    exact hne.1 (SafeIdentifier.ext hid)
  have hcount : ∀ key ∈ events.map DetectionEvent.identity,
      (rows.map DetectionEventRecord.identity).count key ≤ 1 := by
    intro key hkey
    obtain ⟨event, hevent, rfl⟩ := List.mem_map.mp hkey
    exact hcopies event hevent
  have hrows := countP_mem_eq hkeys hcount
  rw [List.countP_map, List.filter_map, List.length_map] at hrows
  exact hrows

namespace AggregatorApp
variable {ed : Ed25519} {app : AggregatorApp} {transport : SignedWorkerTransport ed}

/-- The sink of the run is the transport: what it was given, and where it raised, is what the
sends over the network did. -/
def Coupled (app : AggregatorApp) (transport : SignedWorkerTransport ed)
    (sunk : List (DetectionEvent × Bool)) (tables : Tables) (client : TransportState)
    (sends : List (DetectionEvent × Delivery)) : Prop :=
  sunk = (sends.map Prod.fst).zip (app.exchanges transport tables client sends).2

/-- The worker's count is the aggregator's. Over any network that loses posts or answers, with any
other traffic and any failures of the aggregator, the events of a run that have a row are those
whose send returned, except that the last send of a run that raised may have been stored as well.
No event has two rows, a delivered event has its own, and a run that returns `n` has sent `n` events
and left `n` rows. -/
theorem worker_counts_stored_rows (hrepr : FloatRepr transport.reprFloat) (hdepth : 5 ≤ app.depth)
    (pipeline : PrivacyWorkerPipeline) (rate : SampleFps) (state : PipelineState) (call : RunCall)
    (tables : Tables) (client : TransportState) (sends : List (DetectionEvent × Delivery))
    (hcoupled : app.Coupled transport (pipeline.sunk rate state call) tables client sends)
    (hnew : ∀ sent ∈ pipeline.sunk rate state call, ∀ row ∈ tables.detectionEvents,
      row.identity ≠ sent.1.identity)
    (later : List AggregatorRequest) :
    let sent := (pipeline.sunk rate state call).map Prod.fst
    let delivered := PrivacyWorkerPipeline.deliveredOf (pipeline.sunk rate state call)
    let outcome := (pipeline.run rate state call).2.2
    let after := (app.exchanges transport tables client sends).1.1
    let rows := (app.serve after later).1.tables.detectionEvents
    Upto (∃ e, outcome = .error e) (storedOf rows sent) delivered ∧
      (∀ event ∈ sent, copies rows event ≤ 1) ∧
      (∀ event ∈ delivered, ∃ row ∈ rows, row.IsOf app.ingestor.reprFloat event) ∧
      ∀ n, outcome = .ok n → n = sent.length ∧
        (rows.countP fun row => row.identity ∈ sent.map DetectionEvent.identity) = n := by
  intro sent delivered outcome after rows
  obtain ⟨hdistinct, hdelivered, hcount⟩ := pipeline.run_sinks rate state call
  obtain ⟨hkeeps, hstored⟩ := exchanges_keep hrepr hdepth tables.detectionEvents
    (⟨.initial, tables⟩, client) sends
  have hserved := app.serve_keeps tables.detectionEvents after later
  have hstart : app.ingestor.Ledger tables.detectionEvents ⟨.initial, tables⟩ :=
    ⟨[], [], logged_initial _, by simp, by simp⟩
  have hledger := (hkeeps.trans hserved).ledger hstart
  have hcopies : ∀ event ∈ sent, copies rows event ≤ 1 := by
    intro event hevent
    obtain ⟨pair, hpair, rfl⟩ := List.mem_map.mp hevent
    exact hledger.copies_le (hnew pair hpair)
  have hrow : ∀ event ∈ delivered, ∃ row ∈ rows, row.IsOf app.ingestor.reprFloat event := by
    intro event hevent
    obtain ⟨pair, hpair, rfl⟩ := List.mem_map.mp hevent
    obtain ⟨hmem, hraised⟩ := List.mem_filter.mp hpair
    rw [hcoupled] at hmem
    obtain ⟨row, hrow, hof⟩ := hstored pair hmem (by simpa using hraised)
    exact ⟨row, hserved.rows.subset hrow, hof⟩
  have hall : storedOf rows delivered = delivered := by
    unfold storedOf
    rw [List.filter_eq_self]
    intro event hevent
    obtain ⟨row, hrow, hof⟩ := hrow event hevent
    exact decide_eq_true (List.mem_map.mpr ⟨row, hrow, hof.identity_eq⟩)
  refine ⟨?_, hcopies, hrow, ?_⟩
  · rcases hdelivered with heq | ⟨hraised, event, heq⟩
    · have hsent : sent = delivered := heq
      rw [hsent, hall]
      exact .inl rfl
    · have hsent : sent = delivered ++ [event] := heq
      have hsplit : storedOf rows sent = delivered ++ storedOf rows [event] := by
        rw [hsent, storedOf, List.filter_append]
        exact congrArg (· ++ storedOf rows [event]) hall
      rw [hsplit]
      rcases storedOf_single rows event with hstored | hlost
      · exact .inr ⟨hraised, event, by rw [hstored]⟩
      · exact .inl (by rw [hlost, List.append_nil])
  · intro n hn
    have hsent : sent = delivered := hdelivered.eq (by
      rintro ⟨e, he⟩
      cases hn.symm.trans he)
    have hlength : n = delivered.length := hcount n hn
    have hrows : (rows.countP fun row => row.identity ∈ sent.map DetectionEvent.identity) =
        (storedOf rows sent).length := length_storedOf hdistinct hcopies
    rw [hrows, hsent, hall]
    exact ⟨hlength, hlength.symm⟩

section Sample
open DetectionEventIngestor (sample sampleNode sampleTables sampleEvent secondEvent
  secondEvent_isSafe secondNonce_isSafe getNode_sample fitsColumns_sample ingest_signed)

def sampleTransport : SignedWorkerTransport .checksum :=
  ⟨"http://aggregator", (7 : UInt8), false, Json.exactRepr⟩

/-- A post in one chunk, served at the instant. -/
def sampleDelivery (instant : UtcDatetime) (answered : Bool) : Delivery where
  before := []
  chunks body := [body]
  join body := by simp [joinChunks]
  fate := .handled none false
    ⟨false, .utc instant, some "alert-1", .utc instant, .persisted⟩ answered (.returned ())

variable {state : IngestState} {event : DetectionEvent} {instant : UtcDatetime}
  {envelope : SignedDetectionEnvelope} {text : String}

/-- The post of an event that the node signed and the policy takes is answered as accepted. -/
theorem answer_signed (hutc : event.astimezone = event)
    (hsign : signDetectionEvent .checksum Json.exactRepr event (7 : UInt8) = .ok envelope)
    (htext : Json.dumps Json.exactRepr (Document.envelope envelope) = some text)
    (hsize : text.toUTF8.size ≤ SecuritySettings.sample.maxRequestBytes)
    (hnode : state.tables.getNode event.nodeId = some sampleNode) (hfits : event.FitsColumns)
    (hok : (acceptVerifiedEvent sample.settings state.policy (.utc instant) event).2.isOk = true) :
    ∃ stored, stored.IsOf sample.reprFloat event ∧
      answer ⟨sample, 5⟩ state
          (samplePost (some "application/json") text.toUTF8 instant "alert-1") =
        (⟨(acceptVerifiedEvent sample.settings state.policy (.utc instant) event).1,
          state.tables.addEvent stored⟩, .accepted) := by
  have hbody : envelope.body = event := (signDetectionEvent_eq_ok hsign).1
  have henvelope : envelope.astimezone = envelope := by
    rw [SignedDetectionEnvelope.astimezone, hbody, hutc, ← hbody]
  have hparse : parseDetectionEnvelope 5 text.toUTF8 = .ok envelope.astimezone :=
    parseWireModel_dumps Json.exactRepr_floatRepr (Document.clean_envelope envelope)
      (Document.nesting_envelope envelope) htext (validateSignedDetectionEnvelope_scanned envelope)
  rw [henvelope] at hparse
  have hread := (readDetection_single ⟨sample, 5⟩ hsize []).trans hparse
  let surroundings : IngestSurroundings :=
    ⟨false, .utc instant, some "alert-1", .utc instant, .persisted⟩
  have hcall : signDetectionEvent sample.ed sample.reprFloat event (7 : UInt8) =
      .ok (surroundings.call envelope).envelope := hsign
  obtain ⟨stored, hof, hs⟩ := ingest_signed hcall hnode hfits rfl rfl hok
  refine ⟨stored, hof, ?_⟩
  rw [samplePost, answer_detection hread, hs]
  rfl

/-- Its send raises if and only if the answer is lost. -/
theorem exchange_signed (answered : Bool) (responses : ℕ) (hutc : event.astimezone = event)
    (hsign : signDetectionEvent .checksum Json.exactRepr event (7 : UInt8) = .ok envelope)
    (htext : Json.dumps Json.exactRepr (Document.envelope envelope) = some text)
    (hsize : text.toUTF8.size ≤ SecuritySettings.sample.maxRequestBytes)
    (hnode : state.tables.getNode event.nodeId = some sampleNode) (hfits : event.FitsColumns)
    (hok : (acceptVerifiedEvent sample.settings state.policy (.utc instant) event).2.isOk = true) :
    ∃ stored, stored.IsOf sample.reprFloat event ∧
      exchange ⟨sample, 5⟩ sampleTransport (state, ⟨some 0, 1, responses⟩)
          (event, sampleDelivery instant answered) =
        ((⟨(acceptVerifiedEvent sample.settings state.policy (.utc instant) event).1,
          state.tables.addEvent stored⟩, ⟨some 0, 1, responses + answered.toNat⟩), !answered) := by
  obtain ⟨stored, hof, hs⟩ := answer_signed hutc hsign htext hsize hnode hfits hok
  have hsigned : signDetectionEvent .checksum sampleTransport.reprFloat event
      sampleTransport.privateKey = .ok envelope := hsign
  have hpayload : sampleTransport.envelopeBody envelope = some text.toUTF8 :=
    congrArg (Option.map String.toUTF8) htext
  obtain ⟨payload, hdumps, hsend⟩ := sendDetection_eq_ok hsigned
  obtain rfl : text = payload := Option.some.inj (htext.symm.trans hdumps)
  have hposted : posted sampleTransport ⟨some 0, 1, responses⟩ event = some text.toUTF8 := by
    unfold posted
    rw [hsend]
    rfl
  have hmet : meet ⟨sample, 5⟩ state (sampleDelivery instant answered) (some text.toUTF8) =
      (⟨(acceptVerifiedEvent sample.settings state.policy (.utc instant) event).1,
        state.tables.addEvent stored⟩,
        ⟨if answered then .returned acceptedStatus else .raised, .returned ()⟩) := by
    unfold samplePost at hs
    unfold meet sampleDelivery Delivery.request
    dsimp only
    rw [hs]
    rfl
  have hserved : (serve ⟨sample, 5⟩ state (sampleDelivery instant answered).before).1 = state := rfl
  refine ⟨stored, hof, ?_⟩
  unfold exchange
  dsimp only
  rw [hserved, hposted, hmet]
  unfold SignedWorkerTransport.sendDetection
  rw [hsigned]
  dsimp only
  rw [hpayload]
  cases answered <;> rfl

theorem zero_lt_sampleRate : Binary64.Finite.zero < Binary64.Finite.one := by decide +kernel

theorem sampleRate_le : Binary64.Finite.one ≤
    ⟨false, 120 * 2 ^ 46, 1028, by decide, by decide, Or.inl (by decide)⟩ := by decide +kernel

def sampleRate : SampleFps := ⟨.one, zero_lt_sampleRate, sampleRate_le⟩

def sampleWorker : PrivacyWorkerPipeline :=
  ⟨⟨"edge-1", edge_isSafe⟩, ⟨"camera-1", camera_isSafe⟩⟩

/-- The second event of a run. -/
def laterEvent (instant : UtcDatetime) : DetectionEvent :=
  { secondEvent instant with frameSeq := 1 }

theorem exists_sign_laterEvent (instant : UtcDatetime) : ∃ envelope,
    signDetectionEvent .checksum Json.exactRepr (laterEvent instant) (7 : UInt8) =
      .ok envelope := by
  have hsmall : ∀ n ∈ [1, 640, 480], (Json.PyNumber.int (n : ℕ)).printable = true := by
    decide +kernel
  exact exists_sign_small Ed25519.checksum_lawful rfl hsmall (7 : UInt8)

/-- A run over two frames, a second apart, whose sink raises on the second. -/
theorem exists_run_sample : ∃ call first second,
    (sampleWorker.run sampleRate .initial call).2.2.isOk = false ∧
      sampleWorker.sunk sampleRate .initial call =
        [(sampleEvent first, false), (laterEvent second, true)] ∧
      (acceptVerifiedEvent sample.settings .initial (.utc first) (sampleEvent first)).2.isOk =
        true ∧
      (acceptVerifiedEvent sample.settings
        (acceptVerifiedEvent sample.settings .initial (.utc first) (sampleEvent first)).1
        (.utc second) (laterEvent second)).2.isOk = true ∧
      (Json.render (Json.numberText Json.exactRepr)
        (Document.event (sampleEvent first))).length ≤ 1000 ∧
      (Json.render (Json.numberText Json.exactRepr)
        (Document.event (laterEvent second))).length ≤ 1000 := by
  let first : UtcDatetime := ⟨63893000000000000, by decide⟩
  let second : UtcDatetime := ⟨63893000001000000, by decide⟩
  let frame := PrivacyWorkerPipeline.sampleFrame ⟨"event-1", event_isSafe⟩
    ⟨"nonce-1", nonce_isSafe⟩ first
  let later := { PrivacyWorkerPipeline.sampleFrame ⟨"event-2", secondEvent_isSafe⟩
    ⟨"nonce-2", secondNonce_isSafe⟩ second with captured := some ⟨.float .zero, .float .one⟩ }
  refine ⟨⟨true, .none, .ok (), .ok (), .ok (),
    [⟨.ok (), .ok frame.captured, .ok (), frame, .ok (), false, .ok ()⟩,
      ⟨.ok (), .ok later.captured, .ok (), later, .ok (), true, .ok ()⟩], .ok (), .ok ()⟩,
    first, second, ?_, ?_, ?_, ?_, ?_, ?_⟩ <;> decide +kernel

/-- The rows after two posts, of which only the first is answered. -/
theorem exists_exchanges_sample {first second : UtcDatetime}
    (hfirst : (acceptVerifiedEvent sample.settings .initial (.utc first)
      (sampleEvent first)).2.isOk = true)
    (hsecond : (acceptVerifiedEvent sample.settings
      (acceptVerifiedEvent sample.settings .initial (.utc first) (sampleEvent first)).1
      (.utc second) (laterEvent second)).2.isOk = true)
    (hshort : (Json.render (Json.numberText Json.exactRepr)
      (Document.event (sampleEvent first))).length ≤ 1000)
    (hshort' : (Json.render (Json.numberText Json.exactRepr)
      (Document.event (laterEvent second))).length ≤ 1000) :
    ∃ delivered lost, (exchanges ⟨sample, 5⟩ sampleTransport sampleTables ⟨some 0, 1, 0⟩
        [(sampleEvent first, delivered), (laterEvent second, lost)]).2 = [false, true] ∧
      storedOf (exchanges ⟨sample, 5⟩ sampleTransport sampleTables ⟨some 0, 1, 0⟩
        [(sampleEvent first, delivered), (laterEvent second, lost)]).1.1.tables.detectionEvents
          [sampleEvent first, laterEvent second] = [sampleEvent first, laterEvent second] := by
  have hbound : 4 * (1000 + 2000) ≤ SecuritySettings.sample.maxRequestBytes := by decide
  obtain ⟨older, holder⟩ := DetectionEventIngestor.exists_sign_sampleEvent first
  obtain ⟨newer, hnewer⟩ := exists_sign_laterEvent second
  obtain ⟨text, htext, hsend⟩ := sendDetection_eq_ok holder
  obtain ⟨text', htext', hsend'⟩ := sendDetection_eq_ok hnewer
  have hsize : text.toUTF8.size ≤ SecuritySettings.sample.maxRequestBytes :=
    ((sendDetection_size_le hsend).trans
      (Nat.mul_le_mul_left 4 (Nat.add_le_add_right hshort 2000))).trans hbound
  have hsize' : text'.toUTF8.size ≤ SecuritySettings.sample.maxRequestBytes :=
    ((sendDetection_size_le hsend').trans
      (Nat.mul_le_mul_left 4 (Nat.add_le_add_right hshort' 2000))).trans hbound
  have hfits : (laterEvent second).FitsColumns := by
    show 1 ≤ Tables.maxInteger ∧ 640 ≤ Tables.maxInteger ∧ 480 ≤ Tables.maxInteger
    decide
  let policy := (acceptVerifiedEvent sample.settings .initial (.utc first) (sampleEvent first)).1
  obtain ⟨a, ha, hone⟩ : ∃ stored, _ ∧ exchange ⟨sample, 5⟩ sampleTransport
      (⟨.initial, sampleTables⟩, ⟨some 0, 1, 0⟩) (sampleEvent first, sampleDelivery first true) =
        ((⟨policy, sampleTables.addEvent stored⟩, ⟨some 0, 1, 1⟩), false) :=
    exchange_signed true 0 rfl holder htext hsize (getNode_sample first)
      (fitsColumns_sample first) hfirst
  obtain ⟨b, hb, htwo⟩ : ∃ stored, _ ∧ exchange ⟨sample, 5⟩ sampleTransport
      (⟨policy, sampleTables.addEvent a⟩, ⟨some 0, 1, 1⟩)
        (laterEvent second, sampleDelivery second false) =
        ((⟨_, (sampleTables.addEvent a).addEvent stored⟩, ⟨some 0, 1, 1⟩), true) :=
    exchange_signed false 1 rfl hnewer htext' hsize' (getNode_sample second) hfits hsecond
  refine ⟨sampleDelivery first true, sampleDelivery second false, ?_⟩
  have hrows : ((sampleTables.addEvent a).addEvent b).detectionEvents = [a, b] := rfl
  simp only [exchanges, Runs.run, hone, htwo, hrows, true_and]
  rw [storedOf, List.filter_eq_self]
  simp [ha.identity_eq, hb.identity_eq]

/-- Two frames and two rows; the answer to the second post is lost, and its event not counted. -/
theorem worker_counts_stored_rows_lost_answer : ∃ call first second delivered lost,
    let rows := (exchanges ⟨sample, 5⟩ sampleTransport sampleTables ⟨some 0, 1, 0⟩
      [(first, delivered), (second, lost)]).1.1.tables.detectionEvents
    (sampleWorker.run sampleRate .initial call).2.2.isOk = false ∧
      sampleWorker.sunk sampleRate .initial call = [(first, false), (second, true)] ∧
      storedOf rows [first, second] = [first, second] ∧
      copies rows first ≤ 1 ∧ copies rows second ≤ 1 := by
  obtain ⟨call, first, second, hrun, hsunk, hfirst, hsecond, hshort, hshort'⟩ := exists_run_sample
  obtain ⟨delivered, lost, hflags, hstored⟩ :=
    exists_exchanges_sample hfirst hsecond hshort hshort'
  refine ⟨call, sampleEvent first, laterEvent second, delivered, lost, ?_⟩
  dsimp only
  have hcoupled : Coupled ⟨sample, 5⟩ sampleTransport (sampleWorker.sunk sampleRate .initial call)
      sampleTables ⟨some 0, 1, 0⟩
      [(sampleEvent first, delivered), (laterEvent second, lost)] := by
    unfold Coupled
    rw [hflags, hsunk]
    rfl
  obtain ⟨-, hcopies, -, -⟩ := worker_counts_stored_rows Json.exactRepr_floatRepr le_rfl
    sampleWorker sampleRate .initial call sampleTables ⟨some 0, 1, 0⟩
    [(sampleEvent first, delivered), (laterEvent second, lost)] hcoupled
    (by simp [sampleTables]) []
  simp only [hsunk, serve, Runs.run_nil] at hcopies
  refine ⟨hrun, hsunk, hstored, hcopies _ ?_, hcopies _ ?_⟩ <;> simp

end Sample

end AggregatorApp

end SecureEdge
