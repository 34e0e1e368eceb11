import SecureEdgeVision.Aggregator.BodyReading
import SecureEdgeVision.Aggregator.Malformed
import SecureEdgeVision.Aggregator.Noninterference
import SecureEdgeVision.Transport.Client

/-! What the answer to a post says about the event table: rows follow the log of accepted events,
they only grow, and a detection that is answered as accepted has its row. -/
namespace SecureEdge

section Reading

theorem readChunks_join {maximum total : ℕ} {streamRaises : Bool}
    {held chunks kept : List ByteArray} {read : ℕ}
    (h : readChunks maximum streamRaises held total chunks = .ok (kept, read)) :
    joinChunks kept = joinChunks held ++ joinChunks chunks := by
  induction chunks generalizing held total with
  | nil =>
    unfold readChunks at h
    split_ifs at h
    obtain ⟨rfl, -⟩ := Prod.mk.inj (Except.ok.inj h)
    exact ByteArray.append_empty.symm
  | cons chunk chunks ih =>
    unfold readChunks at h
    dsimp only at h
    split_ifs at h with hbound hempty
    · have hjoin := ih h
      simp [hjoin, ByteArray.size_eq_zero_iff.mp hempty]
    · have hjoin := ih h
      rw [hjoin, joinChunks_append, joinChunks_cons, joinChunks_cons, ByteArray.append_assoc,
        ByteArray.append_assoc]
      exact congrArg _ (congrArg (chunk ++ ·) ByteArray.empty_append)

/-- What is read of a body is the whole body. -/
theorem readBoundedBody_join {request : HttpRequest} {maximum : ℕ} {payload : ByteArray}
    (h : readBoundedBody request maximum = .ok payload) : payload = joinChunks request.chunks := by
  unfold readBoundedBody at h
  obtain ⟨declared, -, h⟩ := Python.bind_eq_ok.mp h
  obtain ⟨⟨kept, total⟩, hread, h⟩ := Python.bind_eq_ok.mp h
  have hjoin : joinChunks kept = _ := readChunks_join hread
  have hempty : joinChunks [] ++ joinChunks request.chunks = joinChunks request.chunks :=
    ByteArray.empty_append
  rw [hempty] at hjoin
  rw [← hjoin]
  cases declared with
  | none => exact (Except.ok.inj h).symm
  | some length =>
    dsimp only at h
    split_ifs at h
    exact (Except.ok.inj h).symm

theorem AggregatorApp.readDetection_ok {app : AggregatorApp} {request : HttpRequest}
    {envelope : SignedDetectionEnvelope} (h : app.readDetection request = .ok envelope) :
    parseDetectionEnvelope app.depth (joinChunks request.chunks) = .ok envelope := by
  unfold readDetection at h
  obtain ⟨-, -, h⟩ := Python.bind_eq_ok.mp h
  obtain ⟨payload, hread, h⟩ := Python.bind_eq_ok.mp h
  cases hbody : readBoundedBody request app.maxRequestBytes with
  | error failure =>
    rw [hbody] at hread
    cases hread
  | ok body =>
    rw [hbody] at hread
    obtain rfl := Except.ok.inj hread
    rwa [← readBoundedBody_join hbody]

/-- The failures of a request before it is decoded. -/
def RequestFailure.Early (failure : RequestFailure) : Prop :=
  failure = .invalidRequest ∨ failure = .requestTooLarge

theorem contentLength_early {request : HttpRequest} {maximum : ℕ} {failure : RequestFailure}
    (h : contentLength request maximum = .error failure) : failure.Early := by
  unfold contentLength at h
  split at h
  · cases h
  · split_ifs at h <;> cases h
    · exact Or.inl rfl
    · exact Or.inr rfl

theorem readChunks_early {maximum total : ℕ} {streamRaises : Bool} {held chunks : List ByteArray}
    {failure : RequestFailure}
    (h : readChunks maximum streamRaises held total chunks = .error failure) : failure.Early := by
  induction chunks generalizing held total with
  | nil =>
    unfold readChunks at h
    split_ifs at h
    cases h
    exact Or.inl rfl
  | cons chunk chunks ih =>
    unfold readChunks at h
    dsimp only at h
    split_ifs at h with hbound
    · cases h
      exact Or.inr rfl
    · exact ih h
    · exact ih h

theorem readBoundedBody_early {request : HttpRequest} {maximum : ℕ} {failure : RequestFailure}
    (h : readBoundedBody request maximum = .error failure) : failure.Early := by
  unfold readBoundedBody at h
  rcases Python.bind_eq_error.mp h with h | ⟨declared, -, h⟩
  · exact contentLength_early h
  rcases Python.bind_eq_error.mp h with h | ⟨⟨kept, total⟩, -, h⟩
  · exact readChunks_early h
  cases declared with
  | none => cases h
  | some length =>
    dsimp only at h
    split_ifs at h <;> cases h
    exact Or.inl rfl

theorem requireJson_early {request : HttpRequest} {failure : RequestFailure}
    (h : requireJson request = .error failure) : failure.Early := by
  unfold requireJson at h
  dsimp only at h
  split_ifs at h
  cases h
  exact Or.inl rfl

theorem mapError_eq_error {ε δ α : Type} {f : ε → δ} {x : Except ε α} {e : δ}
    (h : x.mapError f = .error e) : ∃ cause, x = .error cause ∧ e = f cause := by
  cases x with
  | error cause =>
    cases h
    exact ⟨cause, rfl, rfl⟩
  | ok a => cases h

/-- Decoding fails with one of the failures of a request, or with a recursion error. -/
theorem AggregatorApp.readDetection_error {app : AggregatorApp} {request : HttpRequest}
    {e : WireError} (h : app.readDetection request = .error e) :
    (∃ failure : RequestFailure, e = .failure failure ∧ failure.Early) ∨ e = .recursion := by
  unfold readDetection at h
  rcases Python.bind_eq_error.mp h with h | ⟨-, -, h⟩
  · obtain ⟨failure, hfailure, rfl⟩ := mapError_eq_error h
    exact Or.inl ⟨failure, rfl, requireJson_early hfailure⟩
  rcases Python.bind_eq_error.mp h with h | ⟨payload, -, h⟩
  · obtain ⟨failure, hfailure, rfl⟩ := mapError_eq_error h
    exact Or.inl ⟨failure, rfl, readBoundedBody_early hfailure⟩
  rcases parseWireModel_cases validateSignedDetectionEnvelope app.depth payload with
    (⟨model, hok⟩ | hfailed) | hdeep
  · cases h.symm.trans hok
  · cases h.symm.trans hfailed
    exact Or.inl ⟨_, rfl, Or.inl rfl⟩
  · cases h.symm.trans hdeep
    exact Or.inr rfl

end Reading

section Ledger

/-- How many rows have the identity of the event. -/
def copies (rows : List DetectionEventRecord) (event : DetectionEvent) : ℕ :=
  (rows.map DetectionEventRecord.identity).count event.identity

/-- The rows that a process added to those it found follow its log of accepted events. -/
def DetectionEventIngestor.Ledger (ingestor : DetectionEventIngestor)
    (found : List DetectionEventRecord) (state : IngestState) : Prop :=
  ∃ log added, Logged ingestor.settings state.policy log ∧
    state.tables.detectionEvents = found ++ added ∧
    (added.map DetectionEventRecord.identity).Sublist (log.map fun r => r.event.identity)

/-- What answering requests does to the rows: they only grow, and follow the log. -/
structure DetectionEventIngestor.Keeps (ingestor : DetectionEventIngestor)
    (found : List DetectionEventRecord) (state after : IngestState) : Prop where
  ledger : ingestor.Ledger found state → ingestor.Ledger found after
  rows : state.tables.detectionEvents <+: after.tables.detectionEvents

namespace DetectionEventIngestor
variable {ingestor : DetectionEventIngestor} {found : List DetectionEventRecord}
  {state after last : IngestState}

theorem Keeps.trans (h : ingestor.Keeps found state after) (h' : ingestor.Keeps found after last) :
    ingestor.Keeps found state last :=
  ⟨fun hstate => h'.ledger (h.ledger hstate), h.rows.trans h'.rows⟩

theorem Keeps.of_same (hpolicy : after.policy = state.policy)
    (hrows : after.tables.detectionEvents = state.tables.detectionEvents) :
    ingestor.Keeps found state after := by
  constructor
  · intro h
    unfold Ledger
    rwa [hpolicy, hrows]
  · rw [hrows]

/-- Rows that follow a log store no new event twice. -/
theorem Ledger.copies_le (h : ingestor.Ledger found state) {event : DetectionEvent}
    (hnew : ∀ row ∈ found, row.identity ≠ event.identity) :
    copies state.tables.detectionEvents event ≤ 1 := by
  obtain ⟨log, added, hlogged, hrows, hsublist⟩ := h
  have hnodup := hlogged.identities_nodup.sublist hsublist
  have hold : copies found event = 0 := by
    simpa [copies, List.count_eq_zero] using hnew
  have hadded : copies added event ≤ 1 := List.nodup_iff_count_le_one.mp hnodup event.identity
  unfold copies at hold hadded ⊢
  rw [hrows, List.map_append, List.count_append]
  omega

/-- Step lemma for a call; a call that is accepted has stored its event. -/
theorem ingest_keeps (ingestor : DetectionEventIngestor) (found : List DetectionEventRecord)
    (state : IngestState) (call : IngestCall) :
    ingestor.Keeps found state (ingestor.ingest state call).1 ∧
      ∀ recordId, (ingestor.ingest state call).2 = .accepted recordId →
        ∃ row ∈ (ingestor.ingest state call).1.tables.detectionEvents,
          row.IsOf ingestor.reprFloat call.envelope.body := by
  rcases ingest_cases ingestor state call with ⟨failure, hs, -⟩ | ⟨d, -, hd, hs⟩
  · obtain ⟨hevents, -⟩ := refuse_events state.tables call failure
    rw [hs]
    refine ⟨.of_same rfl hevents, ?_⟩
    intro recordId haccepted
    rcases refuse_cases state.tables call failure with h | ⟨_, -, _, -, ⟨-, h⟩ | ⟨-, h⟩⟩ <;>
      simp [h] at haccepted
  · rw [hs]
    have hgrow : ∀ stored, ingestor.Stores state.tables call.envelope.body d.acceptedAtUtc stored →
        ingestor.Keeps found state ⟨(acceptVerifiedEvent ingestor.settings state.policy
          call.reading call.envelope.body).1, state.tables.addEvent stored⟩ := by
      intro stored hstored
      constructor
      · rintro ⟨log, added, hlogged, hrows, hsublist⟩
        obtain ⟨r, hevent, -, -, hlog⟩ := hlogged.accept hd
        refine ⟨log ++ [r], added ++ [stored], hlog, ?_, ?_⟩
        · simp [hrows]
        · rw [List.map_append, List.map_append, List.map_singleton, List.map_singleton, hevent,
            hstored.isOf.1.identity_eq]
          exact hsublist.append_right _
      · exact List.prefix_append _ _
    have hidle : ingestor.Keeps found state ⟨(acceptVerifiedEvent ingestor.settings state.policy
        call.reading call.envelope.body).1, state.tables⟩ := by
      constructor
      · rintro ⟨log, added, hlogged, hrows, hsublist⟩
        obtain ⟨r, -, -, -, hlog⟩ := hlogged.accept hd
        refine ⟨log ++ [r], added, hlog, hrows, ?_⟩
        rw [List.map_append]
        exact hsublist.trans (List.sublist_append_left _ _)
      · exact List.prefix_rfl
    rcases @recordEvent_cases ingestor state.tables call d with
      h | ⟨stored, hstored, ⟨-, h⟩ | ⟨-, h⟩⟩ <;> rw [h]
    · exact ⟨hidle, by simp⟩
    · refine ⟨hgrow stored hstored, fun _ _ => ⟨stored, by simp, hstored.isOf.1⟩⟩
    · exact ⟨hgrow stored hstored, by simp⟩

end DetectionEventIngestor

end Ledger

namespace AggregatorApp
variable {app : AggregatorApp}

/-- An ingest call is answered with the accepted status exactly when it is accepted. -/
theorem status_accepted {outcome : IngestOutcome} (h : outcome.response.status = acceptedStatus) :
    ∃ recordId, outcome = .accepted recordId := by
  cases outcome with
  | accepted recordId => exact ⟨recordId, rfl⟩
  | rejected reason =>
    unfold IngestOutcome.response acceptedStatus at h
    dsimp only [Response.status] at h
    split_ifs at h <;> cases h
  | serviceError => cases h

theorem early_status {e : WireError}
    (h : (∃ failure : RequestFailure, e = .failure failure ∧ failure.Early) ∨ e = .recursion) :
    e.response.status ≠ acceptedStatus := by
  rcases h with ⟨failure, rfl, rfl | rfl⟩ | rfl <;> decide

/-- Step lemma for a request; a detection that is answered with the accepted status is stored. -/
theorem answer_keeps (app : AggregatorApp) (found : List DetectionEventRecord)
    (state : IngestState) (request : AggregatorRequest) :
    app.ingestor.Keeps found state (app.answer state request).1 := by
  cases request with
  | heartbeat http surroundings =>
    obtain ⟨hpolicy, -, hevents, -⟩ := app.recordHeartbeat_frame state http surroundings
    exact .of_same hpolicy hevents
  | detection http surroundings =>
    cases hread : app.readDetection http with
    | error e =>
      simp only [answer, ingestDetection, hread]
      exact .of_same rfl rfl
    | ok envelope =>
      rw [answer_detection hread]
      exact (app.ingestor.ingest_keeps found state (surroundings.call envelope)).1

theorem answer_accepted {state : IngestState} {http : HttpRequest}
    {surroundings : IngestSurroundings}
    (h : (app.answer state (.detection http surroundings)).2.status = acceptedStatus) :
    ∃ envelope, app.readDetection http = .ok envelope ∧
      ∃ row ∈ (app.answer state (.detection http surroundings)).1.tables.detectionEvents,
        row.IsOf app.ingestor.reprFloat envelope.body := by
  cases hread : app.readDetection http with
  | error e =>
    simp only [answer, ingestDetection, hread] at h
    exact absurd h (early_status (readDetection_error hread))
  | ok envelope =>
    rw [answer_detection hread] at h ⊢
    obtain ⟨recordId, haccepted⟩ := status_accepted h
    exact ⟨envelope, rfl,
      (app.ingestor.ingest_keeps [] state (surroundings.call envelope)).2 recordId haccepted⟩

/-- Run lemma. -/
theorem serve_keeps (app : AggregatorApp) (found : List DetectionEventRecord)
    (state : IngestState) (requests : List AggregatorRequest) :
    app.ingestor.Keeps found state (app.serve state requests).1 :=
  Runs.run_related (fun _ => .of_same rfl rfl) (fun _ _ _ h h' => h.trans h')
    (app.answer_keeps found) state requests

end AggregatorApp

end SecureEdge
