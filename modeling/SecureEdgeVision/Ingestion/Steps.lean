import SecureEdgeVision.Ingestion.Ingest
import SecureEdgeVision.Runs.Serial

/-! What one call of the ingestor can do to the tables and to the replay state. -/
namespace SecureEdge

variable {tables : Tables} {call : IngestCall} {reason : IngestionReason}

def Tables.addEvent (tables : Tables) (record : DetectionEventRecord) : Tables :=
  { tables with detectionEvents := tables.detectionEvents ++ [record] }

def Tables.addAlert (tables : Tables) (alert : SecurityAlert) : Tables :=
  { tables with securityAlerts := tables.securityAlerts ++ [alert] }

@[simp] theorem Tables.addEvent_alerts (tables : Tables) (record : DetectionEventRecord) :
    (tables.addEvent record).securityAlerts = tables.securityAlerts := rfl
@[simp] theorem Tables.addEvent_events (tables : Tables) (record : DetectionEventRecord) :
    (tables.addEvent record).detectionEvents = tables.detectionEvents ++ [record] := rfl
@[simp] theorem Tables.addAlert_events (tables : Tables) (alert : SecurityAlert) :
    (tables.addAlert alert).detectionEvents = tables.detectionEvents := rfl
@[simp] theorem Tables.addAlert_alerts (tables : Tables) (alert : SecurityAlert) :
    (tables.addAlert alert).securityAlerts = tables.securityAlerts ++ [alert] := rfl

/-- The alert of a rejection: its reason, its category and the claimed identifiers. -/
structure SecurityAlert.Records (alert : SecurityAlert) (reason : IngestionReason)
    (body : DetectionEvent) : Prop where
  reasonText : alert.reason.text = reason.value
  category : alertCategoryByReason reason = some alert.category.text
  nodeId : alert.nodeId = some body.nodeId
  eventId : alert.eventId = some body.eventId
  nonce : alert.nonce = some body.nonce

theorem SecurityAlert.build_records {alertId : String} {occurredAt : ClockReading}
    {category : String} {body : DetectionEvent} {alert : SecurityAlert}
    (hcategory : alertCategoryByReason reason = some category)
    (h : SecurityAlert.build alertId occurredAt category reason.value body = some alert) :
    alert.Records reason body := by
  unfold SecurityAlert.build at h
  split at h
  · split_ifs at h
    obtain rfl := Option.some.inj h
    exact ⟨rfl, hcategory, rfl, rfl, rfl⟩
  · cases h

/-- A rejection adds its alert, or the call ends in a service error; then the alert is stored
only if the commit raised after it persisted. -/
theorem recordRejection_cases (tables : Tables) (call : IngestCall) (reason : IngestionReason) :
    recordRejection tables call reason = (tables, .serviceError) ∨
    ∃ alert : SecurityAlert, alert.Records reason call.envelope.body ∧
      (call.commit = .persisted ∧
        recordRejection tables call reason = (tables.addAlert alert, .rejected reason) ∨
      call.commit = .persistedRaised ∧
        recordRejection tables call reason = (tables.addAlert alert, .serviceError)) := by
  unfold recordRejection
  split
  next category alertId hcategory _ =>
    split
    next => exact Or.inl rfl
    next alert halert =>
      have hrecords := SecurityAlert.build_records hcategory halert
      unfold Tables.insertAlert
      split_ifs with htaken
      · exact Or.inl rfl
      · cases hcommit : call.commit with
        | persisted => exact Or.inr ⟨alert, hrecords, Or.inl ⟨rfl, rfl⟩⟩
        | failed => exact Or.inl rfl
        | persistedRaised => exact Or.inr ⟨alert, hrecords, Or.inr ⟨rfl, rfl⟩⟩
  next => exact Or.inl rfl

theorem refuse_cases (tables : Tables) (call : IngestCall) (failure : IngestFailure) :
    refuse tables call failure = (tables, .serviceError) ∨
    ∃ reason, failure = .rejection reason ∧ ∃ alert : SecurityAlert,
      alert.Records reason call.envelope.body ∧
      (call.commit = .persisted ∧
        refuse tables call failure = (tables.addAlert alert, .rejected reason) ∨
      call.commit = .persistedRaised ∧
        refuse tables call failure = (tables.addAlert alert, .serviceError)) := by
  cases failure with
  | service => exact Or.inl rfl
  | rejection reason =>
    rcases recordRejection_cases tables call reason with h | h
    · exact Or.inl h
    · exact Or.inr ⟨reason, rfl, h⟩

theorem refuse_events (tables : Tables) (call : IngestCall) (failure : IngestFailure) :
    (refuse tables call failure).1.detectionEvents = tables.detectionEvents ∧
      (refuse tables call failure).1.nodes = tables.nodes := by
  rcases refuse_cases tables call failure with h | ⟨_, -, alert, -, ⟨-, h⟩ | ⟨-, h⟩⟩ <;>
    rw [h] <;> exact ⟨rfl, rfl⟩

namespace DetectionEventIngestor

variable (ingestor : DetectionEventIngestor)

/-- The row that storing an event adds. -/
def Stores (tables : Tables) (event : DetectionEvent) (acceptedAtUtc : UtcDatetime)
    (stored : DetectionEventRecord) : Prop :=
  ∃ record, DetectionEventRecord.fromEvent ingestor.reprFloat event acceptedAtUtc = .ok record ∧
    stored = { record with recordId := some tables.nextRecordId }

variable {ingestor} {state : IngestState}

/-- A record that was written with an encoded key gives that key back. -/
theorem registeredKey_of_encoded (hed : ingestor.ed.Lawful) {node : NodeRecord}
    (hid : isSafeIdentifier node.nodeId = true) {publicKey : ingestor.ed.PublicKey}
    (hkey : node.publicKeyB64 = encodePublicKey ingestor.ed publicKey) :
    ingestor.registeredKey node = some publicKey := by
  have hlength := hed.publicBytes_length publicKey
  have hvalid : validatePublicKeyB64 (encodePublicKey ingestor.ed publicKey) =
      .ok (CanonicalBase64.encode (ingestor.ed.publicBytes publicKey) hlength) :=
    validateCanonicalBase64_text "public_key_b64" (CanonicalBase64.encode _ hlength)
  have hload : loadPublicKey ingestor.ed (CanonicalBase64.encode (ingestor.ed.publicBytes publicKey)
      hlength).text = .ok publicKey := loadPublicKey_encodePublicKey hed publicKey
  simp only [registeredKey, NodeRecord.toRegistration, hid, ↓reduceDIte, hkey, hvalid, hload]
  rfl

theorem verifyNode_eq_some {node : NodeRecord} {envelope : SignedDetectionEnvelope} {valid : Bool} :
    ingestor.verifyNode node envelope = some valid ↔ ∃ publicKey,
      ingestor.registeredKey node = some publicKey ∧
      verifyDetectionEnvelope ingestor.ed ingestor.reprFloat envelope publicKey = .ok valid := by
  unfold verifyNode
  cases ingestor.registeredKey node with
  | none => simp
  | some publicKey =>
    simp only [Option.bind_eq_bind, Option.bind_some, Option.some.injEq, exists_eq_left']
    cases verifyDetectionEnvelope ingestor.ed ingestor.reprFloat envelope publicKey <;>
      simp [Except.toOption]

theorem verifyNode_identity {node node' : NodeRecord} (h : node.identity = node'.identity)
    (envelope : SignedDetectionEnvelope) :
    ingestor.verifyNode node envelope = ingestor.verifyNode node' envelope := by
  obtain ⟨hid, hkey, -⟩ : _ ∧ _ ∧ _ := by simpa [NodeRecord.identity] using h
  unfold verifyNode registeredKey NodeRecord.toRegistration
  simp only [hid, hkey]

/-- Authentication reads the registry only. -/
theorem authenticate_registry {tables tables' : Tables}
    (h : tables.registry = tables'.registry) (lookupRaises : Bool)
    (envelope : SignedDetectionEnvelope) :
    ingestor.authenticate tables lookupRaises envelope =
      ingestor.authenticate tables' lookupRaises envelope := by
  have hnode := Tables.getNode_registry h envelope.body.nodeId
  unfold authenticate
  cases hfull : tables.getNode envelope.body.nodeId with
  | none =>
    have hnone : tables'.getNode envelope.body.nodeId = none := by simpa [hfull] using hnode.symm
    rw [hnone]
  | some node =>
    rw [hfull, Option.map_some] at hnode
    obtain ⟨node', hnode', hidentity⟩ := Option.map_eq_some_iff.mp hnode.symm
    rw [hnode']
    dsimp only
    rw [verifyNode_identity hidentity]

/-- Authentication succeeds exactly when the envelope verifies under the key of its node. -/
theorem authenticate_eq_ok {lookupRaises : Bool} {envelope : SignedDetectionEnvelope} :
    ingestor.authenticate tables lookupRaises envelope = .ok () ↔
      lookupRaises = false ∧ ∃ node publicKey,
        tables.getNode envelope.body.nodeId = some node ∧
        ingestor.registeredKey node = some publicKey ∧
        verifyDetectionEnvelope ingestor.ed ingestor.reprFloat envelope publicKey = .ok true := by
  have hverify : ∀ node, ingestor.verifyNode node envelope = some true ↔ _ := fun _ =>
    verifyNode_eq_some
  unfold authenticate
  cases lookupRaises with
  | true => simp
  | false =>
    cases hnode : tables.getNode envelope.body.nodeId with
    | none => simp
    | some node =>
      simp only [Bool.false_eq_true, ↓reduceIte, Option.some.injEq, true_and]
      constructor
      · intro h
        refine ⟨node, ?_⟩
        cases hv : ingestor.verifyNode node envelope with
        | none => simp [hv] at h
        | some valid =>
          cases valid with
          | false => simp [hv] at h
          | true => simpa using (hverify node).mp hv
      · rintro ⟨_, publicKey, rfl, hkey, hv⟩
        rw [(hverify node).mpr ⟨publicKey, hkey, hv⟩]

theorem insertEvent_eq_some {record stored : DetectionEventRecord} {after : Tables}
    (h : tables.insertEvent record = some (after, stored)) :
    stored = { record with recordId := some tables.nextRecordId } ∧
      after = tables.addEvent stored := by
  unfold Tables.insertEvent at h
  split_ifs at h
  obtain ⟨rfl, rfl⟩ := Prod.mk.inj (Option.some.inj h)
  exact ⟨rfl, rfl⟩

/-- The record of an event whose integers fit is inserted if its node is registered. -/
theorem insertEvent_of_fits {event : DetectionEvent} {acceptedAtUtc : UtcDatetime}
    {record : DetectionEventRecord} {reprFloat : Binary64.Finite → String}
    (hrecord : DetectionEventRecord.fromEvent reprFloat event acceptedAtUtc = .ok record)
    (hfits : event.FitsColumns) {node : NodeRecord}
    (hnode : tables.getNode event.nodeId = some node) :
    tables.insertEvent record =
      some (tables.addEvent { record with recordId := some tables.nextRecordId },
        { record with recordId := some tables.nextRecordId }) := by
  have hregistered : tables.nodes.any (fun node => node.nodeId = record.nodeId) = true := by
    rw [(fromEvent_records hrecord).nodeId]
    unfold Tables.getNode at hnode
    have hid := List.find?_some hnode
    exact List.any_eq_true.mpr ⟨node, List.mem_of_find?_eq_some hnode, hid⟩
  unfold Tables.insertEvent
  rw [(bindable_fromEvent hrecord).mpr hfits, checkConstraints_fromEvent hrecord, hregistered]
  rfl

/-- An accepted event is stored, or the call ends in a service error; then the row is stored
only if the commit raised after it persisted. -/
theorem recordEvent_cases (tables : Tables) (call : IngestCall) (d : EventSecurityDecision) :
    ingestor.recordEvent tables call d = (tables, .serviceError) ∨
    ∃ stored, ingestor.Stores tables call.envelope.body d.acceptedAtUtc stored ∧
      (call.commit = .persisted ∧ ingestor.recordEvent tables call d =
        (tables.addEvent stored, .accepted tables.nextRecordId) ∨
      call.commit = .persistedRaised ∧
        ingestor.recordEvent tables call d = (tables.addEvent stored, .serviceError)) := by
  unfold recordEvent
  split
  next => exact Or.inl rfl
  next record hrecord =>
    cases hinsert : tables.insertEvent record with
    | none => exact Or.inl rfl
    | some result =>
      obtain ⟨after, stored⟩ := result
      obtain ⟨hstored, rfl⟩ := insertEvent_eq_some hinsert
      have hstores : ingestor.Stores tables call.envelope.body d.acceptedAtUtc stored :=
        ⟨record, hrecord, hstored⟩
      have hid : stored.recordId = some tables.nextRecordId := by rw [hstored]
      cases hcommit : call.commit with
      | persisted =>
        exact Or.inr ⟨stored, hstores, Or.inl ⟨rfl, by simp [CommitOutcome.apply, hid]⟩⟩
      | failed => exact Or.inl (by simp [CommitOutcome.apply])
      | persistedRaised =>
        exact Or.inr ⟨stored, hstores, Or.inr ⟨rfl, by simp [CommitOutcome.apply]⟩⟩

/-- An event whose integers fit is stored when the commit goes through. -/
theorem recordEvent_persisted {bytes : ByteArray}
    (hbytes : canonicalEventBytes ingestor.reprFloat call.envelope.body = .ok bytes)
    (hfits : call.envelope.body.FitsColumns) {node : NodeRecord}
    (hnode : tables.getNode call.envelope.body.nodeId = some node)
    (hcommit : call.commit = .persisted) (d : EventSecurityDecision) :
    ∃ stored, ingestor.Stores tables call.envelope.body d.acceptedAtUtc stored ∧
      ingestor.recordEvent tables call d =
        (tables.addEvent stored, .accepted tables.nextRecordId) := by
  obtain ⟨record, hrecord⟩ := exists_fromEvent hbytes d.acceptedAtUtc
  have hinsert := insertEvent_of_fits hrecord hfits hnode
  refine ⟨_, ⟨record, hrecord, rfl⟩, ?_⟩
  unfold recordEvent
  rw [hrecord]
  simp [hinsert, hcommit, CommitOutcome.apply]

theorem Stores.isOf {event : DetectionEvent} {acceptedAt : UtcDatetime}
    {stored : DetectionEventRecord} (h : ingestor.Stores tables event acceptedAt stored) :
    stored.IsOf ingestor.reprFloat event ∧ stored.acceptedAtUtc = acceptedAt := by
  obtain ⟨record, hrecord, rfl⟩ := h
  have haccepted := (fromEvent_records hrecord).acceptedAt
  refine ⟨⟨record, ?_, rfl⟩, haccepted⟩
  dsimp only
  rwa [haccepted]

/-- Whatever the answer, storing adds the row or leaves the tables alone. -/
theorem recordEvent_tables (tables : Tables) (call : IngestCall) (d : EventSecurityDecision) :
    (ingestor.recordEvent tables call d).1 = tables ∨
    ∃ stored, ingestor.Stores tables call.envelope.body d.acceptedAtUtc stored ∧
      (ingestor.recordEvent tables call d).1 = tables.addEvent stored := by
  rcases recordEvent_cases tables call d with h | ⟨stored, hstored, ⟨-, h⟩ | ⟨-, h⟩⟩
  · exact Or.inl (by rw [h])
  · exact Or.inr ⟨stored, hstored, by rw [h]⟩
  · exact Or.inr ⟨stored, hstored, by rw [h]⟩

theorem recordEvent_nodes (tables : Tables) (call : IngestCall) (d : EventSecurityDecision) :
    (ingestor.recordEvent tables call d).1.nodes = tables.nodes := by
  rcases recordEvent_tables tables call d with h | ⟨stored, -, h⟩
  · rw [h]
  · rw [h]
    rfl

/-- The two ways through a call: refused with the policy as it was, or accepted by the policy
and then recorded. -/
theorem ingest_cases (ingestor : DetectionEventIngestor) (state : IngestState)
    (call : IngestCall) :
    (∃ failure, ingestor.ingest state call =
      (⟨state.policy, (refuse state.tables call failure).1⟩,
        (refuse state.tables call failure).2) ∧
      (ingestor.authenticate state.tables call.lookupRaises call.envelope = .error failure ∨
        ingestor.authenticate state.tables call.lookupRaises call.envelope = .ok () ∧
        ∃ e, (acceptVerifiedEvent ingestor.settings state.policy call.reading
          call.envelope.body).2 = .error e ∧ failure = policyFailure e)) ∨
    ∃ d, ingestor.authenticate state.tables call.lookupRaises call.envelope = .ok () ∧
      (acceptVerifiedEvent ingestor.settings state.policy call.reading call.envelope.body).2 =
        .ok d ∧
      ingestor.ingest state call =
        (⟨(acceptVerifiedEvent ingestor.settings state.policy call.reading
            call.envelope.body).1, (ingestor.recordEvent state.tables call d).1⟩,
          (ingestor.recordEvent state.tables call d).2) := by
  unfold ingest
  cases hauth : ingestor.authenticate state.tables call.lookupRaises call.envelope with
  | error failure => exact Or.inl ⟨failure, rfl, Or.inl rfl⟩
  | ok u =>
    have hstate : ∀ e, (acceptVerifiedEvent ingestor.settings state.policy call.reading
        call.envelope.body).2 = .error e → (acceptVerifiedEvent ingestor.settings state.policy
        call.reading call.envelope.body).1 = state.policy :=
      fun _ he => acceptVerifiedEvent_error_state he
    rcases hpolicy : acceptVerifiedEvent ingestor.settings state.policy call.reading
      call.envelope.body with ⟨policy, outcome⟩
    rw [hpolicy] at hstate
    cases outcome with
    | error e =>
      obtain rfl : policy = state.policy := hstate e rfl
      exact Or.inl ⟨policyFailure e, rfl, Or.inr ⟨rfl, e, rfl, rfl⟩⟩
    | ok d => exact Or.inr ⟨d, rfl, rfl, rfl⟩

theorem ingest_nodes (state : IngestState) (call : IngestCall) :
    (ingestor.ingest state call).1.tables.nodes = state.tables.nodes := by
  rcases ingest_cases ingestor state call with ⟨failure, h, -⟩ | ⟨d, -, -, h⟩
  · rw [h]
    exact (refuse_events state.tables call failure).2
  · rw [h]
    exact recordEvent_nodes state.tables call d

section Sample

/-- An ingestor for concrete runs, with one registered node. -/
def sample : DetectionEventIngestor := ⟨.checksum, Json.exactRepr, .sample⟩

def sampleNode : NodeRecord :=
  ⟨"edge-1", encodePublicKey .checksum (7 : UInt8), ⟨63892000000000000, by decide⟩, none, none⟩

def sampleTables : Tables := ⟨[sampleNode], [], []⟩

def sampleEvent (instant : UtcDatetime) : DetectionEvent :=
  .sample ⟨"edge-1", edge_isSafe⟩ ⟨"event-1", event_isSafe⟩ ⟨"nonce-1", nonce_isSafe⟩ instant

theorem secondEvent_isSafe : isSafeIdentifier "event-2" = true := by decide
theorem secondNonce_isSafe : isSafeIdentifier "nonce-2" = true := by decide

def secondEvent (instant : UtcDatetime) : DetectionEvent :=
  .sample ⟨"edge-1", edge_isSafe⟩ ⟨"event-2", secondEvent_isSafe⟩ ⟨"nonce-2", secondNonce_isSafe⟩
    instant

/-- A call that reads the instant of its event. -/
def sampleCall (envelope : SignedDetectionEnvelope) (commit : CommitOutcome) : IngestCall :=
  ⟨envelope, false, .utc envelope.body.instant, some "alert-1", .utc envelope.body.instant, commit⟩

theorem exists_sign_sampleEvent (instant : UtcDatetime) : ∃ envelope,
    signDetectionEvent sample.ed sample.reprFloat (sampleEvent instant) (7 : UInt8) =
      .ok envelope :=
  exists_sign_sample _ _ _ instant 7

theorem getNode_sample (instant : UtcDatetime) :
    sampleTables.getNode (sampleEvent instant).nodeId = some sampleNode := by
  show sampleTables.getNode ⟨"edge-1", _⟩ = _
  decide

theorem fitsColumns_sample (instant : UtcDatetime) : (sampleEvent instant).FitsColumns := by
  show 0 ≤ Tables.maxInteger ∧ 640 ≤ Tables.maxInteger ∧ 480 ≤ Tables.maxInteger
  decide

theorem registeredKey_sampleNode : sample.registeredKey sampleNode = some (7 : UInt8) :=
  registeredKey_of_encoded Ed25519.checksum_lawful (by decide) rfl

variable {instant : UtcDatetime} {envelope : SignedDetectionEnvelope}

/-- Whatever the node signs is authentic. -/
theorem authenticate_signed {tables : Tables} {event : DetectionEvent}
    (hsign : signDetectionEvent sample.ed sample.reprFloat event (7 : UInt8) = .ok envelope)
    (hnode : tables.getNode event.nodeId = some sampleNode) :
    sample.authenticate tables false envelope = .ok () := by
  have hbody : envelope.body = event := (signDetectionEvent_eq_ok hsign).1
  refine authenticate_eq_ok.mpr ⟨rfl, sampleNode, (7 : UInt8), ?_, registeredKey_sampleNode,
    verifyDetectionEnvelope_signed Ed25519.checksum_lawful hsign (hbody ▸ .refl _) rfl⟩
  rw [hbody]
  exact hnode

theorem authenticate_sample (hsign : signDetectionEvent sample.ed sample.reprFloat
    (sampleEvent instant) (7 : UInt8) = .ok envelope) :
    sample.authenticate sampleTables false envelope = .ok () :=
  authenticate_signed hsign (getNode_sample instant)

/-- A call whose event the node signed and the policy accepts stores its row. -/
theorem ingest_signed {state : IngestState} {call : IngestCall} {event : DetectionEvent}
    (hsign : signDetectionEvent sample.ed sample.reprFloat event (7 : UInt8) = .ok call.envelope)
    (hnode : state.tables.getNode event.nodeId = some sampleNode) (hfits : event.FitsColumns)
    (hlookup : call.lookupRaises = false) (hcommit : call.commit = .persisted)
    (hok : (acceptVerifiedEvent sample.settings state.policy call.reading event).2.isOk = true) :
    ∃ stored, stored.IsOf sample.reprFloat event ∧ sample.ingest state call =
      (⟨(acceptVerifiedEvent sample.settings state.policy call.reading event).1,
        state.tables.addEvent stored⟩, .accepted state.tables.nextRecordId) := by
  obtain ⟨hbody, bytes, hbytes, -⟩ := signDetectionEvent_eq_ok hsign
  have hauth := authenticate_signed hsign hnode
  rcases ingest_cases sample state call with
    ⟨failure, -, hfailure | ⟨-, e, he, -⟩⟩ | ⟨d, -, -, hs⟩
  · rw [hlookup] at hfailure
    cases hauth.symm.trans hfailure
  · rw [hbody] at he
    rw [he] at hok
    cases hok
  · subst hbody
    obtain ⟨stored, hstores, hr⟩ := recordEvent_persisted hbytes hfits hnode hcommit d
    exact ⟨stored, hstores.isOf.1, by rw [hs, hr]⟩

/-- The first call of a process that the policy accepts stores its row. -/
theorem ingest_sample (hsign : signDetectionEvent sample.ed sample.reprFloat
      (sampleEvent instant) (7 : UInt8) = .ok envelope)
    (hok : (acceptVerifiedEvent sample.settings .initial (.utc instant)
      (sampleEvent instant)).2.isOk = true) :
    ∃ stored, (sample.ingest ⟨.initial, sampleTables⟩
      (sampleCall envelope .persisted)).1.tables = sampleTables.addEvent stored := by
  have hreading : (sampleCall envelope .persisted).reading = .utc instant := by
    unfold sampleCall
    rw [(signDetectionEvent_eq_ok hsign).1]
    rfl
  obtain ⟨stored, -, hs⟩ : ∃ stored, _ ∧ sample.ingest ⟨.initial, sampleTables⟩
      (sampleCall envelope .persisted) = (⟨_, sampleTables.addEvent stored⟩, _) :=
    ingest_signed hsign (getNode_sample instant) (fitsColumns_sample instant) rfl rfl
      (hreading ▸ hok)
  exact ⟨stored, by rw [hs]⟩

end Sample

end DetectionEventIngestor

section Log
variable {settings : SecuritySettings} {policy : ReplayState} {log : List Reservation}
  {reading : ClockReading} {event : DetectionEvent} {d : EventSecurityDecision}

/-- The policy's log of accepted events, all of them with valid reservations. -/
structure Logged (settings : SecuritySettings) (policy : ReplayState) (log : List Reservation) :
    Prop where
  holds : Holds policy log
  valid : ∀ a ∈ log, a.Valid settings

theorem logged_initial (settings : SecuritySettings) : Logged settings .initial [] :=
  ⟨holds_initial, by simp⟩

/-- A reservation that takes the lock successfully extends the log. -/
theorem Logged.enterLock (h : Logged settings policy log) {r : Reservation}
    (hr : r.Valid settings) (hd : (SecureEdge.enterLock policy r).2 = .ok d) :
    Logged settings (SecureEdge.enterLock policy r).1 (log ++ [r]) where
  holds := h.holds.accept hr hd
  valid a ha := by
    rcases List.mem_append.mp ha with ha | ha
    · exact h.valid a ha
    · rw [List.mem_singleton.mp ha]
      exact hr

/-- A call that the policy accepts extends the log by a reservation of its event. -/
theorem Logged.accept (h : Logged settings policy log)
    (hd : (acceptVerifiedEvent settings policy reading event).2 = .ok d) :
    ∃ r, r.event = event ∧ r.decision = d ∧ reading = .utc r.acceptedAt ∧
      Logged settings (acceptVerifiedEvent settings policy reading event).1 (log ++ [r]) := by
  rcases acceptVerifiedEvent_cases settings policy reading event with
    ⟨e, -, hs⟩ | ⟨now, e, -, -, hs⟩ | ⟨now, r, rfl, hr, hs⟩
  · rw [hs] at hd
    cases hd
  · rw [hs] at hd
    cases hd
  · rw [hs] at hd ⊢
    exact ⟨r, hr.event_eq, (enterLock_ok hd).1.symm, hr.acceptedAt_eq ▸ rfl,
      h.enterLock hr.valid hd⟩

/-- No two logged events share an identifier and a timestamp. -/
theorem Logged.distinct (h : Logged settings policy log) :
    log.Pairwise fun a b => (∃ k ∈ a.event.replayKeys, k ∈ b.event.replayKeys) →
      a.event.instant < b.event.instant :=
  (h.holds.no_gap h.valid).imp fun hgap hkeys => (hgap hkeys).2

theorem Logged.identities_nodup (h : Logged settings policy log) :
    (log.map fun r => r.event.identity).Nodup := by
  refine List.pairwise_map.mpr (h.distinct.imp ?_)
  intro a b hlt heq
  obtain ⟨hnode, heq⟩ := Prod.mk.inj heq
  obtain ⟨hid, hinstant⟩ := Prod.mk.inj heq
  have hkey : a.event.eventKey ∈ b.event.replayKeys :=
    DetectionEvent.eventKey_mem.mpr
      ⟨SafeIdentifier.ext hnode.symm, SafeIdentifier.ext hid.symm⟩
  have hless := hlt ⟨a.event.eventKey, DetectionEvent.eventKey_mem.mpr ⟨rfl, rfl⟩, hkey⟩
  exact hless.ne hinstant

end Log

end SecureEdge
