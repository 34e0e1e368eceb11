import SecureEdgeVision.Ingestion.Accounting
import SecureEdgeVision.Security.Isolation
import SecureEdgeVision.Worker.Pipeline

/-! Exactly-once storage of an honest worker's events, whatever the network and the other
nodes do. -/
namespace SecureEdge

open Binary64 (Finite)
open Json (InjectiveRepr)

/-- The instants that the clock gave to a run of calls. -/
def callReadings (calls : List IngestCall) : List UtcDatetime :=
  calls.filterMap fun call => call.reading.instant?

/-- A signed envelope of the event, as the network delivers it unmodified. -/
def SignedDetectionEnvelope.IsCopy (ed : Ed25519) (reprFloat : Finite → String)
    (privateKey : ed.PrivateKey) (received : SignedDetectionEnvelope) (event : DetectionEvent) :
    Prop :=
  ∃ envelope, signDetectionEvent ed reprFloat event privateKey = .ok envelope ∧
    received.body.Agree event ∧ received.signature = envelope.signature

/-- A run in which one worker is honest: its key is registered, and what verifies under that key
has the bytes of an event its pipeline emitted. The clock never decreases and commits succeed.
Of the other envelopes nothing is assumed. -/
structure HonestRun (ingestor : DetectionEventIngestor) (privateKey : ingestor.ed.PrivateKey)
    (pipeline : PrivacyWorkerPipeline) (frames : List FrameCall) (tables : Tables)
    (calls : List IngestCall) : Prop where
  registered : ∃ node, tables.getNode pipeline.nodeId = some node ∧
    ingestor.registeredKey node = some (ingestor.ed.publicKey privateKey)
  unforged : ∀ call ∈ calls, ∀ bytes,
    canonicalEventBytes ingestor.reprFloat call.envelope.body = .ok bytes →
    ingestor.ed.verify (ingestor.ed.publicKey privateKey) call.envelope.signature bytes = true →
    ∃ event ∈ pipeline.emitted .initial frames,
      canonicalEventBytes ingestor.reprFloat event = .ok bytes
  clock : (callReadings calls).Pairwise (· ≤ ·)
  commits : ∀ call ∈ calls, call.commit = .persisted

section HonestRun
variable {ingestor : DetectionEventIngestor} {privateKey : ingestor.ed.PrivateKey}
  {pipeline : PrivacyWorkerPipeline} {frames : List FrameCall} {tables : Tables}
  {before rest : List IngestCall}

theorem HonestRun.sublist (hsublist : rest.Sublist before)
    (h : HonestRun ingestor privateKey pipeline frames tables before) :
    HonestRun ingestor privateKey pipeline frames tables rest where
  registered := h.registered
  unforged c hc := h.unforged c (hsublist.subset hc)
  clock := h.clock.sublist (hsublist.filterMap _)
  commits c hc := h.commits c (hsublist.subset hc)

end HonestRun

namespace DetectionEventIngestor
variable {ingestor : DetectionEventIngestor} {privateKey : ingestor.ed.PrivateKey}
  {pipeline : PrivacyWorkerPipeline} {frames : List FrameCall} {tables : Tables}
  {calls rest : List IngestCall} {call : IngestCall} {state : IngestState}
  {event : DetectionEvent} {log : List Reservation}

/-- What stays true along the run: the log of the node's accepted events is honest, every
logged copy of the event has its row, and rows follow the log. -/
structure Delivering (ingestor : DetectionEventIngestor) (pipeline : PrivacyWorkerPipeline)
    (frames : List FrameCall) (tables : Tables) (event : DetectionEvent) (rest : List IngestCall)
    (state : IngestState) (log : List Reservation) : Prop where
  logged : Logged ingestor.settings state.policy log
  passed : ∀ a ∈ log, ∀ now ∈ callReadings rest, a.acceptedAt ≤ now
  nodes : state.tables.nodes = tables.nodes
  honest : ∀ a ∈ log, a.event.nodeId = pipeline.nodeId →
    ∃ emitted ∈ pipeline.emitted .initial frames, a.event.Agree emitted
  stored : ∀ a ∈ log, a.event.Agree event →
    ∃ row ∈ state.tables.detectionEvents, row.IsOf ingestor.reprFloat event
  rows : ∃ added, state.tables.detectionEvents = tables.detectionEvents ++ added ∧
    (added.map DetectionEventRecord.identity).Sublist (log.map fun r => r.event.identity)

theorem delivering_start : Delivering ingestor pipeline frames tables event calls
    ⟨.initial, tables⟩ [] where
  logged := logged_initial _
  passed := by simp
  nodes := rfl
  honest := by simp
  stored := by simp
  rows := ⟨[], by simp, by simp⟩

/-- An authenticated envelope of the honest node is one of its events. -/
theorem honest_of_authenticate (hrepr : InjectiveRepr ingestor.reprFloat)
    (hrun : HonestRun ingestor privateKey pipeline frames tables (call :: rest))
    (hnodes : state.tables.nodes = tables.nodes)
    (hauth : ingestor.authenticate state.tables call.lookupRaises call.envelope = .ok ())
    (hnode : call.envelope.body.nodeId = pipeline.nodeId) :
    ∃ emitted ∈ pipeline.emitted .initial frames, call.envelope.body.Agree emitted := by
  rw [authenticate_registry (Tables.registry_congr hnodes)] at hauth
  obtain ⟨-, node, publicKey, hget, hkey, hverify⟩ := authenticate_eq_ok.mp hauth
  obtain ⟨registered, hregistered, hhonest⟩ := hrun.registered
  rw [hnode, hregistered] at hget
  obtain rfl := Option.some.inj hget
  rw [hhonest] at hkey
  obtain rfl := Option.some.inj hkey
  obtain ⟨bytes, hbytes, hvalid⟩ := verifyDetectionEnvelope_eq_true.mp hverify
  obtain ⟨emitted, hemitted, hsame⟩ := hrun.unforged call List.mem_cons_self bytes hbytes hvalid
  exact ⟨emitted, hemitted, agree_of_canonicalEventBytes hrepr hbytes hsame⟩

/-- A call that is refused keeps everything. -/
theorem Delivering.refused {policy : ReplayState} {after : Tables}
    (h : Delivering ingestor pipeline frames tables event (call :: rest) state log)
    (hpolicy : policy = state.policy)
    (hevents : after.detectionEvents = state.tables.detectionEvents)
    (hnodes : after.nodes = state.tables.nodes) :
    Delivering ingestor pipeline frames tables event rest ⟨policy, after⟩ log where
  logged := hpolicy ▸ h.logged
  passed a ha now hnow := h.passed a ha now
    (List.filterMap_subset _ (List.subset_cons_self _ _) hnow)
  nodes := hnodes.trans h.nodes
  honest := h.honest
  stored a ha hagree := by
    rw [hevents]
    exact h.stored a ha hagree
  rows := by
    rw [hevents]
    exact h.rows

theorem FitsColumns.congr {a b : DetectionEvent} (h : a.Agree b) (hfits : b.FitsColumns) :
    a.FitsColumns := by
  unfold DetectionEvent.FitsColumns
  rwa [h.frameSeq, h.frame]

/-- An accepted call extends the log by its reservation, and the tables by its row. -/
theorem Delivering.accepted (hrepr : InjectiveRepr ingestor.reprFloat)
    (hrun : HonestRun ingestor privateKey pipeline frames tables (call :: rest))
    {bytes : ByteArray} (hbytes : canonicalEventBytes ingestor.reprFloat event = .ok bytes)
    (hfits : event.FitsColumns)
    (h : Delivering ingestor pipeline frames tables event (call :: rest) state log)
    (hauth : ingestor.authenticate state.tables call.lookupRaises call.envelope = .ok ())
    {policy : ReplayState} {r : Reservation} (hevent : r.event = call.envelope.body)
    (hreading : call.reading = .utc r.acceptedAt)
    (hlogged : Logged ingestor.settings policy (log ++ [r])) :
    Delivering ingestor pipeline frames tables event rest
      ⟨policy, (ingestor.recordEvent state.tables call r.decision).1⟩ (log ++ [r]) := by
  have htables : (ingestor.recordEvent state.tables call r.decision).1 = state.tables ∨ _ :=
    recordEvent_tables state.tables call r.decision
  constructor
  · exact hlogged
  · intro a ha now hnow
    rcases List.mem_append.mp ha with ha | ha
    · exact h.passed a ha now (List.filterMap_subset _ (List.subset_cons_self _ _) hnow)
    · have hclock := hrun.clock
      unfold callReadings at hclock
      rw [List.filterMap_cons, hreading] at hclock
      rw [List.mem_singleton.mp ha]
      exact (List.pairwise_cons.mp hclock).1 now hnow
  · exact (recordEvent_nodes state.tables call r.decision).trans h.nodes
  · intro a ha hnode
    rcases List.mem_append.mp ha with ha | ha
    · exact h.honest a ha hnode
    · rw [List.mem_singleton.mp ha, hevent] at hnode ⊢
      exact honest_of_authenticate hrepr hrun h.nodes hauth hnode
  · intro a ha hagree
    rcases List.mem_append.mp ha with ha | ha
    · obtain ⟨row, hrow, hof⟩ := h.stored a ha hagree
      refine ⟨row, ?_, hof⟩
      rcases htables with hr | ⟨stored, -, hr⟩
      · rwa [hr]
      · rw [hr]
        exact List.mem_append_left _ hrow
    · rw [List.mem_singleton.mp ha, hevent] at hagree
      obtain ⟨-, node, -, hnode, -, -⟩ := authenticate_eq_ok.mp hauth
      obtain ⟨stored, hstored, hr⟩ := recordEvent_persisted
        ((canonicalEventBytes_congr _ hagree).trans hbytes) (FitsColumns.congr hagree hfits) hnode
        (hrun.commits call List.mem_cons_self) r.decision
      refine ⟨stored, ?_, hstored.isOf.1.congr hagree⟩
      rw [hr]
      exact List.mem_append_right _ (List.mem_singleton_self stored)
  · obtain ⟨added, hrows, hsublist⟩ := h.rows
    rw [List.map_append]
    rcases htables with hr | ⟨stored, hstored, hr⟩
    · exact ⟨added, by rw [hr, hrows], hsublist.trans (List.sublist_append_left _ _)⟩
    · refine ⟨added ++ [stored], by rw [hr, Tables.addEvent_events, hrows, List.append_assoc], ?_⟩
      rw [List.map_append, List.map_singleton, List.map_singleton, hstored.isOf.1.identity_eq,
        hevent]
      exact hsublist.append_right _

/-- Step lemma: the invariant is kept, and the log only grows. -/
theorem Delivering.step (hrepr : InjectiveRepr ingestor.reprFloat)
    (hrun : HonestRun ingestor privateKey pipeline frames tables (call :: rest))
    {bytes : ByteArray} (hbytes : canonicalEventBytes ingestor.reprFloat event = .ok bytes)
    (hfits : event.FitsColumns)
    (h : Delivering ingestor pipeline frames tables event (call :: rest) state log) :
    ∃ log', Delivering ingestor pipeline frames tables event rest
      (ingestor.ingest state call).1 log' ∧ log <+: log' := by
  rcases ingest_cases ingestor state call with ⟨failure, hs, -⟩ | ⟨d, hauth, hd, hs⟩
  · obtain ⟨hevents, hnodes⟩ := refuse_events state.tables call failure
    rw [hs]
    exact ⟨log, h.refused rfl hevents hnodes, List.prefix_rfl⟩
  · obtain ⟨r, hevent, rfl, hreading, hlogged⟩ := h.logged.accept hd
    rw [hs]
    exact ⟨log ++ [r], h.accepted hrepr hrun hbytes hfits hauth hevent hreading hlogged,
      List.prefix_append _ _⟩

/-- Run lemma. -/
theorem Delivering.run (hrepr : InjectiveRepr ingestor.reprFloat)
    {bytes : ByteArray} (hbytes : canonicalEventBytes ingestor.reprFloat event = .ok bytes)
    (hfits : event.FitsColumns) (before : List IngestCall)
    (hrun : HonestRun ingestor privateKey pipeline frames tables (before ++ rest))
    (h : Delivering ingestor pipeline frames tables event (before ++ rest) state log) :
    ∃ log', Delivering ingestor pipeline frames tables event rest
      (ingestor.serve state before).1 log' ∧ log <+: log' := by
  unfold serve
  induction before generalizing state log with
  | nil => exact ⟨log, h, List.prefix_rfl⟩
  | cons call before ih =>
    obtain ⟨log', h', hkept⟩ := Delivering.step hrepr hrun hbytes hfits h
    obtain ⟨log'', h'', hkept'⟩ := ih (hrun.sublist (List.sublist_cons_self _ _)) h'
    exact ⟨log'', h'', hkept.trans hkept'⟩

/-- The policy takes a fresh event of the honest node, unless it is already logged. -/
theorem Delivering.fresh
    (h : Delivering ingestor pipeline frames tables event (call :: rest) state log)
    (he : event ∈ pipeline.emitted .initial frames) {now : UtcDatetime}
    (hagree : call.envelope.body.Agree event) (hreading : call.reading = .utc now)
    (hfresh : WithinSkew ingestor.settings now event.instant)
    (hrange : SupportedRange ingestor.settings now event.instant) :
    (∃ a ∈ log, a.event.Agree event) ∨
    ∃ d, (acceptVerifiedEvent ingestor.settings state.policy call.reading
      call.envelope.body).2 = .ok d := by
  rw [← hagree.instant] at hfresh hrange
  obtain ⟨r, hr⟩ := exists_prepared hfresh hrange
  have hcall : acceptVerifiedEvent ingestor.settings state.policy call.reading call.envelope.body =
      enterLock state.policy r := by
    simp [acceptVerifiedEvent, hreading, requireClock, prepare_ok_iff.mpr hr]
  have hpassed : ∀ a ∈ log, a.acceptedAt ≤ r.acceptedAt := by
    intro a ha
    apply h.passed a ha
    rw [hr.acceptedAt_eq]
    unfold callReadings
    rw [List.filterMap_cons, hreading]
    exact List.mem_cons_self
  have hclock := clockBehind_of_passed h.logged.holds hpassed
  -- Whoever holds one of the keys is an honest event of this node, hence this one.
  have hholder : ∀ k ∈ r.event.replayKeys, k ∈ Expiry.prune r.acceptedAt state.policy.seen →
      ∃ a ∈ log, a.event.Agree event := by
    intro k hk hretained
    obtain ⟨a, ha, hka, -⟩ := (h.logged.holds.mem_prune_iff hclock k).mp hretained
    rw [hr.event_eq] at hk
    have hshared : a.event.nodeId = event.nodeId ∧
        (a.event.eventId = event.eventId ∨ a.event.nonce = event.nonce) := by
      rw [← hagree.nodeId, ← hagree.eventId, ← hagree.nonce]
      simp only [DetectionEvent.replayKeys, List.mem_cons, List.not_mem_nil, or_false] at hk
      rcases hk with rfl | rfl
      · obtain ⟨hnode, hid⟩ := DetectionEvent.eventKey_mem.mp hka
        exact ⟨hnode, Or.inl hid⟩
      · obtain ⟨hnode, hnonce⟩ := DetectionEvent.nonceKey_mem.mp hka
        exact ⟨hnode, Or.inr hnonce⟩
    obtain ⟨hnode, hid⟩ := hshared
    have hpipeline : event.nodeId = pipeline.nodeId :=
      ((pipeline.issued_emitted _ _).fresh event he).1
    obtain ⟨emitted, hemitted, hsame⟩ := h.honest a ha (hnode.trans hpipeline)
    have heq : emitted = event := by
      apply pipeline.emitted_eq hemitted he
      rwa [← hsame.eventId, ← hsame.nonce]
    exact ⟨a, ha, heq ▸ hsame⟩
  rw [hcall]
  rcases enterLock_cases state.policy r with ⟨hb, -⟩ | ⟨-, ⟨hkey, -⟩ | ⟨-, hkey, -⟩ | ⟨-, -, hs⟩⟩
  · rw [hclock] at hb
    cases hb
  · exact Or.inl (hholder _ (DetectionEvent.eventKey_mem.mpr ⟨rfl, rfl⟩) hkey)
  · exact Or.inl (hholder _ (DetectionEvent.nonceKey_mem.mpr ⟨rfl, rfl⟩) hkey)
  · exact Or.inr ⟨r.decision, by rw [hs]⟩

/-- Once a copy was ingested fresh, the event is logged. -/
theorem Delivering.copy (hed : ingestor.ed.Lawful) (hrepr : InjectiveRepr ingestor.reprFloat)
    (hrun : HonestRun ingestor privateKey pipeline frames tables (call :: rest))
    (he : event ∈ pipeline.emitted .initial frames) (hfits : event.FitsColumns)
    (h : Delivering ingestor pipeline frames tables event (call :: rest) state log)
    (hcopy : call.envelope.IsCopy ingestor.ed ingestor.reprFloat privateKey event)
    (hlookup : call.lookupRaises = false) {now : UtcDatetime} (hreading : call.reading = .utc now)
    (hfresh : WithinSkew ingestor.settings now event.instant)
    (hrange : SupportedRange ingestor.settings now event.instant) :
    ∃ log', Delivering ingestor pipeline frames tables event rest
      (ingestor.ingest state call).1 log' ∧ ∃ a ∈ log', a.event.Agree event := by
  obtain ⟨envelope, hsign, hagree, hsignature⟩ := hcopy
  obtain ⟨-, bytes, hbytes, -⟩ := signDetectionEvent_eq_ok hsign
  have hnode : call.envelope.body.nodeId = pipeline.nodeId :=
    hagree.nodeId.trans ((pipeline.issued_emitted _ _).fresh event he).1
  have hauth : ingestor.authenticate state.tables call.lookupRaises call.envelope = .ok () := by
    obtain ⟨node, hget, hkey⟩ := hrun.registered
    rw [authenticate_registry (Tables.registry_congr h.nodes), authenticate_eq_ok, hnode]
    exact ⟨hlookup, node, _, hget, hkey, verifyDetectionEnvelope_signed hed hsign hagree hsignature⟩
  rcases ingest_cases ingestor state call with ⟨failure, hs, hfailure⟩ | ⟨d, -, hd, hs⟩
  · obtain ⟨log', h', hkept⟩ := h.step hrepr hrun hbytes hfits
    rcases h.fresh he hagree hreading hfresh hrange with ⟨a, ha, hlogged⟩ | ⟨d, hd⟩
    · exact ⟨log', h', a, hkept.subset ha, hlogged⟩
    · rcases hfailure with hfailure | ⟨-, e, he', -⟩
      · rw [hauth] at hfailure
        cases hfailure
      · rw [hd] at he'
        cases he'
  · obtain ⟨r, hevent, rfl, hclock, hlogged⟩ := h.logged.accept hd
    rw [hs]
    exact ⟨log ++ [r], h.accepted hrepr hrun hbytes hfits hauth hevent hclock hlogged, r,
      by simp, hevent ▸ hagree⟩

/-- Rows that follow a log store no event twice. -/
theorem Delivering.count_le (h : Delivering ingestor pipeline frames tables event rest state log)
    (hnew : ∀ row ∈ tables.detectionEvents, ¬ row.IsOf ingestor.reprFloat event) :
    state.tables.detectionEvents.countP (fun row => row.IsOf ingestor.reprFloat event) ≤ 1 := by
  obtain ⟨added, hrows, hsublist⟩ := h.rows
  have hnodup := h.logged.identities_nodup.sublist hsublist
  have hold : tables.detectionEvents.countP (fun row => row.IsOf ingestor.reprFloat event) = 0 := by
    simpa [List.countP_eq_zero] using hnew
  rw [hrows, List.countP_append, hold, Nat.zero_add]
  calc added.countP (fun row => row.IsOf ingestor.reprFloat event)
      ≤ added.countP (fun row => row.identity = event.identity) := by
        apply List.countP_mono_left
        intro row _ hrow
        exact decide_eq_true (of_decide_eq_true hrow).identity_eq
    _ = (added.map DetectionEventRecord.identity).count event.identity := by
        simp only [List.count_eq_countP, List.countP_map, Function.comp_def, beq_eq_decide]
    _ ≤ 1 := List.nodup_iff_count_le_one.mp hnodup _

/-- An event of which one unmodified copy is ingested while it is fresh ends up in exactly one
row, whatever else the run ingests. -/
theorem honest_event_stored_once (hed : ingestor.ed.Lawful)
    (hrepr : InjectiveRepr ingestor.reprFloat)
    (hrun : HonestRun ingestor privateKey pipeline frames tables calls)
    (he : event ∈ pipeline.emitted .initial frames) (hfits : event.FitsColumns)
    (hnew : ∀ row ∈ tables.detectionEvents, ¬ row.IsOf ingestor.reprFloat event)
    (copy : IngestCall) (hin : copy ∈ calls)
    (hcopy : copy.envelope.IsCopy ingestor.ed ingestor.reprFloat privateKey event)
    (hlookup : copy.lookupRaises = false) {now : UtcDatetime} (hreading : copy.reading = .utc now)
    (hfresh : WithinSkew ingestor.settings now event.instant)
    (hrange : SupportedRange ingestor.settings now event.instant) :
    (ingestor.serve ⟨.initial, tables⟩ calls).1.tables.detectionEvents.countP
      (fun row => row.IsOf ingestor.reprFloat event) = 1 := by
  obtain ⟨before, after, rfl⟩ := List.append_of_mem hin
  obtain ⟨envelope, hsign, -⟩ := id hcopy
  obtain ⟨-, bytes, hbytes, -⟩ := signDetectionEvent_eq_ok hsign
  have hrest := hrun.sublist (List.sublist_append_right before (copy :: after))
  obtain ⟨log, h, -⟩ := Delivering.run hrepr hbytes hfits before hrun delivering_start
  obtain ⟨log', h', a, ha, hlogged⟩ :=
    h.copy hed hrepr hrest he hfits hcopy hlookup hreading hfresh hrange
  have hafter : after ++ [] = after := List.append_nil after
  obtain ⟨log'', hend, hkept⟩ := Delivering.run hrepr hbytes hfits after
    (hafter.symm ▸ hrest.sublist (List.sublist_cons_self _ _)) (hafter.symm ▸ h')
  rw [serve_append]
  obtain ⟨row, hrow, hof⟩ := hend.stored a (hkept.subset ha) hlogged
  apply le_antisymm (hend.count_le hnew)
  exact List.countP_pos_iff.mpr ⟨row, hrow, decide_eq_true hof⟩

section Sample

/-- A worker on one node that emits one event. -/
def samplePipeline : PrivacyWorkerPipeline :=
  ⟨⟨"edge-1", edge_isSafe⟩, ⟨"camera-1", camera_isSafe⟩⟩

def sampleFrames (instant : UtcDatetime) : List FrameCall :=
  [PrivacyWorkerPipeline.sampleFrame ⟨"event-1", event_isSafe⟩ ⟨"nonce-1", nonce_isSafe⟩ instant]

variable {instant : UtcDatetime} {envelope : SignedDetectionEnvelope}

theorem mem_emitted_sample (instant : UtcDatetime) :
    sampleEvent instant ∈ samplePipeline.emitted .initial (sampleFrames instant) := by
  have h := PrivacyWorkerPipeline.emitted_sampleFrame ⟨"edge-1", by decide⟩ ⟨"event-1", by decide⟩
    ⟨"nonce-1", by decide⟩ instant
  unfold samplePipeline sampleFrames
  rw [h]
  exact List.mem_singleton_self _

/-- Copies of the one event, all read at its own instant. -/
theorem honestRun_sample (hsign : signDetectionEvent sample.ed sample.reprFloat
    (sampleEvent instant) (7 : UInt8) = .ok envelope) (n : ℕ) :
    HonestRun sample (7 : UInt8) samplePipeline (sampleFrames instant) sampleTables
      (List.replicate n (sampleCall envelope .persisted)) where
  registered := ⟨sampleNode, by decide, registeredKey_sampleNode⟩
  unforged call hcall bytes hbytes _ := by
    rw [List.eq_of_mem_replicate hcall] at hbytes
    have hbody : envelope.body = sampleEvent instant := (signDetectionEvent_eq_ok hsign).1
    exact ⟨sampleEvent instant, mem_emitted_sample instant, hbody ▸ hbytes⟩
  clock := by
    have hreadings : callReadings (List.replicate n (sampleCall envelope .persisted)) =
        List.replicate n envelope.body.instant := by
      simp [callReadings, sampleCall, ClockReading.instant?]
    rw [hreadings]
    exact List.pairwise_replicate.mpr (Or.inr le_rfl)
  commits call hcall := by
    rw [List.eq_of_mem_replicate hcall]
    rfl

theorem isCopy_sample (hsign : signDetectionEvent sample.ed sample.reprFloat
    (sampleEvent instant) (7 : UInt8) = .ok envelope) :
    envelope.IsCopy sample.ed sample.reprFloat (7 : UInt8) (sampleEvent instant) :=
  ⟨envelope, hsign, (signDetectionEvent_eq_ok hsign).1 ▸ .refl _, rfl⟩

/-- Two copies of one event, one row. -/
theorem honest_event_stored_once_two_copies :
    let now : UtcDatetime := ⟨63893000000000000, by decide⟩
    ∃ envelope, signDetectionEvent sample.ed sample.reprFloat (sampleEvent now) (7 : UInt8) =
        .ok envelope ∧
      (sample.serve ⟨.initial, sampleTables⟩
        (List.replicate 2 (sampleCall envelope .persisted))).1.tables.detectionEvents.countP
          (fun row => row.IsOf sample.reprFloat (sampleEvent now)) = 1 := by
  intro now
  obtain ⟨envelope, hsign⟩ := exists_sign_sampleEvent now
  have hbody : envelope.body = sampleEvent now := (signDetectionEvent_eq_ok hsign).1
  have hreading : (sampleCall envelope .persisted).reading = .utc now :=
    congrArg (fun e : DetectionEvent => ClockReading.utc e.instant) hbody
  refine ⟨envelope, hsign, ?_⟩
  exact honest_event_stored_once Ed25519.checksum_lawful Json.exactRepr_floatRepr.injectiveRepr
    (honestRun_sample hsign 2) (mem_emitted_sample now) (by decide) (by simp [sampleTables])
    (sampleCall envelope .persisted) (by simp) (isCopy_sample hsign) rfl hreading (by decide)
    ⟨by decide, by decide, by decide, by decide⟩

/-- Near the last datetime the horizon of a fresh event is out of range, and the event is
refused. -/
theorem fresh_event_refused_near_datetime_max :
    let late : UtcDatetime := ⟨maxMicros - 100000000, by decide⟩
    ∃ envelope,
      HonestRun sample (7 : UInt8) samplePipeline (sampleFrames late) sampleTables
        [sampleCall envelope .persisted] ∧
      sampleEvent late ∈ samplePipeline.emitted .initial (sampleFrames late) ∧
      (sampleEvent late).FitsColumns ∧
      envelope.IsCopy sample.ed sample.reprFloat (7 : UInt8) (sampleEvent late) ∧
      WithinSkew sample.settings late (sampleEvent late).instant ∧
      (sample.serve ⟨.initial, sampleTables⟩
        [sampleCall envelope .persisted]).1.tables.detectionEvents.countP
          (fun row => row.IsOf sample.reprFloat (sampleEvent late)) = 0 := by
  intro late
  obtain ⟨envelope, hsign⟩ := exists_sign_sampleEvent late
  refine ⟨envelope, honestRun_sample hsign 1, mem_emitted_sample late, by decide,
    isCopy_sample hsign, by decide, ?_⟩
  have hbody : envelope.body = sampleEvent late := (signDetectionEvent_eq_ok hsign).1
  have hrefused : (acceptVerifiedEvent sample.settings .initial (.utc (sampleEvent late).instant)
      (sampleEvent late)).2.isOk = false := by decide
  have hnone : (sample.ingest ⟨.initial, sampleTables⟩
      (sampleCall envelope .persisted)).1.tables.detectionEvents = [] := by
    rcases ingest_cases sample ⟨.initial, sampleTables⟩ (sampleCall envelope .persisted) with
      ⟨failure, hs, -⟩ | ⟨d, -, hd, -⟩
    · rw [hs]
      exact (refuse_events _ _ _).1
    · rw [← hbody] at hrefused
      have hok : (acceptVerifiedEvent sample.settings .initial (.utc envelope.body.instant)
          envelope.body).2 = .ok d := hd
      rw [hok] at hrefused
      cases hrefused
  show (sample.ingest _ _).1.tables.detectionEvents.countP _ = 0
  rw [hnone]
  rfl

end Sample

end DetectionEventIngestor

end SecureEdge
