import SecureEdgeVision.Ingestion.Steps
import SecureEdgeVision.Monitoring.TextOrder

/-! Recent events come out in reverse acceptance order: along a serial run of ingests the rows
carry growing IDs and instants that never go back, so that the newest-first view is the log of
acceptances read backwards. -/
namespace SecureEdge

open Json (FloatRepr)

section Sorting
variable {α : Type} {before : α → α → Prop} [DecidableRel before]

theorem orderedInsert_last {a : α} {rows : List α} (h : ∀ b ∈ rows, ¬ before a b) :
    rows.orderedInsert before a = rows ++ [a] := by
  induction rows with
  | nil => rfl
  | cons b rows ih =>
    rw [List.orderedInsert_cons, if_neg (h b List.mem_cons_self),
      ih fun c hc => h c (List.mem_cons_of_mem _ hc)]
    rfl

/-- Rows that are stored oldest first are listed backwards by a newest-first order. -/
theorem insertionSort_eq_reverse {rows : List α} (h : rows.Pairwise fun a b => ¬ before a b) :
    rows.insertionSort before = rows.reverse := by
  induction h with
  | nil => rfl
  | cons ha _ ih =>
    rw [List.insertionSort_cons, ih, List.reverse_cons]
    apply orderedInsert_last
    intro b hb
    exact ha b (List.mem_reverse.mp hb)

end Sorting

namespace DetectionEventIngestor
variable (ingestor : DetectionEventIngestor)

/-- What a call commits to `detection_events`, if it does: the acceptance as the views show it.
A commit that raised after it persisted counts. -/
def committed? (state : IngestState) (call : IngestCall) : Option RecentDetectionEvent :=
  match ingestor.authenticate state.tables call.lookupRaises call.envelope,
    (acceptVerifiedEvent ingestor.settings state.policy call.reading call.envelope.body).2 with
  | .ok (), .ok decision =>
    match DetectionEventRecord.fromEvent ingestor.reprFloat call.envelope.body
      decision.acceptedAtUtc with
    | .error _ => none
    | .ok record =>
      if (state.tables.insertEvent record).isSome ∧ call.commit ≠ .failed then
        some ⟨decision.acceptedAtUtc, call.envelope.body.astimezone⟩
      else none
  | _, _ => none

/-- The state after a serial run of ingests. -/
def ingested (state : IngestState) (calls : List IngestCall) : IngestState :=
  (Runs.run ingestor.ingest state calls).1

/-- The committed acceptances of a serial run, oldest first. -/
def commits (state : IngestState) : List IngestCall → List RecentDetectionEvent
  | [] => []
  | call :: calls =>
    (ingestor.committed? state call).toList ++ commits (ingestor.ingest state call).1 calls

variable {ingestor} {state : IngestState} {call : IngestCall}

/-- Storing an accepted event adds its row exactly if the call commits it. -/
theorem recordEvent_committed (ingestor : DetectionEventIngestor) (state : IngestState)
    (call : IngestCall) {decision : EventSecurityDecision}
    (hauth : ingestor.authenticate state.tables call.lookupRaises call.envelope = .ok ())
    (haccept : (acceptVerifiedEvent ingestor.settings state.policy call.reading
      call.envelope.body).2 = .ok decision) :
    (ingestor.committed? state call = none ∧
      (ingestor.recordEvent state.tables call decision).1 = state.tables) ∨
    ∃ record, DetectionEventRecord.fromEvent ingestor.reprFloat call.envelope.body
        decision.acceptedAtUtc = .ok record ∧
      Tables.bindable record = true ∧ Tables.checkConstraints record = true ∧
      ingestor.committed? state call =
        some ⟨decision.acceptedAtUtc, call.envelope.body.astimezone⟩ ∧
      (ingestor.recordEvent state.tables call decision).1 =
        state.tables.addEvent { record with recordId := some state.tables.nextRecordId } := by
  unfold committed? recordEvent
  rw [hauth, haccept]
  dsimp only
  cases hrecord : DetectionEventRecord.fromEvent ingestor.reprFloat call.envelope.body
    decision.acceptedAtUtc with
  | error e => exact Or.inl ⟨rfl, rfl⟩
  | ok record =>
    dsimp only
    cases hinsert : state.tables.insertEvent record with
    | none =>
      refine Or.inl ⟨?_, rfl⟩
      simp
    | some result =>
      obtain ⟨after, stored⟩ := result
      obtain ⟨rfl, rfl⟩ := insertEvent_eq_some hinsert
      have hchecks := hinsert
      unfold Tables.insertEvent at hchecks
      split_ifs at hchecks with hvalid
      simp only [Bool.and_eq_true] at hvalid
      cases hcommit : call.commit with
      | failed =>
        refine Or.inl ⟨?_, ?_⟩
        · simp
        · simp [CommitOutcome.apply]
      | persisted =>
        refine Or.inr ⟨record, rfl, hvalid.1.1, hvalid.1.2, ?_, ?_⟩
        · simp
        · simp [CommitOutcome.apply]
      | persistedRaised =>
        refine Or.inr ⟨record, rfl, hvalid.1.1, hvalid.1.2, ?_, ?_⟩
        · simp
        · simp [CommitOutcome.apply]

/-- An acceptance is the latest one, and its instant does not go back. -/
theorem acceptVerifiedEvent_latest {settings : SecuritySettings} {policy : ReplayState}
    {reading : ClockReading} {event : DetectionEvent} {decision : EventSecurityDecision}
    (h : (acceptVerifiedEvent settings policy reading event).2 = .ok decision) :
    (acceptVerifiedEvent settings policy reading event).1.latestAcceptedAtUtc =
        some decision.acceptedAtUtc ∧
      ∀ m ∈ policy.latestAcceptedAtUtc, m ≤ decision.acceptedAtUtc := by
  rcases acceptVerifiedEvent_cases settings policy reading event with
    ⟨e, -, hs⟩ | ⟨now, e, -, -, hs⟩ | ⟨now, r, -, -, hs⟩
  · rw [hs] at h
    cases h
  · rw [hs] at h
    cases h
  · rw [hs] at h ⊢
    obtain ⟨rfl, hclock, -, -, hstate⟩ := enterLock_ok h
    rw [hstate]
    exact ⟨rfl, clockBehind_eq_false.mp hclock⟩

/-- The rows hold the log: IDs count up, instants never go back, and every row is readable. -/
structure Listed (depth : ℕ) (state : IngestState) (log : List RecentDetectionEvent) : Prop where
  readable : List.Forall₂ (fun record recent => (∃ row, record.row = some row) ∧
    DetectionEventRecord.recent depth record = .ok recent) state.tables.detectionEvents log
  recordIds : state.tables.detectionEvents.map DetectionEventRecord.recordId =
    (List.range' 1 log.length).map some
  accepted : state.tables.detectionEvents.Pairwise fun a b => a.acceptedAtUtc ≤ b.acceptedAtUtc
  latest : ∀ record ∈ state.tables.detectionEvents,
    ∃ m ∈ state.policy.latestAcceptedAtUtc, record.acceptedAtUtc ≤ m

theorem foldr_max_range' (n start : ℕ) :
    (List.range' 1 n).foldr max start = max start n := by
  induction n generalizing start with
  | zero => simp
  | succ n ih =>
    rw [List.range'_concat, List.foldr_append, ih]
    simp
    omega

variable {depth : ℕ} {log : List RecentDetectionEvent}

/-- The next ID is one more than the number of rows. -/
theorem Listed.nextRecordId (h : Listed depth state log) :
    state.tables.nextRecordId = log.length + 1 := by
  have hids : state.tables.detectionEvents.filterMap DetectionEventRecord.recordId =
      List.range' 1 log.length := by
    calc state.tables.detectionEvents.filterMap DetectionEventRecord.recordId
        = (state.tables.detectionEvents.map DetectionEventRecord.recordId).filterMap id := by
          rw [List.filterMap_map]
          rfl
      _ = List.range' 1 log.length := by
          rw [h.recordIds]
          simp
  unfold Tables.nextRecordId
  rw [hids, foldr_max_range']
  simp

/-- The log stays when the rows do and the mark of the policy does not go back. -/
theorem Listed.keep {state' : IngestState} (h : Listed depth state log)
    (hevents : state'.tables.detectionEvents = state.tables.detectionEvents)
    (hlatest : ∀ m ∈ state.policy.latestAcceptedAtUtc,
      ∃ m' ∈ state'.policy.latestAcceptedAtUtc, m ≤ m') : Listed depth state' log := by
  constructor <;> rw [hevents]
  · exact h.readable
  · exact h.recordIds
  · exact h.accepted
  · intro record hrecord
    obtain ⟨m, hm, hle⟩ := h.latest record hrecord
    obtain ⟨m', hm', hle'⟩ := hlatest m hm
    exact ⟨m', hm', hle.trans hle'⟩

/-- The next row, accepted at the new mark of the policy, extends the log. -/
theorem Listed.append {state' : IngestState} {record : DetectionEventRecord}
    {recent : RecentDetectionEvent} (h : Listed depth state log)
    (hevents : state'.tables.detectionEvents = state.tables.detectionEvents ++ [record])
    (hid : record.recordId = some state.tables.nextRecordId)
    (hrow : ∃ row, record.row = some row)
    (hrecent : DetectionEventRecord.recent depth record = .ok recent)
    (hlatest : record.acceptedAtUtc ∈ state'.policy.latestAcceptedAtUtc)
    (hbehind : ∀ m ∈ state.policy.latestAcceptedAtUtc, m ≤ record.acceptedAtUtc) :
    Listed depth state' (log ++ [recent]) := by
  constructor <;> rw [hevents]
  · apply List.rel_append h.readable
    exact List.Forall₂.cons ⟨hrow, hrecent⟩ List.Forall₂.nil
  · rw [List.map_append, h.recordIds, List.length_append, List.length_singleton,
      List.range'_concat, List.map_append]
    simp [hid, h.nextRecordId, Nat.add_comm]
  · rw [List.pairwise_append]
    refine ⟨h.accepted, List.pairwise_singleton _ _, ?_⟩
    intro a ha b hb
    obtain rfl := List.mem_singleton.mp hb
    obtain ⟨m, hm, hle⟩ := h.latest a ha
    exact hle.trans (hbehind m hm)
  · intro a ha
    refine ⟨record.acceptedAtUtc, hlatest, ?_⟩
    rcases List.mem_append.mp ha with ha | ha
    · obtain ⟨m, hm, hle⟩ := h.latest a ha
      exact hle.trans (hbehind m hm)
    · obtain rfl := List.mem_singleton.mp ha
      exact le_rfl

/-- One call keeps the order, and adds to the log what it commits. -/
theorem Listed.ingest (hrepr : FloatRepr ingestor.reprFloat) (hdepth : 3 ≤ depth)
    (h : Listed depth state log) (call : IngestCall) :
    Listed depth (ingestor.ingest state call).1
      (log ++ (ingestor.committed? state call).toList) := by
  rcases ingest_cases ingestor state call with ⟨failure, hs, hfailure⟩ | ⟨decision, hauth, hok, hs⟩
  · have hnone : ingestor.committed? state call = none := by
      unfold committed?
      rcases hfailure with hauth | ⟨hauth, e, he, -⟩
      · rw [hauth]
      · rw [hauth, he]
    rw [hs, hnone, Option.toList_none, List.append_nil]
    apply h.keep
    · exact (refuse_events state.tables call failure).1
    · exact fun m hm => ⟨m, hm, le_rfl⟩
  · obtain ⟨hlatest, hbehind⟩ := acceptVerifiedEvent_latest hok
    rw [hs]
    rcases recordEvent_committed ingestor state call hauth hok with
      ⟨hnone, htables⟩ | ⟨record, hrecord, hbindable, hchecks, hsome, htables⟩
    · rw [hnone, Option.toList_none, List.append_nil]
      apply h.keep
      · exact congrArg Tables.detectionEvents htables
      · exact fun m hm => ⟨decision.acceptedAtUtc, hlatest, hbehind m hm⟩
    · rw [hsome, Option.toList_some, htables]
      have haccepted : record.acceptedAtUtc = decision.acceptedAtUtc :=
        (fromEvent_records hrecord).acceptedAt
      have hevent := toEvent_fromEvent hrepr hdepth hrecord (some state.tables.nextRecordId)
      apply h.append
      · exact Tables.addEvent_events _ _
      · rfl
      · exact DetectionEventRecord.exists_row.mpr ⟨rfl, hbindable, hchecks⟩
      · unfold DetectionEventRecord.recent
        rw [hevent]
        show Except.ok _ = _
        rw [haccepted]
      · exact haccepted ▸ hlatest
      · exact haccepted ▸ hbehind

theorem Listed.run (hrepr : FloatRepr ingestor.reprFloat) (hdepth : 3 ≤ depth)
    (h : Listed depth state log) (calls : List IngestCall) :
    Listed depth (ingestor.ingested state calls) (log ++ ingestor.commits state calls) := by
  induction calls generalizing state log with
  | nil =>
    rw [commits, List.append_nil]
    exact h
  | cons call calls ih =>
    rw [commits, ← List.append_assoc]
    exact ih (h.ingest hrepr hdepth call)

/-- Along the table IDs grow and instants do not go back. -/
theorem Listed.pairwise (h : Listed depth state log) :
    state.tables.detectionEvents.Pairwise fun a b => (∀ i j, a.recordId = some i →
      b.recordId = some j → i < j) ∧ a.acceptedAtUtc ≤ b.acceptedAtUtc := by
  have hids : (state.tables.detectionEvents.map DetectionEventRecord.recordId).Pairwise
      fun x y => ∀ i j, x = some i → y = some j → i < j := by
    have hgrow : (List.range' 1 log.length).Pairwise (· < ·) := List.pairwise_lt_range'
    rw [h.recordIds, List.pairwise_map]
    apply hgrow.imp
    rintro a b hlt i j ⟨⟩ ⟨⟩
    exact hlt
  exact (List.pairwise_map.mp hids).and h.accepted

theorem healthy_of_monitored {α : Type} {call : ListCall} {result : Except ReadFailure α} {x : α}
    (h : monitored call result = .ok x) : call.healthy = true := by
  cases result with
  | error e =>
    unfold monitored at h
    split_ifs at h
  | ok y =>
    rw [← isOk_monitored call y, h]
    rfl

/-- The view is the log read backwards, up to its limit. -/
theorem Listed.listRecentEvents (h : Listed depth state log) {call : ListCall}
    (hcall : call.healthy = true) :
    listRecentEvents depth state.tables.database call =
      .ok (log.reverse.take call.limit.toNat) := by
  have hbackwards : state.tables.database.detectionEvents.insertionSort
      DetectionEventRow.before = state.tables.database.detectionEvents.reverse := by
    apply insertionSort_eq_reverse
    apply List.pairwise_filterMap.mpr
    apply h.pairwise.imp
    rintro a b ⟨hids, haccepted⟩ rowA hrowA rowB hrowB hbefore
    rcases (DetectionEventRow.before_iff hrowA hrowB).mp hbefore with hlt | ⟨-, hle⟩
    · exact absurd haccepted (not_le.mpr hlt)
    · have := hids _ _ (DetectionEventRecord.row_columns hrowA).1
        (DetectionEventRecord.row_columns hrowB).1
      omega
  have hrows : ∀ {records : List DetectionEventRecord} {log : List RecentDetectionEvent},
      List.Forall₂ (fun record recent => (∃ row, record.row = some row) ∧
        DetectionEventRecord.recent depth record = .ok recent) records log →
      List.Forall₂ (fun row record => DetectionEventRow.fetch row = .ok record)
        (records.filterMap DetectionEventRecord.row) records := by
    intro records log hreadable
    induction hreadable with
    | nil => exact List.Forall₂.nil
    | cons hfirst _ ih =>
      obtain ⟨row, hrow⟩ := hfirst.1
      rw [List.filterMap_cons_some hrow]
      exact List.Forall₂.cons (DetectionEventRecord.fetch_row hrow) ih
  have hfetched : (state.tables.database.detectionEvents.reverse.take call.limit.toNat).mapM
      DetectionEventRow.fetch =
        .ok (state.tables.detectionEvents.reverse.take call.limit.toNat) :=
    Python.mapM_eq_ok.mpr (List.forall₂_take _ (List.rel_reverse (hrows h.readable)))
  have hrecent : (state.tables.detectionEvents.reverse.take call.limit.toNat).mapM
      (DetectionEventRecord.recent depth) = .ok (log.reverse.take call.limit.toNat) := by
    apply Python.mapM_eq_ok.mpr
    apply List.forall₂_take
    apply List.rel_reverse
    exact h.readable.imp fun _ _ hreadable => hreadable.2
  unfold SecureEdge.listRecentEvents
  dsimp only
  rw [hbackwards, hfetched]
  show monitored call (List.mapM _ _) = _
  rw [hrecent]
  unfold ListCall.healthy at hcall
  simp only [Bool.and_eq_true, Bool.not_eq_true'] at hcall
  obtain ⟨⟨⟨hlimit, hopen⟩, hquery⟩, hclose⟩ := hcall
  simp [monitored, hlimit, hopen, hquery, hclose]

end DetectionEventIngestor

open DetectionEventIngestor in
/-- Recent events come out in reverse acceptance order, for every clock and every commit. -/
theorem recent_events_newest_first (ingestor : DetectionEventIngestor)
    (hrepr : FloatRepr ingestor.reprFloat) {depth : ℕ} (hdepth : 3 ≤ depth) (state : IngestState)
    (hempty : state.tables.detectionEvents = []) (calls : List IngestCall) :
    let tables := (ingestor.ingested state calls).tables
    let log := ingestor.commits state calls
    (∀ a ∈ tables.detectionEvents, ∀ b ∈ tables.detectionEvents, ∀ i j, a.recordId = some i →
      b.recordId = some j → i ≤ j → a.acceptedAtUtc ≤ b.acceptedAtUtc) ∧
    (∀ call : ListCall, call.healthy = true → listRecentEvents depth tables.database call =
      .ok (log.reverse.take call.limit.toNat)) ∧
    ∀ shorter longer : ListCall, shorter.limit ≤ longer.limit → ∀ few many,
      listRecentEvents depth tables.database shorter = .ok few →
      listRecentEvents depth tables.database longer = .ok many → few <+: many := by
  intro tables log
  have hstart : Listed depth state [] := by
    refine ⟨?_, ?_, ?_, ?_⟩ <;> rw [hempty]
    · exact List.Forall₂.nil
    · rfl
    · exact List.Pairwise.nil
    · intro record hrecord
      exact absurd hrecord List.not_mem_nil
  have hlisted : Listed depth (ingestor.ingested state calls) log := hstart.run hrepr hdepth calls
  refine ⟨?_, fun call => hlisted.listRecentEvents, ?_⟩
  · have hordered : ∀ a ∈ tables.detectionEvents, ∀ b ∈ tables.detectionEvents, ∀ i j,
        a.recordId = some i → b.recordId = some j →
          (i ≤ j → a.acceptedAtUtc ≤ b.acceptedAtUtc) ∧
          (j ≤ i → b.acceptedAtUtc ≤ a.acceptedAtUtc) := by
      apply List.Pairwise.forall_of_forall_of_flip
      · intro a _ i j _ _
        exact ⟨fun _ => le_rfl, fun _ => le_rfl⟩
      · apply hlisted.pairwise.imp
        rintro a b ⟨hids, haccepted⟩ i j hi hj
        have := hids i j hi hj
        exact ⟨fun _ => haccepted, fun hle => by omega⟩
      · apply hlisted.pairwise.imp
        rintro a b ⟨hids, haccepted⟩ i j hi hj
        have := hids j i hj hi
        exact ⟨fun hle => by omega, fun _ => haccepted⟩
    intro a ha b hb i j hi hj hle
    exact (hordered a ha b hb i j hi hj).1 hle
  · intro shorter longer hle few many hfew hmany
    have hshorter := hlisted.listRecentEvents (healthy_of_monitored hfew)
    have hlonger := hlisted.listRecentEvents (healthy_of_monitored hmany)
    obtain rfl := Except.ok.inj (hfew.symm.trans hshorter)
    obtain rfl := Except.ok.inj (hmany.symm.trans hlonger)
    apply List.take_prefix_take_left
    omega

namespace DetectionEventIngestor

/-- An authentic call leaves the policy as its check of the event does. -/
theorem ingest_policy {ingestor : DetectionEventIngestor} {state : IngestState} {call : IngestCall}
    (h : ingestor.authenticate state.tables call.lookupRaises call.envelope = .ok ()) :
    (ingestor.ingest state call).1.policy =
      (acceptVerifiedEvent ingestor.settings state.policy call.reading call.envelope.body).1 := by
  unfold ingest
  rw [h]
  rcases acceptVerifiedEvent ingestor.settings state.policy call.reading call.envelope.body with
    ⟨policy, e | d⟩ <;> rfl

/-- A signed event that the policy accepts is committed. -/
theorem committed_signed {state : IngestState} {event : DetectionEvent} {call : IngestCall}
    {accepted : UtcDatetime} (hsign : signDetectionEvent sample.ed sample.reprFloat event
      (7 : UInt8) = .ok call.envelope)
    (hnode : state.tables.getNode event.nodeId = some sampleNode) (hfits : event.FitsColumns)
    (hlookup : call.lookupRaises = false) (hcommit : call.commit = .persisted)
    (haccept : ((acceptVerifiedEvent sample.settings state.policy call.reading event).2.toOption.map
      EventSecurityDecision.acceptedAtUtc) = some accepted) :
    sample.committed? state call = some ⟨accepted, event.astimezone⟩ := by
  obtain ⟨hbody, bytes, hbytes, -⟩ := signDetectionEvent_eq_ok hsign
  have hauth := authenticate_signed hsign hnode
  rcases hd : (acceptVerifiedEvent sample.settings state.policy call.reading event).2 with e | d
  · rw [hd] at haccept
    cases haccept
  rw [hd] at haccept
  obtain rfl : d.acceptedAtUtc = accepted := Option.some.inj haccept
  obtain ⟨record, hrecord⟩ := exists_fromEvent hbytes d.acceptedAtUtc
  unfold committed?
  rw [hlookup, hauth, hbody, hd]
  dsimp only
  rw [hrecord]
  dsimp only
  rw [insertEvent_of_fits hrecord hfits hnode, hcommit]
  exact if_pos ⟨rfl, nofun⟩

/-- A call whose event the policy refuses commits nothing. -/
theorem committed_refused {ingestor : DetectionEventIngestor} {state : IngestState}
    {call : IngestCall} (h : (acceptVerifiedEvent ingestor.settings state.policy call.reading
      call.envelope.body).2.isOk = false) : ingestor.committed? state call = none := by
  unfold committed?
  split
  · rename_i hd
    rw [hd] at h
    cases h
  · rfl

end DetectionEventIngestor

open DetectionEventIngestor in
/-- Two events, the second of which is refused while the clock is behind. -/
theorem recent_events_newest_first_two :
    let early : UtcDatetime := ⟨63892999990000000, by decide⟩
    let first : UtcDatetime := ⟨63893000000000000, by decide⟩
    let second : UtcDatetime := ⟨63893000005000000, by decide⟩
    ∃ older newer,
      let calls := [sampleCall older .persisted,
        { sampleCall newer .persisted with reading := .utc early }, sampleCall newer .persisted]
      let database := (sample.ingested ⟨.initial, sampleTables⟩ calls).tables.database
      listRecentEvents 3 database ⟨50, false, false, false⟩ = .ok
        [⟨second, (secondEvent second).astimezone⟩, ⟨first, (sampleEvent first).astimezone⟩] ∧
      listRecentEvents 3 database ⟨1, false, false, false⟩ = .ok
        [⟨second, (secondEvent second).astimezone⟩] := by
  intro early first second
  obtain ⟨older, holder⟩ := exists_sign_sampleEvent first
  obtain ⟨newer, hnewer⟩ : ∃ envelope, signDetectionEvent sample.ed sample.reprFloat
      (secondEvent second) (7 : UInt8) = .ok envelope := exists_sign_sample _ _ _ second 7
  have hbody : older.body = sampleEvent first := (signDetectionEvent_eq_ok holder).1
  have hbody' : newer.body = secondEvent second := (signDetectionEvent_eq_ok hnewer).1
  have hcall : sampleCall older .persisted =
      ⟨older, false, .utc first, some "alert-1", .utc first, .persisted⟩ := by
    unfold sampleCall
    rw [hbody]
    rfl
  have hcall' : sampleCall newer .persisted =
      ⟨newer, false, .utc second, some "alert-1", .utc second, .persisted⟩ := by
    unfold sampleCall
    rw [hbody']
    rfl
  refine ⟨older, newer, ?_⟩
  rw [hcall, hcall']
  intro calls database
  -- What the policy makes of the three readings.
  let afterFirst := (acceptVerifiedEvent sample.settings .initial (.utc first)
    (sampleEvent first)).1
  let afterEarly := (acceptVerifiedEvent sample.settings afterFirst (.utc early)
    (secondEvent second)).1
  have hfirst : ((acceptVerifiedEvent sample.settings .initial (.utc first)
      (sampleEvent first)).2.toOption.map EventSecurityDecision.acceptedAtUtc) = some first := by
    decide
  have hearly : (acceptVerifiedEvent sample.settings afterFirst (.utc early)
      (secondEvent second)).2.isOk = false := by
    decide
  have hsecond : ((acceptVerifiedEvent sample.settings afterEarly (.utc second)
      (secondEvent second)).2.toOption.map EventSecurityDecision.acceptedAtUtc) = some second := by
    decide
  have hnode : ∀ (state : IngestState) (call : IngestCall) (nodeId : SafeIdentifier),
      (sample.ingest state call).1.tables.getNode nodeId = state.tables.getNode nodeId := by
    intro state call nodeId
    unfold Tables.getNode
    rw [ingest_nodes]
  have hlog : sample.commits ⟨.initial, sampleTables⟩ calls =
      [⟨first, (sampleEvent first).astimezone⟩, ⟨second, (secondEvent second).astimezone⟩] := by
    let call (envelope : SignedDetectionEnvelope) (reading instant : UtcDatetime) : IngestCall :=
      ⟨envelope, false, .utc reading, some "alert-1", .utc instant, .persisted⟩
    let opened : IngestState := ⟨.initial, sampleTables⟩
    let one := (sample.ingest opened (call older first first)).1
    let two := (sample.ingest one (call newer early second)).1
    have hnode' : opened.tables.getNode (secondEvent second).nodeId = some sampleNode :=
      getNode_sample second
    have honeNode : one.tables.getNode (secondEvent second).nodeId = some sampleNode :=
      (hnode opened _ _).trans hnode'
    have htwoNode : two.tables.getNode (secondEvent second).nodeId = some sampleNode :=
      (hnode one _ _).trans honeNode
    have honePolicy : one.policy = afterFirst := by
      refine (ingest_policy (authenticate_sample holder)).trans ?_
      show (acceptVerifiedEvent _ .initial (.utc first) older.body).1 = _
      rw [hbody]
    have htwoPolicy : two.policy = afterEarly := by
      refine (ingest_policy (authenticate_signed hnewer honeNode)).trans ?_
      show (acceptVerifiedEvent _ one.policy (.utc early) newer.body).1 = _
      rw [hbody', honePolicy]
    have hone : sample.committed? opened (call older first first) =
        some ⟨first, (sampleEvent first).astimezone⟩ := by
      apply committed_signed holder (getNode_sample first) (fitsColumns_sample first) rfl rfl
      exact hfirst
    have htwo : sample.committed? one (call newer early second) = none := by
      apply committed_refused
      show (acceptVerifiedEvent _ one.policy (.utc early) newer.body).2.isOk = false
      rw [honePolicy, hbody']
      exact hearly
    have hthree : sample.committed? two (call newer second second) =
        some ⟨second, (secondEvent second).astimezone⟩ := by
      apply committed_signed hnewer htwoNode (fitsColumns_sample second) rfl rfl
      rw [htwoPolicy]
      exact hsecond
    show (sample.committed? opened (call older first first)).toList ++
      ((sample.committed? one (call newer early second)).toList ++
        ((sample.committed? two (call newer second second)).toList ++ [])) = _
    rw [hone, htwo, hthree]
    rfl
  have hviews := (recent_events_newest_first sample Json.exactRepr_floatRepr le_rfl
    ⟨.initial, sampleTables⟩ rfl calls).2.1
  constructor
  · refine (hviews ⟨50, false, false, false⟩ rfl).trans ?_
    rw [hlog]
    rfl
  · refine (hviews ⟨1, false, false, false⟩ rfl).trans ?_
    rw [hlog]
    rfl

end SecureEdge
