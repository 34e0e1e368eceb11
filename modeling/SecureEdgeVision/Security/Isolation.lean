import SecureEdgeVision.Security.Reference

/-! Node isolation. All nodes share one table, one pruning step and one high-water mark;
with a clock that never decreases, none of this lets one node's calls reach another's. -/
namespace SecureEdge

/-- The instant of a reading that gave one. -/
def ClockReading.instant? : ClockReading → Option UtcDatetime
  | .utc now => some now
  | _ => none

/-- The instants the clock gave to the calls, in order. -/
def readings (calls : List (ClockReading × DetectionEvent)) : List UtcDatetime :=
  calls.filterMap fun call => call.1.instant?

/-- The event comes from a node outside the set. -/
def outside (B : Set SafeIdentifier) [DecidablePred (· ∈ B)] (event : DetectionEvent) : Bool :=
  decide (event.nodeId ∉ B)

variable {B : Set SafeIdentifier} [DecidablePred (· ∈ B)] {settings : SecuritySettings}
  {log : List Reservation} {now : UtcDatetime} {event : DetectionEvent}
  {rest : List (ClockReading × DetectionEvent)} {state other : ReplayState}

/-- The part of the log that speaks about nodes outside the set. -/
def outsideLog (B : Set SafeIdentifier) [DecidablePred (· ∈ B)] (log : List Reservation) :
    List Reservation := log.filter fun a => outside B a.event

/-- What the log says about a node outside the set stands in the part kept. -/
theorem any_outsideLog (h : outside B event = true) (p : Reservation → Prop) [DecidablePred p] :
    ((outsideLog B log).any fun a => decide (a.event.nodeId = event.nodeId ∧ p a)) =
      log.any fun a => decide (a.event.nodeId = event.nodeId ∧ p a) := by
  unfold outsideLog
  rw [List.any_filter]
  congr 1
  funext a
  by_cases hnode : a.event.nodeId = event.nodeId
  · have ha : outside B a.event = true := by rwa [outside, hnode]
    simp [ha]
  · simp [hnode]

theorem loggedEventId_outsideLog (h : outside B event = true) :
    loggedEventId (outsideLog B log) now event = loggedEventId log now event :=
  any_outsideLog h _

theorem loggedNonce_outsideLog (h : outside B event = true) :
    loggedNonce (outsideLog B log) now event = loggedNonce log now event :=
  any_outsideLog h _

/-- Relates the full run to the run without the set's calls: the second log is the first
one without the set's entries, and the clock has passed every entry. -/
structure Isolated (settings : SecuritySettings) (B : Set SafeIdentifier)
    [DecidablePred (· ∈ B)] (rest : List (ClockReading × DetectionEvent))
    (state other : ReplayState) (log : List Reservation) : Prop where
  full : Holds state log
  purged : Holds other (outsideLog B log)
  valid : ∀ a ∈ log, a.Valid settings
  passed : ∀ a ∈ log, ∀ now ∈ readings rest, a.acceptedAt ≤ now
  clock : (readings rest).Pairwise (· ≤ ·)

theorem isolated_initial {calls : List (ClockReading × DetectionEvent)}
    (hclock : (readings calls).Pairwise (· ≤ ·)) :
    Isolated settings B calls .initial .initial [] :=
  ⟨holds_initial, holds_initial, by simp, by simp, hclock⟩

theorem clockBehind_of_passed (h : Holds state log) (hpassed : ∀ a ∈ log, a.acceptedAt ≤ now) :
    clockBehind state.latestAcceptedAtUtc now = false := by
  rw [clockBehind_eq_false, h.latest_eq]
  intro m hm
  obtain ⟨a, ha, rfl⟩ := Option.mem_map.mp hm
  exact hpassed a (List.mem_of_getLast? ha)

/-- A call that changes nothing leaves the two runs related. -/
theorem Isolated.skip {call : ClockReading × DetectionEvent}
    (h : Isolated settings B (call :: rest) state other log) :
    Isolated settings B rest state other log where
  full := h.full
  purged := h.purged
  valid := h.valid
  passed a ha now hnow := h.passed a ha now
    (List.filterMap_subset _ (List.subset_cons_self _ _) hnow)
  clock := h.clock.sublist ((List.sublist_cons_self _ _).filterMap _)

/-- An accepted call extends the first log; the second one follows if the node is kept. -/
theorem Isolated.extend {r : Reservation}
    (h : Isolated settings B ((.utc r.acceptedAt, r.event) :: rest) state other log)
    (hr : r.Valid settings) {d : EventSecurityDecision} (hok : (enterLock state r).2 = .ok d)
    {other' : ReplayState} (hpurged : Holds other' (outsideLog B (log ++ [r]))) :
    Isolated settings B rest (enterLock state r).1 other' (log ++ [r]) where
  full := h.full.accept hr hok
  purged := hpurged
  valid := by
    intro a ha
    rcases List.mem_append.mp ha with ha | ha
    · exact h.valid a ha
    · rwa [List.mem_singleton.mp ha]
  passed := by
    intro a ha now hnow
    rcases List.mem_append.mp ha with ha | ha
    · exact h.skip.passed a ha now hnow
    · rw [List.mem_singleton.mp ha]
      exact (List.pairwise_cons.mp h.clock).1 now hnow
  clock := h.skip.clock

/-- Step lemma for a call that both runs make. -/
theorem Isolated.keep {reading : ClockReading} (hkeep : outside B event = true)
    (h : Isolated settings B ((reading, event) :: rest) state other log) :
    (acceptVerifiedEvent settings state reading event).2 =
        (acceptVerifiedEvent settings other reading event).2 ∧
      ∃ log', Isolated settings B rest (acceptVerifiedEvent settings state reading event).1
        (acceptVerifiedEvent settings other reading event).1 log' := by
  rcases acceptVerifiedEvent_cases settings state reading event with
    ⟨e, hclock, hs⟩ | ⟨now, e, rfl, hp, hs⟩ | ⟨now, r, rfl, hp, hs⟩
  · have ho : acceptVerifiedEvent settings other reading event = (other, .error e) := by
      simp [acceptVerifiedEvent, hclock]
    rw [hs, ho]
    exact ⟨rfl, log, h.skip⟩
  · have ho : acceptVerifiedEvent settings other (.utc now) event = (other, .error e) := by
      simp [acceptVerifiedEvent, requireClock, hp]
    rw [hs, ho]
    exact ⟨rfl, log, h.skip⟩
  · have ho : acceptVerifiedEvent settings other (.utc now) event = enterLock other r := by
      simp [acceptVerifiedEvent, requireClock, prepare_ok_iff.mpr hp]
    have hr := hp.valid
    have hevent := hp.event_eq
    have hnow := hp.acceptedAt_eq
    subst hevent hnow
    have hpassed : ∀ a ∈ log, a.acceptedAt ≤ r.acceptedAt := fun a ha =>
      h.passed a ha _ (by simp [readings, ClockReading.instant?])
    have hfull := clockBehind_of_passed h.full hpassed
    have hpurged := clockBehind_of_passed h.purged fun a ha =>
      hpassed a (List.mem_of_mem_filter ha)
    have hout : (enterLock state r).2 = (enterLock other r).2 := by
      rw [h.full.enterLock_log, h.purged.enterLock_log, ← h.full.latest_eq,
        ← h.purged.latest_eq, hfull, hpurged, loggedEventId_outsideLog hkeep,
        loggedNonce_outsideLog hkeep]
    rw [hs, ho]
    refine ⟨hout, ?_⟩
    cases hok : (enterLock state r).2 with
    | error e =>
      rw [enterLock_error_state hok, enterLock_error_state (hout ▸ hok)]
      exact ⟨log, h.skip⟩
    | ok d =>
      have hlog : outsideLog B (log ++ [r]) = outsideLog B log ++ [r] := by
        simp [outsideLog, hkeep]
      refine ⟨log ++ [r], h.extend hr hok ?_⟩
      rw [hlog]
      exact h.purged.accept hr (hout ▸ hok)

/-- Step lemma for a call that only the full run makes. -/
theorem Isolated.delete {reading : ClockReading} (hdelete : outside B event = false)
    (h : Isolated settings B ((reading, event) :: rest) state other log) :
    ∃ log', Isolated settings B rest (acceptVerifiedEvent settings state reading event).1
      other log' := by
  cases hok : (acceptVerifiedEvent settings state reading event).2 with
  | error e =>
    rw [acceptVerifiedEvent_error_state hok]
    exact ⟨log, h.skip⟩
  | ok d =>
    rcases acceptVerifiedEvent_cases settings state reading event with
      ⟨e, -, hs⟩ | ⟨now, e, -, -, hs⟩ | ⟨now, r, rfl, hp, hs⟩
    · rw [hs] at hok; cases hok
    · rw [hs] at hok; cases hok
    · have hr := hp.valid
      have hevent := hp.event_eq
      have hnow := hp.acceptedAt_eq
      subst hevent hnow
      rw [hs] at hok ⊢
      have hlog : outsideLog B (log ++ [r]) = outsideLog B log := by
        simp [outsideLog, hdelete]
      exact ⟨log ++ [r], h.extend hr hok (hlog ▸ h.purged)⟩

/-- Deleting every call of the set's nodes leaves each other call's outcome unchanged. -/
theorem deleting_nodes_keeps_outcomes (settings : SecuritySettings) (B : Set SafeIdentifier)
    [DecidablePred (· ∈ B)] (calls : List (ClockReading × DetectionEvent))
    (hclock : (readings calls).Pairwise (· ≤ ·)) :
    Runs.keptOutputs (fun call => outside B call.2) calls
        (Runs.run (policyStep settings) .initial calls).2 =
      (Runs.run (policyStep settings) .initial
        (calls.filter fun call => outside B call.2)).2 := by
  refine (Runs.run_deletion
    (R := fun rest state other => ∃ log, Isolated settings B rest state other log)
    ?_ ?_ calls ⟨[], isolated_initial hclock⟩).1
  · rintro ⟨reading, event⟩ rest state other hkeep ⟨log, h⟩
    exact h.keep hkeep
  · rintro ⟨reading, event⟩ rest state other hdelete ⟨log, h⟩
    exact h.delete hdelete

/-- Calls of two nodes under one identifier, the first node's twice. -/
def twoNodeCalls : List (ClockReading × DetectionEvent) :=
  let now : UtcDatetime := ⟨63924944400000000, sampleMicros_le⟩
  let event (node : SafeIdentifier) := DetectionEvent.sample node
    ⟨"event-1", event_isSafe⟩ ⟨"nonce-1", nonce_isSafe⟩ now
  [(.utc now, event ⟨"edge-1", edge_isSafe⟩), (.utc now, event ⟨"edge-2", by decide⟩),
    (.utc now, event ⟨"edge-1", edge_isSafe⟩)]

theorem deleting_nodes_keeps_outcomes_two_nodes :
    (Runs.run (policyStep .sample) .initial twoNodeCalls).2.map (fun o => o.isOk) =
        [true, true, false] ∧
      Runs.keptOutputs (fun call => outside {⟨"edge-2", by decide⟩} call.2) twoNodeCalls
          (Runs.run (policyStep .sample) .initial twoNodeCalls).2 =
        (Runs.run (policyStep .sample) .initial
          (twoNodeCalls.filter fun call => outside {⟨"edge-2", by decide⟩} call.2)).2 :=
  ⟨by decide, deleting_nodes_keeps_outcomes .sample {⟨"edge-2", by decide⟩} twoNodeCalls
    (by decide)⟩

end SecureEdge
