import SecureEdgeVision.Runs.Serial
import SecureEdgeVision.Security.Steps

/-! The reference policy keeps the complete log of accepted events for ever. The lazily
pruned table answers every call as the log does, and holds exactly what is still live. -/
namespace SecureEdge

/-- The log names the event ID for the node, under a horizon that has not passed. -/
def loggedEventId (log : List Reservation) (now : UtcDatetime) (event : DetectionEvent) : Bool :=
  log.any fun a => decide (a.event.nodeId = event.nodeId ∧ a.event.eventId = event.eventId ∧
    now ≤ a.horizon)

/-- The log names the nonce for the node, under a horizon that has not passed. -/
def loggedNonce (log : List Reservation) (now : UtcDatetime) (event : DetectionEvent) : Bool :=
  log.any fun a => decide (a.event.nodeId = event.nodeId ∧ a.event.nonce = event.nonce ∧
    now ≤ a.horizon)

/-- The same checks in the same order, against the complete log. -/
def referenceAccept (settings : SecuritySettings) (log : List Reservation)
    (reading : ClockReading) (event : DetectionEvent) : List Reservation × PolicyOutcome :=
  match requireClock reading with
  | .error e => (log, .error e)
  | .ok now =>
    match prepare settings now event with
    | .error e => (log, .error e)
    | .ok r =>
      if clockBehind (log.getLast?.map Reservation.acceptedAt) now then
        (log, .error (.configuration .clockMovedBackwards))
      else if loggedEventId log now event then (log, .error (.rejection .replayedEventId))
      else if loggedNonce log now event then (log, .error (.rejection .replayedNonce))
      else (log ++ [r], .ok r.decision)

/-- One call of a serial run. -/
def policyStep (settings : SecuritySettings) (state : ReplayState)
    (call : ClockReading × DetectionEvent) : ReplayState × PolicyOutcome :=
  acceptVerifiedEvent settings state call.1 call.2

def referenceStep (settings : SecuritySettings) (log : List Reservation)
    (call : ClockReading × DetectionEvent) : List Reservation × PolicyOutcome :=
  referenceAccept settings log call.1 call.2

variable {settings : SecuritySettings} {state : ReplayState} {log : List Reservation}
  {now : UtcDatetime} {event : DetectionEvent} {r : Reservation}

theorem Holds.loggedEventId_eq (h : Holds state log)
    (hnow : clockBehind state.latestAcceptedAtUtc now = false) :
    loggedEventId log now event = true ↔ event.eventKey ∈ Expiry.prune now state.seen := by
  rw [h.mem_prune_iff hnow]
  simp [loggedEventId, DetectionEvent.eventKey_mem, and_assoc]

theorem Holds.loggedNonce_eq (h : Holds state log)
    (hnow : clockBehind state.latestAcceptedAtUtc now = false) :
    loggedNonce log now event = true ↔ event.nonceKey ∈ Expiry.prune now state.seen := by
  rw [h.mem_prune_iff hnow]
  simp [loggedNonce, DetectionEvent.nonceKey_mem, and_assoc]

/-- The answer of the locked section, read off the log. -/
theorem Holds.enterLock_log (h : Holds state log) (r : Reservation) :
    (enterLock state r).2 =
      if clockBehind (log.getLast?.map Reservation.acceptedAt) r.acceptedAt then
        .error (.configuration .clockMovedBackwards)
      else if loggedEventId log r.acceptedAt r.event then .error (.rejection .replayedEventId)
      else if loggedNonce log r.acceptedAt r.event then .error (.rejection .replayedNonce)
      else .ok r.decision := by
  rw [← h.latest_eq]
  rcases enterLock_cases state r with ⟨hb, hs⟩ | ⟨hb, hrest⟩
  · rw [hs, if_pos hb]
  · have he : loggedEventId log r.acceptedAt r.event = true ↔
        r.event.eventKey ∈ Expiry.prune r.acceptedAt state.seen := h.loggedEventId_eq hb
    have hn : loggedNonce log r.acceptedAt r.event = true ↔
        r.event.nonceKey ∈ Expiry.prune r.acceptedAt state.seen := h.loggedNonce_eq hb
    rcases hrest with ⟨hmem, hs⟩ | ⟨hmem, hmem', hs⟩ | ⟨hmem, hmem', hs⟩
    · simp [hs, hb, he, hmem]
    · simp [hs, hb, he, hn, hmem, hmem']
    · simp [hs, hb, he, hn, hmem, hmem']

/-- Step lemma: one call of the policy and of the reference answer alike, and the state
holds what the grown log still protects. -/
theorem Holds.accept_reference (h : Holds state log) (hvalid : ∀ a ∈ log, a.Valid settings)
    (reading : ClockReading) (event : DetectionEvent) :
    (acceptVerifiedEvent settings state reading event).2 =
        (referenceAccept settings log reading event).2 ∧
      Holds (acceptVerifiedEvent settings state reading event).1
        (referenceAccept settings log reading event).1 ∧
      ∀ a ∈ (referenceAccept settings log reading event).1, a.Valid settings := by
  rcases acceptVerifiedEvent_cases settings state reading event with
    ⟨e, hclock, hs⟩ | ⟨now, e, rfl, hp, hs⟩ | ⟨now, r, rfl, hp, hs⟩
  · have href : referenceAccept settings log reading event = (log, .error e) := by
      simp [referenceAccept, hclock]
    rw [hs, href]
    exact ⟨rfl, h, hvalid⟩
  · have href : referenceAccept settings log (.utc now) event = (log, .error e) := by
      simp [referenceAccept, requireClock, hp]
    rw [hs, href]
    exact ⟨rfl, h, hvalid⟩
  · have hevent := hp.event_eq
    have haccepted := hp.acceptedAt_eq
    have hr := hp.valid
    have hout := h.enterLock_log r
    have hok := prepare_ok_iff.mpr hp
    subst hevent haccepted
    rw [hs]
    unfold referenceAccept
    simp only [requireClock, hok]
    split_ifs at hout ⊢ with hb he hn
    · exact ⟨hout, by rwa [enterLock_error_state hout], hvalid⟩
    · exact ⟨hout, by rwa [enterLock_error_state hout], hvalid⟩
    · exact ⟨hout, by rwa [enterLock_error_state hout], hvalid⟩
    · refine ⟨hout, h.accept hr hout, ?_⟩
      intro a ha
      rcases List.mem_append.mp ha with ha | ha
      · exact hvalid a ha
      · rwa [List.mem_singleton.mp ha]

/-- Run lemma. -/
theorem policy_run_reference (settings : SecuritySettings)
    (calls : List (ClockReading × DetectionEvent)) :
    (Runs.run (policyStep settings) .initial calls).2 =
        (Runs.run (referenceStep settings) [] calls).2 ∧
      Holds (Runs.run (policyStep settings) .initial calls).1
        (Runs.run (referenceStep settings) [] calls).1 ∧
      ∀ a ∈ (Runs.run (referenceStep settings) [] calls).1, a.Valid settings := by
  refine Runs.run_simulation
    (R := fun state log => Holds state log ∧ ∀ a ∈ log, a.Valid settings) ?_
    ⟨holds_initial, by simp⟩ calls
  rintro state log ⟨reading, event⟩ ⟨h, hvalid⟩
  exact h.accept_reference hvalid reading event

/-- The pruned table is equivalent to never pruning: same answers to every sequence of
calls, and `_seen` holds exactly the two keys of each logged event whose horizon has not
passed the latest accepted instant, under that horizon. -/
theorem pruned_table_refines_log (settings : SecuritySettings)
    (calls : List (ClockReading × DetectionEvent)) :
    (Runs.run (policyStep settings) .initial calls).2 =
        (Runs.run (referenceStep settings) [] calls).2 ∧
      (Runs.run (policyStep settings) .initial calls).1.latestAcceptedAtUtc =
        (Runs.run (referenceStep settings) [] calls).1.getLast?.map Reservation.acceptedAt ∧
      (∀ key horizon,
        (Runs.run (policyStep settings) .initial calls).1.seen.lookup key = some horizon ↔
          ∃ a ∈ (Runs.run (referenceStep settings) [] calls).1,
            (∀ m ∈ (Runs.run (policyStep settings) .initial calls).1.latestAcceptedAtUtc,
              m ≤ a.horizon) ∧
            (key = a.event.eventKey ∨ key = a.event.nonceKey) ∧ horizon = a.horizon) ∧
      ∀ reading event e,
        (acceptVerifiedEvent settings (Runs.run (policyStep settings) .initial calls).1
            reading event).2 = .error e →
          (acceptVerifiedEvent settings (Runs.run (policyStep settings) .initial calls).1
            reading event).1 = (Runs.run (policyStep settings) .initial calls).1 := by
  obtain ⟨houts, hholds, -⟩ := policy_run_reference settings calls
  refine ⟨houts, hholds.latest_eq, ?_, fun _ _ _ h => acceptVerifiedEvent_error_state h⟩
  intro key horizon
  rw [Expiry.Represents.lookup_iff hholds]
  constructor
  · rintro ⟨g, hg, hk, rfl, hm⟩
    obtain ⟨a, ha, rfl⟩ := List.mem_map.mp hg
    exact ⟨a, ha, hm, by simpa [Reservation.grant, DetectionEvent.replayKeys] using hk, rfl⟩
  · rintro ⟨a, ha, hm, hk, rfl⟩
    exact ⟨a.grant, List.mem_map_of_mem ha,
      by simpa [Reservation.grant, DetectionEvent.replayKeys] using hk, rfl, hm⟩

end SecureEdge
