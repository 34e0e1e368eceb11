import SecureEdgeVision.Security.Steps

/-! Concurrent calls on one policy. A call reads the clock and makes its local checks,
then waits for the lock; any waiting call may take the lock next. -/
namespace SecureEdge

/-- One step of some thread: read the clock for a new call, or let a waiting call take
the lock. -/
inductive PolicyAction where
  | readClock (event : DetectionEvent) (reading : ClockReading)
  | enterLock (index : ℕ)

/-- A call that returned or raised. -/
structure CompletedCall where
  event : DetectionEvent
  reading : ClockReading
  outcome : PolicyOutcome

/-- The reservation an accepted call made. -/
def CompletedCall.reservation? (c : CompletedCall) : Option Reservation :=
  match c.outcome with
  | .ok d => some ⟨c.event, d⟩
  | .error _ => none

theorem CompletedCall.reservation?_eq_some {c : CompletedCall} {r : Reservation} :
    c.reservation? = some r ↔ c.event = r.event ∧ c.outcome = .ok r.decision := by
  rcases c with ⟨event, reading, outcome⟩
  cases outcome with
  | error e => simp [reservation?]
  | ok d => cases r; simp [reservation?]

/-- The policy, the calls that wait for its lock, and the calls that are done. Calls that
took the lock stand in `completed` in the order in which they took it. -/
structure PolicySystem where
  policy : ReplayState
  waiting : List Reservation
  completed : List CompletedCall

namespace PolicySystem

def start (policy : ReplayState) : PolicySystem := ⟨policy, [], []⟩

/-- A call is done. -/
def complete (s : PolicySystem) (c : CompletedCall) : PolicySystem :=
  { s with completed := s.completed ++ [c] }

/-- The waiting call at the index runs its locked section. -/
def enter (s : PolicySystem) (i : ℕ) (r : Reservation) : PolicySystem where
  policy := (enterLock s.policy r).1
  waiting := s.waiting.eraseIdx i
  completed := s.completed ++ [⟨r.event, .utc r.acceptedAt, (enterLock s.policy r).2⟩]

def step (settings : SecuritySettings) (s : PolicySystem) : PolicyAction → PolicySystem
  | .readClock event reading =>
    match requireClock reading with
    | .error e => s.complete ⟨event, reading, .error e⟩
    | .ok now =>
      match prepare settings now event with
      | .error e => s.complete ⟨event, reading, .error e⟩
      | .ok r => { s with waiting := s.waiting ++ [r] }
  | .enterLock i =>
    match s.waiting[i]? with
    | none => s
    | some r => s.enter i r

def run (settings : SecuritySettings) (s : PolicySystem) (actions : List PolicyAction) :
    PolicySystem := actions.foldl (step settings) s

/-- The accepted calls, in lock order. -/
def accepted (s : PolicySystem) : List Reservation :=
  s.completed.filterMap CompletedCall.reservation?

end PolicySystem

variable {settings : SecuritySettings} {s : PolicySystem}

/-- What one action can do. -/
theorem PolicySystem.step_cases (settings : SecuritySettings) (s : PolicySystem)
    (a : PolicyAction) :
    s.step settings a = s ∨
    (∃ event reading e, a = .readClock event reading ∧
      s.step settings a = s.complete ⟨event, reading, .error e⟩) ∨
    (∃ event now r, a = .readClock event (.utc now) ∧ Prepared settings now event r ∧
      s.step settings a = { s with waiting := s.waiting ++ [r] }) ∨
    ∃ i r, a = .enterLock i ∧ s.waiting[i]? = some r ∧ s.step settings a = s.enter i r := by
  cases a with
  | readClock event reading =>
    refine Or.inr ?_
    unfold step
    cases hclock : requireClock reading with
    | error e => exact Or.inl ⟨event, reading, e, rfl, by simp [hclock]⟩
    | ok now =>
      cases hp : prepare settings now event with
      | error e => exact Or.inl ⟨event, reading, e, rfl, by simp [hclock, hp]⟩
      | ok r =>
        obtain rfl : reading = .utc now := by
          cases reading <;> simp_all [requireClock]
        exact Or.inr (Or.inl ⟨event, now, r, rfl, prepare_ok_iff.mp hp, by simp [hclock, hp]⟩)
  | enterLock i =>
    unfold step
    cases hi : s.waiting[i]? with
    | none => exact Or.inl (by simp [hi])
    | some r => exact Or.inr (Or.inr (Or.inr ⟨i, r, rfl, hi, by simp [hi]⟩))

/-- The replay state holds what the accepted calls still protect. -/
structure PolicySystem.Consistent (settings : SecuritySettings) (s : PolicySystem) : Prop where
  holds : Holds s.policy s.accepted
  valid : ∀ a ∈ s.accepted, a.Valid settings
  waiting : ∀ r ∈ s.waiting, r.Valid settings

theorem PolicySystem.Consistent.step (h : s.Consistent settings) (a : PolicyAction) :
    (s.step settings a).Consistent settings := by
  rcases s.step_cases settings a with hs | ⟨event, reading, e, -, hs⟩ |
    ⟨event, now, r, -, hp, hs⟩ | ⟨i, r, -, hi, hs⟩
  · rwa [hs]
  · have haccepted : (s.complete ⟨event, reading, .error e⟩).accepted = s.accepted := by
      simp [complete, accepted, CompletedCall.reservation?]
    rw [hs]
    exact ⟨haccepted ▸ h.holds, haccepted ▸ h.valid, h.waiting⟩
  · rw [hs]
    refine ⟨h.holds, h.valid, ?_⟩
    intro r' hr'
    rcases List.mem_append.mp hr' with hr' | hr'
    · exact h.waiting r' hr'
    · rw [List.mem_singleton.mp hr']
      exact hp.valid
  · have hr := h.waiting r (List.mem_of_getElem? hi)
    have hwaiting : ∀ r' ∈ s.waiting.eraseIdx i, r'.Valid settings := fun r' hr' =>
      h.waiting r' (List.mem_of_mem_eraseIdx hr')
    rw [hs]
    cases hout : (enterLock s.policy r).2 with
    | error e =>
      have haccepted : (s.enter i r).accepted = s.accepted := by
        simp [enter, accepted, hout, CompletedCall.reservation?]
      refine ⟨?_, haccepted ▸ h.valid, hwaiting⟩
      rw [haccepted, enter, enterLock_error_state hout]
      exact h.holds
    | ok d =>
      have haccepted : (s.enter i r).accepted = s.accepted ++ [r] := by
        obtain ⟨rfl, -⟩ := enterLock_ok hout
        simp [enter, accepted, hout, CompletedCall.reservation?]
      refine ⟨?_, ?_, hwaiting⟩
      · rw [haccepted]
        exact h.holds.accept hr hout
      · rw [haccepted]
        intro a ha
        rcases List.mem_append.mp ha with ha | ha
        · exact h.valid a ha
        · rwa [List.mem_singleton.mp ha]

theorem PolicySystem.Consistent.run (h : s.Consistent settings) (actions : List PolicyAction) :
    (s.run settings actions).Consistent settings := by
  induction actions generalizing s with
  | nil => exact h
  | cons a actions ih => exact ih (h.step a)

theorem PolicySystem.consistent_start :
    (PolicySystem.start .initial).Consistent settings :=
  ⟨holds_initial, by simp [accepted, start], by simp [start]⟩

theorem PolicySystem.run_append (settings : SecuritySettings) (s : PolicySystem)
    (before after : List PolicyAction) :
    s.run settings (before ++ after) = (s.run settings before).run settings after :=
  List.foldl_append

/-- No replay gap, for every schedule of clock readings and lock entries: of two accepted
calls that share an identifier for one node, the later one to take the lock was accepted
after the first horizon and carries a later timestamp. No event is accepted twice. -/
theorem no_replay_gap (settings : SecuritySettings) (actions : List PolicyAction) :
    ((PolicySystem.start .initial).run settings actions).completed.Pairwise fun a b =>
      ∀ d d', a.outcome = .ok d → b.outcome = .ok d' →
        ((a.event.nodeId = b.event.nodeId ∧
            (a.event.eventId = b.event.eventId ∨ a.event.nonce = b.event.nonce)) →
          d.replayProtectedUntilUtc < d'.acceptedAtUtc ∧ a.event.instant < b.event.instant) ∧
        ¬ a.event.Agree b.event := by
  have hstart : (PolicySystem.start .initial).Consistent settings := PolicySystem.consistent_start
  have h := hstart.run actions
  have hgap := h.holds.no_gap h.valid
  unfold PolicySystem.accepted at hgap
  rw [List.pairwise_filterMap] at hgap
  refine hgap.imp ?_
  intro a b hab d d' hd hd'
  have hgap := hab ⟨a.event, d⟩ (CompletedCall.reservation?_eq_some.mpr ⟨rfl, hd⟩)
    ⟨b.event, d'⟩ (CompletedCall.reservation?_eq_some.mpr ⟨rfl, hd'⟩)
  have hshared : a.event.nodeId = b.event.nodeId →
      (a.event.eventId = b.event.eventId ∨ a.event.nonce = b.event.nonce) →
      d.replayProtectedUntilUtc < d'.acceptedAtUtc ∧ a.event.instant < b.event.instant := by
    intro hnode hid
    apply hgap
    rcases hid with hid | hid
    · exact ⟨a.event.eventKey, by simp [DetectionEvent.replayKeys],
        DetectionEvent.eventKey_mem.mpr ⟨hnode.symm, hid.symm⟩⟩
    · exact ⟨a.event.nonceKey, by simp [DetectionEvent.replayKeys],
        DetectionEvent.nonceKey_mem.mpr ⟨hnode.symm, hid.symm⟩⟩
  refine ⟨fun hkey => hshared hkey.1 hkey.2, fun hagree => ?_⟩
  exact (hshared hagree.nodeId (Or.inl hagree.eventId)).2.ne hagree.instant

end SecureEdge
