import SecureEdgeVision.Security.Interleaving

/-! When concurrent good calls are all accepted. The high-water mark is compared under the
lock with a reading taken before it, so the order in which calls take the lock decides. -/
namespace SecureEdge

/-- A call that starts with a reading that gave an instant. -/
def PolicyAction.started? : PolicyAction → Option (UtcDatetime × DetectionEvent)
  | .readClock event (.utc now) => some (now, event)
  | _ => none

/-- The calls a schedule starts, in the order of their clock readings. -/
def startedCalls (actions : List PolicyAction) : List (UtcDatetime × DetectionEvent) :=
  actions.filterMap PolicyAction.started?

/-- The readings of the calls in the order in which these take the lock, if every call
gets as far as the lock. -/
def lockOrder : List UtcDatetime → List PolicyAction → List UtcDatetime
  | _, [] => []
  | waiting, .readClock _ (.utc now) :: actions => lockOrder (waiting ++ [now]) actions
  | waiting, .readClock _ _ :: actions => lockOrder waiting actions
  | waiting, .enterLock i :: actions =>
    match waiting[i]? with
    | none => lockOrder waiting actions
    | some now => now :: lockOrder (waiting.eraseIdx i) actions

/-- The two calls share no identifier. -/
def Unrelated (a b : DetectionEvent) : Prop := a.eventKey ≠ b.eventKey ∧ a.nonceKey ≠ b.nonceKey

instance (a b : DetectionEvent) : Decidable (Unrelated a b) := by unfold Unrelated; infer_instance

/-- Nothing in the state still reserves the event's identifiers at the instant. -/
def Unreserved (policy : ReplayState) (now : UtcDatetime) (event : DetectionEvent) : Prop :=
  ∀ k ∈ event.replayKeys, k ∉ Expiry.prune now policy.seen

instance (policy : ReplayState) (now : UtcDatetime) (event : DetectionEvent) :
    Decidable (Unreserved policy now event) := by unfold Unreserved; infer_instance

/-- Calls that deserve acceptance: a working clock that never goes back, pairwise distinct
identifiers, none reserved, each timestamp fresh at its own reading. -/
structure GoodSchedule (settings : SecuritySettings) (policy : ReplayState)
    (actions : List PolicyAction) : Prop where
  works : ∀ event reading, PolicyAction.readClock event reading ∈ actions →
    ∃ now, reading = .utc now
  monotone : (policy.latestAcceptedAtUtc.toList ++ (startedCalls actions).map Prod.fst).Pairwise
    (· ≤ ·)
  distinct : (startedCalls actions).Pairwise fun a b => Unrelated a.2 b.2
  unreserved : ∀ c ∈ startedCalls actions, Unreserved policy c.1 c.2
  fresh : ∀ c ∈ startedCalls actions, WithinSkew settings c.1 c.2.instant

variable {settings : SecuritySettings} {s : PolicySystem} {actions : List PolicyAction}

theorem Unrelated.symm {a b : DetectionEvent} (h : Unrelated a b) : Unrelated b a :=
  ⟨h.1.symm, h.2.symm⟩

theorem Unrelated.not_mem {a b : DetectionEvent} (h : Unrelated a b) {k : ReplayKey}
    (hk : k ∈ b.replayKeys) : k ∉ a.replayKeys := by
  simp only [DetectionEvent.replayKeys, List.mem_cons, List.not_mem_nil, or_false] at hk ⊢
  rcases hk with rfl | rfl <;> rintro (he | he)
  · exact h.1 he.symm
  · exact DetectionEvent.eventKey_ne_nonceKey _ _ he
  · exact DetectionEvent.eventKey_ne_nonceKey _ _ he.symm
  · exact h.2 he.symm

/-- Accepting one event reserves nothing of an unrelated one. -/
theorem Unreserved.enterLock {policy : ReplayState} {r : Reservation} {now : UtcDatetime}
    {event : DetectionEvent} (h : Unreserved policy now event) (hr : Unrelated r.event event)
    {d : EventSecurityDecision} (hd : (SecureEdge.enterLock policy r).2 = .ok d) :
    Unreserved (SecureEdge.enterLock policy r).1 now event := by
  obtain ⟨-, -, -, -, hs⟩ := enterLock_ok hd
  intro k hk hmem
  rw [hs, Expiry.mem_iff_lookup] at hmem
  obtain ⟨horizon, hlookup⟩ := hmem
  rw [Expiry.lookup_prune, Expiry.lookup_reserve, if_neg (hr.not_mem hk),
    Expiry.lookup_prune] at hlookup
  refine h k hk ((Expiry.mem_iff_lookup _ _).mpr ⟨horizon, ?_⟩)
  exact (Expiry.lookup_prune _ _ _ _).mpr ⟨hlookup.1.1, hlookup.2⟩

/-- Only the high-water mark can still refuse an unreserved call. -/
theorem Unreserved.enterLock_ok_iff {policy : ReplayState} {r : Reservation}
    (h : Unreserved policy r.acceptedAt r.event) :
    (∃ d, (SecureEdge.enterLock policy r).2 = .ok d) ↔
      ∀ m ∈ policy.latestAcceptedAtUtc, m ≤ r.acceptedAt := by
  rw [← clockBehind_eq_false]
  rcases enterLock_cases policy r with ⟨hb, hs⟩ | ⟨hb, ⟨hmem, -⟩ | ⟨-, hmem, -⟩ | ⟨-, -, hs⟩⟩
  · simp [hs, hb]
  · exact absurd hmem (h _ (by simp [DetectionEvent.replayKeys]))
  · exact absurd hmem (h _ (by simp [DetectionEvent.replayKeys]))
  · simp [hs, hb]

def PolicySystem.AllAccepted (s : PolicySystem) : Prop :=
  ∀ c ∈ s.completed, ∃ d, c.outcome = .ok d

theorem PolicySystem.completed_kept_by_step (a : PolicyAction) :
    s.completed <+: (s.step settings a).completed := by
  rcases s.step_cases settings a with hs | ⟨_, _, _, -, hs⟩ | ⟨_, _, _, -, -, hs⟩ |
    ⟨_, _, -, -, hs⟩
  · rw [hs]
  · rw [hs]; exact List.prefix_append _ _
  · rw [hs]
  · rw [hs]; exact List.prefix_append _ _

theorem PolicySystem.completed_kept_by_run (actions : List PolicyAction) :
    s.completed <+: (s.run settings actions).completed := by
  induction actions generalizing s with
  | nil => exact List.prefix_rfl
  | cons a actions ih => exact (completed_kept_by_step a).trans ih

/-- A call whose sums leave the supported range is refused before the lock. -/
theorem PolicySystem.refuses_out_of_range {now : UtcDatetime} {event : DetectionEvent}
    (hmem : PolicyAction.readClock event (.utc now) ∈ actions)
    (hrange : ¬ SupportedRange settings now event.instant) :
    ¬ (s.run settings actions).AllAccepted := by
  induction actions generalizing s with
  | nil => simp at hmem
  | cons a actions ih =>
    rcases List.mem_cons.mp hmem with rfl | hmem
    · cases hp : prepare settings now event with
      | ok r => exact absurd (prepare_ok_iff.mp hp).supported hrange
      | error e =>
        intro hall
        have hstep : s.step settings (.readClock event (.utc now)) =
            s.complete ⟨event, .utc now, .error e⟩ := by simp [step, requireClock, hp]
        have hkept : (s.step settings (.readClock event (.utc now))).completed <+:
            ((s.step settings (.readClock event (.utc now))).run settings actions).completed :=
          completed_kept_by_run actions
        obtain ⟨d, hd⟩ := hall ⟨event, .utc now, .error e⟩
          (hkept.subset (by simp [hstep, complete]))
        cases hd
    · exact ih hmem

/-- What the remaining schedule still promises, seen from the middle of a run. -/
structure PolicySystem.Promising (settings : SecuritySettings) (s : PolicySystem)
    (actions : List PolicyAction) : Prop where
  works : ∀ event reading, PolicyAction.readClock event reading ∈ actions →
    ∃ now, reading = .utc now
  prepared : ∀ c ∈ startedCalls actions, ∃ r, Prepared settings c.1 c.2 r
  distinct : (s.waiting.map Reservation.event ++ (startedCalls actions).map Prod.snd).Pairwise
    Unrelated
  waiting : ∀ r ∈ s.waiting, Unreserved s.policy r.acceptedAt r.event
  unreserved : ∀ c ∈ startedCalls actions, Unreserved s.policy c.1 c.2

namespace PolicySystem

/-- A clock reading moves the promise of one call from the schedule to the waiting list. -/
theorem Promising.read {event : DetectionEvent} {now : UtcDatetime} {r : Reservation}
    (h : s.Promising settings (.readClock event (.utc now) :: actions))
    (hp : Prepared settings now event r) :
    Promising settings { s with waiting := s.waiting ++ [r] } actions where
  works event reading hmem := h.works event reading (List.mem_cons_of_mem _ hmem)
  prepared c hc := h.prepared c (List.mem_cons_of_mem _ hc)
  distinct := by
    have hdistinct := h.distinct
    simp only [startedCalls, List.filterMap_cons, PolicyAction.started?, List.map_cons] at hdistinct
    simpa [startedCalls, hp.event_eq] using hdistinct
  waiting r' hr' := by
    rcases List.mem_append.mp hr' with hr' | hr'
    · exact h.waiting r' hr'
    · rw [List.mem_singleton.mp hr', hp.event_eq, hp.acceptedAt_eq]
      exact h.unreserved (now, event) List.mem_cons_self
  unreserved c hc := h.unreserved c (List.mem_cons_of_mem _ hc)

/-- The entering call is unrelated to every other one that is still to come. -/
theorem Promising.enter_distinct {i : ℕ} {r : Reservation}
    (h : s.Promising settings (.enterLock i :: actions)) (hi : s.waiting[i]? = some r) :
    (r.event :: ((s.waiting.eraseIdx i).map Reservation.event ++
      (startedCalls actions).map Prod.snd)).Pairwise Unrelated := by
  obtain ⟨hlt, rfl⟩ := List.getElem?_eq_some_iff.mp hi
  have hperm := ((List.getElem_cons_eraseIdx_perm hlt).map Reservation.event).append_right
    ((startedCalls actions).map Prod.snd)
  exact h.distinct.perm hperm.symm fun hab => hab.symm

/-- An accepted entry keeps the promises of the calls still to come. -/
theorem Promising.enter {i : ℕ} {r : Reservation}
    (h : s.Promising settings (.enterLock i :: actions)) (hi : s.waiting[i]? = some r)
    {d : EventSecurityDecision} (hd : (SecureEdge.enterLock s.policy r).2 = .ok d) :
    (s.enter i r).Promising settings actions := by
  have hdistinct := List.pairwise_cons.mp (h.enter_distinct hi)
  refine ⟨fun event reading hmem => h.works event reading (List.mem_cons_of_mem _ hmem),
    fun c hc => h.prepared c hc, hdistinct.2, fun r' hr' => ?_, fun c hc => ?_⟩
  · refine (h.waiting r' (List.mem_of_mem_eraseIdx hr')).enterLock (hdistinct.1 _ ?_) hd
    exact List.mem_append_left _ (List.mem_map_of_mem hr')
  · refine (h.unreserved c hc).enterLock (hdistinct.1 _ ?_) hd
    exact List.mem_append_right _ (List.mem_map_of_mem hc)

theorem allAccepted_enter {i : ℕ} {r : Reservation} :
    (s.enter i r).AllAccepted ↔
      s.AllAccepted ∧ ∃ d, (SecureEdge.enterLock s.policy r).2 = .ok d := by
  simp only [AllAccepted, PolicySystem.enter, List.mem_append, List.mem_singleton, or_imp,
    forall_and, forall_eq]

/-- Entering in order, and every later entry in order after it. -/
theorem pairwise_mark_cons {mark : Option UtcDatetime} {now : UtcDatetime}
    {later : List UtcDatetime} :
    (mark.toList ++ now :: later).Pairwise (· ≤ ·) ↔
      (∀ m ∈ mark, m ≤ now) ∧ (now :: later).Pairwise (· ≤ ·) := by
  cases mark with
  | none => simp
  | some m =>
    simp only [Option.toList_some, List.singleton_append, Option.mem_some_iff, forall_eq',
      List.pairwise_cons, List.mem_cons, forall_eq_or_imp]
    constructor
    · rintro ⟨⟨hm, -⟩, hnow, hlater⟩
      exact ⟨hm, hnow, hlater⟩
    · rintro ⟨hm, hnow, hlater⟩
      exact ⟨⟨hm, fun t ht => hm.trans (hnow t ht)⟩, hnow, hlater⟩

/-- The induction over the schedule: the mark and the entries still to come are in order. -/
theorem Promising.allAccepted_iff (h : s.Promising settings actions) :
    (s.run settings actions).AllAccepted ↔
      s.AllAccepted ∧
        (s.policy.latestAcceptedAtUtc.toList ++
          lockOrder (s.waiting.map Reservation.acceptedAt) actions).Pairwise (· ≤ ·) := by
  induction actions generalizing s with
  | nil =>
    have hsingle : (s.policy.latestAcceptedAtUtc.toList ++
        lockOrder (s.waiting.map Reservation.acceptedAt) []).Pairwise (· ≤ ·) := by
      cases s.policy.latestAcceptedAtUtc <;> simp [lockOrder]
    exact ⟨fun hall => ⟨hall, hsingle⟩, fun hall => hall.1⟩
  | cons a actions ih =>
    cases a with
    | readClock event reading =>
      obtain ⟨now, rfl⟩ := h.works event reading List.mem_cons_self
      obtain ⟨r, hp⟩ := h.prepared (now, event) List.mem_cons_self
      have hstep : s.step settings (.readClock event (.utc now)) =
          { s with waiting := s.waiting ++ [r] } := by
        simp [step, requireClock, prepare_ok_iff.mpr hp]
      have hih := ih (h.read hp)
      rw [← hstep] at hih
      simpa [run, hstep, lockOrder, hp.acceptedAt_eq, AllAccepted] using hih
    | enterLock i =>
      cases hi : s.waiting[i]? with
      | none =>
        have hstep : s.step settings (.enterLock i) = s := by simp [step, hi]
        have hih := ih (s := s) ⟨fun e c hc => h.works e c (List.mem_cons_of_mem _ hc),
          h.prepared, h.distinct, h.waiting, h.unreserved⟩
        simpa [run, hstep, lockOrder, hi] using hih
      | some r =>
        have hfree := h.waiting r (List.mem_of_getElem? hi)
        have hstep : s.step settings (.enterLock i) = s.enter i r := by simp [step, hi]
        have hrun : s.run settings (.enterLock i :: actions) =
            (s.enter i r).run settings actions := by
          rw [← hstep]
          rfl
        have horder : lockOrder (s.waiting.map Reservation.acceptedAt) (.enterLock i :: actions) =
            r.acceptedAt :: lockOrder ((s.waiting.eraseIdx i).map Reservation.acceptedAt)
              actions := by
          simp [lockOrder, hi, List.eraseIdx_map]
        rw [hrun, horder, pairwise_mark_cons, ← hfree.enterLock_ok_iff]
        by_cases hok : ∃ d, (SecureEdge.enterLock s.policy r).2 = .ok d
        · obtain ⟨d, hd⟩ := hok
          obtain ⟨-, -, -, -, hpolicy⟩ := enterLock_ok hd
          have hmark : (s.enter i r).policy.latestAcceptedAtUtc.toList = [r.acceptedAt] := by
            simp [PolicySystem.enter, hpolicy]
          rw [ih (h.enter hi hd), allAccepted_enter, hmark, List.singleton_append, and_assoc]
          rfl
        · constructor
          · intro hall
            have hentered : (s.enter i r).AllAccepted := fun c hc =>
              hall c ((completed_kept_by_run actions).subset hc)
            exact absurd (allAccepted_enter.mp hentered).2 hok
          · intro hall
            exact absurd hall.2.1 hok

end PolicySystem

theorem mem_lockOrder {waiting : List UtcDatetime} {now : UtcDatetime}
    (h : now ∈ lockOrder waiting actions) :
    now ∈ waiting ∨ now ∈ (startedCalls actions).map Prod.fst := by
  induction actions generalizing waiting with
  | nil => simp [lockOrder] at h
  | cons a actions ih =>
    match a with
    | .readClock event (.utc t) =>
      have hrest : now ∈ waiting ++ [t] ∨ now ∈ (startedCalls actions).map Prod.fst := ih h
      simp only [List.mem_append, List.mem_singleton] at hrest
      simp only [startedCalls, List.filterMap_cons, PolicyAction.started?, List.map_cons,
        List.mem_cons] at hrest ⊢
      tauto
    | .readClock event .failed => exact ih h
    | .readClock event .notUtc => exact ih h
    | .enterLock i =>
      simp only [lockOrder] at h
      cases hi : waiting[i]? with
      | none => rw [hi] at h; exact ih h
      | some t =>
        rw [hi] at h
        rcases List.mem_cons.mp h with rfl | h
        · exact Or.inl (List.mem_of_getElem? hi)
        · exact (ih h).imp_left List.mem_of_mem_eraseIdx

/-- Two threads read the clock one second apart; then they take the lock in this order. -/
def twoThreads (first second : ℕ) : List PolicyAction :=
  let event (id : SafeIdentifier) := DetectionEvent.sample ⟨"edge-1", edge_isSafe⟩ id id
    ⟨63924944400000000, sampleMicros_le⟩
  [.readClock (event ⟨"event-1", event_isSafe⟩) (.utc ⟨63924944400000000, sampleMicros_le⟩),
    .readClock (event ⟨"event-2", by decide⟩) (.utc ⟨63924944401000000, by decide⟩),
    .enterLock first, .enterLock second]

private theorem startedCalls_twoThreads (first second : ℕ) :
    startedCalls (twoThreads first second) = startedCalls (twoThreads 0 0) := rfl

private theorem twoThreads_good (first second : ℕ) :
    GoodSchedule .sample .initial (twoThreads first second) where
  works event reading h := by
    simp only [twoThreads, List.mem_cons, PolicyAction.readClock.injEq, reduceCtorEq,
      List.not_mem_nil, or_false] at h
    rcases h with ⟨-, rfl⟩ | ⟨-, rfl⟩ <;> exact ⟨_, rfl⟩
  monotone := by rw [startedCalls_twoThreads]; decide
  distinct := by rw [startedCalls_twoThreads]; decide
  unreserved := by rw [startedCalls_twoThreads]; decide
  fresh := by rw [startedCalls_twoThreads]; decide

/-- The thread that read the clock first takes the lock last and is refused. -/
theorem good_call_refused_when_overtaken :
    GoodSchedule .sample .initial (twoThreads 1 0) ∧
      ((PolicySystem.start .initial).run .sample (twoThreads 1 0)).waiting = [] ∧
      ∃ c ∈ ((PolicySystem.start .initial).run .sample (twoThreads 1 0)).completed,
        c.outcome = .error (.configuration .clockMovedBackwards) :=
  ⟨twoThreads_good 1 0, rfl, by decide⟩

/-- Concurrent good calls are all accepted exactly when their sums are representable and no
call takes the lock after one that read the clock later. -/
theorem good_calls_accepted_iff (settings : SecuritySettings) (policy : ReplayState)
    (actions : List PolicyAction) (h : GoodSchedule settings policy actions) :
    (∀ c ∈ ((PolicySystem.start policy).run settings actions).completed,
        ∃ d, c.outcome = .ok d) ↔
      (∀ c ∈ startedCalls actions, SupportedRange settings c.1 c.2.instant) ∧
        (lockOrder [] actions).Pairwise (· ≤ ·) := by
  change ((PolicySystem.start policy).run settings actions).AllAccepted ↔ _
  by_cases hrange : ∀ c ∈ startedCalls actions, SupportedRange settings c.1 c.2.instant
  · have hpromise : (PolicySystem.start policy).Promising settings actions := by
      refine ⟨h.works, fun c hc => ?_, ?_, by simp [PolicySystem.start], h.unreserved⟩
      · exact exists_prepared (h.fresh c hc) (hrange c hc)
      · simpa [PolicySystem.start, List.pairwise_map] using h.distinct
    have hstart : (PolicySystem.start policy).AllAccepted := by
      simp [PolicySystem.AllAccepted, PolicySystem.start]
    have hmark : (policy.latestAcceptedAtUtc.toList ++ lockOrder [] actions).Pairwise (· ≤ ·) ↔
        (lockOrder [] actions).Pairwise (· ≤ ·) := by
      rw [List.pairwise_append]
      refine ⟨fun hp => hp.2.1, fun hp => ⟨?_, hp, ?_⟩⟩
      · exact (List.pairwise_append.mp h.monotone).1
      · intro m hm now hnow
        refine (List.pairwise_append.mp h.monotone).2.2 m hm now ?_
        exact (mem_lockOrder hnow).resolve_left (by simp)
    rw [hpromise.allAccepted_iff]
    exact ⟨fun hall => ⟨hrange, hmark.mp hall.2⟩, fun hall => ⟨hstart, hmark.mpr hall.2⟩⟩
  · refine ⟨fun hall => ?_, fun hcond => absurd hcond.1 hrange⟩
    push Not at hrange
    obtain ⟨⟨now, event⟩, hmem, hout⟩ := hrange
    obtain ⟨a, ha, hstarted⟩ := List.mem_filterMap.mp hmem
    obtain rfl : a = .readClock event (.utc now) := by
      cases a with
      | readClock event' reading =>
        cases reading with
        | utc now' => simpa [PolicyAction.started?, and_comm] using hstarted
        | _ => cases hstarted
      | _ => cases hstarted
    exact absurd hall (PolicySystem.refuses_out_of_range ha hout)

theorem good_calls_accepted_iff_in_order :
    (∀ c ∈ ((PolicySystem.start .initial).run .sample (twoThreads 0 0)).completed,
        ∃ d, c.outcome = .ok d) ↔
      (∀ c ∈ startedCalls (twoThreads 0 0), SupportedRange .sample c.1 c.2.instant) ∧
        (lockOrder [] (twoThreads 0 0)).Pairwise (· ≤ ·) :=
  good_calls_accepted_iff .sample .initial (twoThreads 0 0) (twoThreads_good 0 0)

end SecureEdge
