import SecureEdgeVision.Security.Policy

/-! What one call of the policy can do. Every later invariant is derived from these
inversion lemmas; nothing else unfolds the policy. -/
namespace SecureEdge

variable {settings : SecuritySettings} {now : UtcDatetime} {event : DetectionEvent}
  {r : Reservation}

/-- A call gets as far as the lock exactly when its event is fresh and its sums exist. -/
theorem prepare_ok_iff : prepare settings now event = .ok r ↔ Prepared settings now event r := by
  unfold prepare
  constructor
  · intro h
    split at h
    next earliest latest hearliest hlatest =>
      split_ifs at h with hstale hfuture
      split at h
      next ttl freshness httl hfreshness =>
        obtain rfl := Except.ok.inj h
        rw [UtcDatetime.subSeconds_eq_some] at hearliest
        rw [UtcDatetime.addSeconds_eq_some] at hlatest httl hfreshness
        rw [not_lt, UtcDatetime.le_def] at hstale hfuture
        have ht := ttl.micros_le
        have hf := freshness.micros_le
        have hl := latest.micros_le
        refine ⟨rfl, rfl, ⟨by omega, by omega⟩, ⟨by omega, by omega, by omega, by omega⟩, ?_⟩
        rw [← httl, ← hfreshness]
        exact UtcDatetime.micros_max ttl freshness
      next => simp at h
    next => simp at h
  · rintro ⟨hevent, haccepted, ⟨hlo, hhi⟩, hrange, hhorizon⟩
    obtain ⟨earliest, hearliest, he⟩ := UtcDatetime.exists_subSeconds hrange.earliest
    obtain ⟨latest, hlatest, hl⟩ := UtcDatetime.exists_addSeconds hrange.latest
    obtain ⟨ttl, httl, ht⟩ := UtcDatetime.exists_addSeconds hrange.ttl
    obtain ⟨freshness, hfreshness, hf⟩ := UtcDatetime.exists_addSeconds hrange.freshness
    have hstale : ¬ event.instant < earliest := by
      rw [UtcDatetime.lt_def]; omega
    have hfuture : ¬ latest < event.instant := by
      rw [UtcDatetime.lt_def]; omega
    have hmax : max ttl freshness = r.horizon := by
      apply UtcDatetime.micros_injective
      rw [UtcDatetime.micros_max, ht, hf, hhorizon]
    subst hevent haccepted
    simp only [hearliest, hlatest, httl, hfreshness, hstale, hfuture, ↓reduceIte, hmax]
    rfl

theorem exists_prepared (hfresh : WithinSkew settings now event.instant)
    (hrange : SupportedRange settings now event.instant) :
    ∃ r, Prepared settings now event r := by
  obtain ⟨ttl, -, httl⟩ := UtcDatetime.exists_addSeconds hrange.ttl
  obtain ⟨freshness, -, hfreshness⟩ := UtcDatetime.exists_addSeconds hrange.freshness
  refine ⟨⟨event, now, max ttl freshness⟩, rfl, rfl, hfresh, hrange, ?_⟩
  rw [← httl, ← hfreshness]
  exact UtcDatetime.micros_max ttl freshness

/-- A reservation as every call carries it into the lock. -/
def Reservation.Valid (settings : SecuritySettings) (r : Reservation) : Prop :=
  Prepared settings r.acceptedAt r.event r

theorem Prepared.valid (h : Prepared settings now event r) : r.Valid settings := by
  unfold Reservation.Valid
  rwa [h.acceptedAt_eq, h.event_eq]

theorem Reservation.Valid.acceptedAt_le (h : r.Valid settings) : r.acceptedAt ≤ r.horizon := by
  rw [UtcDatetime.le_def, h.horizon_eq]
  exact (Nat.le_add_right _ _).trans (le_max_left _ _)

/-- A timestamp that could still be fresh after the horizon would be a replay gap. -/
theorem Reservation.Valid.instant_le (h : r.Valid settings) :
    r.event.instant.micros + microsPerSecond * settings.maxClockSkewSeconds ≤
      r.horizon.micros := by
  rw [h.horizon_eq]
  exact le_max_right _ _

variable {state : ReplayState}

/-- The four ways out of the locked section. -/
theorem enterLock_cases (state : ReplayState) (r : Reservation) :
    (clockBehind state.latestAcceptedAtUtc r.acceptedAt = true ∧
      enterLock state r = (state, .error (.configuration .clockMovedBackwards))) ∨
    (clockBehind state.latestAcceptedAtUtc r.acceptedAt = false ∧
      ((r.event.eventKey ∈ Expiry.prune r.acceptedAt state.seen ∧
        enterLock state r = (state, .error (.rejection .replayedEventId))) ∨
      (r.event.eventKey ∉ Expiry.prune r.acceptedAt state.seen ∧
        r.event.nonceKey ∈ Expiry.prune r.acceptedAt state.seen ∧
        enterLock state r = (state, .error (.rejection .replayedNonce))) ∨
      (r.event.eventKey ∉ Expiry.prune r.acceptedAt state.seen ∧
        r.event.nonceKey ∉ Expiry.prune r.acceptedAt state.seen ∧
        enterLock state r =
          (⟨Expiry.reserve r.event.replayKeys r.horizon (Expiry.prune r.acceptedAt state.seen),
            some r.acceptedAt⟩, .ok r.decision)))) := by
  unfold enterLock
  cases hb : clockBehind state.latestAcceptedAtUtc r.acceptedAt with
  | true => exact Or.inl ⟨rfl, rfl⟩
  | false =>
    refine Or.inr ⟨rfl, ?_⟩
    by_cases he : r.event.eventKey ∈ Expiry.prune r.acceptedAt state.seen
    · exact Or.inl ⟨he, by simp [he]⟩
    · by_cases hn : r.event.nonceKey ∈ Expiry.prune r.acceptedAt state.seen
      · exact Or.inr (Or.inl ⟨he, hn, by simp [he, hn]⟩)
      · exact Or.inr (Or.inr ⟨he, hn, by simp [he, hn]⟩)

theorem enterLock_error_state {e : PolicyFailure} (h : (enterLock state r).2 = .error e) :
    (enterLock state r).1 = state := by
  rcases enterLock_cases state r with ⟨-, hs⟩ | ⟨-, ⟨-, hs⟩ | ⟨-, -, hs⟩ | ⟨-, -, hs⟩⟩ <;>
    rw [hs] at h ⊢
  cases h

theorem enterLock_ok {d : EventSecurityDecision} (h : (enterLock state r).2 = .ok d) :
    d = r.decision ∧ clockBehind state.latestAcceptedAtUtc r.acceptedAt = false ∧
      r.event.eventKey ∉ Expiry.prune r.acceptedAt state.seen ∧
      r.event.nonceKey ∉ Expiry.prune r.acceptedAt state.seen ∧
      (enterLock state r).1 =
        ⟨Expiry.reserve r.event.replayKeys r.horizon (Expiry.prune r.acceptedAt state.seen),
          some r.acceptedAt⟩ := by
  rcases enterLock_cases state r with ⟨-, hs⟩ | ⟨hb, ⟨-, hs⟩ | ⟨-, -, hs⟩ | ⟨he, hn, hs⟩⟩ <;>
    rw [hs] at h ⊢
  all_goals cases h
  exact ⟨rfl, hb, he, hn, rfl⟩

/-- The three ways through one call. -/
theorem acceptVerifiedEvent_cases (settings : SecuritySettings) (state : ReplayState)
    (reading : ClockReading) (event : DetectionEvent) :
    (∃ e, requireClock reading = .error e ∧
      acceptVerifiedEvent settings state reading event = (state, .error e)) ∨
    (∃ now e, reading = .utc now ∧ prepare settings now event = .error e ∧
      acceptVerifiedEvent settings state reading event = (state, .error e)) ∨
    ∃ now r, reading = .utc now ∧ Prepared settings now event r ∧
      acceptVerifiedEvent settings state reading event = enterLock state r := by
  unfold acceptVerifiedEvent
  cases reading with
  | failed => exact Or.inl ⟨_, rfl, rfl⟩
  | notUtc => exact Or.inl ⟨_, rfl, rfl⟩
  | utc now =>
    cases hp : prepare settings now event with
    | error e => exact Or.inr (Or.inl ⟨now, e, rfl, hp, by simp [requireClock, hp]⟩)
    | ok r =>
      exact Or.inr (Or.inr ⟨now, r, rfl, prepare_ok_iff.mp hp, by simp [requireClock, hp]⟩)

/-- A refused call changes nothing. -/
theorem acceptVerifiedEvent_error_state {reading : ClockReading} {e : PolicyFailure}
    (h : (acceptVerifiedEvent settings state reading event).2 = .error e) :
    (acceptVerifiedEvent settings state reading event).1 = state := by
  rcases acceptVerifiedEvent_cases settings state reading event with
    ⟨_, -, hs⟩ | ⟨_, _, -, -, hs⟩ | ⟨_, _, -, -, hs⟩
  · rw [hs]
  · rw [hs]
  · rw [hs] at h ⊢
    exact enterLock_error_state h

/-- The replay state holds what the log of accepted calls still protects. -/
def Holds (state : ReplayState) (log : List Reservation) : Prop :=
  Expiry.Represents state.latestAcceptedAtUtc state.seen (log.map Reservation.grant)

variable {log : List Reservation}

theorem holds_initial : Holds .initial [] := Expiry.represents_empty

theorem Holds.latest_eq (h : Holds state log) :
    state.latestAcceptedAtUtc = log.getLast?.map Reservation.acceptedAt := by
  rw [Expiry.Represents.mark_eq h, Expiry.latest, List.getLast?_map, Option.map_map]
  rfl

theorem Holds.acceptedAt_le (h : Holds state log) {a : Reservation} (ha : a ∈ log) :
    ∃ m ∈ state.latestAcceptedAtUtc, a.acceptedAt ≤ m := by
  rw [Expiry.Represents.mark_eq h]
  exact (Expiry.Represents.sound h).le_latest (List.mem_map_of_mem ha)

/-- A key is retained exactly when a logged event holds it through the instant. -/
theorem Holds.mem_prune_iff (h : Holds state log)
    (hnow : clockBehind state.latestAcceptedAtUtc now = false) (k : ReplayKey) :
    k ∈ Expiry.prune now state.seen ↔ ∃ a ∈ log, k ∈ a.event.replayKeys ∧ now ≤ a.horizon := by
  rw [Expiry.Represents.mem_prune_iff h (clockBehind_eq_false.mp hnow)]
  simp [Expiry.Protected, Reservation.grant]

/-- An accepted call extends the log by its own reservation. -/
theorem Holds.accept (h : Holds state log) (hr : r.Valid settings)
    {d : EventSecurityDecision} (hd : (enterLock state r).2 = .ok d) :
    Holds (enterLock state r).1 (log ++ [r]) := by
  obtain ⟨-, hb, he, hn, hs⟩ := enterLock_ok hd
  have hgrant := Expiry.Represents.grant h (g := r.grant) (clockBehind_eq_false.mp hb)
    hr.acceptedAt_le (by
      intro k hk
      simp only [Reservation.grant, DetectionEvent.replayKeys, List.mem_cons,
        List.not_mem_nil, or_false] at hk
      rcases hk with rfl | rfl
      · exact he
      · exact hn)
  unfold Holds
  rw [hs, List.map_append]
  exact hgrant

/-- Two logged acceptances that share an identifier: the second came after the first
horizon, and its timestamp is later, since a timestamp as early would be stale by then. -/
theorem Holds.no_gap (h : Holds state log) (hvalid : ∀ a ∈ log, a.Valid settings) :
    log.Pairwise fun a b =>
      (∃ k ∈ a.event.replayKeys, k ∈ b.event.replayKeys) →
        a.horizon < b.acceptedAt ∧ a.event.instant < b.event.instant := by
  have hsound := Expiry.Represents.sound h
  unfold Expiry.Sound at hsound
  rw [List.pairwise_map] at hsound
  refine hsound.imp_of_mem ?_
  rintro a b ha hb ⟨-, hkeys⟩ ⟨k, hka, hkb⟩
  have hlt : a.horizon < b.acceptedAt := hkeys k hka hkb
  refine ⟨hlt, ?_⟩
  have hinstant := (hvalid a ha).instant_le
  have hfresh := (hvalid b hb).fresh.2
  rw [UtcDatetime.lt_def] at hlt ⊢
  omega

end SecureEdge
