import SecureEdgeVision.Security.Interleaving

/-! How large the replay table can get. -/
namespace SecureEdge

variable {settings : SecuritySettings} {r : Reservation}

/-- How long after its acceptance a reservation can last. -/
def SecuritySettings.reservedSeconds (settings : SecuritySettings) : ℕ :=
  max settings.nonceTtlSeconds (2 * settings.maxClockSkewSeconds)

theorem DetectionEvent.replayKeys_nodup (event : DetectionEvent) : event.replayKeys.Nodup := by
  simp [replayKeys, eventKey, nonceKey]

/-- A timestamp lies at most the skew after the acceptance, and is protected for the skew again. -/
theorem Reservation.Valid.horizon_le (h : r.Valid settings) :
    r.horizon.micros ≤ r.acceptedAt.micros + microsPerSecond * settings.reservedSeconds := by
  have hfresh := h.fresh.1
  have hskew : microsPerSecond * settings.maxClockSkewSeconds +
      microsPerSecond * settings.maxClockSkewSeconds ≤
        microsPerSecond * settings.reservedSeconds := by
    rw [← Nat.mul_add, ← Nat.two_mul]
    exact Nat.mul_le_mul_left _ (le_max_right _ _)
  have httl : microsPerSecond * settings.nonceTtlSeconds ≤
      microsPerSecond * settings.reservedSeconds := Nat.mul_le_mul_left _ (le_max_left _ _)
  rw [h.horizon_eq]
  omega

/-- The accepted calls whose identifiers are still reserved at the latest acceptance. -/
def PolicySystem.reserved (s : PolicySystem) : List Reservation :=
  s.accepted.filter fun r => r.grant.isLive s.policy.latestAcceptedAtUtc

/-- However calls interleave and whatever they send, the replay table has exactly two entries for
each accepted call that is still reserved, and so at most two for each call accepted within the
longer of the TTL and twice the skew before the latest acceptance. -/
theorem replay_table_is_bounded (settings : SecuritySettings) (actions : List PolicyAction) :
    let s := (PolicySystem.start .initial).run settings actions
    s.policy.seen.keys.Perm (s.reserved.flatMap fun r => r.event.replayKeys) ∧
    s.policy.seen.keys.length = 2 * s.reserved.length ∧
    ∀ m ∈ s.policy.latestAcceptedAtUtc, s.policy.seen.keys.length ≤
      2 * s.accepted.countP fun r => decide
        (m.micros ≤ r.acceptedAt.micros + microsPerSecond * settings.reservedSeconds) := by
  intro s
  have h : s.Consistent settings := PolicySystem.consistent_start.run actions
  have hperm : s.policy.seen.keys.Perm (s.reserved.flatMap fun r => r.event.replayKeys) := by
    have hgrants := Expiry.Represents.keys_perm h.holds (by
      intro g hg
      obtain ⟨r, -, rfl⟩ := List.mem_map.mp hg
      exact r.event.replayKeys_nodup)
    rw [List.filter_map, List.flatMap_map] at hgrants
    exact hgrants
  have hlength : s.policy.seen.keys.length = 2 * s.reserved.length := by
    rw [hperm.length_eq, List.length_flatMap]
    simp [DetectionEvent.replayKeys, Nat.mul_comm]
  refine ⟨hperm, hlength, ?_⟩
  intro m hm
  rw [hlength]
  apply Nat.mul_le_mul_left
  unfold PolicySystem.reserved
  rw [← List.countP_eq_length_filter]
  apply List.countP_mono_left
  intro r hr hlive
  have hle : m ≤ r.horizon := Expiry.Grant.isLive_iff.mp hlive m hm
  rw [UtcDatetime.le_def] at hle
  exact decide_eq_true (hle.trans (h.valid r hr).horizon_le)

end SecureEdge
