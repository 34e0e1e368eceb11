import SecureEdgeVision.Worker.Cadence

/-! How far apart the roundings of the cadence can be. Up to `2 ^ 51` frames a frame between two
sampled ones never reaches the sum, so only the sampled frames can be late. -/
namespace SecureEdge

open Binary64 (Finite unitsPerOne roundedUnits)

theorem unitsPerOne_eq : unitsPerOne = 2 ^ 1074 := by rw [unitsPerOne]

theorem two_pow_le {a b : ℕ} (h : a ≤ b) : 2 ^ a ≤ 2 ^ b := Nat.pow_le_pow_right Nat.two_pos h

theorem le_unitsPerOne : 2 ^ 64 ≤ unitsPerOne :=
  (two_pow_le (a := 64) (b := 1074) (by omega)).trans_eq unitsPerOne_eq.symm

theorem unitsPerOne_pos : 0 < unitsPerOne := lt_of_lt_of_le (by decide) le_unitsPerOne

/-- An index below `2 ^ 53` is a float. -/
theorem roundedUnits_index {k : ℕ} (hk : k < 2 ^ 53) :
    roundedUnits (k * unitsPerOne) 1 = k * unitsPerOne := by
  have hscale : Binary64.scaleOf (k * unitsPerOne) ≤ 1074 := by
    unfold Binary64.scaleOf
    rcases Nat.eq_zero_or_pos k with rfl | hpos
    · simp
    · have hne : k * unitsPerOne ≠ 0 := (Nat.mul_pos hpos unitsPerOne_pos).ne'
      have hlt : k * unitsPerOne < 2 ^ (53 + 1074) := by
        rw [Nat.pow_add, ← unitsPerOne_eq]
        exact Nat.mul_lt_mul_of_pos_right hk unitsPerOne_pos
      have hlog := (Nat.log2_lt hne).mpr hlt
      omega
  obtain ⟨q, hq⟩ : 2 ^ Binary64.scaleOf (k * unitsPerOne) ∣ k * unitsPerOne := by
    exact ((Nat.pow_dvd_pow 2 hscale).trans (dvd_of_eq unitsPerOne_eq.symm)).mul_left k
  unfold Binary64.roundedUnits Binary64.significandOf
  rw [Nat.div_one, Nat.one_mul]
  have hround := Binary64.roundHalfEven_exact
    (show 0 < 2 ^ Binary64.scaleOf (k * unitsPerOne) by positivity) q
  rw [Nat.mul_comm q, ← hq] at hround
  rw [hround, Nat.mul_comm q, ← hq]

/-- The lower bounds on the last sampled time, the interval and their sum, against the upper bound
on the time of a frame that comes before the next one to be sampled. -/
theorem lt_of_margins {m j k W S interval last due time : ℕ} (hW : 0 < W)
    (hinterval : (2 ^ 53 - 1) * (m * W) ≤ 2 ^ 53 * (S * interval))
    (hlast : (2 ^ 53 - 1) * (j * m * W) ≤ 2 ^ 53 * (S * last))
    (hdue : (2 ^ 53 - 1) * (last + interval) ≤ 2 ^ 53 * due)
    (htime : 2 ^ 53 * (S * time) ≤ (2 ^ 53 + 1) * (k * W))
    (hnext : k + 1 ≤ (j + 1) * m) (hk : k < 2 ^ 51) : time < due := by
  by_contra hlate
  have hle : S * due ≤ S * time := Nat.mul_le_mul_left S (Nat.le_of_not_lt hlate)
  have hgap : 2 ^ 53 * (2 ^ 53 + 1) * k < (2 ^ 53 - 1) * (2 ^ 53 - 1) * (k + 1) := by omega
  have hchain : (2 ^ 53 - 1) * (2 ^ 53 - 1) * (k + 1) * W ≤ 2 ^ 53 * (2 ^ 53 + 1) * k * W := by
    calc (2 ^ 53 - 1) * (2 ^ 53 - 1) * (k + 1) * W
        ≤ (2 ^ 53 - 1) * (2 ^ 53 - 1) * ((j + 1) * m) * W :=
          Nat.mul_le_mul_right W (Nat.mul_le_mul_left _ hnext)
      _ = (2 ^ 53 - 1) * ((2 ^ 53 - 1) * (j * m * W) + (2 ^ 53 - 1) * (m * W)) := by ring
      _ ≤ (2 ^ 53 - 1) * (2 ^ 53 * (S * last) + 2 ^ 53 * (S * interval)) :=
          Nat.mul_le_mul_left _ (Nat.add_le_add hlast hinterval)
      _ = 2 ^ 53 * (S * ((2 ^ 53 - 1) * (last + interval))) := by ring
      _ ≤ 2 ^ 53 * (S * (2 ^ 53 * due)) :=
          Nat.mul_le_mul_left _ (Nat.mul_le_mul_left S hdue)
      _ = 2 ^ 53 * (2 ^ 53 * (S * due)) := by ring
      _ ≤ 2 ^ 53 * (2 ^ 53 * (S * time)) :=
          Nat.mul_le_mul_left _ (Nat.mul_le_mul_left _ hle)
      _ ≤ 2 ^ 53 * ((2 ^ 53 + 1) * (k * W)) := Nat.mul_le_mul_left _ htime
      _ = 2 ^ 53 * (2 ^ 53 + 1) * k * W := by ring
  exact absurd hchain (Nat.not_le.mpr (Nat.mul_lt_mul_of_pos_right hgap hW))

section Magnitudes
variable {rate : SampleFps} {sourceFps : SourceFps}

/-- The interval is the rounded quotient of one second by the rate. -/
theorem interval_magnitude {interval : Finite} (h : Finite.one.div rate.value = some interval) :
    interval.negative = false ∧
      interval.magnitude = roundedUnits (unitsPerOne * unitsPerOne) rate.value.magnitude := by
  obtain ⟨hsign, hmagnitude⟩ := Binary64.ofUnits_eq_some h
  rw [hsign, hmagnitude, Finite.one_magnitude, (positive_of_zero_lt rate.pos).1]
  exact ⟨rfl, rfl⟩

theorem rate_magnitude_le (rate : SampleFps) : rate.value.magnitude ≤ 120 * unitsPerOne := by
  have hle := rate.le
  obtain ⟨hsign, -⟩ := positive_of_zero_lt rate.pos
  have hbound : (⟨false, 120 * 2 ^ 46, 1028, by decide, by decide, Or.inl (by decide)⟩ :
      Finite).magnitude = 120 * unitsPerOne := by
    unfold Finite.magnitude
    dsimp only
    rw [Nat.mul_assoc, ← Nat.pow_add, show 46 + 1028 = 1074 from rfl, unitsPerOne_eq]
  rw [Finite.le_def] at hle
  unfold Finite.units at hle
  rw [hsign, if_neg Bool.false_ne_true, if_neg Bool.false_ne_true, hbound] at hle
  exact Int.ofNat_le.mp hle

/-- The sum of two nonnegative values is the rounded sum of their magnitudes. -/
theorem add_magnitude {x y z : Finite} (hx : x.negative = false) (hy : y.negative = false)
    (hpos : 0 < y.magnitude) (h : x.add y = some z) :
    z.negative = false ∧ z.magnitude = roundedUnits (x.magnitude + y.magnitude) 1 := by
  have hsum : x.units + y.units = ((x.magnitude + y.magnitude : ℕ) : ℤ) := by
    unfold Finite.units
    rw [hx, hy, if_neg Bool.false_ne_true, if_neg Bool.false_ne_true, Nat.cast_add]
  unfold Finite.add at h
  dsimp only at h
  rw [hsum, if_neg (by omega), Int.natAbs_natCast, decide_eq_false (by omega)] at h
  exact Binary64.ofUnits_eq_some h

theorem interval_normal (rate : SampleFps) :
    2 ^ 52 * rate.value.magnitude ≤ unitsPerOne * unitsPerOne := by
  have hunits := le_unitsPerOne
  calc 2 ^ 52 * rate.value.magnitude ≤ 2 ^ 52 * (120 * unitsPerOne) :=
        Nat.mul_le_mul_left _ (rate_magnitude_le rate)
    _ = 2 ^ 52 * 120 * unitsPerOne := (Nat.mul_assoc _ _ _).symm
    _ ≤ unitsPerOne * unitsPerOne := Nat.mul_le_mul_right _ (by omega)

/-- The interval of an accepted rate is far above the subnormal range. -/
theorem interval_bounds {interval : Finite} (h : Finite.one.div rate.value = some interval) :
    (2 ^ 53 - 1) * (unitsPerOne * unitsPerOne) ≤
      2 ^ 53 * (rate.value.magnitude * interval.magnitude) ∧ 2 ^ 54 ≤ interval.magnitude := by
  have hpos := (positive_of_zero_lt rate.pos).2
  have hrate := rate_magnitude_le rate
  have hunits := le_unitsPerOne
  have hlower := Binary64.le_roundedUnits hpos (interval_normal rate)
  rw [← (interval_magnitude h).2] at hlower
  refine ⟨hlower, ?_⟩
  by_contra hsmall
  have hupper : 2 ^ 53 * (rate.value.magnitude * interval.magnitude) ≤
      2 ^ 53 * (120 * unitsPerOne * 2 ^ 54) :=
    Nat.mul_le_mul_left _ (Nat.mul_le_mul hrate (by omega))
  have hlarge : 2 ^ 53 * (120 * unitsPerOne * 2 ^ 54) <
      (2 ^ 53 - 1) * (unitsPerOne * unitsPerOne) := by
    calc 2 ^ 53 * (120 * unitsPerOne * 2 ^ 54) = 2 ^ 53 * 120 * 2 ^ 54 * unitsPerOne := by ring
      _ < (2 ^ 53 - 1) * 2 ^ 64 * unitsPerOne :=
          Nat.mul_lt_mul_of_pos_right (by decide) unitsPerOne_pos
      _ ≤ (2 ^ 53 - 1) * unitsPerOne * unitsPerOne :=
          Nat.mul_le_mul_right _ (Nat.mul_le_mul_left _ hunits)
      _ = (2 ^ 53 - 1) * (unitsPerOne * unitsPerOne) := Nat.mul_assoc _ _ _
  exact absurd (hlower.trans hupper) (Nat.not_le.mpr hlarge)

/-- The time of a frame with an exact index, in units. -/
theorem instant_magnitude {k : ℕ} {t : Finite} (hk : k < 2 ^ 53)
    (h : instant sourceFps k = some t) :
    t.magnitude = roundedUnits (k * (unitsPerOne * unitsPerOne)) sourceFps.value.magnitude := by
  rw [(instant_eq_some h).2, roundedUnits_index hk, Nat.mul_assoc]

/-- The time of a sampled frame is at least one part in `2 ^ 53` below its exact value. -/
theorem sampled_lower {m j : ℕ} (hrates : sourceFps.value.magnitude = m * rate.value.magnitude)
    (hj : j * m < 2 ^ 53) {last : Finite} (h : instant sourceFps (j * m) = some last) :
    (2 ^ 53 - 1) * (j * m * (unitsPerOne * unitsPerOne)) ≤
      2 ^ 53 * (sourceFps.value.magnitude * last.magnitude) := by
  rcases Nat.eq_zero_or_pos j with rfl | hpos
  · simp
  · rw [instant_magnitude hj h]
    apply Binary64.le_roundedUnits (positive_of_zero_lt sourceFps.pos).2
    calc 2 ^ 52 * sourceFps.value.magnitude = m * (2 ^ 52 * rate.value.magnitude) := by
          rw [hrates]
          ring
      _ ≤ m * (unitsPerOne * unitsPerOne) := Nat.mul_le_mul_left m (interval_normal rate)
      _ ≤ j * m * (unitsPerOne * unitsPerOne) :=
          Nat.mul_le_mul_right _ (Nat.le_mul_of_pos_left m hpos)

/-- A time below the normal range is at most its end. -/
theorem instant_le_of_small {k : ℕ} (hk : k < 2 ^ 53)
    (hsmall : k * (unitsPerOne * unitsPerOne) ≤ 2 ^ 52 * sourceFps.value.magnitude) {t : Finite}
    (h : instant sourceFps k = some t) : t.magnitude ≤ 2 ^ 52 := by
  have hpos := (positive_of_zero_lt sourceFps.pos).2
  have hexact : roundedUnits (2 ^ 52 * sourceFps.value.magnitude) sourceFps.value.magnitude =
      2 ^ 52 :=
    Binary64.roundedUnits_exact (x := ⟨false, 2 ^ 52, 0, by decide, by decide, Or.inl le_rfl⟩) hpos
      rfl
  rw [instant_magnitude hk h, ← hexact]
  exact Binary64.roundedUnits_mono hpos hpos (Nat.mul_le_mul_right _ hsmall)

/-- A frame between two sampled ones comes before the sum that the first of them gave. -/
theorem instant_lt_due {m k : ℕ} (hm : 0 < m)
    (hrates : sourceFps.value.magnitude = m * rate.value.magnitude) (hk : k < 2 ^ 51)
    {t due : Finite} (ht : instant sourceFps k = some t)
    (hdue : dueAfter rate sourceFps (k / m * m) = some due) : t < due := by
  unfold dueAfter at hdue
  obtain ⟨last, hlast, hsum⟩ := Option.bind_eq_some_iff.mp hdue
  obtain ⟨interval, hinterval, hadd⟩ := Option.bind_eq_some_iff.mp hsum
  obtain ⟨hsign, -⟩ := interval_magnitude hinterval
  obtain ⟨hlower, hlarge⟩ := interval_bounds hinterval
  obtain ⟨hdueSign, hdueMagnitude⟩ := add_magnitude (instant_eq_some hlast).1 hsign (by omega) hadd
  have hbefore : k / m * m ≤ k := Nat.div_mul_le_self k m
  have hnext : k + 1 ≤ (k / m + 1) * m := Nat.lt_div_mul_add hm |>.trans_eq (by ring)
  -- The sum is at least a whole interval, so it is rounded in the normal range.
  have hdueLower := Binary64.le_roundedUnits one_pos
    (show 2 ^ 52 * 1 ≤ last.magnitude + interval.magnitude by omega)
  rw [← hdueMagnitude, Nat.one_mul] at hdueLower
  have hlt : t.magnitude < due.magnitude := by
    rcases Nat.le_total (2 ^ 52 * sourceFps.value.magnitude) (k * (unitsPerOne * unitsPerOne)) with
      hnormal | hsmall
    · have htime := Binary64.roundedUnits_le (positive_of_zero_lt sourceFps.pos).2 hnormal
      rw [← instant_magnitude (by omega) ht] at htime
      have hscaled : (2 ^ 53 - 1) * (m * (unitsPerOne * unitsPerOne)) ≤
          2 ^ 53 * (sourceFps.value.magnitude * interval.magnitude) := by
        calc (2 ^ 53 - 1) * (m * (unitsPerOne * unitsPerOne))
            = m * ((2 ^ 53 - 1) * (unitsPerOne * unitsPerOne)) := by ring
          _ ≤ m * (2 ^ 53 * (rate.value.magnitude * interval.magnitude)) :=
              Nat.mul_le_mul_left m hlower
          _ = 2 ^ 53 * (sourceFps.value.magnitude * interval.magnitude) := by
              rw [hrates]
              ring
      exact lt_of_margins (Nat.mul_pos unitsPerOne_pos unitsPerOne_pos) hscaled
        (sampled_lower hrates (by omega) hlast) hdueLower htime hnext hk
    · have htime := instant_le_of_small (by omega) hsmall ht
      omega
  rw [Finite.lt_def, units_instant ht]
  unfold Finite.units
  rw [hdueSign, if_neg Bool.false_ne_true]
  exact Int.ofNat_lt.mpr hlt

end Magnitudes

/-- No frame is early or late by rounding: every frame time is finite, the sum of a sampled time and
the interval does not exceed the next time to be sampled, and, in a file of more than `2 ^ 51`
frames, the times between stay below that sum. -/
structure OnTime (rate : SampleFps) (sourceFps : SourceFps) (m n : ℕ) : Prop where
  finite : ∀ k < n, ∃ t, instant sourceFps k = some t
  sampled : ∀ j, (j + 1) * m < n → ∃ t due, instant sourceFps ((j + 1) * m) = some t ∧
    dueAfter rate sourceFps (j * m) = some due ∧ due ≤ t
  between : 2 ^ 51 < n → ∀ k < n, ¬ m ∣ k → ∀ t due, instant sourceFps k = some t →
    dueAfter rate sourceFps (k / m * m) = some due → t < due

/-- A file that declares `m` times the sampling rate has every `m`-th frame sampled, and no other,
exactly when rounding makes no sampled frame late. -/
theorem cadence_kept_iff (rate : SampleFps) (sourceFps : SourceFps) (m n : ℕ) (hm : 0 < m)
    (hrates : sourceFps.value.magnitude = m * rate.value.magnitude) :
    (cadence rate sourceFps n).2 = everyMth m n ↔ OnTime rate sourceFps m n := by
  rw [cadence_iff rate sourceFps hm n]
  constructor
  · intro h
    refine ⟨fun k hk => ?_, fun j hj => ?_, fun _ k hk hdvd t due ht hdue => ?_⟩
    · rcases Nat.eq_zero_or_pos k with rfl | hpos
      · exact instant_zero sourceFps
      · obtain ⟨t, ht, -⟩ := h k hpos hk
        exact ⟨t, ht⟩
    · obtain ⟨t, ht, hpace⟩ := h ((j + 1) * m) (Nat.mul_pos (Nat.succ_pos j) hm) hj
      rw [if_pos (Nat.dvd_mul_left m (j + 1)), Nat.succ_mul, Nat.add_sub_cancel] at hpace
      obtain ⟨due, hdue, hle⟩ := hpace
      exact ⟨t, due, ht, hdue, hle⟩
    · have hpos : 0 < k := Nat.pos_of_ne_zero fun hzero => hdvd (hzero ▸ dvd_zero m)
      obtain ⟨t', ht', hpace⟩ := h k hpos hk
      rw [if_neg hdvd] at hpace
      rw [ht] at ht'
      cases ht'
      exact hpace due hdue
  · intro h k hpos hk
    obtain ⟨t, ht⟩ := h.finite k hk
    refine ⟨t, ht, ?_⟩
    split_ifs with hdvd
    · obtain ⟨q, rfl⟩ := hdvd
      obtain ⟨j, rfl⟩ : ∃ j, q = j + 1 := ⟨q - 1, by have := Nat.pos_of_mul_pos_left hpos; omega⟩
      rw [Nat.mul_comm m (j + 1)] at hk ht ⊢
      obtain ⟨t', due, ht', hdue, hle⟩ := h.sampled j hk
      rw [ht] at ht'
      cases ht'
      rw [Nat.succ_mul, Nat.add_sub_cancel]
      exact ⟨due, hdue, hle⟩
    · intro due hdue
      rcases Nat.lt_or_ge (2 ^ 51) n with hlong | hshort
      · exact h.between hlong k hk hdvd t due ht hdue
      · exact instant_lt_due hm hrates (by omega) ht hdue

def twoFps : SampleFps :=
  ⟨⟨false, 2 ^ 52, 1023, Finite.one.significand_lt, by decide, Or.inl le_rfl⟩,
    by decide +kernel, by decide +kernel⟩

def tenFps : SampleFps :=
  ⟨⟨false, 10 * 2 ^ 49, 1025, by decide, by decide, Or.inl (by decide)⟩, by decide +kernel,
    by decide +kernel⟩

/-- A file that declares the rate at which it is sampled. -/
def SampleFps.declared (rate : SampleFps) : SourceFps := ⟨rate.value, rate.pos⟩

def sixFps : SourceFps :=
  ⟨⟨false, 6 * 2 ^ 50, 1024, by decide, by decide, Or.inl (by decide)⟩, by decide +kernel⟩

/-- Two of every six frames a second. -/
theorem cadence_kept_iff_every_third : OnTime twoFps sixFps 3 8 := by
  have hrates : sixFps.value.magnitude = 3 * twoFps.value.magnitude := by decide +kernel
  apply (cadence_kept_iff twoFps sixFps 3 8 (by decide) hrates).mp
  decide +kernel

/-- At ten frames a second, in the file and in the settings, the fourth frame is dropped. -/
theorem ten_fps_drops_fourth_frame :
    (cadence tenFps tenFps.declared 4).2 = [.ok true, .ok true, .ok true, .ok false] ∧
    (cadence tenFps tenFps.declared 4).2 ≠ everyMth 1 4 := by
  decide +kernel

end SecureEdge
