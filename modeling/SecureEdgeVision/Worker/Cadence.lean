import SecureEdgeVision.Binary64.Monotone
import SecureEdgeVision.Worker.Sampling

/-! The sampling cadence of a media file in binary64. Frame times are rounded quotients, the time
allowed next is a rounded sum, and the gate compares the two. -/
namespace SecureEdge

open Binary64 (Finite)

/-- A declared rate that `_optional_positive_capture_value` lets through. -/
structure SourceFps where
  value : Finite
  pos : Finite.zero < value

theorem positive_of_zero_lt {x : Finite} (h : Finite.zero < x) :
    x.negative = false ∧ 0 < x.magnitude := by
  rw [Finite.lt_def] at h
  have hzero : (Finite.zero).units = 0 := by decide +kernel
  rw [hzero] at h
  unfold Finite.units at h
  split_ifs at h with hnegative
  · omega
  · exact ⟨Bool.eq_false_of_not_eq_true hnegative, by omega⟩

/-- `frame_index / source_fps` when it is finite. -/
def instant (sourceFps : SourceFps) (index : ℕ) : Option Finite :=
  (Binary64.ofInt index).bind fun x => x.div sourceFps.value

/-- `frame_index / source_fps`: the index may be too large for a float, and the quotient
infinite. -/
def frameTime (sourceFps : SourceFps) (index : ℕ) : Option PyReal :=
  (Binary64.ofInt index).map fun x => ((x.div sourceFps.value).map PyReal.float).getD .nonFinite

/-- `current + interval` for the frame with this index. -/
def dueAfter (rate : SampleFps) (sourceFps : SourceFps) (index : ℕ) : Option Finite :=
  (instant sourceFps index).bind fun current => (Finite.one.div rate.value).bind current.add

/-- A frame time shown to the gate, which stays as it is when that raises. -/
def SamplingGate.step (gate : SamplingGate) (time : Option PyReal) :
    SamplingGate × Except WorkerFailure Bool :=
  match time with
  | none => (gate, .error .escaped)
  | some timestamp =>
    match gate.accept timestamp with
    | .error e => (gate, .error (.pipeline e))
    | .ok (gate, accepted) => (gate, .ok accepted)

/-- The gate's run over the first `n` frames of a file. -/
def cadence (rate : SampleFps) (sourceFps : SourceFps) (n : ℕ) :
    SamplingGate × List (Except WorkerFailure Bool) :=
  Runs.run SamplingGate.step (.create rate) ((List.range n).map (frameTime sourceFps))

/-- Every `m`-th frame is sampled and no other. -/
def everyMth (m n : ℕ) : List (Except WorkerFailure Bool) :=
  (List.range n).map fun k => .ok (decide (m ∣ k))

section Instants
variable {sourceFps : SourceFps} {k l : ℕ} {t u : Finite}

theorem ofInt_natCast (k : ℕ) :
    Binary64.ofInt k = Binary64.ofUnits false (k * Binary64.unitsPerOne) 1 := by
  unfold Binary64.ofInt Binary64.ofRatio
  rw [Int.natAbs_natCast, decide_eq_false (by omega)]

theorem instant_eq_some (h : instant sourceFps k = some t) :
    t.negative = false ∧ t.magnitude =
      Binary64.roundedUnits (Binary64.roundedUnits (k * Binary64.unitsPerOne) 1 *
        Binary64.unitsPerOne) sourceFps.value.magnitude := by
  unfold instant at h
  obtain ⟨x, hx, ht⟩ := Option.bind_eq_some_iff.mp h
  rw [ofInt_natCast] at hx
  obtain ⟨hsign, hmagnitude⟩ := Binary64.ofUnits_eq_some hx
  obtain ⟨htsign, htmagnitude⟩ := Binary64.ofUnits_eq_some ht
  rw [htsign, htmagnitude, hsign, hmagnitude, (positive_of_zero_lt sourceFps.pos).1]
  exact ⟨rfl, rfl⟩

theorem units_instant (h : instant sourceFps k = some t) : t.units = t.magnitude := by
  unfold Finite.units
  rw [(instant_eq_some h).1]
  exact if_neg Bool.false_ne_true

theorem instant_nonneg (h : instant sourceFps k = some t) : Finite.zero ≤ t := by
  have hzero : (Finite.zero).units = 0 := by decide +kernel
  rw [Finite.le_def, hzero, units_instant h]
  exact Int.natCast_nonneg _

/-- Frame times never go backwards. -/
theorem instant_mono (hk : instant sourceFps k = some t) (hl : instant sourceFps l = some u)
    (h : k ≤ l) : t ≤ u := by
  have hpos := (positive_of_zero_lt sourceFps.pos).2
  rw [Finite.le_def, units_instant hk, units_instant hl, (instant_eq_some hk).2,
    (instant_eq_some hl).2]
  refine Int.ofNat_le.mpr (Binary64.roundedUnits_mono hpos hpos ?_)
  have hindex : Binary64.roundedUnits (k * Binary64.unitsPerOne) 1 ≤
      Binary64.roundedUnits (l * Binary64.unitsPerOne) 1 := by
    apply Binary64.roundedUnits_mono one_pos one_pos
    exact Nat.mul_le_mul_right 1 (Nat.mul_le_mul_right _ h)
  exact Nat.mul_le_mul_right _ (Nat.mul_le_mul_right _ hindex)

/-- The first frame is at zero. -/
theorem instant_zero (sourceFps : SourceFps) : ∃ t, instant sourceFps 0 = some t := by
  obtain ⟨hsign, hpos⟩ := positive_of_zero_lt sourceFps.pos
  have hindex : Binary64.ofInt ((0 : ℕ) : ℤ) = some Finite.zero := by decide +kernel
  have hdiv : (Finite.zero).div sourceFps.value = some Finite.zero := by
    have hzero : (Finite.zero).magnitude = 0 := Nat.zero_mul _
    unfold Finite.div
    rw [hsign, hzero, Nat.zero_mul, show ((Finite.zero).negative != false) =
      (Finite.zero).negative from rfl]
    apply Binary64.ofUnits_exact hpos
    rw [hzero, Nat.zero_mul]
  unfold instant
  rw [hindex, Option.bind_some, hdiv]
  exact ⟨_, rfl⟩

end Instants

section Cadence
variable {rate : SampleFps} {sourceFps : SourceFps} {m n k : ℕ}

theorem frameTime_of_instant {t : Finite} (h : instant sourceFps k = some t) :
    frameTime sourceFps k = some (.float t) := by
  unfold instant at h
  obtain ⟨x, hx, ht⟩ := Option.bind_eq_some_iff.mp h
  unfold frameTime
  rw [hx, Option.map_some, ht, Option.map_some, Option.getD_some]

/-- A frame without a finite time makes the gate raise. -/
theorem step_of_no_instant (h : instant sourceFps k = none) (gate : SamplingGate) :
    ∃ e, gate.step (frameTime sourceFps k) = (gate, .error e) := by
  unfold instant at h
  unfold frameTime
  cases hx : Binary64.ofInt k with
  | none => exact ⟨.escaped, rfl⟩
  | some x =>
    rw [hx, Option.bind_some] at h
    rw [Option.map_some, h, Option.map_none, Option.getD_none]
    exact ⟨.pipeline ⟨"frame sample timing is invalid"⟩, rfl⟩

/-- A frame whose time is not before the last one is decided by what is allowed next. -/
theorem step_of_instant {t : Finite} (h : instant sourceFps k = some t) {gate : SamplingGate}
    (hlast : ∀ last ∈ gate.lastObserved, last.value ≤ t) :
    gate.step (frameTime sourceFps k) =
      if gate.nextAllowed.any (SamplingGate.early ⟨t, instant_nonneg h⟩) then
        ({ gate with lastObserved := some ⟨t, instant_nonneg h⟩ }, .ok false)
      else
        (⟨gate.intervalSeconds, some ⟨t, instant_nonneg h⟩,
          some (gate.intervalSeconds.bind t.add)⟩, .ok true) := by
  have hcurrent : nonnegativeFinite (.float t) "frame sample timing" =
      .ok ⟨t, instant_nonneg h⟩ := dif_pos (instant_nonneg h)
  have hforward : gate.lastObserved.all (fun last => ¬ t < last.value) = true := by
    cases hlast' : gate.lastObserved with
    | none => rfl
    | some last =>
      have hle := hlast last hlast'
      rw [Finite.le_def] at hle
      simp only [Option.all_some, Finite.lt_def, not_lt, decide_eq_true_eq]
      exact hle
  rw [frameTime_of_instant h]
  unfold SamplingGate.step SamplingGate.accept
  dsimp only
  rw [hcurrent, Python.ok_bind]
  dsimp only
  rw [require, if_pos hforward, Python.ok_bind]
  split_ifs <;> rfl

/-- Frame `k` is on time: its time is finite, and it is not before the sum that the last sampled
frame gave when it is the next to be sampled, and before that sum otherwise. -/
def KeepsPace (rate : SampleFps) (sourceFps : SourceFps) (m k : ℕ) : Prop :=
  ∃ t, instant sourceFps k = some t ∧
    if m ∣ k then ∃ due, dueAfter rate sourceFps (k - m) = some due ∧ due ≤ t
    else ∀ due ∈ dueAfter rate sourceFps (k / m * m), t < due

/-- The frame sampled last before frame `k`. -/
theorem lastSampled_eq (hm : 0 < m) (hk : 0 < k) :
    (k - 1) / m * m = if m ∣ k then k - m else k / m * m := by
  obtain ⟨p, rfl⟩ : ∃ p, k = p + 1 := ⟨k - 1, by omega⟩
  rw [Nat.add_sub_cancel, Nat.succ_div]
  split_ifs with hdvd
  · obtain ⟨q, hq⟩ := hdvd
    have hdiv : (p + 1) / m = q := by rw [hq, Nat.mul_div_cancel_left q hm]
    rw [Nat.succ_div, if_pos ⟨q, hq⟩] at hdiv
    have hp : p / m = q - 1 := Nat.eq_sub_of_add_eq hdiv
    rw [hp, hq, Nat.sub_mul, Nat.one_mul, Nat.mul_comm]
  · rw [Nat.add_zero]

/-- The gate after frames that it sampled as it should. -/
def OnCadence (rate : SampleFps) (sourceFps : SourceFps) (m k : ℕ) (gate : SamplingGate) : Prop :=
  ∃ last, instant sourceFps k = some last.value ∧
    gate = ⟨Finite.one.div rate.value, some last, some (dueAfter rate sourceFps (k / m * m))⟩

theorem early_iff (current : NonNegativeFloat) {due : Option Finite} :
    SamplingGate.early current due = true ↔ ∀ d ∈ due, current.value < d := by
  cases due with
  | none => simp [SamplingGate.early]
  | some d => simp [SamplingGate.early]

theorem not_early_iff (current : NonNegativeFloat) {due : Option Finite} :
    SamplingGate.early current due = false ↔ ∃ d, due = some d ∧ d ≤ current.value := by
  cases due with
  | none => simp [SamplingGate.early]
  | some d => simp [SamplingGate.early, Finite.lt_def, Finite.le_def]

/-- The next frame is decided as it should be exactly when it is on time. -/
theorem step_onCadence {gate : SamplingGate} (hm : 0 < m) (hk : 0 < k)
    (hgate : OnCadence rate sourceFps m (k - 1) gate) :
    ((gate.step (frameTime sourceFps k)).2 = .ok (decide (m ∣ k)) ↔
      KeepsPace rate sourceFps m k) ∧
    (KeepsPace rate sourceFps m k →
      OnCadence rate sourceFps m k (gate.step (frameTime sourceFps k)).1) := by
  obtain ⟨last, hlast, rfl⟩ := hgate
  cases hinstant : instant sourceFps k with
  | none =>
    obtain ⟨e, hstep⟩ := step_of_no_instant hinstant
      ⟨Finite.one.div rate.value, some last, some (dueAfter rate sourceFps ((k - 1) / m * m))⟩
    rw [hstep]
    have hlate : ¬ KeepsPace rate sourceFps m k := by
      rintro ⟨t, ht, -⟩
      rw [hinstant] at ht
      cases ht
    exact ⟨⟨(by rintro ⟨⟩), fun h => absurd h hlate⟩, fun h => absurd h hlate⟩
  | some t =>
    have hmono : ∀ l ∈ some last, l.value ≤ t := by
      rintro _ ⟨⟩
      exact instant_mono hlast hinstant (Nat.sub_le k 1)
    rw [step_of_instant hinstant hmono]
    dsimp only
    rw [Option.any_some, lastSampled_eq hm hk]
    unfold KeepsPace OnCadence
    rw [hinstant]
    have hdue : dueAfter rate sourceFps k = (Finite.one.div rate.value).bind t.add := by
      unfold dueAfter
      rw [hinstant, Option.bind_some]
    by_cases hdvd : m ∣ k
    · simp only [if_pos hdvd, Option.some.injEq, exists_eq_left', Nat.div_mul_cancel hdvd, hdue]
      rw [← not_early_iff ⟨t, instant_nonneg hinstant⟩]
      cases SamplingGate.early ⟨t, instant_nonneg hinstant⟩ (dueAfter rate sourceFps (k - m)) with
      | true => exact ⟨by simp [hdvd], (by rintro ⟨⟩)⟩
      | false => exact ⟨by simp [hdvd], fun _ => ⟨⟨t, instant_nonneg hinstant⟩, rfl, rfl⟩⟩
    · simp only [if_neg hdvd, Option.some.injEq, exists_eq_left']
      rw [← early_iff ⟨t, instant_nonneg hinstant⟩]
      cases SamplingGate.early ⟨t, instant_nonneg hinstant⟩
          (dueAfter rate sourceFps (k / m * m)) with
      | true => exact ⟨by simp [hdvd], fun _ => ⟨⟨t, instant_nonneg hinstant⟩, rfl, rfl⟩⟩
      | false => exact ⟨by simp [hdvd], (by rintro ⟨⟩)⟩

/-- The first frame is sampled. -/
theorem step_first (rate : SampleFps) (sourceFps : SourceFps) (m : ℕ) :
    ((SamplingGate.create rate).step (frameTime sourceFps 0)).2 = .ok (decide (m ∣ 0)) ∧
      OnCadence rate sourceFps m 0 ((SamplingGate.create rate).step (frameTime sourceFps 0)).1 := by
  obtain ⟨t, ht⟩ := instant_zero sourceFps
  have hlast : ∀ last ∈ (SamplingGate.create rate).lastObserved, last.value ≤ t := by
    rw [show (SamplingGate.create rate).lastObserved = none from rfl]
    exact fun _ h => absurd h (Option.not_mem_none _)
  have hdue : dueAfter rate sourceFps 0 = (Finite.one.div rate.value).bind t.add := by
    unfold dueAfter
    rw [ht, Option.bind_some]
  have hfree : ¬ (SamplingGate.create rate).nextAllowed.any
      (SamplingGate.early ⟨t, instant_nonneg ht⟩) = true := by
    rw [show (SamplingGate.create rate).nextAllowed = none from rfl, Option.any_none]
    exact Bool.false_ne_true
  unfold OnCadence
  rw [step_of_instant ht hlast, if_neg hfree, Nat.zero_div, Nat.zero_mul, hdue,
    decide_eq_true (dvd_zero m)]
  dsimp only [SamplingGate.create]
  exact ⟨rfl, ⟨t, instant_nonneg ht⟩, ht, rfl⟩

/-- A file is sampled as it should be exactly as long as every frame is on time. -/
theorem cadence_iff (rate : SampleFps) (sourceFps : SourceFps) {m : ℕ} (hm : 0 < m) (n : ℕ) :
    (cadence rate sourceFps n).2 = everyMth m n ↔
      ∀ k, 0 < k → k < n → KeepsPace rate sourceFps m k := by
  cases n with
  | zero => simp [cadence, everyMth]
  | succ n =>
    refine Runs.run_range_iff (step_first rate sourceFps m) (fun k gate hgate => ?_) n
    exact step_onCadence hm (Nat.succ_pos k) hgate

end Cadence

end SecureEdge
