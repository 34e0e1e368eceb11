import SecureEdgeVision.Worker.OnTime

/-! Where rounding changes nothing, the gate of the worker is the gate over exact rationals: it
decides alike along every timeline whose sums with the interval are exact. -/
namespace SecureEdge

open Binary64 (Finite)

/-- The value of a float in seconds. -/
def seconds (x : Finite) : ℚ := x.units / Binary64.unitsPerOne

theorem seconds_lt_iff {x y : Finite} : seconds x < seconds y ↔ x < y := by
  have hunits : (0 : ℚ) < Binary64.unitsPerOne := Nat.cast_pos.mpr unitsPerOne_pos
  unfold seconds
  rw [div_lt_div_iff_of_pos_right hunits, Int.cast_lt, Finite.lt_def]

theorem seconds_nonneg (t : NonNegativeFloat) : 0 ≤ seconds t.value := by
  have hnonneg := t.nonneg
  have hzero : (Finite.zero).units = 0 := by decide +kernel
  rw [Finite.le_def, hzero] at hnonneg
  exact div_nonneg (Int.cast_nonneg hnonneg) (Nat.cast_nonneg _)

/-- A frame time whose sum with the interval is not rounded. -/
structure ExactTime (interval : Finite) where
  time : NonNegativeFloat
  due : Finite
  sum : time.value.add interval = some due
  exact : seconds due = seconds time.value + seconds interval

namespace ExactTime
variable {interval : Finite}

/-- The worker's gate, shown the time of a frame. -/
def step (gate : SamplingGate) (t : ExactTime interval) :
    SamplingGate × Except WorkerFailure Bool := gate.step (some (.float t.time.value))

/-- The gate over rationals, shown the same time. -/
def stepExact (gate : RationalGate) (t : ExactTime interval) :
    RationalGate × Except WorkerFailure Bool :=
  let answer := gate.accept (seconds t.time.value)
  (answer.1, answer.2.mapError .pipeline)

end ExactTime

/-- The two gates hold the same values. -/
structure SamplingGate.Represents (gate : SamplingGate) (exact : RationalGate) (interval : Finite) :
    Prop where
  interval : gate.intervalSeconds = some interval ∧ exact.intervalSeconds = seconds interval
  lastObserved : exact.lastObserved = gate.lastObserved.map fun last => seconds last.value
  nextAllowed : ∃ due : Option Finite, gate.nextAllowed = due.map some ∧
    exact.nextAllowed = due.map seconds

/-- What the worker's gate does with a time. -/
theorem SamplingGate.step_eq (gate : SamplingGate) (t : NonNegativeFloat) :
    gate.step (some (.float t.value)) =
      if gate.lastObserved.any (fun last => t.value < last.value) then
        (gate, .error (.pipeline ⟨"frame sample timing moved backwards"⟩))
      else if gate.nextAllowed.any (SamplingGate.early t) then
        ({ gate with lastObserved := some t }, .ok false)
      else
        (⟨gate.intervalSeconds, some t, some (gate.intervalSeconds.bind t.value.add)⟩,
          .ok true) := by
  have hcurrent : nonnegativeFinite (.float t.value) "frame sample timing" = .ok t :=
    dif_pos t.nonneg
  have hforward : (gate.lastObserved.all fun last => ¬ t.value < last.value) =
      !gate.lastObserved.any fun last => t.value < last.value := by
    cases gate.lastObserved <;> simp
  unfold SamplingGate.step SamplingGate.accept
  dsimp only
  rw [hcurrent, Python.ok_bind, hforward]
  cases gate.lastObserved.any fun last => decide (t.value < last.value) with
  | true => rfl
  | false =>
    rw [require, if_pos Bool.not_false, Python.ok_bind, if_neg Bool.false_ne_true]
    cases gate.nextAllowed.any (SamplingGate.early t) <;> rfl

section Step
variable {gate : SamplingGate} {exact : RationalGate} {interval : Finite}

theorem SamplingGate.Represents.backwards_eq (h : gate.Represents exact interval)
    (t : NonNegativeFloat) : exact.lastObserved.any (seconds t.value < ·) =
      gate.lastObserved.any fun last => t.value < last.value := by
  rw [h.lastObserved]
  cases gate.lastObserved with
  | none => rfl
  | some last => simp [seconds_lt_iff]

theorem SamplingGate.Represents.early_eq (h : gate.Represents exact interval)
    (t : NonNegativeFloat) : exact.nextAllowed.any (seconds t.value < ·) =
      gate.nextAllowed.any (SamplingGate.early t) := by
  obtain ⟨due, hgate, hexact⟩ := h.nextAllowed
  rw [hgate, hexact]
  cases due with
  | none => rfl
  | some due => simp [SamplingGate.early, seconds_lt_iff]

/-- Gates with the same values decide alike on a time whose sum is exact, and keep the same
values. -/
theorem SamplingGate.Represents.step (h : gate.Represents exact interval) (t : ExactTime interval) :
    (ExactTime.step gate t).2 = (ExactTime.stepExact exact t).2 ∧
      (ExactTime.step gate t).1.Represents (ExactTime.stepExact exact t).1 interval := by
  unfold ExactTime.step ExactTime.stepExact RationalGate.accept
  rw [SamplingGate.step_eq, if_neg (not_lt.mpr (seconds_nonneg t.time)), h.backwards_eq]
  dsimp only
  rw [h.early_eq]
  split_ifs
  · exact ⟨rfl, h⟩
  · exact ⟨rfl, h.interval, rfl, h.nextAllowed⟩
  · refine ⟨rfl, h.interval, rfl, some t.due, ?_, ?_⟩
    · show some (gate.intervalSeconds.bind t.time.value.add) = some (some t.due)
      rw [h.interval.1, Option.bind_some, t.sum]
    · show some (seconds t.time.value + exact.intervalSeconds) = some (seconds t.due)
      rw [h.interval.2, t.exact]

end Step

theorem seconds_pos {x : Finite} (h : Finite.zero < x) : 0 < seconds x := by
  have hzero : (Finite.zero).units = 0 := by decide +kernel
  rw [Finite.lt_def, hzero] at h
  exact div_pos (Int.cast_pos.mpr h) (Nat.cast_pos.mpr unitsPerOne_pos)

/-- A sampling rate as a rational number. -/
def SampleFps.exact (rate : SampleFps) : SampleRate := ⟨seconds rate.value, seconds_pos rate.pos⟩

/-- Along times whose sums are exact, a rate whose interval is exact is sampled as by the gate over
rationals. -/
theorem decisions_eq_exact (rate : SampleFps) {interval : Finite}
    (hinterval : Finite.one.div rate.value = some interval)
    (hexact : seconds interval = 1 / seconds rate.value) (times : List (ExactTime interval)) :
    (Runs.run ExactTime.step (.create rate) times).2 =
      ((RationalGate.create rate.exact).decisions
        (times.map fun t => seconds t.time.value)).map (·.mapError .pipeline) := by
  have hstart : (SamplingGate.create rate).Represents (.create rate.exact) interval := by
    unfold SamplingGate.create RationalGate.create SampleFps.exact
    constructor
    · dsimp only
      rw [hinterval, hexact]
      exact ⟨rfl, rfl⟩
    · rfl
    · exact ⟨none, rfl, rfl⟩
  have hstep (gate : SamplingGate) (exact : RationalGate) (t : ExactTime interval)
      (h : gate.Represents exact interval) := h.step t
  have hsame := (Runs.run_simulation hstep hstart times).1
  rw [hsame]
  exact Runs.run_translated RationalGate.accept _ _ _ times

end SecureEdge
