import Mathlib.Algebra.Order.Ring.Star
import Mathlib.Data.Rat.Floor
import Mathlib.Data.Rat.Star
import SecureEdgeVision.Runs.Greedy
import SecureEdgeVision.Worker.Run

/-! The sampling gate over exact rationals: its accepted frames are the greedy selection along the
timeline, so they are spaced by the interval and no selection so spaced has more of them. -/
namespace SecureEdge

structure SampleRate where
  value : ℚ
  pos : 0 < value

/-- `_SamplingGate` without rounding. -/
structure RationalGate where
  intervalSeconds : ℚ
  lastObserved : Option ℚ
  nextAllowed : Option ℚ
deriving DecidableEq

namespace RationalGate

def create (rate : SampleRate) : RationalGate := ⟨1 / rate.value, none, none⟩

/-- `_SamplingGate.accept`, with the gate after it. -/
def accept (gate : RationalGate) (timestamp : ℚ) :
    RationalGate × Except WorkerPipelineError Bool :=
  if timestamp < 0 then (gate, .error ⟨"frame sample timing is invalid"⟩)
  else if gate.lastObserved.any (timestamp < ·) then
    (gate, .error ⟨"frame sample timing moved backwards"⟩)
  else
    let observed := { gate with lastObserved := some timestamp }
    if observed.nextAllowed.any (timestamp < ·) then (observed, .ok false)
    else ({ observed with nextAllowed := some (timestamp + gate.intervalSeconds) }, .ok true)

/-- The gate after a timeline. -/
def after (gate : RationalGate) (times : List ℚ) : RationalGate := (Runs.run accept gate times).1

/-- The decisions on a timeline, in order. -/
def decisions (gate : RationalGate) (times : List ℚ) : List (Except WorkerPipelineError Bool) :=
  (Runs.run accept gate times).2

def accepted? : ℚ × Except WorkerPipelineError Bool → Option ℚ
  | (t, .ok true) => some t
  | _ => none

/-- The times of the frames accepted. -/
def accepted (gate : RationalGate) (times : List ℚ) : List ℚ :=
  (times.zip (gate.decisions times)).filterMap accepted?

theorem accept_backwards {gate : RationalGate} {last t : ℚ} (hlast : gate.lastObserved = some last)
    (h : t < last) : ∃ e, gate.accept t = (gate, .error e) := by
  unfold accept
  split_ifs with hnegative hback
  · exact ⟨_, rfl⟩
  · exact ⟨_, rfl⟩
  · rw [hlast] at hback
    exact absurd (by simpa using h) hback

/-- On a time that does not go backwards the gate decides by what is allowed next. -/
theorem accept_forward {gate : RationalGate} {t : ℚ} (hnonneg : 0 ≤ t)
    (hlast : ∀ last ∈ gate.lastObserved, last ≤ t) :
    (gate.nextAllowed.any (t < ·) = true →
      gate.accept t = ({ gate with lastObserved := some t }, .ok false)) ∧
    (gate.nextAllowed.any (t < ·) = false →
      gate.accept t =
        (⟨gate.intervalSeconds, some t, some (t + gate.intervalSeconds)⟩, .ok true)) := by
  have hback : ¬ gate.lastObserved.any (t < ·) = true := by
    intro hany
    obtain ⟨last, hmem, hlt⟩ := (Option.any_eq_true _ _).mp hany
    exact absurd (hlast last hmem) (not_le.mpr (of_decide_eq_true hlt))
  unfold accept
  rw [if_neg (not_lt.mpr hnonneg), if_neg hback]
  constructor
  · intro hearly
    exact if_pos hearly
  · intro hallowed
    exact if_neg (by rw [hallowed]; exact Bool.false_ne_true)

theorem run_cons_of_skipped {gate next : RationalGate} {t : ℚ}
    (h : gate.accept t = (next, .ok false)) (times : List ℚ) :
    gate.accepted (t :: times) = next.accepted times ∧
      gate.after (t :: times) = next.after times ∧
      gate.decisions (t :: times) = .ok false :: next.decisions times := by
  simp only [accepted, after, decisions, Runs.run_cons_state, Runs.run_cons_outputs, h,
    List.zip_cons_cons]
  exact ⟨rfl, trivial, trivial⟩

theorem run_cons_of_taken {gate next : RationalGate} {t : ℚ}
    (h : gate.accept t = (next, .ok true)) (times : List ℚ) :
    gate.accepted (t :: times) = t :: next.accepted times ∧
      gate.after (t :: times) = next.after times ∧
      gate.decisions (t :: times) = .ok true :: next.decisions times := by
  simp only [accepted, after, decisions, Runs.run_cons_state, Runs.run_cons_outputs, h,
    List.zip_cons_cons]
  exact ⟨rfl, trivial, trivial⟩

/-- Along a timeline the gate selects greedily, and remembers the last time observed and the time
allowed next. -/
theorem run_accept {times : List ℚ} (gate : RationalGate) (hnonneg : ∀ t ∈ times, 0 ≤ t)
    (hsorted : times.Pairwise (· ≤ ·))
    (hlast : ∀ last ∈ gate.lastObserved, ∀ t ∈ times, last ≤ t) :
    gate.accepted times = Runs.greedy (· + gate.intervalSeconds) gate.nextAllowed times ∧
    gate.after times = ⟨gate.intervalSeconds, times.getLast?.or gate.lastObserved,
      Runs.allowedAfter (· + gate.intervalSeconds) gate.nextAllowed times⟩ ∧
    ∀ decision ∈ gate.decisions times, ∃ b, decision = .ok b := by
  induction times generalizing gate with
  | nil => exact ⟨rfl, rfl, nofun⟩
  | cons t times ih =>
    obtain ⟨ht, htimes⟩ := List.pairwise_cons.mp hsorted
    have hrest : ∀ s ∈ times, 0 ≤ s := fun s hs => hnonneg s (List.mem_cons_of_mem t hs)
    obtain ⟨hearly, hallowed⟩ := accept_forward (hnonneg t List.mem_cons_self)
      (fun last hmem => hlast last hmem t List.mem_cons_self)
    have hlater : ∀ last ∈ some t, ∀ s ∈ times, last ≤ s := by
      rintro _ ⟨⟩
      exact ht
    have hgetLast : (t :: times).getLast?.or gate.lastObserved = times.getLast?.or (some t) := by
      rw [List.getLast?_cons]
      cases times.getLast? <;> rfl
    rw [hgetLast]
    cases hany : gate.nextAllowed.any (t < ·) with
    | true =>
      obtain ⟨haccepted, hafter, hdecisions⟩ := run_cons_of_skipped (hearly hany) times
      obtain ⟨ihaccepted, ihafter, ihdecisions⟩ :=
        ih { gate with lastObserved := some t } hrest htimes hlater
      rw [haccepted, hafter, hdecisions, Runs.greedy_cons_of_early hany,
        Runs.allowedAfter_cons_of_early hany]
      refine ⟨ihaccepted, ihafter, ?_⟩
      intro decision hdecision
      rcases List.mem_cons.mp hdecision with rfl | hdecision
      · exact ⟨false, rfl⟩
      · exact ihdecisions decision hdecision
    | false =>
      obtain ⟨haccepted, hafter, hdecisions⟩ := run_cons_of_taken (hallowed hany) times
      obtain ⟨ihaccepted, ihafter, ihdecisions⟩ :=
        ih ⟨gate.intervalSeconds, some t, some (t + gate.intervalSeconds)⟩ hrest htimes hlater
      rw [haccepted, hafter, hdecisions, Runs.greedy_cons_of_allowed hany,
        Runs.allowedAfter_cons_of_allowed hany]
      refine ⟨congrArg (t :: ·) ihaccepted, ihafter, ?_⟩
      intro decision hdecision
      rcases List.mem_cons.mp hdecision with rfl | hdecision
      · exact ⟨true, rfl⟩
      · exact ihdecisions decision hdecision

/-- Spacing by the interval, as a distance. -/
theorem spaced_iff {gap : ℚ} {times : List ℚ} :
    Runs.Spaced (· + gap) times ↔ times.Pairwise (fun s t => gap ≤ t - s) :=
  ⟨fun h => h.imp le_sub_iff_add_le'.mpr, fun h => h.imp le_sub_iff_add_le'.mp⟩

/-- A rejected frame comes before the last accepted one allows the next. -/
theorem rejected_soon (rate : SampleRate) {before : List ℚ} {t : ℚ} (hnonneg : ∀ s ∈ before, 0 ≤ s)
    (hsorted : before.Pairwise (· ≤ ·)) (ht : 0 ≤ t) (hbefore : ∀ s ∈ before, s ≤ t)
    (h : (((create rate).after before).accept t).2 = .ok false) :
    ∃ s, ((create rate).accepted before).getLast? = some s ∧ t - s < 1 / rate.value := by
  obtain ⟨haccepted, hafter, -⟩ := run_accept (create rate) hnonneg hsorted nofun
  have hlast : ∀ last ∈ ((create rate).after before).lastObserved, last ≤ t := by
    intro last hlast
    rw [hafter] at hlast
    have hmem : before.getLast?.or none = some last := hlast
    rw [Option.or_none] at hmem
    exact hbefore last (List.mem_of_getLast? hmem)
  obtain ⟨-, hallowed⟩ := accept_forward ht hlast
  cases hany : ((create rate).after before).nextAllowed.any (t < ·) with
  | false =>
    rw [hallowed hany] at h
    cases h
  | true =>
    rw [hafter] at hany
    obtain ⟨a, ha, hlt⟩ := (Option.any_eq_true _ _).mp hany
    rw [haccepted]
    unfold Runs.allowedAfter at ha
    split at ha
    · cases ha
    · next s hs =>
      cases ha
      refine ⟨s, hs, ?_⟩
      have hearly : t < s + 1 / rate.value := of_decide_eq_true hlt
      linarith

/-- The gate on a timeline of nonnegative times that never go backwards. Its accepted frames are at
least the interval apart, a rejected frame comes within the interval of the last accepted one, a
closed interval holds at most the number of frames that its length allows, and no selection with
that spacing is larger. A time before the last observed one raises and leaves the gate as it is. -/
theorem sampling_bounded_and_optimal (rate : SampleRate) (times : List ℚ)
    (hnonneg : ∀ t ∈ times, 0 ≤ t) (hsorted : times.Pairwise (· ≤ ·)) :
    let gate := RationalGate.create rate
    let accepted := gate.accepted times
    (∀ decision ∈ gate.decisions times, ∃ b, decision = .ok b) ∧
    accepted.Sublist times ∧
    accepted.Pairwise (fun s t => 1 / rate.value ≤ t - s) ∧
    (∀ before t later, times = before ++ t :: later →
      ((gate.after before).accept t).2 = .ok false →
        ∃ s, (gate.accepted before).getLast? = some s ∧ t - s < 1 / rate.value) ∧
    (∀ a length, 0 ≤ length →
      ((accepted.filter fun t => a ≤ t ∧ t ≤ a + length).length : ℤ) ≤
        ⌊length * rate.value⌋ + 1) ∧
    (∀ selection : List ℚ, selection.Sublist times →
      selection.Pairwise (fun s t => 1 / rate.value ≤ t - s) →
        selection.length ≤ accepted.length) ∧
    ∀ last ∈ times.getLast?, ∀ t < last,
      ∃ e, (gate.after times).accept t = (gate.after times, .error e) := by
  intro gate accepted
  obtain ⟨haccepted, hafter, hdecisions⟩ := run_accept gate hnonneg hsorted nofun
  have hgap : 0 < 1 / rate.value := one_div_pos.mpr rate.pos
  have hspaced : Runs.Spaced (· + 1 / rate.value) accepted := by
    show Runs.Spaced _ (gate.accepted times)
    rw [haccepted]
    exact Runs.greedy_spaced hsorted
  refine ⟨hdecisions, ?_, spaced_iff.mp hspaced, ?_, ?_, ?_, ?_⟩
  · show (gate.accepted times).Sublist times
    rw [haccepted]
    exact Runs.greedy_sublist
  · rintro before t later rfl hrejected
    obtain ⟨hbefore, -, hcross⟩ := List.pairwise_append.mp hsorted
    exact rejected_soon rate (fun s hs => hnonneg s (List.mem_append_left _ hs)) hbefore
      (hnonneg t (List.mem_append_right _ List.mem_cons_self))
      (fun s hs => hcross s hs t List.mem_cons_self) hrejected
  · intro a length hlength
    have hwithin := Runs.Spaced.length_le
      (List.Pairwise.filter (fun t => decide (a ≤ t ∧ t ≤ a + length)) hspaced) hgap hlength
      (fun t ht => by simpa using (List.mem_filter.mp ht).2)
    rwa [one_div, div_inv_eq_mul] at hwithin
  · intro selection hsub hselection
    show selection.length ≤ (gate.accepted times).length
    rw [haccepted]
    refine Runs.length_le_greedy ?_ hsorted hsub (spaced_iff.mpr hselection) nofun
    exact fun s t hst => add_le_add_left hst _
  · intro last hlast t ht
    rw [hafter]
    have hobserved : times.getLast?.or none = some last := by
      rw [Option.or_none]
      exact hlast
    exact accept_backwards hobserved ht

theorem sampling_bounded_and_optimal_two_fps :
    (create ⟨2, by norm_num⟩).accepted [0, 1 / 4, 1 / 2, 1 / 2, 3 / 4, 5 / 4] = [0, 1 / 2, 5 / 4] ∧
    ∀ selection : List ℚ, selection.Sublist [0, 1 / 4, 1 / 2, 1 / 2, 3 / 4, 5 / 4] →
      selection.Pairwise (fun s t => 1 / (2 : ℚ) ≤ t - s) → selection.length ≤ 3 := by
  have haccepted : (create ⟨2, by norm_num⟩).accepted [0, 1 / 4, 1 / 2, 1 / 2, 3 / 4, 5 / 4] =
      [0, 1 / 2, 5 / 4] := by decide +kernel
  have hlargest := (sampling_bounded_and_optimal ⟨2, by norm_num⟩
    [0, 1 / 4, 1 / 2, 1 / 2, 3 / 4, 5 / 4] (by decide +kernel) (by decide +kernel)).2.2.2.2.2.1
  rw [haccepted] at hlargest
  exact ⟨haccepted, hlargest⟩

end RationalGate

end SecureEdge
