import Mathlib.Tactic.Linarith
import SecureEdgeVision.Binary64.Rounding

/-! Rounding to nearest, as bounds on the result, and the consequence that it never reverses the
order of two ratios. -/
namespace Binary64

/-- A rounded quotient is off by half at most, and by exactly half only when it is even. -/
theorem roundHalfEven_bounds {n d : ℕ} (hd : 0 < d) :
    2 * (d * roundHalfEven n d) ≤ 2 * n + d ∧ 2 * n ≤ 2 * (d * roundHalfEven n d) + d ∧
    (2 * (d * roundHalfEven n d) = 2 * n + d → roundHalfEven n d % 2 = 0) ∧
    (2 * n = 2 * (d * roundHalfEven n d) + d → roundHalfEven n d % 2 = 0) := by
  have hdiv : d * (n / d) + n % d = n := Nat.div_add_mod n d
  have hmod : n % d < d := Nat.mod_lt n hd
  unfold roundHalfEven
  dsimp only
  split_ifs with hup
  · rw [Nat.mul_add, Nat.mul_one]
    omega
  · omega

theorem roundHalfEven_mono {n d n' d' : ℕ} (hd : 0 < d) (hd' : 0 < d') (h : n * d' ≤ n' * d) :
    roundHalfEven n d ≤ roundHalfEven n' d' := by
  obtain ⟨hupper, -, hupperEven, -⟩ := roundHalfEven_bounds (n := n) hd
  obtain ⟨-, hlower, -, hlowerEven⟩ := roundHalfEven_bounds (n := n') hd'
  generalize roundHalfEven n d = k at *
  generalize roundHalfEven n' d' = k' at *
  by_contra hlt
  obtain ⟨e, rfl⟩ : ∃ e, k = k' + 1 + e := ⟨k - (k' + 1), by omega⟩
  -- Both ratios would lie halfway between two successive results, and both results be even.
  have hwidth : 0 < d * d' := Nat.mul_pos hd hd'
  have hscaled := Nat.mul_le_mul_right d' hupper
  have hscaled' := Nat.mul_le_mul_right d hlower
  have hextra : d * d' * e = 0 := by
    refine Nat.le_zero.mp ?_
    linarith
  obtain rfl : e = 0 := (Nat.mul_eq_zero.mp hextra).resolve_left hwidth.ne'
  have htie : 2 * (d * (k' + 1 + 0)) = 2 * n + d := by
    by_contra hne
    have hstrict := Nat.mul_le_mul_right d' (Nat.lt_of_le_of_ne hupper hne)
    linarith
  have htie' : 2 * n' = 2 * (d' * k') + d' := by
    by_contra hne
    have hstrict := Nat.mul_le_mul_right d (Nat.lt_of_le_of_ne hlower hne)
    linarith
  have heven := hupperEven htie
  have heven' := hlowerEven htie'
  omega

/-- The magnitude of a ratio rounded, whether or not it overflows. -/
def roundedUnits (n d : ℕ) : ℕ := significandOf n d * 2 ^ scaleOf (n / d)

theorem ofUnits_eq_some {negative : Bool} {n d : ℕ} {x : Finite}
    (h : ofUnits negative n d = some x) :
    x.negative = negative ∧ x.magnitude = roundedUnits n d := by
  unfold ofUnits at h
  unfold roundedUnits Finite.magnitude
  dsimp only at h
  split_ifs at h with hcarry hs hs
  · cases h
    refine ⟨rfl, ?_⟩
    rw [hcarry]
    dsimp only
    ring
  · cases h
    exact ⟨rfl, rfl⟩

theorem scaleOf_mono {u v : ℕ} (h : u ≤ v) : scaleOf u ≤ scaleOf v := by
  unfold scaleOf
  rw [Nat.log2_eq_log_two, Nat.log2_eq_log_two]
  exact Nat.sub_le_sub_right (Nat.log_mono_right h) 52

theorem div_le_div_of_ratio {n d n' d' : ℕ} (hd : 0 < d) (hd' : 0 < d') (h : n * d' ≤ n' * d) :
    n / d ≤ n' / d' := by
  rw [Nat.le_div_iff_mul_le hd']
  have hfloor : n / d * d ≤ n := Nat.div_mul_le_self n d
  refine Nat.le_of_mul_le_mul_right ?_ hd
  calc n / d * d' * d = n / d * d * d' := by ring
    _ ≤ n * d' := Nat.mul_le_mul_right d' hfloor
    _ ≤ n' * d := h

/-- A larger ratio is not rounded to a smaller value. -/
theorem roundedUnits_mono {n d n' d' : ℕ} (hd : 0 < d) (hd' : 0 < d') (h : n * d' ≤ n' * d) :
    roundedUnits n d ≤ roundedUnits n' d' := by
  have hscale := scaleOf_mono (div_le_div_of_ratio hd hd' h)
  unfold roundedUnits
  rcases Nat.lt_or_eq_of_le hscale with hlt | heq
  · calc significandOf n d * 2 ^ scaleOf (n / d)
        ≤ 2 ^ 53 * 2 ^ scaleOf (n / d) := Nat.mul_le_mul_right _ (significandOf_le n d)
      _ = 2 ^ 52 * 2 ^ (scaleOf (n / d) + 1) := by ring
      _ ≤ 2 ^ 52 * 2 ^ scaleOf (n' / d') :=
          Nat.mul_le_mul_left _ (Nat.pow_le_pow_right (by decide) hlt)
      _ ≤ significandOf n' d' * 2 ^ scaleOf (n' / d') :=
          Nat.mul_le_mul_right _ (le_significandOf (by omega))
  · rw [heq]
    refine Nat.mul_le_mul_right _ ?_
    unfold significandOf
    rw [heq]
    refine roundHalfEven_mono (by positivity) (by positivity) ?_
    calc n * (d' * 2 ^ scaleOf (n' / d')) = n * d' * 2 ^ scaleOf (n' / d') := by ring
      _ ≤ n' * d * 2 ^ scaleOf (n' / d') := Nat.mul_le_mul_right _ h
      _ = n' * (d * 2 ^ scaleOf (n' / d')) := by ring

/-- From the normal range on, the unit in the last place is small against the ratio. -/
theorem ulp_le {n d : ℕ} (hd : 0 < d) (h : 2 ^ 52 * d ≤ n) :
    2 ^ 52 * (d * 2 ^ scaleOf (n / d)) ≤ n := by
  by_cases hscale : scaleOf (n / d) = 0
  · rw [hscale, Nat.pow_zero, Nat.mul_one]
    exact h
  · have hle := le_div_scaleOf hscale
    rw [Nat.div_div_eq_div_mul, Nat.le_div_iff_mul_le (by positivity)] at hle
    exact hle

/-- A rounded value exceeds the ratio by one part in `2 ^ 53` at most. -/
theorem roundedUnits_le {n d : ℕ} (hd : 0 < d) (h : 2 ^ 52 * d ≤ n) :
    2 ^ 53 * (d * roundedUnits n d) ≤ (2 ^ 53 + 1) * n := by
  have hulp := ulp_le hd h
  obtain ⟨hupper, -, -, -⟩ := roundHalfEven_bounds (n := n) (d := d * 2 ^ scaleOf (n / d))
    (by positivity)
  have hassoc : d * roundedUnits n d =
      d * 2 ^ scaleOf (n / d) * roundHalfEven n (d * 2 ^ scaleOf (n / d)) := by
    unfold roundedUnits significandOf
    ring
  rw [hassoc]
  omega

/-- A rounded value falls short of the ratio by one part in `2 ^ 53` at most. -/
theorem le_roundedUnits {n d : ℕ} (hd : 0 < d) (h : 2 ^ 52 * d ≤ n) :
    (2 ^ 53 - 1) * n ≤ 2 ^ 53 * (d * roundedUnits n d) := by
  have hulp := ulp_le hd h
  obtain ⟨-, hlower, -, -⟩ := roundHalfEven_bounds (n := n) (d := d * 2 ^ scaleOf (n / d))
    (by positivity)
  have hassoc : d * roundedUnits n d =
      d * 2 ^ scaleOf (n / d) * roundHalfEven n (d * 2 ^ scaleOf (n / d)) := by
    unfold roundedUnits significandOf
    ring
  rw [hassoc]
  omega

/-- A number of units that a binary64 value has is not rounded. -/
theorem roundedUnits_exact {x : Finite} {n d : ℕ} (hd : 0 < d) (h : n = x.magnitude * d) :
    roundedUnits n d = x.magnitude :=
  (ofUnits_eq_some (ofUnits_exact hd h)).2.symm

end Binary64
