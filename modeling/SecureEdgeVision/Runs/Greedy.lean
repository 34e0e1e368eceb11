import Mathlib.Algebra.Order.Floor.Ring
import Mathlib.Data.List.Pairwise
import Mathlib.Tactic.Linarith

/-! Greedy selection along a timeline: an instant is taken unless it comes before the one that the
last taken instant allows next. -/
namespace Runs

section Selection
variable {K : Type} [LinearOrder K] (next : K → K)

/-- The instants taken, when none before `allowed` may be. -/
def greedy (allowed : Option K) : List K → List K
  | [] => []
  | t :: ts =>
    if allowed.any (t < ·) then greedy allowed ts else t :: greedy (some (next t)) ts

/-- Every later instant is one that the earlier ones allow. -/
def Spaced (ts : List K) : Prop := ts.Pairwise (fun s t => next s ≤ t)

/-- What is allowed next after a timeline. -/
def allowedAfter (allowed : Option K) (ts : List K) : Option K :=
  match (greedy next allowed ts).getLast? with
  | none => allowed
  | some s => some (next s)

variable {next} {allowed : Option K} {ts : List K}

theorem greedy_cons_of_early {t : K} (h : allowed.any (t < ·) = true) (ts : List K) :
    greedy next allowed (t :: ts) = greedy next allowed ts := if_pos h

theorem greedy_cons_of_allowed {t : K} (h : allowed.any (t < ·) = false) (ts : List K) :
    greedy next allowed (t :: ts) = t :: greedy next (some (next t)) ts :=
  if_neg (Bool.not_eq_true _ ▸ h)

theorem greedy_sublist : (greedy next allowed ts).Sublist ts := by
  induction ts generalizing allowed with
  | nil => exact List.Sublist.slnil
  | cons t ts ih =>
    cases h : allowed.any (t < ·) with
    | true =>
      rw [greedy_cons_of_early h]
      exact ih.cons t
    | false =>
      rw [greedy_cons_of_allowed h]
      exact ih.cons_cons t

/-- Nothing is taken before it is allowed. -/
theorem le_of_mem_greedy {a t : K} (hsorted : ts.Pairwise (· ≤ ·))
    (ht : t ∈ greedy next (some a) ts) : a ≤ t := by
  induction ts with
  | nil => cases ht
  | cons s ts ih =>
    obtain ⟨hs, hts⟩ := List.pairwise_cons.mp hsorted
    by_cases hearly : s < a
    · rw [greedy_cons_of_early (by simpa using hearly)] at ht
      exact ih hts ht
    · have hmem := greedy_sublist.subset ht
      rcases List.mem_cons.mp hmem with rfl | hmem
      · exact not_lt.mp hearly
      · exact (not_lt.mp hearly).trans (hs t hmem)

theorem greedy_spaced (hsorted : ts.Pairwise (· ≤ ·)) : Spaced next (greedy next allowed ts) := by
  induction ts generalizing allowed with
  | nil => exact List.Pairwise.nil
  | cons t ts ih =>
    have hts := hsorted.tail
    cases h : allowed.any (t < ·) with
    | true =>
      rw [greedy_cons_of_early h]
      exact ih hts
    | false =>
      rw [greedy_cons_of_allowed h]
      exact List.pairwise_cons.mpr ⟨fun s hs => le_of_mem_greedy hts hs, ih hts⟩

/-- Taking an instant as soon as it is allowed loses nothing: whatever else is selected, its first
instant can be exchanged for the one taken here. -/
theorem length_le_greedy (hmono : Monotone next) (hsorted : ts.Pairwise (· ≤ ·)) {ys : List K}
    (hsub : ys.Sublist ts) (hspaced : Spaced next ys) (hallowed : ∀ a ∈ allowed, ∀ y ∈ ys, a ≤ y) :
    ys.length ≤ (greedy next allowed ts).length := by
  induction ts generalizing allowed ys with
  | nil =>
    rw [List.sublist_nil.mp hsub]
    exact Nat.zero_le _
  | cons t ts ih =>
    obtain ⟨ht, hts⟩ := List.pairwise_cons.mp hsorted
    cases h : allowed.any (t < ·) with
    | true =>
      rw [greedy_cons_of_early h]
      obtain ⟨a, ha, hlt⟩ := (Option.any_eq_true _ _).mp h
      refine ih hts ?_ hspaced hallowed
      cases hsub with
      | cons _ hsub => exact hsub
      | cons_cons _ hsub =>
        exact absurd (hallowed a ha t List.mem_cons_self) (not_le.mpr (of_decide_eq_true hlt))
    | false =>
      rw [greedy_cons_of_allowed h, List.length_cons]
      cases ys with
      | nil => exact Nat.zero_le _
      | cons y ys =>
        obtain ⟨hy, hys⟩ := List.pairwise_cons.mp hspaced
        have htail : ys.Sublist ts ∧ t ≤ y := by
          cases hsub with
          | cons _ hsub =>
            exact ⟨(List.sublist_cons_self y ys).trans hsub, ht y (hsub.subset List.mem_cons_self)⟩
          | cons_cons _ hsub => exact ⟨hsub, le_rfl⟩
        refine Nat.succ_le_succ (ih hts htail.1 hys ?_)
        rintro a ⟨⟩ z hz
        exact (hmono htail.2).trans (hy z hz)

theorem allowedAfter_cons_of_early {t : K} (h : allowed.any (t < ·) = true) (ts : List K) :
    allowedAfter next allowed (t :: ts) = allowedAfter next allowed ts := by
  unfold allowedAfter
  rw [greedy_cons_of_early h]

theorem allowedAfter_cons_of_allowed {t : K} (h : allowed.any (t < ·) = false) (ts : List K) :
    allowedAfter next allowed (t :: ts) = allowedAfter next (some (next t)) ts := by
  unfold allowedAfter
  rw [greedy_cons_of_allowed h, List.getLast?_cons]
  cases (greedy next (some (next t)) ts).getLast? <;> rfl

end Selection

section Interval
variable {K : Type} [Field K] [LinearOrder K] [IsStrictOrderedRing K] {gap : K} {ts : List K}

/-- The last of a spaced timeline is its length less one gaps after the first. -/
theorem Spaced.span {s : K} (h : Spaced (· + gap) (s :: ts)) :
    ∃ t ∈ s :: ts, s + ts.length * gap ≤ t := by
  induction ts generalizing s with
  | nil => exact ⟨s, List.mem_cons_self, by simp⟩
  | cons u ts ih =>
    obtain ⟨hs, hrest⟩ := List.pairwise_cons.mp h
    obtain ⟨t, ht, hle⟩ := ih hrest
    refine ⟨t, List.mem_cons_of_mem s ht, ?_⟩
    have hu := hs u List.mem_cons_self
    rw [List.length_cons, Nat.cast_succ, add_mul, one_mul]
    linarith

/-- A closed interval holds no more spaced instants than whole gaps, and one. -/
theorem Spaced.length_le [FloorRing K] (h : Spaced (· + gap) ts) (hgap : 0 < gap) {a length : K}
    (hlength : 0 ≤ length) (hts : ∀ t ∈ ts, a ≤ t ∧ t ≤ a + length) :
    (ts.length : ℤ) ≤ ⌊length / gap⌋ + 1 := by
  cases ts with
  | nil =>
    have hfloor : 0 ≤ ⌊length / gap⌋ := Int.floor_nonneg.mpr (div_nonneg hlength hgap.le)
    simpa using hfloor.trans (by omega)
  | cons s ts =>
    obtain ⟨t, ht, hle⟩ := h.span
    have hs := (hts s List.mem_cons_self).1
    have hlast := (hts t ht).2
    have hgaps : (ts.length : K) ≤ length / gap := by
      rw [le_div_iff₀ hgap]
      linarith
    have hfloor : (ts.length : ℤ) ≤ ⌊length / gap⌋ := Int.le_floor.mpr (by exact_mod_cast hgaps)
    rw [List.length_cons]
    push_cast
    omega

end Interval

end Runs
