import Mathlib.Order.Basic
import Mathlib.Order.Defs.LinearOrder
import Mathlib.Order.Lattice
import Mathlib.Order.MinMax

/-! UTC datetimes as the source computes with them: microseconds between
`datetime.min` and `datetime.max`, with arithmetic that overflows outside that range. -/
namespace SecureEdge

def microsPerSecond : ℕ := 1000000

/-- The microseconds from the first instant of year 1 to the last of year 9999. -/
def maxMicros : ℕ := 315537897599999999

/-- An aware `datetime` in UTC, counted from `datetime.min`. -/
structure UtcDatetime where
  micros : ℕ
  micros_le : micros ≤ maxMicros
deriving DecidableEq

namespace UtcDatetime

theorem micros_injective : Function.Injective micros := by
  rintro ⟨a, _⟩ ⟨b, _⟩ h
  simpa using h

instance : LinearOrder UtcDatetime := LinearOrder.lift' micros micros_injective

theorem le_def (a b : UtcDatetime) : a ≤ b ↔ a.micros ≤ b.micros := Iff.rfl
theorem lt_def (a b : UtcDatetime) : a < b ↔ a.micros < b.micros := Iff.rfl

theorem micros_max (a b : UtcDatetime) : (max a b).micros = max a.micros b.micros :=
  Monotone.map_max fun _ _ h => h

/-- `datetime + timedelta(seconds=s)`; `none` is an `OverflowError`. -/
def addSeconds (t : UtcDatetime) (s : ℕ) : Option UtcDatetime :=
  if h : t.micros + microsPerSecond * s ≤ maxMicros then some ⟨_, h⟩ else none

/-- `datetime - timedelta(seconds=s)`; `none` is an `OverflowError`. -/
def subSeconds (t : UtcDatetime) (s : ℕ) : Option UtcDatetime :=
  if microsPerSecond * s ≤ t.micros then
    some ⟨t.micros - microsPerSecond * s, (Nat.sub_le _ _).trans t.micros_le⟩
  else none

theorem addSeconds_eq_some {t u : UtcDatetime} {s : ℕ} :
    t.addSeconds s = some u ↔ u.micros = t.micros + microsPerSecond * s := by
  unfold addSeconds
  split_ifs with h
  · rw [Option.some.injEq]
    exact ⟨fun he => by rw [← he], fun he => micros_injective he.symm⟩
  · refine ⟨fun he => by simp at he, fun he => ?_⟩
    exact absurd (he ▸ u.micros_le) h

theorem subSeconds_eq_some {t u : UtcDatetime} {s : ℕ} :
    t.subSeconds s = some u ↔ u.micros + microsPerSecond * s = t.micros := by
  unfold subSeconds
  split_ifs with h
  · rw [Option.some.injEq]
    constructor
    · intro he
      rw [← he]
      exact Nat.sub_add_cancel h
    · intro he
      apply micros_injective
      simp only
      omega
  · refine ⟨fun he => by simp at he, fun he => ?_⟩
    omega

theorem exists_addSeconds {t : UtcDatetime} {s : ℕ}
    (h : t.micros + microsPerSecond * s ≤ maxMicros) :
    ∃ u, t.addSeconds s = some u ∧ u.micros = t.micros + microsPerSecond * s :=
  ⟨⟨_, h⟩, by simp [addSeconds, h], rfl⟩

theorem exists_subSeconds {t : UtcDatetime} {s : ℕ} (h : microsPerSecond * s ≤ t.micros) :
    ∃ u, t.subSeconds s = some u ∧ u.micros + microsPerSecond * s = t.micros :=
  ⟨⟨t.micros - microsPerSecond * s, (Nat.sub_le _ _).trans t.micros_le⟩,
    by simp [subSeconds, h], Nat.sub_add_cancel h⟩

end UtcDatetime

/-- The tzinfo an aware datetime was built with. Every form has offset zero, which is all
that `_require_utc` asks for. -/
inductive ZeroOffset where
  | utc
  | fixed (name : String)
  | region (key : String)
deriving DecidableEq

/-- A timestamp that passed `_require_utc`: the instant, and how its zone was spelled. -/
structure UtcTimestamp where
  instant : UtcDatetime
  zone : ZeroOffset
deriving DecidableEq

/-- `value.astimezone(UTC)`. -/
def UtcTimestamp.astimezone (t : UtcTimestamp) : UtcTimestamp := ⟨t.instant, .utc⟩

end SecureEdge
