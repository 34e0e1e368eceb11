import Mathlib.Algebra.Order.Field.Basic
import Mathlib.Order.Interval.Set.LinearOrder
import Mathlib.Data.Set.Prod

/-! Axis-parallel boxes over an ordered field: where two of them meet, and how clipping the edges
of one at those of another finds it. -/
namespace Boxes

structure Box (α : Type*) where
  xMin : α
  yMin : α
  xMax : α
  yMax : α
deriving DecidableEq

/-- A value moved into an interval. -/
def clip {α : Type*} [LinearOrder α] (low high x : α) : α := min (max x low) high

section Interval
variable {α : Type*} [LinearOrder α] {a b low high : α}

theorem clip_left (h : max a low < min b high) : clip low high a = max a low :=
  min_eq_left (h.le.trans (min_le_right b high))

theorem clip_right (h : max a low < min b high) : clip low high b = min b high := by
  unfold clip
  rw [max_eq_left ((le_max_right a low).trans (h.le.trans (min_le_left b high)))]

/-- The clipped ends of an interval stay apart when it meets the one that they are clipped to. -/
theorem clip_lt_clip_iff (hlow : low < high) (hab : a < b) :
    clip low high a < clip low high b ↔ max a low < min b high := by
  constructor
  · intro h
    unfold clip at h
    obtain ⟨hmax, hhigh⟩ := lt_min_iff.mp h
    have ha : max a low < high := by
      by_contra hle
      rw [min_eq_right (not_lt.mp hle)] at hhigh
      exact lt_irrefl _ hhigh
    rw [min_eq_left ha.le] at hmax
    have hb : low < b := by
      by_contra hle
      rw [max_eq_right (not_lt.mp hle)] at hmax
      exact absurd hmax (not_lt.mpr (le_max_right a low))
    exact max_lt (lt_min hab ((le_max_left a low).trans_lt ha)) (lt_min hb hlow)
  · intro h
    rw [clip_left h, clip_right h]
    exact h

end Interval

namespace Box

section Order
variable {α : Type*} [LinearOrder α]

def HasArea (b : Box α) : Prop := b.xMin < b.xMax ∧ b.yMin < b.yMax

instance (b : Box α) : Decidable b.HasArea := inferInstanceAs (Decidable (_ ∧ _))

def inter (a b : Box α) : Box α :=
  ⟨max a.xMin b.xMin, max a.yMin b.yMin, min a.xMax b.xMax, min a.yMax b.yMax⟩

/-- The points inside a box. -/
def interior (b : Box α) : Set (α × α) := Set.Ioo b.xMin b.xMax ×ˢ Set.Ioo b.yMin b.yMax

theorem interior_inter (a b : Box α) : (a.inter b).interior = a.interior ∩ b.interior := by
  unfold interior inter
  rw [Set.prod_inter_prod, Set.Ioo_inter_Ioo, Set.Ioo_inter_Ioo]

theorem hasArea_iff [DenselyOrdered α] {b : Box α} : b.HasArea ↔ b.interior.Nonempty := by
  unfold HasArea interior
  rw [Set.prod_nonempty_iff, Set.nonempty_Ioo, Set.nonempty_Ioo]

/-- Every edge moved into the frame. -/
def clip (frame b : Box α) : Box α :=
  ⟨Boxes.clip frame.xMin frame.xMax b.xMin, Boxes.clip frame.yMin frame.yMax b.yMin,
    Boxes.clip frame.xMin frame.xMax b.xMax, Boxes.clip frame.yMin frame.yMax b.yMax⟩

variable {frame b : Box α}

theorem hasArea_clip_iff (hframe : frame.HasArea) (hb : b.HasArea) :
    (clip frame b).HasArea ↔ (b.inter frame).HasArea :=
  and_congr (clip_lt_clip_iff hframe.1 hb.1) (clip_lt_clip_iff hframe.2 hb.2)

/-- Clipping finds the intersection. -/
theorem clip_eq_inter (h : (b.inter frame).HasArea) : clip frame b = b.inter frame := by
  unfold clip inter
  rw [clip_left h.1, clip_left h.2, clip_right h.1, clip_right h.2]

end Order

section Scale
variable {α : Type*} [Field α] [LinearOrder α]

/-- The box from the origin to these extents. -/
def ofExtents (width height : α) : Box α := ⟨0, 0, width, height⟩

def scale (b : Box α) (width height : α) : Box α :=
  ⟨b.xMin / width, b.yMin / height, b.xMax / width, b.yMax / height⟩

/-- Between the unit coordinates, and with area. -/
structure IsNormalized (b : Box α) : Prop where
  xMin_nonneg : 0 ≤ b.xMin
  yMin_nonneg : 0 ≤ b.yMin
  xMax_le_one : b.xMax ≤ 1
  yMax_le_one : b.yMax ≤ 1
  hasArea : b.HasArea

theorem isNormalized_iff {b : Box α} : b.IsNormalized ↔
    0 ≤ b.xMin ∧ 0 ≤ b.yMin ∧ b.xMax ≤ 1 ∧ b.yMax ≤ 1 ∧ b.HasArea :=
  ⟨fun h => ⟨h.1, h.2, h.3, h.4, h.5⟩, fun ⟨h₁, h₂, h₃, h₄, h₅⟩ => ⟨h₁, h₂, h₃, h₄, h₅⟩⟩

instance (b : Box α) : Decidable b.IsNormalized := decidable_of_iff _ isNormalized_iff.symm

variable [IsStrictOrderedRing α] {width height : α}

/-- A box's part in the frame, scaled by the frame, is normalized. -/
theorem isNormalized_scale_inter {b : Box α} (hwidth : 0 < width) (hheight : 0 < height)
    (h : (b.inter (ofExtents width height)).HasArea) :
    ((b.inter (ofExtents width height)).scale width height).IsNormalized where
  xMin_nonneg := div_nonneg (le_max_right _ _) hwidth.le
  yMin_nonneg := div_nonneg (le_max_right _ _) hheight.le
  xMax_le_one := (div_le_one hwidth).mpr (min_le_right _ _)
  yMax_le_one := (div_le_one hheight).mpr (min_le_right _ _)
  hasArea := ⟨div_lt_div_of_pos_right h.1 hwidth, div_lt_div_of_pos_right h.2 hheight⟩

end Scale

end Box

end Boxes
