import Mathlib.Data.List.Basic
import Mathlib.Data.List.Induction

/-! Custody of one handle at a time. A log of what is done with handles is followed by an automaton
that knows how many were acquired and which one is held, and what it accepts releases every handle
exactly once. -/
namespace Runs

/-- What is done with a handle. Handles are named in the order in which they are acquired. -/
inductive Handling where
  | acquire (handle : ℕ)
  | use (handle : ℕ)
  | release (handle : ℕ)
deriving DecidableEq

structure Custody where
  acquired : ℕ
  held : Option ℕ
deriving DecidableEq

namespace Custody

/-- A handle is acquired while none is held, and used and released while it is the one held. -/
def step (custody : Custody) : Handling → Option Custody
  | .acquire h =>
    if custody.held = none ∧ h = custody.acquired then some ⟨h + 1, some h⟩ else none
  | .use h => if custody.held = some h then some custody else none
  | .release h => if custody.held = some h then some ⟨custody.acquired, none⟩ else none

def follow (custody : Custody) (log : List Handling) : Option Custody := log.foldlM step custody

theorem follow_append (custody : Custody) (before after : List Handling) :
    custody.follow (before ++ after) = (custody.follow before).bind fun c => c.follow after :=
  List.foldlM_append

theorem follow_concat {custody last : Custody} {log : List Handling} {e : Handling}
    (h : custody.follow (log ++ [e]) = some last) :
    ∃ before, custody.follow log = some before ∧ before.step e = some last := by
  rw [follow_append] at h
  obtain ⟨before, hlog, hstep⟩ := Option.bind_eq_some_iff.mp h
  refine ⟨before, hlog, ?_⟩
  unfold follow at hstep
  rw [List.foldlM_cons] at hstep
  obtain ⟨after, he, hafter⟩ := Option.bind_eq_some_iff.mp hstep
  cases hafter
  exact he

variable {log : List Handling} {custody : Custody}

/-- What has happened to every handle by the end of a log that is accepted. -/
structure Accounts (log : List Handling) (custody : Custody) : Prop where
  acquired : ∀ h, log.count (.acquire h) = if h < custody.acquired then 1 else 0
  released : ∀ h, log.count (.release h) =
    if h < custody.acquired ∧ custody.held ≠ some h then 1 else 0
  held : ∀ h, custody.held = some h → h < custody.acquired

theorem accounts_nil : Accounts [] ⟨0, none⟩ := ⟨by simp, by simp, nofun⟩

theorem Accounts.step {last : Custody} {e : Handling} (h : Accounts log custody)
    (he : custody.step e = some last) : Accounts (log ++ [e]) last := by
  unfold Custody.step at he
  cases e with
  | acquire k =>
    dsimp only at he
    split_ifs at he with hfree
    obtain ⟨hnone, rfl⟩ := hfree
    cases he
    refine ⟨fun k => ?_, fun k => ?_, ?_⟩
    · rw [List.count_append, h.acquired, List.count_singleton]
      simp only [beq_iff_eq, Handling.acquire.injEq]
      split_ifs <;> omega
    · rw [List.count_append, h.released, hnone, List.count_singleton]
      simp only [beq_iff_eq, reduceCtorEq, ↓reduceIte, ne_eq, not_false_eq_true, and_true,
        Option.some.injEq]
      split_ifs <;> omega
    · rintro k ⟨⟩
      exact Nat.lt_succ_self _
  | use k =>
    dsimp only at he
    split_ifs at he with hheld
    cases he
    exact ⟨fun k => by simp [h.acquired], fun k => by simp [h.released], h.held⟩
  | release k =>
    dsimp only at he
    split_ifs at he with hheld
    cases he
    refine ⟨fun k => by simp [h.acquired], fun d => ?_, nofun⟩
    have hk := h.held k hheld
    rw [List.count_append, h.released, hheld, List.count_singleton]
    simp only [beq_iff_eq, Handling.release.injEq, ne_eq, Option.some.injEq, reduceCtorEq,
      not_false_eq_true, and_true]
    split_ifs <;> omega

/-- Every log that is accepted accounts for its handles. -/
theorem accounts_of_follow (h : follow ⟨0, none⟩ log = some custody) : Accounts log custody := by
  induction log using List.reverseRecOn generalizing custody with
  | nil =>
    cases h
    exact accounts_nil
  | append_singleton log e ih =>
    obtain ⟨before, hlog, hstep⟩ := follow_concat h
    exact (ih hlog).step hstep

/-- A handle is acquired only after every earlier one was released. -/
theorem released_before_acquire {before after : List Handling} {k d : ℕ}
    (h : follow ⟨0, none⟩ (before ++ .acquire k :: after) = some custody)
    (hd : .acquire d ∈ before) : before.count (.release d) = 1 := by
  rw [follow_append] at h
  obtain ⟨earlier, hbefore, hrest⟩ := Option.bind_eq_some_iff.mp h
  unfold follow at hrest
  rw [List.foldlM_cons] at hrest
  obtain ⟨later, hstep, -⟩ := Option.bind_eq_some_iff.mp hrest
  unfold step at hstep
  dsimp only at hstep
  split_ifs at hstep with hfree
  have haccounts := accounts_of_follow hbefore
  have hacquired := haccounts.acquired d
  have hpos := List.count_pos_iff.mpr hd
  rw [haccounts.released d, hfree.1, if_pos]
  refine ⟨?_, nofun⟩
  by_contra hlt
  rw [if_neg hlt] at hacquired
  omega

/-- A handle is used only between its acquisition and its release. -/
theorem held_at_use {before after : List Handling} {k : ℕ}
    (h : follow ⟨0, none⟩ (before ++ .use k :: after) = some custody) :
    before.count (.acquire k) = 1 ∧ before.count (.release k) = 0 := by
  rw [follow_append] at h
  obtain ⟨earlier, hbefore, hrest⟩ := Option.bind_eq_some_iff.mp h
  unfold follow at hrest
  rw [List.foldlM_cons] at hrest
  obtain ⟨later, hstep, -⟩ := Option.bind_eq_some_iff.mp hrest
  unfold step at hstep
  dsimp only at hstep
  split_ifs at hstep with hheld
  have haccounts := accounts_of_follow hbefore
  rw [haccounts.acquired k, haccounts.released k, if_pos (haccounts.held k hheld),
    if_neg fun hreleased => hreleased.2 hheld]
  exact ⟨rfl, rfl⟩

end Custody

end Runs
