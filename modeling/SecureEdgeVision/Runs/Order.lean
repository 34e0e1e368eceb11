import Mathlib.Data.List.Basic
import Mathlib.Data.List.Perm.Basic

/-! The order in which the steps of a run decide things, each at most once, and what is still to
be written for them. Whatever an earlier part of the run decided comes before whatever it left
open. -/
namespace Runs

variable {σ α ι : Type*} (step : σ → α → σ) (decides : σ → α → Option ι)

/-- What the steps decide, in order. -/
def decisions : σ → List α → List ι
  | _, [] => []
  | s, a :: actions => (decides s a).toList ++ decisions (step s a) actions

@[simp] theorem decisions_nil (s : σ) : decisions step decides s [] = [] := rfl

@[simp] theorem decisions_cons (s : σ) (a : α) (actions : List α) :
    decisions step decides s (a :: actions) =
      (decides s a).toList ++ decisions step decides (step s a) actions := rfl

theorem decisions_append (s : σ) (before after : List α) :
    decisions step decides s (before ++ after) = decisions step decides s before ++
      decisions step decides (before.foldl step s) after := by
  induction before generalizing s with
  | nil => rfl
  | cons a before ih => simp [ih]

theorem decisions_concat (s : σ) (before : List α) (a : α) :
    decisions step decides s (before ++ [a]) =
      decisions step decides s before ++ (decides (before.foldl step s) a).toList := by
  simp [decisions_append]

/-- What is decided stays so, and each step decides what it says and nothing else. -/
structure Deciding (decided : σ → ι → Prop) : Prop where
  next : ∀ s a i, decided (step s a) i ↔ decided s i ∨ decides s a = some i
  once : ∀ s a i, decides s a = some i → ¬ decided s i

variable {step decides} {decided : σ → ι → Prop} {s : σ}

theorem Deciding.mem_or (h : Deciding step decides decided) (s : σ) (actions : List α) (i : ι) :
    decided (actions.foldl step s) i ↔ decided s i ∨ i ∈ decisions step decides s actions := by
  induction actions generalizing s with
  | nil => simp
  | cons a actions ih =>
    have hmem : i ∈ (decides s a).toList ↔ decides s a = some i := by simp
    simp [ih, h.next, hmem, or_assoc]

/-- A run that starts with everything open decides exactly what its order lists. -/
theorem Deciding.mem (h : Deciding step decides decided) (hopen : ∀ i, ¬ decided s i)
    (actions : List α) (i : ι) :
    i ∈ decisions step decides s actions ↔ decided (actions.foldl step s) i := by
  simp [h.mem_or, hopen]

theorem Deciding.not_mem (h : Deciding step decides decided) {i : ι} (hdecided : decided s i)
    (actions : List α) : i ∉ decisions step decides s actions := by
  induction actions generalizing s with
  | nil => simp
  | cons a actions ih =>
    have hrest := ih ((h.next s a i).mpr (Or.inl hdecided))
    have hhead : decides s a ≠ some i := fun ha => h.once s a i ha hdecided
    simp [hrest, hhead]

theorem Deciding.nodup (h : Deciding step decides decided) (s : σ) (actions : List α) :
    (decisions step decides s actions).Nodup := by
  induction actions generalizing s with
  | nil => simp
  | cons a actions ih =>
    cases hdecides : decides s a with
    | none => simpa [hdecides] using ih (step s a)
    | some i =>
      have hdecided : decided (step s a) i := (h.next s a i).mpr (Or.inr hdecides)
      simpa [hdecides] using ⟨h.not_mem hdecided actions, ih (step s a)⟩

/-- The order respects the run: what was decided at some point comes before what was open. -/
theorem Deciding.lt [DecidableEq ι] (h : Deciding step decides decided)
    (hopen : ∀ i, ¬ decided s i) (before after : List α) {i j : ι}
    (hi : decided (before.foldl step s) i) (hj : ¬ decided (before.foldl step s) j) :
    (decisions step decides s (before ++ after)).idxOf i <
      (decisions step decides s (before ++ after)).idxOf j := by
  have hmem : i ∈ decisions step decides s before := (h.mem hopen before i).mpr hi
  have hnot : j ∉ decisions step decides s before := fun hmem => hj ((h.mem hopen before j).mp hmem)
  rw [decisions_append, List.idxOf_append_of_mem hmem, List.idxOf_append_of_notMem hnot]
  have hlt := List.idxOf_lt_length_of_mem hmem
  omega

section Deferred
variable {β : Type*} (part : α → List β)

/-- What is written, with what is still pending, is what was there and what was decided. -/
def Deferred (origin written : List β) (pending log : List α) : Prop :=
  (written ++ pending.flatMap part).Perm (origin ++ log.flatMap part)

variable {part} {origin written : List β} {pending pending' log : List α} {a : α}

theorem Deferred.congr (h : Deferred part origin written pending log)
    (hpending : pending'.Perm pending) : Deferred part origin written pending' log :=
  ((hpending.flatMap_right part).append_left written).trans h

/-- A decision is pending until it is written. -/
theorem Deferred.decide (h : Deferred part origin written pending log) (a : α) :
    Deferred part origin written (a :: pending) (log ++ [a]) := by
  have hcomm : (written ++ (part a ++ pending.flatMap part)).Perm
      (part a ++ (written ++ pending.flatMap part)) := List.perm_append_comm_assoc _ _ _
  have hlog : (part a ++ (origin ++ log.flatMap part)).Perm
      (origin ++ log.flatMap part ++ part a) := List.perm_append_comm
  simpa [Deferred] using hcomm.trans ((h.append_left (part a)).trans hlog)

/-- Where there is nothing to write, nothing is pending. -/
theorem Deferred.decide_nothing (h : Deferred part origin written pending log)
    (ha : part a = []) : Deferred part origin written pending (log ++ [a]) := by
  simpa [Deferred, ha] using h

theorem Deferred.write (h : Deferred part origin written (a :: pending) log) :
    Deferred part origin (written ++ part a) pending log := by
  simpa [Deferred] using h

/-- Once nothing is pending, everything decided is written, in some order. -/
theorem Deferred.done (h : Deferred part origin written [] log) :
    written.Perm (origin ++ log.flatMap part) := by
  simpa [Deferred] using h

end Deferred

end Runs
