import Mathlib.Data.List.Basic
import Mathlib.Data.List.Perm.Basic

/-! Serial runs of a machine that answers every input, with the rules that carry
an invariant, a simulation or the deletion of inputs from one step to a whole run, and lists
of open calls that move on one at a time. -/
namespace Runs

variable {σ τ α β : Type*}

/-- The state after the inputs and the answers given to them, in order. -/
def run (step : σ → α → σ × β) : σ → List α → σ × List β
  | s, [] => (s, [])
  | s, a :: inputs =>
      let head := step s a
      let tail := run step head.1 inputs
      (tail.1, head.2 :: tail.2)

@[simp] theorem run_nil (step : σ → α → σ × β) (s : σ) : run step s [] = (s, []) := rfl

@[simp] theorem run_cons_state (step : σ → α → σ × β) (s : σ) (a : α) (inputs : List α) :
    (run step s (a :: inputs)).1 = (run step (step s a).1 inputs).1 := rfl

@[simp] theorem run_cons_outputs (step : σ → α → σ × β) (s : σ) (a : α) (inputs : List α) :
    (run step s (a :: inputs)).2 = (step s a).2 :: (run step (step s a).1 inputs).2 := rfl

theorem run_append_state (step : σ → α → σ × β) (s : σ) (before after : List α) :
    (run step s (before ++ after)).1 = (run step (run step s before).1 after).1 := by
  induction before generalizing s with
  | nil => rfl
  | cons a before ih => simpa using ih (step s a).1

theorem run_append_outputs (step : σ → α → σ × β) (s : σ) (before after : List α) :
    (run step s (before ++ after)).2 =
      (run step s before).2 ++ (run step (run step s before).1 after).2 := by
  induction before generalizing s with
  | nil => rfl
  | cons a before ih => simpa using ih (step s a).1

theorem run_concat (step : σ → α → σ × β) (s : σ) (before : List α) (a : α) :
    run step s (before ++ [a]) =
      ((step (run step s before).1 a).1,
        (run step s before).2 ++ [(step (run step s before).1 a).2]) :=
  Prod.ext (run_append_state step s before [a]) (run_append_outputs step s before [a])

/-- A machine whose inputs and answers are translated answers as the machine behind it does. -/
theorem run_translated {γ δ : Type*} (step : σ → β → σ × γ) (f : α → β) (g : γ → δ) (s : σ)
    (inputs : List α) :
    (run (fun s a => ((step s (f a)).1, g (step s (f a)).2)) s inputs).2 =
      (run step s (inputs.map f)).2.map g := by
  induction inputs generalizing s with
  | nil => rfl
  | cons a inputs ih =>
    rw [List.map_cons, run_cons_outputs, run_cons_outputs, List.map_cons, ih]

/-- A run answers a sequence as it should exactly when every step after the first does, if a step
that does so leaves the state from which the next one can be judged. -/
theorem run_range_iff {step : σ → α → σ × β} {s : σ} {input : ℕ → α} {wanted : ℕ → β}
    {P : ℕ → σ → Prop} {Q : ℕ → Prop}
    (hfirst : (step s (input 0)).2 = wanted 0 ∧ P 0 (step s (input 0)).1)
    (hstep : ∀ k t, P k t → ((step t (input (k + 1))).2 = wanted (k + 1) ↔ Q (k + 1)) ∧
      (Q (k + 1) → P (k + 1) (step t (input (k + 1))).1)) (n : ℕ) :
    (run step s ((List.range (n + 1)).map input)).2 = (List.range (n + 1)).map wanted ↔
      ∀ k, 0 < k → k < n + 1 → Q k := by
  suffices h : ((run step s ((List.range (n + 1)).map input)).2 = (List.range (n + 1)).map wanted ↔
      ∀ k, 0 < k → k < n + 1 → Q k) ∧
      ((run step s ((List.range (n + 1)).map input)).2 = (List.range (n + 1)).map wanted →
        P n (run step s ((List.range (n + 1)).map input)).1) from h.1
  induction n with
  | zero =>
    have hout : (run step s ((List.range 1).map input)).2 = (List.range 1).map wanted :=
      congrArg (fun b => [b]) hfirst.1
    exact ⟨⟨fun _ k hpos hk => by omega, fun _ => hout⟩, fun _ => hfirst.2⟩
  | succ n ih =>
    obtain ⟨hiff, hstate⟩ := ih
    rw [List.range_succ (n := n + 1), List.map_append, List.map_append, List.map_singleton,
      List.map_singleton, run_concat]
    generalize run step s ((List.range (n + 1)).map input) = before at hiff hstate ⊢
    have hall : (∀ k, 0 < k → k < n + 1 + 1 → Q k) ↔
        (∀ k, 0 < k → k < n + 1 → Q k) ∧ Q (n + 1) := by
      constructor
      · intro h
        exact ⟨fun k hpos hk => h k hpos (Nat.lt_succ_of_lt hk), h (n + 1) (by omega) (by omega)⟩
      · rintro ⟨h, hlast⟩ k hpos hk
        rcases Nat.lt_or_eq_of_le (Nat.le_of_lt_succ hk) with hlt | rfl
        · exact h k hpos hlt
        · exact hlast
    have hsplit : before.2 ++ [(step before.1 (input (n + 1))).2] =
        (List.range (n + 1)).map wanted ++ [wanted (n + 1)] ↔
        before.2 = (List.range (n + 1)).map wanted ∧
          (step before.1 (input (n + 1))).2 = wanted (n + 1) := by
      rw [← List.concat_eq_append, ← List.concat_eq_append, List.concat_inj]
    rw [hsplit, hall, ← hiff]
    constructor
    · exact and_congr_right fun hbefore => (hstep n before.1 (hstate hbefore)).1
    · rintro ⟨hbefore, hlast⟩
      obtain ⟨hdecided, hnext⟩ := hstep n before.1 (hstate hbefore)
      exact hnext (hdecided.mp hlast)

/-- What every step preserves holds at the end of every run. -/
theorem run_invariant {step : σ → α → σ × β} {Inv : σ → Prop}
    (hstep : ∀ s a, Inv s → Inv (step s a).1) {s : σ} (hs : Inv s) (inputs : List α) :
    Inv (run step s inputs).1 := by
  induction inputs generalizing s with
  | nil => exact hs
  | cons a inputs ih => exact ih (hstep s a hs)

/-- A preorder that every step follows relates the ends of every run. -/
theorem run_related {step : σ → α → σ × β} {R : σ → σ → Prop} (hrefl : ∀ s, R s s)
    (htrans : ∀ s t u, R s t → R t u → R s u) (hstep : ∀ s a, R s (step s a).1) (s : σ)
    (inputs : List α) : R s (run step s inputs).1 := by
  induction inputs generalizing s with
  | nil => exact hrefl s
  | cons a inputs ih => exact htrans _ _ _ (hstep s a) (ih (step s a).1)

/-- Two machines that answer alike and stay related answer alike along every run. -/
theorem run_simulation {step : σ → α → σ × β} {spec : τ → α → τ × β} {R : σ → τ → Prop}
    (hstep : ∀ s t a, R s t → (step s a).2 = (spec t a).2 ∧ R (step s a).1 (spec t a).1)
    {s : σ} {t : τ} (h : R s t) (inputs : List α) :
    (run step s inputs).2 = (run spec t inputs).2 ∧
      R (run step s inputs).1 (run spec t inputs).1 := by
  induction inputs generalizing s t with
  | nil => exact ⟨rfl, h⟩
  | cons a inputs ih =>
    obtain ⟨hout, hnext⟩ := hstep s t a h
    obtain ⟨houts, hlast⟩ := ih hnext
    exact ⟨by simp [hout, houts], hlast⟩

/-- The answers given to the inputs that are kept, in order. -/
def keptOutputs (keep : α → Bool) : List α → List β → List β
  | a :: inputs, b :: outputs =>
      if keep a then b :: keptOutputs keep inputs outputs else keptOutputs keep inputs outputs
  | _, _ => []

/-- Deletion rule. The relation speaks about the inputs still to come, so that it can
carry a condition on the whole sequence; a deleted input moves the full run only. -/
theorem run_deletion {step : σ → α → σ × β} {keep : α → Bool} {R : List α → σ → σ → Prop}
    (hkeep : ∀ a rest s t, keep a = true → R (a :: rest) s t →
      (step s a).2 = (step t a).2 ∧ R rest (step s a).1 (step t a).1)
    (hdelete : ∀ a rest s t, keep a = false → R (a :: rest) s t → R rest (step s a).1 t)
    (inputs : List α) {s t : σ} (h : R inputs s t) :
    keptOutputs keep inputs (run step s inputs).2 = (run step t (inputs.filter keep)).2 ∧
      R [] (run step s inputs).1 (run step t (inputs.filter keep)).1 := by
  induction inputs generalizing s t with
  | nil => exact ⟨rfl, h⟩
  | cons a inputs ih =>
    cases ha : keep a with
    | true =>
      obtain ⟨hout, hnext⟩ := hkeep a inputs s t ha h
      obtain ⟨houts, hlast⟩ := ih hnext
      refine ⟨?_, by simpa [List.filter_cons, ha] using hlast⟩
      simp [keptOutputs, ha, hout, houts]
    | false =>
      obtain ⟨houts, hlast⟩ := ih (hdelete a inputs s t ha h)
      refine ⟨?_, by simpa [List.filter_cons, ha] using hlast⟩
      simp [keptOutputs, ha, houts]

/-- A call that moved on takes its own contribution along and no other. -/
theorem filterMap_set_perm (f : α → Option β) {calls : List α} {i : ℕ} {c : α}
    (hi : calls[i]? = some c) (c' : α) :
    ((f c).toList ++ (calls.set i c').filterMap f).Perm
      ((f c').toList ++ calls.filterMap f) := by
  obtain ⟨hlt, rfl⟩ := List.getElem?_eq_some_iff.mp hi
  have hset := (List.set_perm_cons_eraseIdx hlt c').filterMap f
  have hcalls := (List.getElem_cons_eraseIdx_perm hlt).filterMap f
  have hcons : ∀ c : α, (c :: calls.eraseIdx i).filterMap f =
      (f c).toList ++ (calls.eraseIdx i).filterMap f := by
    intro c
    cases h : f c <;> simp [h]
  rw [hcons] at hset hcalls
  exact (hset.append_left _).trans
    ((List.perm_append_comm_assoc _ _ _).trans (hcalls.append_left _))

/-- What the calls keep while they move on. -/
theorem map_set_of_eq (f : α → β) {calls : List α} {i : ℕ} {c c' : α}
    (hi : calls[i]? = some c) (h : f c' = f c) : (calls.set i c').map f = calls.map f := by
  obtain ⟨hlt, rfl⟩ := List.getElem?_eq_some_iff.mp hi
  rw [List.map_set, h, ← List.getElem_map f (h := by simpa using hlt), List.set_getElem_self]

section Guarded
variable {allowed : List α → α → Prop} {log : List α}

/-- Every entry of the log was allowed by what stood before it. -/
def Guarded (allowed : List α → α → Prop) (log : List α) : Prop :=
  ∀ before e after, log = before ++ e :: after → allowed before e

theorem Guarded.nil : Guarded allowed [] := by
  intro before e after hsplit
  cases before <;> cases hsplit

theorem guarded_concat {e : α} :
    Guarded allowed (log ++ [e]) ↔ Guarded allowed log ∧ allowed log e := by
  constructor
  · intro h
    refine ⟨fun before e' after hsplit => ?_, h log e [] rfl⟩
    apply h before e' (after ++ [e])
    rw [hsplit, List.append_assoc, List.cons_append]
  · rintro ⟨h, he⟩ before e' after hsplit
    rcases List.eq_nil_or_concat' after with rfl | ⟨earlier, last, rfl⟩
    · obtain ⟨rfl, hlast⟩ := List.append_inj' hsplit rfl
      rw [List.singleton_inj] at hlast
      exact hlast ▸ he
    · rw [← List.cons_append, ← List.append_assoc] at hsplit
      exact h before e' earlier (List.append_inj_left' hsplit rfl)

theorem Guarded.append {later : List α} (h : Guarded allowed log)
    (h' : Guarded (fun before => allowed (log ++ before)) later) :
    Guarded allowed (log ++ later) := by
  intro before e after hsplit
  rcases List.append_eq_append_iff.mp hsplit with ⟨middle, rfl, hlater⟩ | ⟨middle, hlog, hafter⟩
  · exact h' middle e after hlater
  · cases middle with
    | nil =>
      rw [List.append_nil] at hlog
      have hfirst : allowed (log ++ []) e := h' [] e after hafter.symm
      rwa [List.append_nil, hlog] at hfirst
    | cons first middle =>
      obtain ⟨rfl, -⟩ := List.cons.inj hafter
      exact h before e middle hlog

end Guarded

end Runs
