import SecureEdgeVision.Python.Raise

/-! Computations that record every external call with its outcome and stop at the first one that
fails. -/
namespace Runs

/-- The calls made, in order, and the result. -/
structure Traced (σ ε α : Type) where
  calls : List σ
  result : Except ε α

namespace Traced
variable {σ ε α β : Type} {fails : σ → Bool}

/-- One call and what it returned or raised. -/
def call (step : σ) (result : Except ε α) : Traced σ ε α := ⟨[step], result⟩

instance : Monad (Traced σ ε) where
  pure a := ⟨[], .ok a⟩
  bind x f :=
    match x.result with
    | .error e => ⟨x.calls, .error e⟩
    | .ok a => ⟨x.calls ++ (f a).calls, (f a).result⟩

theorem pure_eq (a : α) : (pure a : Traced σ ε α) = ⟨[], .ok a⟩ := rfl

theorem error_bind (calls : List σ) (e : ε) (f : α → Traced σ ε β) :
    ((⟨calls, .error e⟩ : Traced σ ε α) >>= f) = ⟨calls, .error e⟩ := rfl

theorem ok_bind (calls : List σ) (a : α) (f : α → Traced σ ε β) :
    ((⟨calls, .ok a⟩ : Traced σ ε α) >>= f) = ⟨calls ++ (f a).calls, (f a).result⟩ := rfl

/-- A result has no failed call before it, and an exception is that of the last call. -/
def Stops (fails : σ → Bool) (x : Traced σ ε α) : Prop :=
  match x.result with
  | .ok _ => ∀ s ∈ x.calls, fails s = false
  | .error _ => ∃ before s, x.calls = before ++ [s] ∧ fails s = true ∧
      ∀ t ∈ before, fails t = false

theorem stops_pure (a : α) : (pure a : Traced σ ε α).Stops fails := by
  intro s hs
  exact absurd hs List.not_mem_nil

theorem stops_call {step : σ} {result : Except ε α} (h : fails step = !result.isOk) :
    (call step result).Stops fails := by
  cases result with
  | error e => exact ⟨[], step, rfl, h, nofun⟩
  | ok a =>
    intro s hs
    rw [List.mem_singleton.mp hs]
    exact h

theorem stops_bind {x : Traced σ ε α} {f : α → Traced σ ε β} (hx : x.Stops fails)
    (hf : ∀ a, x.result = .ok a → (f a).Stops fails) : (x >>= f).Stops fails := by
  obtain ⟨calls, result⟩ := x
  cases result with
  | error e => exact hx
  | ok a =>
    have hfa := hf a rfl
    rw [ok_bind]
    unfold Stops at hfa ⊢
    dsimp only
    cases hresult : (f a).result with
    | ok b =>
      rw [hresult] at hfa
      intro s hs
      exact (List.mem_append.mp hs).elim (hx s) (hfa s)
    | error e =>
      rw [hresult] at hfa
      obtain ⟨before, s, hcalls, hs, hbefore⟩ := hfa
      refine ⟨calls ++ before, s, by rw [hcalls, List.append_assoc], hs, ?_⟩
      intro t ht
      exact (List.mem_append.mp ht).elim (hx t) (hbefore t)

theorem stops_call_bind {step : σ} {result : Except ε α} {f : α → Traced σ ε β}
    (h : fails step = !result.isOk) (hf : ∀ a, (f a).Stops fails) :
    (call step result >>= f).Stops fails :=
  stops_bind (stops_call h) fun a _ => hf a

/-- After a failed call nothing is called, and the computation raises. -/
theorem Stops.failed {x : Traced σ ε α} (hx : x.Stops fails) {before after : List σ} {s : σ}
    (hcalls : x.calls = before ++ s :: after) (hs : fails s = true) :
    after = [] ∧ ∃ e, x.result = .error e := by
  unfold Stops at hx
  cases hresult : x.result with
  | ok a =>
    rw [hresult] at hx
    have hok := hx s (by rw [hcalls]; exact List.mem_append_right _ List.mem_cons_self)
    rw [hs] at hok
    exact Bool.noConfusion hok
  | error e =>
    rw [hresult] at hx
    obtain ⟨earlier, last, hlast, -, hearlier⟩ := hx
    refine ⟨?_, e, rfl⟩
    rw [hcalls] at hlast
    rcases List.eq_nil_or_concat' after with rfl | ⟨middle, t, rfl⟩
    · rfl
    · rw [← List.cons_append, ← List.append_assoc] at hlast
      have hmem : s ∈ earlier := by
        rw [← List.append_inj_left' hlast rfl]
        exact List.mem_append_right _ List.mem_cons_self
      rw [hearlier s hmem] at hs
      exact Bool.noConfusion hs

theorem Stops.last {x : Traced σ ε α} (hx : x.Stops fails) {e : ε} (h : x.result = .error e) :
    ∃ before s, x.calls = before ++ [s] ∧ fails s = true := by
  unfold Stops at hx
  rw [h] at hx
  obtain ⟨before, s, hcalls, hs, -⟩ := hx
  exact ⟨before, s, hcalls, hs⟩

end Traced

end Runs
