import Mathlib.Data.List.Forall2

/-! Raising as an `Except` result: what a step that succeeded says of the steps before it. -/
namespace Python

/-- A `ValueError` with its message. -/
structure ValueError where
  message : String
deriving DecidableEq

section Raise
variable {ε α β : Type}

theorem ok_bind (a : α) (f : α → Except ε β) : (Except.ok a >>= f) = f a := rfl

theorem error_bind (e : ε) (f : α → Except ε β) : (Except.error e >>= f) = .error e := rfl

theorem map_ok (f : α → β) (a : α) : (Except.ok a : Except ε α).map f = .ok (f a) := rfl

theorem bind_eq_ok {x : Except ε α} {f : α → Except ε β} {b : β} :
    (x >>= f) = .ok b ↔ ∃ a, x = .ok a ∧ f a = .ok b := by
  cases x with
  | error e => simp [error_bind]
  | ok a => simp [ok_bind]

theorem bind_eq_error {x : Except ε α} {f : α → Except ε β} {e : ε} :
    (x >>= f) = .error e ↔ x = .error e ∨ ∃ a, x = .ok a ∧ f a = .error e := by
  cases x with
  | error e => simp [error_bind]
  | ok a => simp [ok_bind]

theorem isOk_eq_true {x : Except ε α} : x.isOk = true ↔ ∃ a, x = .ok a := by
  cases x <;> simp [Except.isOk, Except.toBool]

/-- A comprehension none of whose items raises. -/
theorem exists_mapM_ok {f : α → Except ε β} {P : β → Prop} {xs : List α}
    (h : ∀ x ∈ xs, ∃ y, f x = .ok y ∧ P y) : ∃ ys, xs.mapM f = .ok ys ∧ ∀ y ∈ ys, P y := by
  induction xs with
  | nil => exact ⟨[], rfl, nofun⟩
  | cons x xs ih =>
    obtain ⟨y, hy, hPy⟩ := h x List.mem_cons_self
    obtain ⟨ys, hys, hPys⟩ := ih fun x hx => h x (List.mem_cons_of_mem _ hx)
    refine ⟨y :: ys, ?_, ?_⟩
    · rw [List.mapM_cons, hy, hys]
      rfl
    · intro z hz
      rcases List.mem_cons.mp hz with rfl | hz
      · exact hPy
      · exact hPys z hz

/-- A comprehension gives the results of its items, in order. -/
theorem mapM_eq_ok {f : α → Except ε β} {xs : List α} {ys : List β} :
    xs.mapM f = .ok ys ↔ List.Forall₂ (fun x y => f x = .ok y) xs ys := by
  induction xs generalizing ys with
  | nil => cases ys <;> simp [pure, Except.pure]
  | cons x xs ih =>
    rw [List.mapM_cons, bind_eq_ok, List.forall₂_cons_left_iff]
    apply exists_congr
    intro y
    rw [bind_eq_ok]
    constructor
    · rintro ⟨hx, rest, hrest, h⟩
      exact ⟨rest, hx, ih.mp hrest, (Except.ok.inj h).symm⟩
    · rintro ⟨rest, hx, hrest, rfl⟩
      exact ⟨hx, rest, ih.mpr hrest, rfl⟩

/-- Each result of a comprehension is that of one of its items. -/
theorem exists_of_mapM {f : α → Except ε β} {xs : List α} {ys : List β} (h : xs.mapM f = .ok ys)
    {y : β} (hy : y ∈ ys) : ∃ x ∈ xs, f x = .ok y := by
  obtain ⟨i, hi, rfl⟩ := List.getElem_of_mem hy
  have hresults := mapM_eq_ok.mp h
  have hxs : i < xs.length := hresults.length_eq ▸ hi
  exact ⟨xs.get ⟨i, hxs⟩, List.get_mem _ _, hresults.get hxs hi⟩

end Raise

end Python
