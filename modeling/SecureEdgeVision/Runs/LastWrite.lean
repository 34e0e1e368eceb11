import Mathlib.Data.List.Perm.Basic
import Mathlib.Order.Lattice

/-! Last-write-wins registers: a write is kept when its key is above the stored one. -/
namespace LastWrite

variable {σ κ : Type*} [LinearOrder κ] (key : σ → κ)

/-- Offer a write to the register. -/
def put (stored write : σ) : σ := if key stored < key write then write else stored

/-- The register after the writes were offered in order. -/
def puts (stored : σ) (writes : List σ) : σ := writes.foldl (put key) stored

/-- The writes that the register kept, in order. -/
def kept (stored : σ) : List σ → List σ
  | [] => []
  | write :: writes =>
    if key stored < key write then write :: kept write writes else kept stored writes

variable {key}

@[simp] theorem puts_nil (stored : σ) : puts key stored [] = stored := rfl

theorem puts_concat (stored write : σ) (writes : List σ) :
    puts key stored (writes ++ [write]) = put key (puts key stored writes) write :=
  List.foldl_concat ..

@[simp] theorem puts_cons (stored write : σ) (writes : List σ) :
    puts key stored (write :: writes) = puts key (put key stored write) writes := rfl

theorem put_of_lt {stored write : σ} (h : key stored < key write) :
    put key stored write = write := if_pos h

theorem put_of_le {stored write : σ} (h : key write ≤ key stored) :
    put key stored write = stored := if_neg (not_lt.mpr h)

theorem key_put (stored write : σ) :
    key (put key stored write) = max (key stored) (key write) := by
  rcases lt_or_ge (key stored) (key write) with h | h
  · rw [put_of_lt h, max_eq_right h.le]
  · rw [put_of_le h, max_eq_left h]

theorem kept_cons_of_lt {stored write : σ} (h : key stored < key write) (writes : List σ) :
    kept key stored (write :: writes) = write :: kept key write writes := if_pos h

theorem kept_cons_of_le {stored write : σ} (h : key write ≤ key stored) (writes : List σ) :
    kept key stored (write :: writes) = kept key stored writes := if_neg (not_lt.mpr h)

theorem kept_concat (stored write : σ) (writes : List σ) :
    kept key stored (writes ++ [write]) = kept key stored writes ++
      if key (puts key stored writes) < key write then [write] else [] := by
  induction writes generalizing stored with
  | nil => rfl
  | cons first writes ih =>
    rw [List.cons_append, puts_cons]
    rcases lt_or_ge (key stored) (key first) with h | h
    · rw [kept_cons_of_lt h, kept_cons_of_lt h, put_of_lt h, ih, List.cons_append]
    · rw [kept_cons_of_le h, kept_cons_of_le h, put_of_le h, ih]

/-- What is kept lies above the register and increases strictly. -/
theorem kept_increasing (stored : σ) (writes : List σ) :
    ((stored :: kept key stored writes).map key).Pairwise (· < ·) := by
  induction writes generalizing stored with
  | nil => exact List.pairwise_singleton _ _
  | cons write writes ih =>
    rcases lt_or_ge (key stored) (key write) with h | h
    · have htail := ih write
      rw [kept_cons_of_lt h, List.map_cons, List.pairwise_cons]
      refine ⟨?_, htail⟩
      rw [List.map_cons, List.pairwise_cons] at htail
      intro k hk
      rcases List.mem_cons.mp hk with rfl | hk
      · exact h
      · exact h.trans (htail.1 k hk)
    · rw [kept_cons_of_le h]
      exact ih stored

/-- The register holds the last write it kept. -/
theorem puts_eq_getLast (stored : σ) (writes : List σ) :
    puts key stored writes = (kept key stored writes).getLast?.getD stored := by
  induction writes generalizing stored with
  | nil => rfl
  | cons write writes ih =>
    rw [puts_cons]
    rcases lt_or_ge (key stored) (key write) with h | h
    · rw [kept_cons_of_lt h, put_of_lt h, ih, List.getLast?_cons, Option.getD_some]
    · rw [kept_cons_of_le h, put_of_le h, ih]

/-- Writes whose keys tell them apart can be offered in either order. -/
theorem put_right_comm {a b : σ} (h : key a = key b → a = b) (stored : σ) :
    put key (put key stored a) b = put key (put key stored b) a := by
  have hle : ∀ {x y : σ}, key x < key y →
      put key (put key stored x) y = put key (put key stored y) x := by
    intro x y hxy
    rcases lt_or_ge (key stored) (key y) with hy | hy
    · have hx : key (put key stored x) < key y :=
        (key_put stored x).trans_lt (max_lt hy hxy)
      rw [put_of_lt hx, put_of_lt hy, put_of_le hxy.le]
    · have hx : key x ≤ key stored := hxy.le.trans hy
      rw [put_of_le hx, put_of_le hy, put_of_le hx]
  rcases lt_trichotomy (key a) (key b) with hab | hab | hab
  · exact hle hab
  · rw [h hab]
  · exact (hle hab).symm

/-- The order in which such writes are offered does not matter. -/
theorem puts_perm {writes writes' : List σ} (hperm : writes.Perm writes')
    (hinj : ∀ a ∈ writes, ∀ b ∈ writes, key a = key b → a = b) (stored : σ) :
    puts key stored writes = puts key stored writes' := by
  apply hperm.foldl_eq'
  intro a ha b hb register
  exact put_right_comm (hinj a ha b hb) register

/-- Writes that are not above the register leave it alone. -/
theorem puts_of_le {stored : σ} {writes : List σ} (h : ∀ write ∈ writes, key write ≤ key stored) :
    puts key stored writes = stored := by
  induction writes with
  | nil => rfl
  | cons write writes ih =>
    rw [puts_cons, put_of_le (h write List.mem_cons_self)]
    exact ih fun later hlater => h later (List.mem_cons_of_mem _ hlater)

/-- Of such writes only the largest counts. -/
theorem puts_eq_put {writes : List σ} {last : σ} (hlast : last ∈ writes)
    (hle : ∀ write ∈ writes, key write ≤ key last)
    (hinj : ∀ a ∈ writes, ∀ b ∈ writes, key a = key b → a = b) (stored : σ) :
    puts key stored writes = put key stored last := by
  obtain ⟨before, after, rfl⟩ := List.append_of_mem hlast
  rw [puts_perm List.perm_middle hinj, puts_cons]
  apply puts_of_le
  intro write hwrite
  have hmem : write ∈ before ++ last :: after :=
    List.perm_middle.mem_iff.mpr (List.mem_cons_of_mem _ hwrite)
  calc key write ≤ key last := hle write hmem
    _ ≤ max (key stored) (key last) := le_max_right _ _
    _ = key (put key stored last) := (key_put stored last).symm

theorem puts_append (stored : σ) (first second : List σ) :
    puts key stored (first ++ second) = puts key (puts key stored first) second :=
  List.foldl_append ..

theorem kept_append (stored : σ) (first second : List σ) :
    kept key stored (first ++ second) =
      kept key stored first ++ kept key (puts key stored first) second := by
  induction first generalizing stored with
  | nil => rfl
  | cons write first ih =>
    rw [List.cons_append, puts_cons]
    rcases lt_or_ge (key stored) (key write) with h | h
    · rw [kept_cons_of_lt h, kept_cons_of_lt h, put_of_lt h, ih, List.cons_append]
    · rw [kept_cons_of_le h, kept_cons_of_le h, put_of_le h, ih]

theorem kept_sublist (stored : σ) (writes : List σ) :
    (kept key stored writes).Sublist writes := by
  induction writes generalizing stored with
  | nil => exact .slnil
  | cons write writes ih =>
    rcases lt_or_ge (key stored) (key write) with h | h
    · rw [kept_cons_of_lt h]
      exact (ih write).cons_cons write
    · rw [kept_cons_of_le h]
      exact (ih stored).cons write

variable (key) in
/-- A register behind a channel that loses offers and confirmations: its writes are some of those
offered, and what was confirmed it kept. -/
def Evolves (stored after : σ) (offered confirmed : List σ) : Prop :=
  ∃ writes : List σ, writes.Sublist offered ∧ confirmed.Sublist (kept key stored writes) ∧
    after = puts key stored writes

namespace Evolves
variable {stored after last : σ} {offered offered' confirmed confirmed' : List σ}

theorem refl (stored : σ) (offered : List σ) : Evolves key stored stored offered [] :=
  ⟨[], List.nil_sublist _, List.nil_sublist _, rfl⟩

theorem of_lt {write : σ} (h : key stored < key write) (hconfirmed : confirmed.Sublist [write]) :
    Evolves key stored write [write] confirmed := by
  refine ⟨[write], List.Sublist.refl _, ?_, (put_of_lt h).symm⟩
  rw [kept_cons_of_lt h]
  exact hconfirmed

theorem trans (h : Evolves key stored after offered confirmed)
    (h' : Evolves key after last offered' confirmed') :
    Evolves key stored last (offered ++ offered') (confirmed ++ confirmed') := by
  obtain ⟨writes, hwrites, hconfirmed, rfl⟩ := h
  obtain ⟨writes', hwrites', hconfirmed', rfl⟩ := h'
  refine ⟨writes ++ writes', hwrites.append hwrites', ?_, (puts_append ..).symm⟩
  rw [kept_append]
  exact hconfirmed.append hconfirmed'

/-- What was confirmed was written, what was written was offered, each write lies above the one
before, and the last one stands. -/
theorem written (h : Evolves key stored after offered confirmed) :
    ∃ written : List σ, confirmed.Sublist written ∧ written.Sublist offered ∧
      ((stored :: written).map key).Pairwise (· < ·) ∧ after = written.getLast?.getD stored := by
  obtain ⟨writes, hwrites, hconfirmed, rfl⟩ := h
  exact ⟨kept key stored writes, hconfirmed, (kept_sublist stored writes).trans hwrites,
    kept_increasing stored writes, puts_eq_getLast stored writes⟩

end Evolves

end LastWrite
