import SecureEdgeVision.Sql.Readings
import Mathlib.Data.List.Perm.Subperm

/-! Conditions of one shape: alike but for their literals and for the words of their null tests. -/
namespace Sql

/-- The term with its null test in two words. -/
def Term.separated : Term → Term
  | isNull column _ => isNull column false
  | compareText column comparison value => compareText column comparison value
  | compareInteger column comparison digits => compareInteger column comparison digits
  | isIn column first rest => isIn column first rest

def Check.separated (check : Check) : Check where
  head := check.head.separated
  tail := check.tail.map fun x => (x.1, x.2.separated)

namespace Check

end Check

section Squeezed
variable {fold : Char → List Char} {space : Char → Bool}

theorem Term.literals_squeezed (term : Term) :
    (term.squeezed fold space).literals = term.literals.map (squeeze fold space) := by
  cases term <;> rfl

theorem Term.eq_of_squeezed {a b : Term} (h : a.squeezed fold space = b.squeezed fold space)
    (hliterals : a.literals = b.literals) : a = b := by
  cases a with
  | compareText column comparison value =>
    cases b with
    | compareText column' comparison' value' =>
      obtain ⟨rfl, rfl, -⟩ := Term.compareText.inj h
      rw [(List.cons.inj hliterals).1]
    | _ => cases h
  | compareInteger column comparison digits =>
    cases b with
    | compareInteger => exact h
    | _ => cases h
  | isNull column joined =>
    cases b with
    | isNull => exact h
    | _ => cases h
  | isIn column first rest =>
    cases b with
    | isIn column' first' rest' =>
      obtain ⟨rfl, -, -⟩ := Term.isIn.inj h
      obtain ⟨rfl, rfl⟩ := List.cons.inj hliterals
      rfl
    | _ => cases h

theorem Term.squeezed_eq_self {term : Term}
    (h : ∀ value ∈ term.literals, squeeze fold space value = value) :
    term.squeezed fold space = term := by
  cases term with
  | compareText column comparison value =>
    rw [squeezed, h value List.mem_cons_self]
  | compareInteger => rfl
  | isNull => rfl
  | isIn column first rest =>
    have hrest : rest.map (squeeze fold space) = rest.map id :=
      List.map_congr_left fun value hvalue => h value (List.mem_cons_of_mem _ hvalue)
    rw [squeezed, h first List.mem_cons_self, hrest, List.map_id]

theorem Term.append_literals_inj {a b : Term} (h : a.squeezed fold space = b.squeezed fold space)
    {as bs : List (List Char)} (hliterals : a.literals ++ as = b.literals ++ bs) :
    a = b ∧ as = bs := by
  have hlength : a.literals.length = b.literals.length := by
    have hmap := congrArg (fun term => term.literals.length) h
    simpa only [literals_squeezed, List.length_map] using hmap
  obtain ⟨hfirst, hrest⟩ := List.append_inj hliterals hlength
  exact ⟨eq_of_squeezed h hfirst, hrest⟩

theorem Term.WellFormed.squeezed {columns : Columns} {term : Term} (h : term.WellFormed columns) :
    (term.squeezed fold space).WellFormed columns := by
  cases term <;> exact h

namespace Check

theorem WellFormed.squeezed {columns : Columns} {check : Check} (h : check.WellFormed columns) :
    (check.squeezed fold space).WellFormed columns := by
  intro term hterm
  rcases List.mem_cons.mp hterm with rfl | htail
  · exact Term.WellFormed.squeezed (h _ List.mem_cons_self)
  · obtain ⟨x, hx, rfl⟩ := List.mem_map.mp htail
    obtain ⟨y, hy, rfl⟩ := List.mem_map.mp hx
    exact Term.WellFormed.squeezed (h _ (List.mem_cons_of_mem _ (List.mem_map_of_mem hy)))

theorem literals_squeezed (check : Check) :
    (check.squeezed fold space).literals = check.literals.map (squeeze fold space) := by
  unfold literals terms squeezed
  rw [List.flatMap_cons, List.flatMap_cons, List.map_append, Term.literals_squeezed,
    List.flatMap_map, List.flatMap_map, List.flatMap_map, List.map_flatMap]
  congr 1
  exact List.flatMap_congr fun x _ => x.2.literals_squeezed

/-- Literals that squeezing keeps leave the condition as it is. -/
theorem squeezed_eq_self {check : Check}
    (h : ∀ value ∈ check.literals, squeeze fold space value = value) :
    check.squeezed fold space = check := by
  have hterm : ∀ term ∈ check.terms, term.squeezed fold space = term := fun term hmem =>
    Term.squeezed_eq_self fun value hvalue => h value (List.mem_flatMap.mpr ⟨term, hmem, hvalue⟩)
  have htail : check.tail.map (fun x => (x.1, x.2.squeezed fold space)) = check.tail.map id := by
    apply List.map_congr_left
    intro x hx
    exact congrArg (Prod.mk x.1) (hterm x.2 (List.mem_cons_of_mem _ (List.mem_map_of_mem hx)))
  unfold squeezed
  rw [hterm _ List.mem_cons_self, htail, List.map_id]

/-- Conditions of one shape differ in their literals only. -/
theorem eq_of_squeezed {a b : Check} (h : a.squeezed fold space = b.squeezed fold space)
    (hliterals : a.literals = b.literals) : a = b := by
  have htails : ∀ {as bs : List (Connective × Term)},
      (as.map fun x => (x.1, x.2.squeezed fold space)) =
        bs.map (fun x => (x.1, x.2.squeezed fold space)) →
      (as.map Prod.snd).flatMap Term.literals = (bs.map Prod.snd).flatMap Term.literals →
      as = bs := by
    intro as
    induction as with
    | nil =>
      intro bs hmap _
      exact (List.map_eq_nil_iff.mp hmap.symm).symm
    | cons x as ih =>
      intro bs hmap hflat
      cases bs with
      | nil => cases hmap
      | cons y bs =>
        obtain ⟨hxy, hmap⟩ := List.cons.inj hmap
        obtain ⟨hconnective, hterm⟩ := Prod.mk.inj hxy
        obtain ⟨heq, hflat⟩ := Term.append_literals_inj hterm hflat
        rw [Prod.ext hconnective heq, ih hmap hflat]
  obtain ⟨hhead, htail⟩ := Check.mk.inj h
  obtain ⟨heq, hflat⟩ := Term.append_literals_inj hhead hliterals
  have heqtail : a.tail = b.tail := htails htail hflat
  obtain ⟨head, tail⟩ := a
  exact congrArg₂ Check.mk heq heqtail

/-- The condition is whether a text of the column is among the literals. -/
inductive Lists (column : List Char) : Check → Prop
  | equal (value : List Char) : Lists column ⟨.compareText column .eq value, []⟩
  | nullOr (joined : Bool) (first : List Char) (rest : List (List Char)) :
      Lists column ⟨.isNull column joined, [(.or, .isIn column first rest)]⟩

theorem Lists.separated {column : List Char} {check : Check} (h : check.Lists column) :
    check.separated.Lists column := by
  cases h with
  | equal value => exact .equal value
  | nullOr joined first rest => exact .nullOr false first rest

end Check

end Squeezed

end Sql
