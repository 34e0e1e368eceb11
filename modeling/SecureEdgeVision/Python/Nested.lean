import SecureEdgeVision.Python.Dict

/-! Values with mappings inside mappings, read and assigned at paths of keys. Assignments at paths
none of which leads through another lay their values over what was there. -/
namespace Python

inductive Nested (K V : Type) where
  | value (v : V)
  | mapping (entries : List (K × Nested K V))

namespace Nested
variable {K V : Type} [DecidableEq K]

/-- What stands at a path: no entry, a mapping (`some none`) or a value. -/
def read : List K → Nested K V → Option (Option V)
  | [], value v => some (some v)
  | [], mapping _ => some none
  | _ :: _, value _ => none
  | key :: path, mapping entries => (Entries.get? key entries).bind (read path)

/-- `target[key] = v`, where `target` is the mapping at a path. -/
def assign (v : V) (key : K) : List K → Nested K V → Option (Nested K V)
  | _, value _ => none
  | [], mapping entries => some (mapping (Entries.set key (value v) entries))
  | next :: path, mapping entries =>
    ((Entries.get? next entries).bind (assign v key path)).map fun inner =>
      mapping (Entries.set next inner entries)

variable {v : V} {key : K} {path : List K} {tree after : Nested K V}

@[simp] theorem read_nil_mapping (entries : List (K × Nested K V)) :
    read [] (mapping entries) = some none := rfl

@[simp] theorem read_nil_value (v : V) : read [] (value (K := K) v) = some (some v) := rfl

@[simp] theorem read_cons_value (next : K) (path : List K) (v : V) :
    read (next :: path) (value v) = none := rfl

@[simp] theorem read_cons_mapping (next : K) (path : List K) (entries : List (K × Nested K V)) :
    read (next :: path) (mapping entries) = (Entries.get? next entries).bind (read path) := rfl

theorem read_nil_eq_none_mapping :
    read [] tree = some none ↔ ∃ entries, tree = mapping entries := by
  cases tree <;> simp

/-- An assignment is possible where the path leads through mappings to a mapping. -/
theorem exists_assign : (∃ after, assign v key path tree = some after) ↔
    read path tree = some none := by
  induction path generalizing tree with
  | nil => cases tree <;> simp [assign]
  | cons next path ih =>
    cases tree with
    | value v => simp [assign]
    | mapping entries =>
      cases hinner : Entries.get? next entries with
      | none => simp [assign, hinner]
      | some inner => simp [assign, hinner, ← ih, Option.map_eq_some_iff]

/-- What an assignment leaves at each path: its value at its own, nothing below that, and what was
there at any other. -/
theorem read_assign (h : assign v key path tree = some after) (other : List K) :
    read other after = if path ++ [key] <+: other then
      (if other = path ++ [key] then some (some v) else none) else read other tree := by
  induction path generalizing tree after other with
  | nil =>
    cases tree with
    | value w => simp [assign] at h
    | mapping entries =>
      simp only [assign, Option.some.injEq] at h
      subst h
      cases other with
      | nil => simp
      | cons next other =>
        by_cases hnext : key = next
        · subst hnext
          cases other <;> simp [Entries.get?_set]
        · simp [Entries.get?_set, hnext]
  | cons head path ih =>
    cases tree with
    | value w => simp [assign] at h
    | mapping entries =>
      simp only [assign, Option.map_eq_some_iff, Option.bind_eq_some_iff] at h
      obtain ⟨inner', ⟨inner, hinner, hassign⟩, rfl⟩ := h
      cases other with
      | nil => simp
      | cons next other =>
        by_cases hnext : head = next
        · subst hnext
          have hread := ih hassign other
          simp only [List.cons_append, List.cons_prefix_cons, List.cons.injEq, true_and,
            read_cons_mapping, Entries.get?_set, if_true, hinner]
          exact hread
        · simp [Entries.get?_set, hnext]

/-- A value for the place of a key in the mapping at a path. -/
structure Assignment (K V : Type) where
  path : List K
  key : K
  value : V

def Assignment.place (a : Assignment K V) : List K := a.path ++ [a.key]

/-- Neither place leads through the other. -/
def Assignment.Apart (a b : Assignment K V) : Prop :=
  ¬ a.place <+: b.place ∧ ¬ b.place <+: a.place

/-- The values laid over what is read. -/
def laidOver (assignments : List (Assignment K V)) (reads : List K → Option (Option V))
    (other : List K) : Option (Option V) :=
  match assignments.find? (fun a => a.place <+: other) with
  | some a => if other = a.place then some (some a.value) else none
  | none => reads other

section Layers
variable {a : Assignment K V} {assignments : List (Assignment K V)} {other : List K}

/-- Assigned before others that are apart from it, a value lies beside theirs. -/
theorem laidOver_cons (h : assign a.value a.key a.path tree = some after)
    (hapart : ∀ b ∈ assignments, a.Apart b) :
    laidOver assignments (fun other => read other after) other =
      laidOver (a :: assignments) (fun other => read other tree) other := by
  unfold laidOver
  rw [List.find?_cons]
  by_cases hplace : a.place <+: other
  · have hnone : assignments.find? (fun b => decide (b.place <+: other)) = none := by
      rw [List.find?_eq_none]
      intro b hb hwithin
      obtain ⟨hab, hba⟩ := hapart b hb
      have hwithin : b.place <+: other := by simpa using hwithin
      rcases List.prefix_or_prefix_of_prefix hplace hwithin with hle | hle
      · exact hab hle
      · exact hba hle
    have hread := read_assign h other
    simp only [hnone, decide_eq_true hplace]
    rw [hread, if_pos (show a.path ++ [a.key] <+: other from hplace)]
    rfl
  · have hread := read_assign h other
    simp only [decide_eq_false hplace]
    rw [hread, if_neg (show ¬ a.path ++ [a.key] <+: other from hplace)]

end Layers

end Nested

end Python
