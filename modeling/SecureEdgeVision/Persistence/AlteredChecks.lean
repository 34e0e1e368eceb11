import SecureEdgeVision.Persistence.Adoption

/-! Databases that the schema check accepts, and those of them that keep out what the aggregator
writes. -/
namespace SecureEdge

open Binary64 (Finite)
open Python (CaseTable Dict)

section Texts
variable (table : CaseTable)

variable {table}

end Texts

section Databases
variable {table : CaseTable}

/-- Adoption is the schema check. -/
theorem initializeDatabase_existing {dialect : Option String} {created : Option (List TableSchema)}
    {database : ExistingDatabase table} (hne : database.tables ≠ []) :
    initializeDatabase table dialect (some database.schema) created = .ok () ↔
      dialect = some "sqlite" ∧ verifySchema table database.schema = .ok () := by
  have hnames : tableNames database.schema ≠ ∅ := by
    obtain ⟨stored, hstored⟩ := List.exists_mem_of_ne_nil _ hne
    apply Finset.ne_empty_of_mem (a := stored.name)
    exact List.mem_toFinset.mpr (List.mem_map.mpr ⟨stored.schema, List.mem_map_of_mem hstored, rfl⟩)
  unfold initializeDatabase
  rw [Python.bind_eq_ok]
  unfold requireSqliteEngine
  constructor
  · rintro ⟨_, hengine, h⟩
    split_ifs at hengine with hdialect
    refine ⟨not_not.mp hdialect, ?_⟩
    dsimp only at h
    split_ifs at h with hother
    exact h
  · rintro ⟨rfl, h⟩
    refine ⟨(), rfl, ?_⟩
    have hrequired : tableNames database.schema = requiredTables := by
      unfold verifySchema at h
      split_ifs at h with hother
      exact not_not.mp hother
    dsimp only
    rw [if_neg fun hother => hother.2 hrequired, if_pos hnames]
    exact h

end Databases

section Creation
variable (table : CaseTable)

/-- A check as a database stores it. -/
def CheckConstraint.stored (d : CheckConstraint) : StoredCheck :=
  ⟨some d.name, d.text, true, d.check.passes⟩

/-- Checks that a declared table of the name could have. -/
def DeclaredTable.Storable (events : DeclaredTable) : Prop :=
  ∀ declared ∈ declaredTables, declared.name = events.name → ∀ d ∈ events.constraints,
    d.check.WellFormed declared.sqlColumns ∧ d.text.toList.all (fun c => c.toNat < 128) = true

instance (events : DeclaredTable) : Decidable events.Storable := by
  unfold DeclaredTable.Storable
  infer_instance

/-- The table as a database creates it: the inspector finds its checks. -/
def StoredTable.create (declared : DeclaredTable) (h : declared.Storable) : StoredTable table where
  toTableShape := declared.toTableShape
  constraints := declared.constraints.map CheckConstraint.stored
  reported := declared.constraints.map fun d => (some d.name, d.text)
  reads other hother hname _ c hc := by
    obtain ⟨d, hd, rfl⟩ := List.mem_map.mp hc
    obtain ⟨hwell, hascii⟩ := h other hother hname d hd
    intro _ _ _
    exact ⟨d.check, hwell, d.tokens_of_ascii table fun c hc =>
      of_decide_eq_true (List.all_eq_true.mp hascii c hc), fun _ => rfl⟩

end Creation

section Created
variable {table : CaseTable} {declared : DeclaredTable} (h : declared.Storable)
  (hnames : (declared.constraints.map CheckConstraint.name).Nodup)

include hnames

namespace StoredTable

end StoredTable

end Created

theorem storable_declared : ∀ events ∈ declaredTables, events.Storable := by
  intro events hevents declared hdeclared hname d hd
  have hnames : (declaredTables.map fun declared => declared.name).Nodup := by decide
  obtain rfl := List.inj_on_of_nodup_map hnames hdeclared hevents hname
  have hdetermined := determined declared hdeclared d hd
  refine ⟨hdetermined.wellFormed, List.all_eq_true.mpr fun c hc => ?_⟩
  exact decide_eq_true (hdetermined.text_ascii hc).1

/-- A database of the declared tables. -/
def declaredDatabase (table : CaseTable) : ExistingDatabase table where
  tables := [.create table nodesTable (storable_declared _ (by simp [declaredTables])),
    .create table detectionEventsTable (storable_declared _ (by simp [declaredTables])),
    .create table securityAlertsTable (storable_declared _ (by simp [declaredTables]))]
  names_nodup := by
    show ["nodes", "detection_events", "security_alerts"].Nodup
    decide

end SecureEdge
