import SecureEdgeVision.Persistence.SqlRows

/-! Existing databases: tables whose checks are texts that the database reads. What a text can say
that compares equal to a declared one. -/
namespace SecureEdge

open Python (CaseTable)

def DeclaredTable.sqlColumns (declared : DeclaredTable) : Sql.Columns where
  texts := (declared.columns.filter fun column =>
    match column.type.implementation with
    | .text => true
    | .string _ => true
    | _ => false).map fun column => column.name.toList
  numbers := (declared.columns.filter fun column =>
    match column.type.implementation with
    | .integer => true
    | .float => true
    | _ => false).map fun column => column.name.toList

/-- A check of an existing table, whether the columns that it names have the default collation, and
the rows that it passes. -/
structure StoredCheck where
  name : Option String
  text : String
  plain : Bool
  passes : Sql.Row → Bool

section Reading
variable (table : CaseTable)

/-- What the database reads in a text that runs together like a condition on the columns: such a
condition, since elsewhere its syntax does not let the text break. In the default collation texts
are compared as they are. -/
def StoredCheck.Reads (columns : Sql.Columns) (c : StoredCheck) : Prop :=
  ∀ check : Sql.Check, check.WellFormed columns →
    Sql.squeeze table.fold isSpace c.text.toList = (check.squeezed table.fold isSpace).compact →
    ∃ reading : Sql.Check, reading.WellFormed columns ∧
      Sql.tokens table.fold c.text.toList = reading.tokens ∧
      (c.plain = true → c.passes = reading.passes)

/-- An existing table with the checks that it enforces, and the names and texts that the inspector
reports. The inspector searches the statement of the table for them: it can miss a check, and it can
find one in a comment. Of the collation of a column it reports nothing. -/
structure StoredTable extends TableShape where
  constraints : List StoredCheck
  reported : List (Option String × String)
  reads : ∀ declared ∈ declaredTables, declared.name = name →
    columnsMatch table declared.toTableShape toTableShape = true →
    ∀ c ∈ constraints, c.Reads table declared.sqlColumns

variable {table}

/-- What the inspector reports of the table. -/
def StoredTable.schema (stored : StoredTable table) : TableSchema :=
  ⟨stored.toTableShape, stored.reported.map fun check => (check.1, some check.2)⟩

variable (table)

/-- The tables that there are. -/
structure ExistingDatabase where
  tables : List (StoredTable table)
  names_nodup : (tables.map fun stored => stored.name).Nodup

variable {table}

def ExistingDatabase.schema (database : ExistingDatabase table) : List TableSchema :=
  database.tables.map StoredTable.schema

end Reading

section Folding
variable {table : CaseTable}

end Folding

/-- Lowercase of ASCII, and no space. -/
def settled (c : Char) : Bool := c.toNat < 128 && c.toLower = c && !isSpace c

/-- What is known of a declared check: its text has no comment, its literals are settled, and only
its own condition runs together to the same text. -/
structure CheckConstraint.Determined (columns : Sql.Columns) (d : CheckConstraint) : Prop where
  wellFormed : d.check.WellFormed columns
  visible : (columns.names.all fun column => column.all fun c => !isSpace c) = true
  ascii : d.text.toList.all (fun c => c.toNat < 128 && c ≠ '-' && c ≠ '/') = true
  settled : (d.check.literals.all fun value => value.all settled) = true
  nodup : d.check.literals.Nodup
  readings : ∀ reading ∈ Sql.checkReadings columns.names d.check.compact,
    reading.separated = d.check.separated
  lists : d.check.literals = [] ∨ d.check.Lists d.check.head.column

theorem determined : ∀ declared ∈ declaredTables, ∀ d ∈ declared.constraints,
    d.Determined declared.sqlColumns := by
  intro declared hdeclared d hd
  have hlists : d.check.literals = [] ∨ d.check.Lists d.check.head.column := by
    simp only [declaredTables, List.mem_cons, List.not_mem_nil, or_false] at hdeclared
    rcases hdeclared with rfl | rfl | rfl
    · simp only [nodesTable, List.mem_cons, List.not_mem_nil, or_false] at hd
      obtain rfl := hd
      exact Or.inr (.nullOr _ _ _)
    · simp only [detectionEventsTable, List.mem_cons, List.not_mem_nil, or_false] at hd
      rcases hd with rfl | rfl | rfl | rfl | rfl
      · exact Or.inr (.equal _)
      · exact Or.inr (.equal _)
      · exact Or.inl rfl
      · exact Or.inl rfl
      · exact Or.inl rfl
    · cases hd
  have hall : ∀ declared ∈ declaredTables, ∀ d ∈ declared.constraints,
      d.check.WellFormed declared.sqlColumns ∧
      (declared.sqlColumns.names.all fun column => column.all fun c => !isSpace c) = true ∧
      d.text.toList.all (fun c => c.toNat < 128 && c ≠ '-' && c ≠ '/') = true ∧
      (d.check.literals.all fun value => value.all SecureEdge.settled) = true ∧
      d.check.literals.Nodup ∧
      ∀ reading ∈ Sql.checkReadings declared.sqlColumns.names d.check.compact,
        reading.separated = d.check.separated := by decide +kernel
  obtain ⟨hwell, hcolumns, hascii, hsettled, hnodup, hreadings⟩ := hall declared hdeclared d hd
  exact ⟨hwell, hcolumns, hascii, hsettled, hnodup, hreadings, hlists⟩

theorem CheckConstraint.tokens_of_ascii (table : CaseTable) {d : CheckConstraint}
    (h : ∀ c ∈ d.text.toList, c.toNat < 128) :
    Sql.tokens table.fold d.text.toList = d.check.tokens := by
  rw [← d.reads]
  apply Sql.tokens_congr
  intro c hc
  rw [table.fold_ascii (h c hc), CaseTable.ascii.fold_ascii (h c hc)]

namespace CheckConstraint.Determined
variable {table : CaseTable} {columns : Sql.Columns} {d : CheckConstraint}

theorem text_ascii (h : d.Determined columns) {c : Char} (hc : c ∈ d.text.toList) :
    c.toNat < 128 ∧ c ≠ '-' ∧ c ≠ '/' := by
  have hascii := List.all_eq_true.mp h.ascii c hc
  simpa [and_assoc] using hascii

theorem squeeze_literal (h : d.Determined columns) {value : List Char}
    (hvalue : value ∈ d.check.literals) : Sql.squeeze table.fold isSpace value = value := by
  have hsettled : ∀ c ∈ value, (c.toNat < 128 ∧ c.toLower = c) ∧ isSpace c = false := by
    intro c hc
    have hc := List.all_eq_true.mp (List.all_eq_true.mp h.settled value hvalue) c hc
    simpa [SecureEdge.settled] using hc
  have hfold : value.flatMap table.fold = value.flatMap fun c => [c] := by
    apply List.flatMap_congr
    intro c hc
    obtain ⟨⟨hascii, hlower⟩, -⟩ := hsettled c hc
    rw [table.fold_ascii hascii, hlower]
  unfold Sql.squeeze
  rw [hfold, List.flatMap_singleton']
  apply List.filter_eq_self.mpr
  intro c hc
  rw [(hsettled c hc).2]
  rfl

theorem squeezed (h : d.Determined columns) : d.check.squeezed table.fold isSpace = d.check :=
  Sql.Check.squeezed_eq_self fun _ => h.squeeze_literal

end CheckConstraint.Determined

namespace StoredCheck.Like
variable {table : CaseTable} {columns : Sql.Columns} {c : StoredCheck} {d : CheckConstraint}
  {reading : Sql.Check}

end StoredCheck.Like

end SecureEdge
