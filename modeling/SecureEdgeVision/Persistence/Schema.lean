import SecureEdgeVision.Persistence.Records
import SecureEdgeVision.Python.Case
import SecureEdgeVision.Python.Dict
import SecureEdgeVision.Sql.Shape
import Mathlib.Data.Finset.Dedup

/-! The declared schema, and the check of an existing one against it. Check constraints are
compared as texts without case and without whitespace. -/
namespace SecureEdge

open Python (CaseTable Dict)

/-- A type of the SQL toolkit; other classes count by their names. -/
inductive SqlType where
  | integer
  | float
  | text
  | string (length : Option ℕ)
  | other (className : String)
deriving DecidableEq

/-- The type of a column. A decorator stores its values through another type. -/
inductive ColumnType where
  | plain (type : SqlType)
  | decorated (impl : SqlType)
deriving DecidableEq

def ColumnType.implementation : ColumnType → SqlType
  | plain type => type
  | decorated impl => impl

structure ColumnSchema where
  name : String
  type : ColumnType
  nullable : Bool
deriving DecidableEq

structure ForeignKeySchema where
  constrainedColumns : List String
  referredTable : String
  referredColumns : List String
  ondelete : Option String
deriving DecidableEq

structure IndexSchema where
  name : Option String
  columnNames : List String
  unique : Bool
deriving DecidableEq

/-- A table but for its checks. -/
structure TableShape where
  name : String
  columns : List ColumnSchema
  primaryKey : List String
  uniqueConstraints : List (Option String × List String)
  foreignKeys : List ForeignKeySchema
  indexes : List IndexSchema
deriving DecidableEq

/-- A table as the inspector reports it. A check has a name and a text, or lacks one. -/
structure TableSchema extends TableShape where
  checks : List (Option String × Option String)
deriving DecidableEq

/-- A declared check: its text, and the condition that the text says. -/
structure CheckConstraint where
  name : String
  text : String
  check : Sql.Check
  reads : Sql.tokens CaseTable.ascii.fold text.toList = check.tokens

structure DeclaredTable extends TableShape where
  constraints : List CheckConstraint

def DeclaredTable.schema (declared : DeclaredTable) : TableSchema :=
  ⟨declared.toTableShape, declared.constraints.map fun c => (some c.name, some c.text)⟩

def stringColumn (name : String) (length : ℕ) (nullable : Bool) : ColumnSchema :=
  ⟨name, .plain (.string (some length)), nullable⟩

/-- A column of `_UtcTimestampType`. -/
def timestampColumn (name : String) (nullable : Bool) : ColumnSchema :=
  ⟨name, .decorated (.string (some 32)), nullable⟩

def plainIndex (name : String) (columnNames : List String) : IndexSchema :=
  ⟨some name, columnNames, false⟩

def nodesTable : DeclaredTable where
  name := "nodes"
  columns := [stringColumn "node_id" 128 false, stringColumn "public_key_b64" 44 false,
    timestampColumn "registered_at_utc" false, timestampColumn "last_seen_at_utc" true,
    stringColumn "health_status" 16 true]
  primaryKey := ["node_id"]
  uniqueConstraints := []
  foreignKeys := []
  indexes := [plainIndex "ix_nodes_last_seen_at_utc" ["last_seen_at_utc"]]
  constraints := [{
    name := "ck_nodes_health_status"
    text := "health_status IS NULL OR health_status IN ('healthy', 'degraded', 'unhealthy')"
    check := ⟨.isNull "health_status".toList false, [(.or, .isIn "health_status".toList
      "healthy".toList ["degraded".toList, "unhealthy".toList])]⟩
    reads := by decide +kernel }]

def detectionEventsTable : DeclaredTable where
  name := "detection_events"
  columns := [⟨"record_id", .plain .integer, false⟩, stringColumn "schema_version" 8 false,
    stringColumn "event_id" 128 false, stringColumn "node_id" 128 false,
    stringColumn "camera_id" 128 false, timestampColumn "timestamp_utc" false,
    stringColumn "nonce" 128 false, ⟨"frame_seq", .plain .integer, false⟩,
    stringColumn "job_id" 128 true, stringColumn "mode" 16 false,
    stringColumn "model_name" 255 false, stringColumn "model_sha256" 64 false,
    ⟨"frame_width", .plain .integer, false⟩, ⟨"frame_height", .plain .integer, false⟩,
    ⟨"detections_json", .plain .text, false⟩, ⟨"decode_ms", .plain .float, false⟩,
    ⟨"inference_ms", .plain .float, false⟩, ⟨"postprocess_ms", .plain .float, false⟩,
    timestampColumn "accepted_at_utc" false]
  primaryKey := ["record_id"]
  uniqueConstraints := []
  foreignKeys := [⟨["node_id"], "nodes", ["node_id"], some "RESTRICT"⟩]
  indexes := [plainIndex "ix_detection_events_event_id" ["event_id"],
    plainIndex "ix_detection_events_nonce" ["nonce"],
    plainIndex "ix_detection_events_node_timestamp" ["node_id", "timestamp_utc"],
    plainIndex "ix_detection_events_accepted_at_utc" ["accepted_at_utc"]]
  constraints := [
    { name := "ck_detection_events_schema_version"
      text := "schema_version = '1.0'"
      check := ⟨.compareText "schema_version".toList .eq "1.0".toList, []⟩
      reads := by decide +kernel },
    { name := "ck_detection_events_mode"
      text := "mode = 'privacy'"
      check := ⟨.compareText "mode".toList .eq "privacy".toList, []⟩
      reads := by decide +kernel },
    { name := "ck_detection_events_frame_seq"
      text := "frame_seq >= 0"
      check := ⟨.compareInteger "frame_seq".toList .ge ['0'], []⟩
      reads := by decide +kernel },
    { name := "ck_detection_events_frame_dimensions"
      text := "frame_width > 0 AND frame_height > 0"
      check := ⟨.compareInteger "frame_width".toList .gt ['0'],
        [(.and, .compareInteger "frame_height".toList .gt ['0'])]⟩
      reads := by decide +kernel },
    { name := "ck_detection_events_performance"
      text := "decode_ms >= 0 AND inference_ms >= 0 AND postprocess_ms >= 0"
      check := ⟨.compareInteger "decode_ms".toList .ge ['0'],
        [(.and, .compareInteger "inference_ms".toList .ge ['0']),
          (.and, .compareInteger "postprocess_ms".toList .ge ['0'])]⟩
      reads := by decide +kernel }]

def securityAlertsTable : DeclaredTable where
  name := "security_alerts"
  columns := [stringColumn "alert_id" 128 false, timestampColumn "occurred_at_utc" false,
    stringColumn "category" 64 false, stringColumn "reason" 64 false,
    stringColumn "node_id" 128 true, stringColumn "event_id" 128 true,
    stringColumn "nonce" 128 true]
  primaryKey := ["alert_id"]
  uniqueConstraints := []
  foreignKeys := []
  indexes := [plainIndex "ix_security_alerts_occurred_at_utc" ["occurred_at_utc"],
    plainIndex "ix_security_alerts_node_id" ["node_id"],
    plainIndex "ix_security_alerts_category_reason" ["category", "reason"]]
  constraints := []

/-- `PersistenceBase.metadata.tables` -/
def declaredTables : List DeclaredTable := [nodesTable, detectionEventsTable, securityAlertsTable]

def PersistenceError.incompatibleSchema : PersistenceError := ⟨"database schema is incompatible"⟩

def PersistenceError.initializationFailed : PersistenceError := ⟨"database initialization failed"⟩

section Verification
variable (table : CaseTable)

/-- `_type_signature` -/
def typeSignature (type : ColumnType) : String × Option ℕ :=
  match type.implementation with
  | .integer => ("integer", none)
  | .float => ("float", none)
  | .text => ("text", none)
  | .string length => ("string", length)
  | .other className => (String.ofList (table.lowerText className.toList), none)

/-- `_normalize_sql`; `none` is a value that is no `str`. -/
def normalizeSql : Option String → String
  | none => ""
  | some value =>
    String.ofList (Python.splitWords isSpace (table.lowerText value.toList)).flatten

/-- The columns have the declared names, and each the declared type and nullability. -/
def columnsMatch (declared reflected : TableShape) : Bool :=
  let reflectedColumns := Dict.ofPairs (reflected.columns.map fun column => (column.name, column))
  decide ((reflectedColumns.entries.map Prod.fst).toFinset =
    (declared.columns.map ColumnSchema.name).toFinset) &&
  declared.columns.all fun column =>
    (reflectedColumns.get? column.name).any fun reflected =>
      reflected.nullable = column.nullable &&
        typeSignature table reflected.type = typeSignature table column.type

def keysMatch (declared reflected : TableShape) : Bool :=
  reflected.primaryKey = declared.primaryKey &&
    reflected.uniqueConstraints.toFinset = declared.uniqueConstraints.toFinset &&
    reflected.foreignKeys.toFinset = declared.foreignKeys.toFinset &&
    reflected.indexes.toFinset = declared.indexes.toFinset

/-- The checks by name. Of checks with one name the last stands. -/
def checkTexts (schema : TableSchema) : Dict (Option String) String :=
  Dict.ofPairs (schema.checks.map fun check => (check.1, normalizeSql table check.2))

def checksMatch (declared reflected : TableSchema) : Bool :=
  (checkTexts table reflected).entries.toFinset = (checkTexts table declared).entries.toFinset

def tableMatches (declared reflected : TableSchema) : Bool :=
  columnsMatch table declared.toTableShape reflected.toTableShape &&
    keysMatch declared.toTableShape reflected.toTableShape &&
    checksMatch table declared reflected

def requiredTables : Finset String := (declaredTables.map fun declared => declared.name).toFinset

def tableNames (reflected : List TableSchema) : Finset String :=
  (reflected.map fun schema => schema.name).toFinset

/-- `_verify_schema` -/
def verifySchema (reflected : List TableSchema) : Except PersistenceError Unit :=
  if tableNames reflected ≠ requiredTables then .error .incompatibleSchema
  else if declaredTables.all fun declared =>
      (reflected.find? fun schema => schema.name = declared.name).any
        (tableMatches table declared.schema) then .ok ()
  else .error .incompatibleSchema

/-- `_require_sqlite_engine`; an engine is its dialect, and `none` is no engine. -/
def requireSqliteEngine (dialect : Option String) : Except PersistenceError Unit :=
  if dialect ≠ some "sqlite" then .error ⟨"engine must use approved local SQLite"⟩ else .ok ()

/-- `initialize_database`, where the inspector reports what exists, and what was created then;
`none` is a database that raises. -/
def initializeDatabase (dialect : Option String) (existing created : Option (List TableSchema)) :
    Except PersistenceError Unit := do
  requireSqliteEngine dialect
  match existing with
  | none => .error .initializationFailed
  | some existing =>
    let existingTables := tableNames existing
    if existingTables ≠ ∅ ∧ existingTables ≠ requiredTables then .error .incompatibleSchema
    else if existingTables ≠ ∅ then verifySchema table existing
    else
      match created with
      | none => .error .initializationFailed
      | some created => verifySchema table created

theorem columnsMatch_self {shape : TableShape}
    (hnames : (shape.columns.map ColumnSchema.name).Nodup) :
    columnsMatch table shape shape = true := by
  have hkeys : ((shape.columns.map fun column => (column.name, column)).map Prod.fst) =
      shape.columns.map ColumnSchema.name := List.map_map
  have hentries : (Dict.ofPairs (shape.columns.map fun column => (column.name, column))).entries =
      shape.columns.map fun column => (column.name, column) :=
    Dict.entries_ofPairs (by rwa [hkeys])
  unfold columnsMatch
  dsimp only
  rw [hentries, hkeys, decide_eq_true rfl, Bool.true_and, List.all_eq_true]
  intro column hcolumn
  have hget : (Dict.ofPairs (shape.columns.map fun column => (column.name, column))).get?
      column.name = some column := by
    rw [Dict.get?_eq_some, hentries]
    exact List.mem_map_of_mem hcolumn
  rw [hget]
  simp

/-- A table of the declared shape passes where its checks normalize to the declared ones. -/
theorem tableMatches_of_checks {declared : DeclaredTable} (hdeclared : declared ∈ declaredTables)
    {schema : TableSchema} (hshape : schema.toTableShape = declared.toTableShape)
    (hchecks : checkTexts table schema = checkTexts table declared.schema) :
    tableMatches table declared.schema schema = true := by
  have hnames : ∀ declared ∈ declaredTables,
      (declared.columns.map ColumnSchema.name).Nodup := by decide
  have hshape' : schema.toTableShape = declared.schema.toTableShape := hshape
  have hcolumns : columnsMatch table declared.schema.toTableShape declared.schema.toTableShape =
      true := columnsMatch_self table (hnames declared hdeclared)
  unfold tableMatches keysMatch checksMatch
  rw [hshape', hchecks, hcolumns]
  simp

/-- So does a schema of such tables. -/
theorem verifySchema_of_checks (change : DeclaredTable → TableSchema)
    (hshape : ∀ declared, (change declared).toTableShape = declared.toTableShape)
    (hchecks : ∀ declared ∈ declaredTables,
      checkTexts table (change declared) = checkTexts table declared.schema) :
    verifySchema table (declaredTables.map change) = .ok () := by
  have hname : ∀ declared, (change declared).name = declared.name :=
    fun declared => congrArg TableShape.name (hshape declared)
  have hnames : tableNames (declaredTables.map change) = requiredTables := by
    unfold tableNames requiredTables
    rw [List.map_map]
    exact congrArg List.toFinset (List.map_congr_left fun declared _ => hname declared)
  have hfind : ∀ declared ∈ declaredTables,
      (declaredTables.map change).find? (fun schema => schema.name = declared.name) =
        some (change declared) := by
    have hself : ∀ declared ∈ declaredTables,
        declaredTables.find? (fun other => other.name = declared.name) = some declared := by
      intro declared hdeclared
      simp only [declaredTables, List.mem_cons, List.not_mem_nil, or_false] at hdeclared
      rcases hdeclared with rfl | rfl | rfl <;> rfl
    intro declared hdeclared
    have hcomp : (fun schema : TableSchema => decide (schema.name = declared.name)) ∘ change =
        fun other => decide (other.name = declared.name) :=
      funext fun other => congrArg (fun name => decide (name = declared.name)) (hname other)
    rw [List.find?_map, hcomp, hself declared hdeclared]
    rfl
  have hall : (declaredTables.all fun declared =>
      ((declaredTables.map change).find? fun schema => schema.name = declared.name).any
        (tableMatches table declared.schema)) = true := by
    apply List.all_eq_true.mpr
    intro declared hdeclared
    rw [hfind declared hdeclared]
    exact tableMatches_of_checks table hdeclared (hshape declared) (hchecks declared hdeclared)
  unfold verifySchema
  rw [if_neg (not_not.mpr hnames), if_pos hall]

/-- The declared schema passes its own check. -/
theorem verifySchema_declared :
    verifySchema table (declaredTables.map DeclaredTable.schema) = .ok () :=
  verifySchema_of_checks table DeclaredTable.schema (fun _ => rfl) fun _ _ => rfl

end Verification

end SecureEdge
