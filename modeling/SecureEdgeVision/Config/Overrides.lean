import SecureEdgeVision.Config.Settings
import SecureEdgeVision.Python.Dict

/-! Loading the settings: a file, and the overrides of the environment laid over it. -/
namespace SecureEdge.Config

open Python (Dict Nested)
open Python.Nested (Assignment laidOver)

structure ConfigurationError where
  message : String
deriving DecidableEq

/-- What `load_settings` raises: its own error, or one that passes through it. -/
inductive LoadRaised where
  | configuration (error : ConfigurationError)
  | escaped
deriving DecidableEq

/-- What reading and parsing the file gives. -/
inductive ConfigFile where
  | unreadable (reason : String)
  | malformed (reason : String)
  | raised
  | loaded (data : Loaded)

/-- The callable that an override's text goes through. -/
inductive Converter where
  | str | int | float
deriving DecidableEq

def Converter.convert (host : ConfigHost) (text : String) : Converter → Except String Scalar
  | .str => .ok (.text text)
  | .int => (host.parseInt text).map .int
  | .float => (host.parseFloat text).map .float

structure EnvOverride where
  name : String
  path : List String
  key : String
  converter : Converter
deriving DecidableEq

/-- `_ENV_OVERRIDES` -/
def envOverrides : List EnvOverride :=
  [⟨"SEV_CONFIG__MODE", [], "mode", .str⟩,
    ⟨"SEV_CONFIG__AGGREGATOR_URL", [], "aggregator_url", .str⟩,
    ⟨"SEV_CONFIG__SECURITY__MAX_CLOCK_SKEW_SECONDS", ["security"], "max_clock_skew_seconds",
      .int⟩,
    ⟨"SEV_CONFIG__SECURITY__NONCE_TTL_SECONDS", ["security"], "nonce_ttl_seconds", .int⟩,
    ⟨"SEV_CONFIG__SECURITY__MAX_REQUEST_BYTES", ["security"], "max_request_bytes", .int⟩,
    ⟨"SEV_CONFIG__VISION__MODEL", ["vision"], "model", .str⟩,
    ⟨"SEV_CONFIG__VISION__DEVICE", ["vision"], "device", .str⟩,
    ⟨"SEV_CONFIG__VISION__IMAGE_SIZE", ["vision"], "image_size", .int⟩,
    ⟨"SEV_CONFIG__VISION__CONFIDENCE", ["vision"], "confidence", .float⟩,
    ⟨"SEV_CONFIG__VISION__FRAME_SAMPLE_FPS", ["vision"], "frame_sample_fps", .float⟩,
    ⟨"SEV_CONFIG__TRANSPORT__REQUEST_TIMEOUT_SECONDS", ["transport"], "request_timeout_seconds",
      .float⟩,
    ⟨"SEV_CONFIG__TRANSPORT__HEARTBEAT_INTERVAL_SECONDS", ["transport"],
      "heartbeat_interval_seconds", .float⟩,
    ⟨"SEV_CONFIG__CONSENSUS__POLICY", ["consensus"], "policy", .str⟩,
    ⟨"SEV_CONFIG__CONSENSUS__IOU_THRESHOLD", ["consensus"], "iou_threshold", .float⟩,
    ⟨"SEV_CONFIG__CONSENSUS__ACCEPT_THRESHOLD", ["consensus"], "accept_threshold", .float⟩,
    ⟨"SEV_CONFIG__CONSENSUS__ALPHA", ["consensus"], "alpha", .float⟩,
    ⟨"SEV_CONFIG__CONSENSUS__TRUST_MIN", ["consensus"], "trust_min", .float⟩]

def isOverrideName (name : String) : Bool := "SEV_CONFIG__".toList.isPrefixOf name.toList

/-- The override names that are not in the table, sorted. -/
def unknownOverrides (environ : Dict String String) : List String :=
  ((environ.entries.map Prod.fst).filter fun name =>
    isOverrideName name && !(envOverrides.map EnvOverride.name).contains name).insertionSort
      (· ≤ ·)

namespace EnvOverride

def keys (o : EnvOverride) : List Key := o.path.map .text

def invalid (o : EnvOverride) (reason : String) : ConfigurationError :=
  ⟨"invalid environment override " ++ o.name ++ " for " ++
    ".".intercalate (o.path ++ [o.key]) ++ ": " ++ reason⟩

def cannotApply (o : EnvOverride) : ConfigurationError :=
  ⟨"cannot apply environment override " ++ o.name ++ ": " ++ ".".intercalate o.path ++
    " is missing or is not a mapping"⟩

end EnvOverride

section Loading
variable (host : ConfigHost)

/-- One turn of the loop in `_apply_environment_overrides`. -/
def applyOverride (environ : Dict String String) (data : Loaded) (o : EnvOverride) :
    Except ConfigurationError Loaded :=
  match environ.get? o.name with
  | none => .ok data
  | some text =>
    match o.converter.convert host text with
    | .error reason => .error (o.invalid reason)
    | .ok value =>
      match data.assign value (.text o.key) o.keys with
      | none => .error o.cannotApply
      | some data => .ok data

/-- `_apply_environment_overrides` -/
def applyEnvironmentOverrides (environ : Dict String String) (data : Loaded) :
    Except ConfigurationError Loaded :=
  let unknown := unknownOverrides environ
  if unknown ≠ [] then
    .error ⟨"unknown configuration environment override(s): " ++ ", ".intercalate unknown⟩
  else envOverrides.foldlM (applyOverride host environ) data

/-- `_format_validation_error` -/
def formatValidationError (errors : List (List String × String)) : ConfigurationError :=
  ⟨"invalid system configuration: " ++ "; ".intercalate (errors.map fun (loc, msg) =>
    (if ".".intercalate loc = "" then "configuration" else ".".intercalate loc) ++ ": " ++ msg)⟩

/-- The validation in `load_settings`, with its exception converted. -/
def validateSettings (data : Loaded) : Except ConfigurationError (SystemSettings host) :=
  match SystemSettings.validate host data with
  | none => .error (formatValidationError (host.errors data))
  | some settings => .ok settings

/-- The part of `load_settings` that follows the parsing of the file. -/
def settingsOf (environ : Option (Dict String String)) (data : Loaded) :
    Except ConfigurationError (SystemSettings host) :=
  match environ with
  | none => validateSettings host data
  | some environ => applyEnvironmentOverrides host environ data >>= validateSettings host

/-- `load_settings` -/
def loadSettings (path : String) (file : ConfigFile) (environ : Option (Dict String String)) :
    Except LoadRaised (SystemSettings host) :=
  match file with
  | .unreadable reason =>
    .error (.configuration ⟨"cannot read system configuration " ++ path ++ ": " ++ reason⟩)
  | .malformed reason =>
    .error (.configuration ⟨"malformed YAML in system configuration " ++ path ++ ": " ++ reason⟩)
  | .raised => .error .escaped
  | .loaded (.value _) =>
    .error (.configuration ⟨"invalid system configuration " ++ path ++
      ": top-level value must be a mapping"⟩)
  | .loaded (.mapping entries) =>
    (settingsOf host environ (.mapping entries)).mapError .configuration

end Loading

namespace EnvOverride
variable (host : ConfigHost) (environ : Dict String String)

/-- What the override assigns, if it is set to a text that converts. -/
def assignment? (o : EnvOverride) : Option (Assignment Key Scalar) :=
  (environ.get? o.name).bind fun text =>
    (o.converter.convert host text).toOption.map fun value => ⟨o.keys, .text o.key, value⟩

/-- What is wrong with the override on what was loaded. -/
def failure? (reads : Reads) (o : EnvOverride) : Option ConfigurationError :=
  (environ.get? o.name).bind fun text =>
    match o.converter.convert host text with
    | .error reason => some (o.invalid reason)
    | .ok _ => if reads o.keys = some none then none else some o.cannotApply

/-- Neither setting lies within the other. -/
def Apart (a b : EnvOverride) : Prop :=
  ¬ a.keys ++ [.text a.key] <+: b.keys ++ [.text b.key] ∧
    ¬ b.keys ++ [.text b.key] <+: a.keys ++ [.text a.key]

instance (a b : EnvOverride) : Decidable (a.Apart b) := inferInstanceAs (Decidable (_ ∧ _))

/-- No setting of the table lies within another. -/
theorem envOverrides_apart : envOverrides.Pairwise Apart := by decide +kernel

/-- No setting of the table is a mapping that another is looked for in. -/
theorem envOverrides_beside : ∀ a ∈ envOverrides, ∀ b ∈ envOverrides,
    ¬ a.keys ++ [.text a.key] <+: b.keys := by decide +kernel

variable {host environ} {o : EnvOverride} {data : Loaded}

theorem assignment?_eq_some {a : Assignment Key Scalar} (h : o.assignment? host environ = some a) :
    a.path = o.keys ∧ a.key = .text o.key := by
  unfold assignment? at h
  obtain ⟨text, -, h⟩ := Option.bind_eq_some_iff.mp h
  obtain ⟨value, -, rfl⟩ := Option.map_eq_some_iff.mp h
  exact ⟨rfl, rfl⟩

variable (host environ data o) in
/-- An override that is not set does nothing, and one that is set fails or assigns. -/
theorem applyOverride_cases :
    (o.failure? host environ (Reads.of data) = none ∧ o.assignment? host environ = none ∧
      applyOverride host environ data o = .ok data) ∨
    (∃ e, o.failure? host environ (Reads.of data) = some e ∧
      applyOverride host environ data o = .error e) ∨
    ∃ a after, o.failure? host environ (Reads.of data) = none ∧
      o.assignment? host environ = some a ∧ data.assign a.value a.key a.path = some after ∧
      applyOverride host environ data o = .ok after := by
  unfold failure? assignment? applyOverride
  cases environ.get? o.name with
  | none => simp
  | some text =>
    cases hconvert : o.converter.convert host text with
    | error reason => simp [hconvert]
    | ok value =>
      by_cases hread : data.read o.keys = some none
      · obtain ⟨after, hassign⟩ : ∃ after, data.assign value (.text o.key) o.keys = some after :=
          Nested.exists_assign.mpr hread
        simp [hconvert, Reads.of, hread, hassign, Except.toOption]
      · have hassign : data.assign value (.text o.key) o.keys = none := by
          by_contra hsome
          exact hread (Nested.exists_assign.mp (Option.ne_none_iff_exists'.mp hsome))
        simp [hconvert, Reads.of, hread, hassign]

theorem failure?_congr {reads reads' : Reads} (h : reads' o.keys = reads o.keys) :
    o.failure? host environ reads' = o.failure? host environ reads := by
  unfold failure?
  rw [h]

end EnvOverride

section Loop
variable {host : ConfigHost} {environ : Dict String String}

/-- Each override meets what the file has, so the first that fails on that ends the loop. Without
one, the values lie over the file. -/
theorem foldlM_applyOverride {table : List EnvOverride} (hapart : table.Pairwise EnvOverride.Apart)
    (data : Loaded) :
    (∃ e, table.findSome? (EnvOverride.failure? host environ (Reads.of data)) = some e ∧
      table.foldlM (applyOverride host environ) data = .error e) ∨
    table.findSome? (EnvOverride.failure? host environ (Reads.of data)) = none ∧
      ∃ after, table.foldlM (applyOverride host environ) data = .ok after ∧
        Reads.of after =
          laidOver (table.filterMap (EnvOverride.assignment? host environ)) (Reads.of data) := by
  induction table generalizing data with
  | nil => exact Or.inr ⟨rfl, data, rfl, rfl⟩
  | cons o table ih =>
    obtain ⟨hfirst, hrest⟩ := List.pairwise_cons.mp hapart
    rw [List.findSome?_cons, List.foldlM_cons, List.filterMap_cons]
    rcases EnvOverride.applyOverride_cases host environ o data with
      ⟨hfailure, hassignment, happly⟩ | ⟨e, hfailure, happly⟩ |
      ⟨a, after, hfailure, hassignment, hassign, happly⟩
    · rw [hfailure, hassignment, happly]
      exact ih hrest data
    · rw [hfailure, happly]
      exact Or.inl ⟨e, rfl, rfl⟩
    · rw [hfailure, hassignment, happly]
      obtain ⟨hpath, hkey⟩ := EnvOverride.assignment?_eq_some hassignment
      have hplaces : ∀ b ∈ table.filterMap (EnvOverride.assignment? host environ),
          a.Apart b := by
        intro b hb
        obtain ⟨o', ho', hb⟩ := List.mem_filterMap.mp hb
        obtain ⟨hpath', hkey'⟩ := EnvOverride.assignment?_eq_some hb
        unfold Assignment.Apart Assignment.place
        rw [hpath, hkey, hpath', hkey']
        exact hfirst o' ho'
      -- the failures of the others do not see the value that is assigned
      have hfailures : table.findSome? (EnvOverride.failure? host environ (Reads.of after)) =
          table.findSome? (EnvOverride.failure? host environ (Reads.of data)) := by
        rw [← List.head?_filterMap, ← List.head?_filterMap]
        apply congrArg List.head?
        apply List.filterMap_congr
        intro o' ho'
        apply EnvOverride.failure?_congr
        have hbeside : ¬ a.path ++ [a.key] <+: o'.keys := by
          intro hwithin
          rw [hpath, hkey] at hwithin
          exact (hfirst o' ho').1 (hwithin.trans (List.prefix_append _ _))
        exact (Nested.read_assign hassign o'.keys).trans (if_neg hbeside)
      have hlayers : laidOver (table.filterMap (EnvOverride.assignment? host environ))
          (Reads.of after) =
          laidOver (a :: table.filterMap (EnvOverride.assignment? host environ))
            (Reads.of data) :=
        funext fun other => Nested.laidOver_cons hassign hplaces
      have hnext := ih hrest after
      rw [hfailures, hlayers] at hnext
      exact hnext

end Loop

section Layers
variable (host : ConfigHost)

/-- The assignments of an environment. -/
def assignments (environ : Option (Dict String String)) : List (Assignment Key Scalar) :=
  match environ with
  | none => []
  | some environ => envOverrides.filterMap (EnvOverride.assignment? host environ)

/-- What is wrong with the environment on what was loaded, the first thing first. -/
def environmentFailure? (environ : Option (Dict String String)) (reads : Reads) :
    Option ConfigurationError :=
  match environ with
  | none => none
  | some environ =>
    if unknownOverrides environ ≠ [] then
      some ⟨"unknown configuration environment override(s): " ++
        ", ".intercalate (unknownOverrides environ)⟩
    else envOverrides.findSome? (EnvOverride.failure? host environ reads)

variable {host}

theorem validateSettings_eq_ok {data : Loaded} {settings : SystemSettings host} :
    validateSettings host data = .ok settings ↔
      SystemSettings.Describes host (Reads.of data) settings := by
  rw [← systemValidate_eq_some]
  unfold validateSettings
  cases SystemSettings.validate host data <;> simp

theorem validateSettings_error {data : Loaded} {e : ConfigurationError}
    (h : validateSettings host data = .error e) : ∃ errors, e = formatValidationError errors := by
  unfold validateSettings at h
  cases hvalidate : SystemSettings.validate host data with
  | none =>
    rw [hvalidate] at h
    exact ⟨_, (Except.error.inj h).symm⟩
  | some settings =>
    rw [hvalidate] at h
    cases h

variable (host) in
/-- The environment fails on the file as it is, or its values lie over what is validated. -/
theorem settingsOf_cases (environ : Option (Dict String String)) (data : Loaded) :
    (∃ e, environmentFailure? host environ (Reads.of data) = some e ∧
      settingsOf host environ data = .error e) ∨
    environmentFailure? host environ (Reads.of data) = none ∧
      ∃ after, Reads.of after = laidOver (assignments host environ) (Reads.of data) ∧
        settingsOf host environ data = validateSettings host after := by
  cases environ with
  | none => exact Or.inr ⟨rfl, data, rfl, rfl⟩
  | some environ =>
    unfold environmentFailure? settingsOf applyEnvironmentOverrides assignments
    dsimp only
    by_cases hunknown : unknownOverrides environ = []
    · rw [if_neg (not_not.mpr hunknown), if_neg (not_not.mpr hunknown)]
      rcases foldlM_applyOverride EnvOverride.envOverrides_apart data with
        ⟨e, hfailure, hloop⟩ | ⟨hfailure, after, hloop, hreads⟩
      · rw [hloop]
        exact Or.inl ⟨e, hfailure, rfl⟩
      · rw [hloop]
        exact Or.inr ⟨hfailure, after, hreads, rfl⟩
    · rw [if_pos hunknown, if_pos hunknown]
      exact Or.inl ⟨_, rfl, rfl⟩

/-- An override looks for its mapping where no other value is laid. -/
theorem environmentFailure?_congr {environ : Option (Dict String String)} {reads reads' : Reads}
    (h : ∀ path, (∀ a ∈ assignments host environ, ¬ a.place <+: path) → reads' path = reads path) :
    environmentFailure? host environ reads' = environmentFailure? host environ reads := by
  cases environ with
  | none => rfl
  | some environ =>
    have hfailures : envOverrides.findSome? (EnvOverride.failure? host environ reads') =
        envOverrides.findSome? (EnvOverride.failure? host environ reads) := by
      rw [← List.head?_filterMap, ← List.head?_filterMap]
      apply congrArg List.head?
      apply List.filterMap_congr
      intro o ho
      apply EnvOverride.failure?_congr
      apply h
      intro a ha hwithin
      obtain ⟨o', ho', ha⟩ := List.mem_filterMap.mp ha
      obtain ⟨hpath, hkey⟩ := EnvOverride.assignment?_eq_some ha
      unfold Assignment.place at hwithin
      rw [hpath, hkey] at hwithin
      exact EnvOverride.envOverrides_beside o' ho' o ho hwithin
    unfold environmentFailure?
    dsimp only
    rw [hfailures]

variable (host)

/-- The environment lies over the file. What is wrong with it is found on the file as it is. Without
a failure every setting has one source: its variable, if that is set, and else the file. What the
file has in the place of a variable that is set counts for nothing. -/
theorem environment_lies_over_file (path : String) (entries : List (Key × Loaded))
    (environ : Option (Dict String String)) :
    let reads := Reads.of (.mapping entries)
    let load := fun entries => loadSettings host path (.loaded (.mapping entries)) environ
    (∀ e, environmentFailure? host environ reads = some e →
      load entries = .error (.configuration e)) ∧
    (environmentFailure? host environ reads = none →
      (∀ settings, load entries = .ok settings ↔ SystemSettings.Describes host
        (laidOver (assignments host environ) reads) settings) ∧
      ∀ raised, load entries = .error raised →
        ∃ errors, raised = .configuration (formatValidationError errors)) ∧
    ∀ other, (∀ path, (∀ a ∈ assignments host environ, ¬ a.place <+: path) →
        Reads.of (.mapping other) path = reads path) →
      ∀ settings, load other = .ok settings ↔ load entries = .ok settings := by
  intro reads load
  have hload (entries : List (Key × Loaded)) :
      load entries = (settingsOf host environ (.mapping entries)).mapError .configuration := rfl
  have hok (entries : List (Key × Loaded)) (settings : SystemSettings host) :
      load entries = .ok settings ↔
        environmentFailure? host environ (Reads.of (.mapping entries)) = none ∧
          SystemSettings.Describes host
            (laidOver (assignments host environ) (Reads.of (.mapping entries))) settings := by
    rw [hload]
    rcases settingsOf_cases host environ (.mapping entries) with
      ⟨e, hfailure, hsettings⟩ | ⟨hfailure, after, hreads, hsettings⟩
    · simp [hsettings, hfailure, Except.mapError]
    · rw [hsettings, hfailure, ← hreads, ← validateSettings_eq_ok]
      cases validateSettings host after <;> simp [Except.mapError]
  refine ⟨fun e hfailure => ?_, fun hfailure => ⟨fun settings => ?_, fun raised hraised => ?_⟩,
    fun other hother settings => ?_⟩
  · rcases settingsOf_cases host environ (.mapping entries) with
      ⟨e', hfailure', hsettings⟩ | ⟨hfailure', -⟩
    · obtain rfl := Option.some.inj (hfailure.symm.trans hfailure')
      rw [hload, hsettings]
      rfl
    · cases hfailure.symm.trans hfailure'
  · rw [hok entries settings]
    exact and_iff_right hfailure
  · rcases settingsOf_cases host environ (.mapping entries) with
      ⟨e, hfailure', -⟩ | ⟨-, after, -, hsettings⟩
    · cases hfailure.symm.trans hfailure'
    · rw [hload, hsettings] at hraised
      cases hvalidate : validateSettings host after with
      | ok settings =>
        rw [hvalidate] at hraised
        cases hraised
      | error e =>
        obtain ⟨errors, rfl⟩ := validateSettings_error hvalidate
        rw [hvalidate] at hraised
        exact ⟨errors, (Except.error.inj hraised).symm⟩
  · have hlayers : laidOver (assignments host environ) (Reads.of (.mapping other)) =
        laidOver (assignments host environ) reads := by
      funext path
      unfold laidOver
      cases hfind : (assignments host environ).find? (fun a => decide (a.place <+: path)) with
      | some a => rfl
      | none =>
        rw [List.find?_eq_none] at hfind
        exact hother path fun a ha => by simpa using hfind a ha
    rw [hok, hok, hlayers, environmentFailure?_congr hother]

end Layers

end SecureEdge.Config
