import SecureEdgeVision.Aggregator.Request
import SecureEdgeVision.Python.Case
import SecureEdgeVision.Python.Nested
import SecureEdgeVision.Security.Policy

/-! The system settings and their strict validation. It depends on what a loaded mapping holds at
each path of keys, and on nothing else. -/
namespace SecureEdge.Config

open Binary64 (Finite)
open Python (CaseTable Nested)

/-- A key of a loaded mapping. -/
inductive Key where
  | text (s : String)
  | other (n : ℕ)
deriving DecidableEq

inductive PyFloat where
  | finite (x : Finite)
  | infinite (negative : Bool)
  | nan
deriving DecidableEq

/-- A loaded value that is no mapping. -/
inductive Scalar where
  | text (s : String)
  | int (n : ℤ)
  | float (x : PyFloat)
  | other
deriving DecidableEq

/-- What YAML loads from a document in which no alias puts a mapping in a second place. -/
abbrev Loaded := Nested Key Scalar

/-- What loading rests on: `int` and `float` of a text (or the text of their `ValueError`), lower
case, and what the validation library makes of URLs, of a NaN, and of a document it refuses. -/
structure ConfigHost where
  parseInt : String → Except String ℤ
  parseFloat : String → Except String PyFloat
  caseTable : CaseTable
  Url : Type
  parseUrl : String → Option Url
  username : Url → Option String
  password : Url → Option String
  query : Url → Option String
  fragment : Url → Option String
  path : Url → Option String
  nanPasses : Bool
  errors : Loaded → List (List String × String)

section Fields

def boundedInt (low high : ℕ) : Scalar → Option {n : ℕ // low ≤ n ∧ n ≤ high}
  | .int n =>
    if h : (low : ℤ) ≤ n ∧ n ≤ high then some ⟨n.toNat, by omega, by omega⟩ else none
  | _ => none

/-- The bounds of a float field: at least or above the first, at most the second. -/
structure Bounds where
  low : ℕ
  above : Bool
  high : ℕ
deriving DecidableEq

def Bounds.Admits (bounds : Bounds) (x : Finite) : Prop :=
  (if bounds.above then (bounds.low * Binary64.unitsPerOne : ℤ) < x.units
    else (bounds.low * Binary64.unitsPerOne : ℤ) ≤ x.units) ∧
  x.units ≤ bounds.high * Binary64.unitsPerOne

instance (bounds : Bounds) (x : Finite) : Decidable (bounds.Admits x) :=
  inferInstanceAs (Decidable (_ ∧ _))

/-- The value of a float field. It is missing for a NaN. -/
structure BoundedFloat (bounds : Bounds) where
  value : Option Finite
  within : ∀ x ∈ value, bounds.Admits x

def withinBounds (bounds : Bounds) (x : Finite) : Option (BoundedFloat bounds) :=
  if h : bounds.Admits x then some ⟨some x, by simpa using h⟩ else none

def boundedFloat (host : ConfigHost) (bounds : Bounds) : Scalar → Option (BoundedFloat bounds)
  | .int n => (Binary64.ofInt n).bind (withinBounds bounds)
  | .float (.finite x) => withinBounds bounds x
  | .float .nan => if host.nanPasses then some ⟨none, by simp⟩ else none
  | _ => none

def boundedText (low high : ℕ) : Scalar → Option String
  | .text s => if low ≤ s.length ∧ s.length ≤ high then some s else none
  | _ => none

def literal {α : Type} (text : String) (a : α) (value : Scalar) : Option α :=
  if value = .text text then some a else none

/-- `Path(text).name` -/
def pathName (text : List Char) : List Char :=
  (((text.splitOn '/').filter fun part => part ≠ [] ∧ part ≠ ['.']).getLast?).getD []

def IsNanoWeights (table : CaseTable) (candidate : String) : Prop :=
  candidate.toList ≠ [] ∧ "n.pt".toList <:+ table.lowerText (pathName candidate.toList)

instance (table : CaseTable) (candidate : String) : Decidable (IsNanoWeights table candidate) :=
  inferInstanceAs (Decidable (_ ∧ _))

/-- `VisionSettings.require_nano_weights` -/
def requireNanoWeights (table : CaseTable) (value : String) :
    Option {candidate : String // IsNanoWeights table candidate} :=
  let candidate := String.ofList (strip value.toList)
  if h : IsNanoWeights table candidate then some ⟨candidate, h⟩ else none

/-- `VisionSettings.normalize_device` -/
def normalizeDevice (value : String) : Option {candidate : String // candidate.toList ≠ []} :=
  let candidate := String.ofList (strip value.toList)
  if h : candidate.toList ≠ [] then some ⟨candidate, h⟩ else none

def IsOrigin (host : ConfigHost) (url : host.Url) : Prop :=
  host.username url = none ∧ host.password url = none ∧ host.query url = none ∧
    host.fragment url = none ∧ host.path url ∈ [none, some "", some "/"]

instance (host : ConfigHost) (url : host.Url) : Decidable (IsOrigin host url) :=
  inferInstanceAs (Decidable (_ ∧ _))

/-- `SystemSettings.reject_url_credentials` -/
def rejectUrlCredentials (host : ConfigHost) (url : host.Url) :
    Option {url : host.Url // IsOrigin host url} :=
  if h : IsOrigin host url then some ⟨url, h⟩ else none

def originUrl (host : ConfigHost) : Scalar → Option {url : host.Url // IsOrigin host url}
  | .text s => (host.parseUrl s).bind (rejectUrlCredentials host)
  | _ => none

end Fields

def Bounds.probability : Bounds := ⟨0, false, 1⟩
def Bounds.positiveProbability : Bounds := ⟨0, true, 1⟩
def Bounds.sampleFps : Bounds := ⟨0, true, 120⟩
def Bounds.requestTimeoutSeconds : Bounds := ⟨0, true, 120⟩
def Bounds.heartbeatIntervalSeconds : Bounds := ⟨0, true, 3600⟩

structure VisionSettings (host : ConfigHost) where
  model : {candidate : String // IsNanoWeights host.caseTable candidate}
  device : {candidate : String // candidate.toList ≠ []}
  imageSize : {n : ℕ // 32 ≤ n ∧ n ≤ 4096}
  confidence : BoundedFloat .positiveProbability
  frameSampleFps : BoundedFloat .sampleFps

structure TransportSettings where
  requestTimeoutSeconds : BoundedFloat .requestTimeoutSeconds
  heartbeatIntervalSeconds : BoundedFloat .heartbeatIntervalSeconds

inductive ConsensusPolicy where
  | trustWeighted
deriving DecidableEq

structure ConsensusSettings where
  policy : ConsensusPolicy
  iouThreshold : BoundedFloat .probability
  acceptThreshold : BoundedFloat .probability
  alpha : BoundedFloat .probability
  trustMin : BoundedFloat .probability

structure SystemSettings (host : ConfigHost) where
  mode : EventMode
  aggregatorUrl : {url : host.Url // IsOrigin host url}
  security : SecuritySettings
  vision : VisionSettings host
  transport : TransportSettings
  consensus : ConsensusSettings

section Validation
variable (host : ConfigHost)

/-- A mapping without keys other than these: `extra="forbid"`. -/
def closed (names : List String) : Loaded → Option (List (Key × Loaded))
  | .mapping entries => if ∀ x ∈ entries, x.1 ∈ names.map Key.text then some entries else none
  | .value _ => none

/-- A required field that is no model. -/
def field {α : Type} (name : String) (check : Scalar → Option α) (entries : List (Key × Loaded)) :
    Option α :=
  match Python.Entries.get? (.text name) entries with
  | some (.value value) => check value
  | _ => none

/-- A required field that is a model. -/
def model {α : Type} (name : String) (validate : Loaded → Option α)
    (entries : List (Key × Loaded)) : Option α :=
  (Python.Entries.get? (.text name) entries).bind validate

def securityFields : List String :=
  ["max_clock_skew_seconds", "nonce_ttl_seconds", "max_request_bytes"]

def SecuritySettings.validate (data : Loaded) : Option SecuritySettings := do
  let fields ← closed securityFields data
  let skew ← field "max_clock_skew_seconds" (boundedInt 1 3600) fields
  let ttl ← field "nonce_ttl_seconds" (boundedInt 1 86400) fields
  let size ← field "max_request_bytes" (boundedInt 1024 16777216) fields
  pure ⟨skew.1, ttl.1, size.1, skew.2, ttl.2, size.2⟩

def visionFields : List String :=
  ["model", "device", "image_size", "confidence", "frame_sample_fps"]

def modelName (value : Scalar) :
    Option {candidate : String // IsNanoWeights host.caseTable candidate} :=
  (boundedText 1 255 value).bind (requireNanoWeights host.caseTable)

def deviceName (value : Scalar) : Option {candidate : String // candidate.toList ≠ []} :=
  (boundedText 1 64 value).bind normalizeDevice

def VisionSettings.validate (data : Loaded) : Option (VisionSettings host) := do
  let fields ← closed visionFields data
  let model ← field "model" (modelName host) fields
  let device ← field "device" deviceName fields
  let imageSize ← field "image_size" (boundedInt 32 4096) fields
  let confidence ← field "confidence" (boundedFloat host .positiveProbability) fields
  let frameSampleFps ← field "frame_sample_fps" (boundedFloat host .sampleFps) fields
  pure ⟨model, device, imageSize, confidence, frameSampleFps⟩

def transportFields : List String := ["request_timeout_seconds", "heartbeat_interval_seconds"]

def TransportSettings.validate (data : Loaded) : Option TransportSettings := do
  let fields ← closed transportFields data
  let timeout ←
    field "request_timeout_seconds" (boundedFloat host .requestTimeoutSeconds) fields
  let interval ←
    field "heartbeat_interval_seconds" (boundedFloat host .heartbeatIntervalSeconds) fields
  pure ⟨timeout, interval⟩

def consensusFields : List String :=
  ["policy", "iou_threshold", "accept_threshold", "alpha", "trust_min"]

def ConsensusSettings.validate (data : Loaded) : Option ConsensusSettings := do
  let fields ← closed consensusFields data
  let policy ← field "policy" (literal "trust_weighted" ConsensusPolicy.trustWeighted) fields
  let iouThreshold ← field "iou_threshold" (boundedFloat host .probability) fields
  let acceptThreshold ← field "accept_threshold" (boundedFloat host .probability) fields
  let alpha ← field "alpha" (boundedFloat host .probability) fields
  let trustMin ← field "trust_min" (boundedFloat host .probability) fields
  pure ⟨policy, iouThreshold, acceptThreshold, alpha, trustMin⟩

def systemFields : List String :=
  ["mode", "aggregator_url", "security", "vision", "transport", "consensus"]

/-- `SystemSettings.model_validate` -/
def SystemSettings.validate (data : Loaded) : Option (SystemSettings host) := do
  let fields ← closed systemFields data
  let mode ← field "mode" (literal EventMode.privacy.text EventMode.privacy) fields
  let aggregatorUrl ← field "aggregator_url" (originUrl host) fields
  let security ← model "security" SecuritySettings.validate fields
  let vision ← model "vision" (VisionSettings.validate host) fields
  let transport ← model "transport" (TransportSettings.validate host) fields
  let consensus ← model "consensus" (ConsensusSettings.validate host) fields
  pure ⟨mode, aggregatorUrl, security, vision, transport, consensus⟩

end Validation

/-- What stands at each path of keys. -/
abbrev Reads := List Key → Option (Option Scalar)

def Reads.of (data : Loaded) : Reads := fun path => data.read path

/-- What stands at each path from a key on. -/
def Reads.below (reads : Reads) (name : String) : Reads := fun path => reads (.text name :: path)

/-- There is a mapping without keys other than these. -/
def Reads.Closed (reads : Reads) (names : List String) : Prop :=
  reads [] = some none ∧ ∀ key, reads [key] ≠ none → key ∈ names.map Key.text

def Reads.Field {α : Type} (reads : Reads) (name : String) (check : Scalar → Option α) (x : α) :
    Prop :=
  ∃ value, reads [.text name] = some (some value) ∧ check value = some x

section Reading
variable {α : Type} {data : Loaded} {entries : List (Key × Loaded)} {name : String}

theorem get?_ne_none {key : Key} :
    Python.Entries.get? key entries ≠ none ↔ ∃ x ∈ entries, x.1 = key := by
  induction entries with
  | nil => simp [Python.Entries.get?]
  | cons x entries ih =>
    obtain ⟨k, tree⟩ := x
    by_cases hkey : k = key <;> simp [Python.Entries.get?, hkey, ih]

theorem read_single (key : Key) :
    Reads.of (.mapping entries) [key] ≠ none ↔ ∃ x ∈ entries, x.1 = key := by
  rw [← get?_ne_none]
  unfold Reads.of
  cases hget : Python.Entries.get? key entries with
  | none => simp [hget]
  | some tree => cases tree <;> simp [hget]

theorem closed_eq_some {names : List String} : closed names data = some entries ↔
    data = .mapping entries ∧ (Reads.of data).Closed names := by
  cases data with
  | value v => simp [closed]
  | mapping others =>
    have hkeys : (Reads.of (.mapping others)).Closed names ↔
        ∀ x ∈ others, x.1 ∈ names.map Key.text := by
      simp only [Reads.Closed, read_single]
      constructor
      · intro h x hx
        exact h.2 x.1 ⟨x, hx, rfl⟩
      · intro h
        refine ⟨rfl, fun key hkey => ?_⟩
        obtain ⟨x, hx, rfl⟩ := hkey
        exact h x hx
    rw [hkeys]
    by_cases hall : ∀ x ∈ others, x.1 ∈ names.map Key.text
    · have hclosed : closed names (.mapping others) = some others := if_pos hall
      rw [hclosed, Option.some.injEq, Nested.mapping.injEq, and_iff_left hall]
    · have hclosed : closed names (.mapping others) = none := if_neg hall
      rw [hclosed]
      exact iff_of_false (by simp) fun h => hall h.2

theorem field_eq_some {check : Scalar → Option α} {x : α} :
    field name check entries = some x ↔ (Reads.of (.mapping entries)).Field name check x := by
  unfold field Reads.Field Reads.of
  cases hget : Python.Entries.get? (.text name) entries with
  | none => simp [hget]
  | some tree => cases tree <;> simp [hget]

theorem model_eq_some {validate : Loaded → Option α} {P : Reads → α → Prop}
    (hmapping : ∀ reads x, P reads x → reads [] = some none)
    (h : ∀ data x, validate data = some x ↔ P (Reads.of data) x) {x : α} :
    model name validate entries = some x ↔ P ((Reads.of (.mapping entries)).below name) x := by
  unfold model
  cases hget : Python.Entries.get? (.text name) entries with
  | none =>
    have hroot : ((Reads.of (.mapping entries)).below name) [] = none := by
      simp [Reads.below, Reads.of, hget]
    constructor
    · simp
    · intro hP
      rw [hmapping _ x hP] at hroot
      cases hroot
  | some inner =>
    have hbelow : (Reads.of (.mapping entries)).below name = Reads.of inner := by
      funext path
      simp [Reads.below, Reads.of, hget]
    rw [hbelow]
    exact h inner x

end Reading

section Description
variable (host : ConfigHost) (reads : Reads)

structure SecuritySettings.Describes (settings : SecuritySettings) : Prop where
  closed : reads.Closed securityFields
  skew : reads.Field "max_clock_skew_seconds" (boundedInt 1 3600)
    ⟨settings.maxClockSkewSeconds, settings.skew_bounds⟩
  ttl : reads.Field "nonce_ttl_seconds" (boundedInt 1 86400)
    ⟨settings.nonceTtlSeconds, settings.ttl_bounds⟩
  size : reads.Field "max_request_bytes" (boundedInt 1024 16777216)
    ⟨settings.maxRequestBytes, settings.size_bounds⟩

structure VisionSettings.Describes (settings : VisionSettings host) : Prop where
  closed : reads.Closed visionFields
  model : reads.Field "model" (modelName host) settings.model
  device : reads.Field "device" deviceName settings.device
  imageSize : reads.Field "image_size" (boundedInt 32 4096) settings.imageSize
  confidence : reads.Field "confidence" (boundedFloat host .positiveProbability)
    settings.confidence
  frameSampleFps : reads.Field "frame_sample_fps" (boundedFloat host .sampleFps)
    settings.frameSampleFps

structure TransportSettings.Describes (settings : TransportSettings) : Prop where
  closed : reads.Closed transportFields
  timeout : reads.Field "request_timeout_seconds" (boundedFloat host .requestTimeoutSeconds)
    settings.requestTimeoutSeconds
  interval : reads.Field "heartbeat_interval_seconds"
    (boundedFloat host .heartbeatIntervalSeconds) settings.heartbeatIntervalSeconds

structure ConsensusSettings.Describes (settings : ConsensusSettings) : Prop where
  closed : reads.Closed consensusFields
  policy : reads.Field "policy" (literal "trust_weighted" ConsensusPolicy.trustWeighted)
    settings.policy
  iouThreshold : reads.Field "iou_threshold" (boundedFloat host .probability)
    settings.iouThreshold
  acceptThreshold : reads.Field "accept_threshold" (boundedFloat host .probability)
    settings.acceptThreshold
  alpha : reads.Field "alpha" (boundedFloat host .probability) settings.alpha
  trustMin : reads.Field "trust_min" (boundedFloat host .probability) settings.trustMin

/-- Every setting is what its own path holds, and no path but theirs holds anything. -/
structure SystemSettings.Describes (settings : SystemSettings host) : Prop where
  closed : reads.Closed systemFields
  mode : reads.Field "mode" (literal EventMode.privacy.text EventMode.privacy) settings.mode
  aggregatorUrl : reads.Field "aggregator_url" (originUrl host) settings.aggregatorUrl
  security : SecuritySettings.Describes (reads.below "security") settings.security
  vision : VisionSettings.Describes host (reads.below "vision") settings.vision
  transport : TransportSettings.Describes host (reads.below "transport") settings.transport
  consensus : ConsensusSettings.Describes host (reads.below "consensus") settings.consensus

end Description

section Validated
variable (host : ConfigHost) {data : Loaded}

theorem securityValidate_eq_some (data : Loaded) (settings : SecuritySettings) :
    SecuritySettings.validate data = some settings ↔
      SecuritySettings.Describes (Reads.of data) settings := by
  simp only [SecuritySettings.validate, Option.bind_eq_bind, Option.bind_eq_some_iff,
    closed_eq_some, field_eq_some, Option.pure_def, Option.some.injEq]
  constructor
  · rintro ⟨entries, ⟨rfl, hclosed⟩, skew, hskew, ttl, httl, size, hsize, rfl⟩
    exact ⟨hclosed, hskew, httl, hsize⟩
  · intro h
    obtain ⟨entries, rfl⟩ := Nested.read_nil_eq_none_mapping.mp h.closed.1
    exact ⟨entries, ⟨rfl, h.closed⟩, _, h.skew, _, h.ttl, _, h.size, rfl⟩

theorem visionValidate_eq_some (data : Loaded) (settings : VisionSettings host) :
    VisionSettings.validate host data = some settings ↔
      VisionSettings.Describes host (Reads.of data) settings := by
  simp only [VisionSettings.validate, Option.bind_eq_bind, Option.bind_eq_some_iff,
    closed_eq_some, field_eq_some, Option.pure_def, Option.some.injEq]
  constructor
  · rintro ⟨entries, ⟨rfl, hclosed⟩, model, hmodel, device, hdevice, size, hsize, confidence,
      hconfidence, fps, hfps, rfl⟩
    exact ⟨hclosed, hmodel, hdevice, hsize, hconfidence, hfps⟩
  · intro h
    obtain ⟨entries, rfl⟩ := Nested.read_nil_eq_none_mapping.mp h.closed.1
    exact ⟨entries, ⟨rfl, h.closed⟩, _, h.model, _, h.device, _, h.imageSize, _, h.confidence, _,
      h.frameSampleFps, rfl⟩

theorem transportValidate_eq_some (data : Loaded) (settings : TransportSettings) :
    TransportSettings.validate host data = some settings ↔
      TransportSettings.Describes host (Reads.of data) settings := by
  simp only [TransportSettings.validate, Option.bind_eq_bind, Option.bind_eq_some_iff,
    closed_eq_some, field_eq_some, Option.pure_def, Option.some.injEq]
  constructor
  · rintro ⟨entries, ⟨rfl, hclosed⟩, timeout, htimeout, interval, hinterval, rfl⟩
    exact ⟨hclosed, htimeout, hinterval⟩
  · intro h
    obtain ⟨entries, rfl⟩ := Nested.read_nil_eq_none_mapping.mp h.closed.1
    exact ⟨entries, ⟨rfl, h.closed⟩, _, h.timeout, _, h.interval, rfl⟩

theorem consensusValidate_eq_some (data : Loaded) (settings : ConsensusSettings) :
    ConsensusSettings.validate host data = some settings ↔
      ConsensusSettings.Describes host (Reads.of data) settings := by
  simp only [ConsensusSettings.validate, Option.bind_eq_bind, Option.bind_eq_some_iff,
    closed_eq_some, field_eq_some, Option.pure_def, Option.some.injEq]
  constructor
  · rintro ⟨entries, ⟨rfl, hclosed⟩, policy, hpolicy, iou, hiou, accept, haccept, alpha, halpha,
      trust, htrust, rfl⟩
    exact ⟨hclosed, hpolicy, hiou, haccept, halpha, htrust⟩
  · intro h
    obtain ⟨entries, rfl⟩ := Nested.read_nil_eq_none_mapping.mp h.closed.1
    exact ⟨entries, ⟨rfl, h.closed⟩, _, h.policy, _, h.iouThreshold, _, h.acceptThreshold, _,
      h.alpha, _, h.trustMin, rfl⟩

/-- Validation accepts what the paths describe. -/
theorem systemValidate_eq_some (data : Loaded) (settings : SystemSettings host) :
    SystemSettings.validate host data = some settings ↔
      SystemSettings.Describes host (Reads.of data) settings := by
  have hsecurity (entries : List (Key × Loaded)) (x : SecuritySettings) :
      model "security" SecuritySettings.validate entries = some x ↔
        SecuritySettings.Describes ((Reads.of (.mapping entries)).below "security") x :=
    model_eq_some (fun _ _ h => h.closed.1) securityValidate_eq_some
  have hvision (entries : List (Key × Loaded)) (x : VisionSettings host) :
      model "vision" (VisionSettings.validate host) entries = some x ↔
        VisionSettings.Describes host ((Reads.of (.mapping entries)).below "vision") x :=
    model_eq_some (fun _ _ h => h.closed.1) (visionValidate_eq_some host)
  have htransport (entries : List (Key × Loaded)) (x : TransportSettings) :
      model "transport" (TransportSettings.validate host) entries = some x ↔
        TransportSettings.Describes host ((Reads.of (.mapping entries)).below "transport") x :=
    model_eq_some (fun _ _ h => h.closed.1) (transportValidate_eq_some host)
  have hconsensus (entries : List (Key × Loaded)) (x : ConsensusSettings) :
      model "consensus" (ConsensusSettings.validate host) entries = some x ↔
        ConsensusSettings.Describes host ((Reads.of (.mapping entries)).below "consensus") x :=
    model_eq_some (fun _ _ h => h.closed.1) (consensusValidate_eq_some host)
  simp only [SystemSettings.validate, Option.bind_eq_bind, Option.bind_eq_some_iff,
    closed_eq_some, field_eq_some, hsecurity, hvision, htransport, hconsensus, Option.pure_def,
    Option.some.injEq]
  constructor
  · rintro ⟨entries, ⟨rfl, hclosed⟩, mode, hmode, url, hurl, security, hsecurity, vision, hvision,
      transport, htransport, consensus, hconsensus, rfl⟩
    exact ⟨hclosed, hmode, hurl, hsecurity, hvision, htransport, hconsensus⟩
  · intro h
    obtain ⟨entries, rfl⟩ := Nested.read_nil_eq_none_mapping.mp h.closed.1
    exact ⟨entries, ⟨rfl, h.closed⟩, _, h.mode, _, h.aggregatorUrl, _, h.security, _, h.vision, _,
      h.transport, _, h.consensus, rfl⟩

end Validated

end SecureEdge.Config
