import SecureEdgeVision.Contracts.Validate
import SecureEdgeVision.Json.Hooks

/-! The wire grammar: which document trees stand for which values of the contracts, by the
fields that an object holds and whatever their order. Strict validation accepts exactly these. -/
namespace SecureEdge

open Json (Tree Literal NumberToken PyNumber Value Represents closedFields required optional
  nullable listOf field? field?_eq_some)
open Python (Str Datetime fromisoformat)
open Binary64 (Finite)

/-- The value of a literal: an `int` within the digit limit or a finite `float`. -/
def readNumber : Literal → Option PyNumber
  | .number token =>
    if token.isFloat then token.toFloat?.map .float else token.toInt?.map .int
  | .constant _ => none

def IsString (s : String) (tree : Tree) : Prop := tree = .string (Str.ofString s)

def IsInteger (n : ℤ) (tree : Tree) : Prop :=
  ∃ literal, tree = .number literal ∧ readNumber literal = some (.int n)

/-- An integer literal counts, correctly rounded. -/
def IsFloat (x : Finite) (tree : Tree) : Prop :=
  ∃ literal, tree = .number literal ∧ (readNumber literal = some (.float x) ∨
    ∃ n, readNumber literal = some (.int n) ∧ Binary64.ofInt n = some x)

/-- ISO text with offset zero. -/
def IsTimestamp (t : UtcTimestamp) (tree : Tree) : Prop :=
  ∃ text value, tree = .string text ∧ fromisoformat text = some value ∧ value.offset = some 0 ∧
    t.instant.micros = value.micros ∧ t.zone = .utc

section Grammar
variable {α : Type}

def IsNullable (P : α → Tree → Prop) : Option α → Tree → Prop
  | none, tree => tree = .null
  | some x, tree => P x tree

def IsListOf (P : α → Tree → Prop) (xs : List α) (tree : Tree) : Prop :=
  ∃ items, tree = .array items ∧ List.Forall₂ P xs items

/-- The object has such a field. -/
def Field (fields : List (Str × Tree)) (key : String) (P : Tree → Prop) : Prop :=
  ∃ v, (Str.ofString key, v) ∈ fields ∧ P v

/-- An object with no fields but these. -/
def IsRecord (names : List String) (body : List (Str × Tree) → Prop) (tree : Tree) : Prop :=
  ∃ fields, tree = .object fields ∧ (∀ x ∈ fields, x.1 ∈ names.map Str.ofString) ∧ body fields

end Grammar

def IsIdentifier (s : SafeIdentifier) : Tree → Prop := IsString s.text

def IsName (s : NonBlankName) : Tree → Prop := IsString s.text

def IsNatural (n : ℕ) : Tree → Prop := IsInteger n

def IsPositive (n : ℕ+) : Tree → Prop := IsInteger (n : ℕ)

def IsMetric (x : NonNegativeFloat) : Tree → Prop := IsFloat x.value

def IsCoordinate (x : NormalizedCoordinate) : Tree → Prop := IsFloat x.value

def IsBoundingBox (b : NormalizedBoundingBox) : Tree → Prop :=
  IsListOf IsCoordinate [b.xMin, b.yMin, b.xMax, b.yMax]

def IsModelMetadata (m : ModelMetadata) : Tree → Prop :=
  IsRecord ["name", "sha256"] fun fields =>
    Field fields "name" (IsName m.name) ∧ Field fields "sha256" (IsString m.sha256.text)

def IsFrameMetadata (f : FrameMetadata) : Tree → Prop :=
  IsRecord ["width", "height"] fun fields =>
    Field fields "width" (IsPositive f.width) ∧ Field fields "height" (IsPositive f.height)

/-- The track may be null or absent. -/
def IsDetection (d : Detection) : Tree → Prop :=
  IsRecord ["class_id", "class_name", "confidence", "bbox_xyxy_norm", "track_id"] fun fields =>
    Field fields "class_id" (IsNatural d.classId) ∧
    Field fields "class_name" (IsName d.className) ∧
    Field fields "confidence" (IsCoordinate d.confidence) ∧
    Field fields "bbox_xyxy_norm" (IsBoundingBox d.bboxXyxyNorm) ∧
    (Field fields "track_id" (IsNullable IsNatural d.trackId) ∨
      d.trackId = none ∧ ∀ x ∈ fields, x.1 ≠ Str.ofString "track_id")

def IsPerformanceMetrics (p : PerformanceMetrics) : Tree → Prop :=
  IsRecord ["decode_ms", "inference_ms", "postprocess_ms"] fun fields =>
    Field fields "decode_ms" (IsMetric p.decodeMs) ∧
    Field fields "inference_ms" (IsMetric p.inferenceMs) ∧
    Field fields "postprocess_ms" (IsMetric p.postprocessMs)

def IsDetectionEvent (e : DetectionEvent) : Tree → Prop :=
  IsRecord ["schema_version", "event_id", "node_id", "camera_id", "timestamp_utc", "nonce",
    "frame_seq", "job_id", "mode", "model", "frame", "detections", "performance"] fun fields =>
    Field fields "schema_version" (IsString e.schemaVersion.text) ∧
    Field fields "event_id" (IsIdentifier e.eventId) ∧
    Field fields "node_id" (IsIdentifier e.nodeId) ∧
    Field fields "camera_id" (IsIdentifier e.cameraId) ∧
    Field fields "timestamp_utc" (IsTimestamp e.timestampUtc) ∧
    Field fields "nonce" (IsIdentifier e.nonce) ∧
    Field fields "frame_seq" (IsNatural e.frameSeq) ∧
    Field fields "job_id" (IsNullable IsIdentifier e.jobId) ∧
    Field fields "mode" (IsString e.mode.text) ∧
    Field fields "model" (IsModelMetadata e.model) ∧
    Field fields "frame" (IsFrameMetadata e.frame) ∧
    Field fields "detections" (IsListOf IsDetection e.detections) ∧
    Field fields "performance" (IsPerformanceMetrics e.performance)

def IsSignedDetectionEnvelope (e : SignedDetectionEnvelope) : Tree → Prop :=
  IsRecord ["body", "signature_algorithm", "signature_b64"] fun fields =>
    Field fields "body" (IsDetectionEvent e.body) ∧
    Field fields "signature_algorithm" (IsString e.signatureAlgorithm.text) ∧
    Field fields "signature_b64" (IsString e.signatureB64.text)

section Shapes
variable {tree : Tree} {data : Data}

theorem represents_string (h : Represents readNumber tree data) (s : Str) :
    data = .string s ↔ tree = .string s := by
  unfold Represents at h
  cases tree <;> cases data <;> simp_all [Value.mapNumbers]

theorem represents_null (h : Represents readNumber tree data) :
    data = .null ↔ tree = .null := by
  unfold Represents at h
  cases tree <;> cases data <;> simp_all [Value.mapNumbers]

theorem represents_number (h : Represents readNumber tree data) (n : PyNumber) :
    data = .number n ↔ ∃ literal, tree = .number literal ∧ readNumber literal = some n := by
  unfold Represents at h
  cases tree <;> cases data <;> simp_all [Value.mapNumbers]

theorem represents_array (h : Represents readNumber tree data) :
    (∃ items values, tree = .array items ∧ data = .array values ∧
      List.Forall₂ (Represents readNumber) items values) ∨
    (∀ items, tree ≠ .array items) ∧ ∀ values, data ≠ .array values := by
  unfold Represents at h
  cases tree with
  | array items =>
    cases data with
    | array values =>
      refine Or.inl ⟨items, values, rfl, rfl, ?_⟩
      simp only [Value.mapNumbers, Value.mapNumbersItems_eq, Value.array.injEq] at h
      have hsame := List.forall₂_eq_eq_eq.symm ▸ h
      rwa [List.forall₂_map_left_iff, List.forall₂_map_right_iff] at hsame
    | _ => simp [Value.mapNumbers] at h
  | _ => cases data <;> simp_all [Value.mapNumbers]

theorem represents_object (h : Represents readNumber tree data) :
    (∃ fields values, tree = .object fields ∧ data = .object values ∧
      Value.mapNumbersFields readNumber fields = Value.mapNumbersFields some values) ∨
    (∀ fields, tree ≠ .object fields) ∧ ∀ values, data ≠ .object values := by
  unfold Represents at h
  cases tree with
  | object fields =>
    cases data with
    | object values =>
      simp only [Value.mapNumbers, Value.object.injEq] at h
      exact Or.inl ⟨fields, values, rfl, rfl, h⟩
    | _ => simp [Value.mapNumbers] at h
  | _ => cases data <;> simp_all [Value.mapNumbers]

end Shapes

/-- The trees that strict decoding reads. -/
abbrev Readable (tree : Tree) : Prop := tree.Clean fun n => (readNumber n).isSome

/-- The validator accepts what the grammar says, and returns the value it stands for. -/
def Decides {α : Type} (validate : Data → Option α) (P : α → Tree → Prop) : Prop :=
  ∀ tree data, Readable tree → Represents readNumber tree data →
    ∀ x, validate data = some x ↔ P x tree

section Leaves

theorem validateStr_eq_some {data : Data} {s : String} :
    validateStr data = some s ↔ data = .string (Str.ofString s) := by
  cases data with
  | string text => simp [validateStr, Str.toString?_eq_some]
  | _ => simp [validateStr]

theorem validateInt_eq_some {data : Data} {n : ℤ} :
    validateInt data = some n ↔ data = .number (.int n) := by
  cases data with
  | number m => cases m <;> simp [validateInt]
  | _ => simp [validateInt]

theorem validateFloat_eq_some {data : Data} {x : Finite} :
    validateFloat data = some x ↔
      data = .number (.float x) ∨ ∃ n, data = .number (.int n) ∧ Binary64.ofInt n = some x := by
  cases data with
  | number m => cases m <;> simp [validateFloat, Binary64.ofInt]
  | _ => simp [validateFloat]

/-- A text with a property of its own. -/
theorem decides_text {α : Type} {valid : String → Bool} {build : ∀ s, valid s = true → α}
    {text : α → String} (hvalid : ∀ x, valid (text x) = true)
    (hbuild : ∀ s h x, build s h = x ↔ s = text x) :
    Decides (fun data => do
      let s ← validateStr data
      if h : valid s = true then some (build s h) else none) fun x => IsString (text x) := by
  intro tree data _ hrep x
  simp only [Option.bind_eq_bind, Option.bind_eq_some_iff, validateStr_eq_some,
    represents_string hrep, IsString]
  constructor
  · rintro ⟨s, hs, h⟩
    split_ifs at h with hok
    rw [← (hbuild s hok x).mp (Option.some.inj h)]
    exact hs
  · intro h
    refine ⟨text x, h, ?_⟩
    rw [dif_pos (hvalid x), (hbuild _ _ x).mpr rfl]

theorem decides_literal (text : String) :
    Decides (validateLiteral text) fun _ => IsString text := by
  intro tree data _ hrep x
  unfold validateLiteral
  simp only [Option.bind_eq_bind, Option.bind_eq_some_iff, validateStr_eq_some,
    represents_string hrep, IsString]
  constructor
  · rintro ⟨s, hs, h⟩
    split_ifs at h with hok
    exact hok ▸ hs
  · exact fun h => ⟨text, h, if_pos rfl⟩

theorem decides_identifier : Decides validateSafeIdentifier IsIdentifier :=
  decides_text (fun s => s.valid) fun _ _ _ =>
    ⟨fun hx => congrArg SafeIdentifier.text hx, fun hs => SafeIdentifier.ext hs⟩

theorem decides_name : Decides validateNonBlankName IsName :=
  decides_text (fun s => s.valid) fun s h x => by cases x; simp

theorem decides_sha256 : Decides validateSha256Hex fun x => IsString x.text :=
  decides_text (fun s => s.valid) fun s h x => by cases x; simp

theorem decides_signature :
    Decides (validateText validateSignatureB64) fun x => IsString x.text := by
  intro tree data _ hrep x
  unfold validateText
  simp only [Option.bind_eq_bind, Option.bind_eq_some_iff, validateStr_eq_some,
    represents_string hrep, IsString]
  constructor
  · rintro ⟨s, hs, h⟩
    cases hvalid : validateSignatureB64 s with
    | error e =>
      rw [hvalid] at h
      cases h
    | ok base64 =>
      rw [hvalid] at h
      obtain rfl := Option.some.inj h
      rw [validateCanonicalBase64_eq_ok hvalid]
      exact hs
  · refine fun h => ⟨x.text, h, ?_⟩
    rw [validateSignatureB64, validateCanonicalBase64_text]
    rfl

theorem decides_integer : Decides validateInt IsInteger := by
  intro tree data _ hrep n
  rw [validateInt_eq_some, represents_number hrep]
  rfl

theorem decides_float : Decides validateFloat IsFloat := by
  intro tree data _ hrep x
  rw [validateFloat_eq_some, represents_number hrep]
  simp only [represents_number hrep, IsFloat]
  constructor
  · rintro (⟨literal, htree, h⟩ | ⟨n, ⟨literal, htree, h⟩, hn⟩)
    · exact ⟨literal, htree, Or.inl h⟩
    · exact ⟨literal, htree, Or.inr ⟨n, h, hn⟩⟩
  · rintro ⟨literal, htree, h | ⟨n, h, hn⟩⟩
    · exact Or.inl ⟨literal, htree, h⟩
    · exact Or.inr ⟨n, ⟨literal, htree, h⟩, hn⟩

theorem decides_natural : Decides validateNonNegativeInt IsNatural := by
  intro tree data hclean hrep x
  unfold validateNonNegativeInt
  simp only [Option.bind_eq_bind, Option.bind_eq_some_iff, decides_integer tree data hclean hrep]
  constructor
  · rintro ⟨n, hn, h⟩
    split_ifs at h with hpos
    obtain rfl := Option.some.inj h
    rw [IsNatural, Int.toNat_of_nonneg hpos]
    exact hn
  · exact fun h => ⟨x, h, by simp⟩

theorem decides_positive : Decides validatePositiveInt IsPositive := by
  intro tree data hclean hrep x
  unfold validatePositiveInt
  simp only [Option.bind_eq_bind, Option.bind_eq_some_iff, decides_integer tree data hclean hrep]
  constructor
  · rintro ⟨n, hn, h⟩
    split_ifs at h with hpos
    obtain rfl := Option.some.inj h
    show IsInteger (n.toNat : ℤ) tree
    rw [Int.toNat_of_nonneg hpos.le]
    exact hn
  · refine fun h => ⟨(x : ℕ), h, ?_⟩
    have hpos : (0 : ℤ) < (x : ℕ) := by exact_mod_cast x.pos
    rw [dif_pos hpos]
    exact congrArg some (PNat.eq (Int.toNat_natCast _))

theorem decides_metric : Decides validateNonNegativeFloat IsMetric := by
  intro tree data hclean hrep x
  unfold validateNonNegativeFloat
  simp only [Option.bind_eq_bind, Option.bind_eq_some_iff, decides_float tree data hclean hrep]
  constructor
  · rintro ⟨y, hy, h⟩
    split_ifs at h with hpos
    obtain rfl := Option.some.inj h
    exact hy
  · exact fun h => ⟨x.value, h, by rw [dif_pos x.nonneg]⟩

theorem decides_coordinate : Decides validateNormalizedCoordinate IsCoordinate := by
  intro tree data hclean hrep x
  unfold validateNormalizedCoordinate
  simp only [Option.bind_eq_bind, Option.bind_eq_some_iff, decides_float tree data hclean hrep]
  constructor
  · rintro ⟨y, hy, h⟩
    split_ifs at h with hbounds
    obtain rfl := Option.some.inj h
    exact hy
  · exact fun h => ⟨x.value, h, by rw [dif_pos ⟨x.nonneg, x.le_one⟩]⟩

theorem decides_timestamp : Decides validateUtcTimestamp IsTimestamp := by
  intro tree data _ hrep x
  constructor
  · intro h
    obtain ⟨value, hvalue, h⟩ := Option.bind_eq_some_iff.mp h
    cases data with
    | string text =>
      unfold parseWireTimestamp at hvalue
      obtain ⟨parsed, hvalid, hparsed, rfl⟩ := Option.pmap_eq_some_iff.mp hvalue
      unfold requireUtc at h
      split_ifs at h with hoffset
      obtain rfl := Option.some.inj h
      exact ⟨text, parsed, (represents_string hrep text).mp rfl, hparsed, hoffset, rfl, rfl⟩
    | _ => cases hvalue
  · rintro ⟨text, value, htree, hvalue, hoffset, hmicros, hzone⟩
    obtain rfl := (represents_string hrep text).mpr htree
    unfold validateUtcTimestamp parseWireTimestamp
    simp only [hvalue, Option.pmap_some, Option.bind_some, requireUtc, hoffset, ↓reduceIte,
      Option.some.injEq]
    obtain ⟨⟨micros, hmax⟩, zone⟩ := x
    simp only at hmicros hzone
    subst hmicros hzone
    rfl

end Leaves

end SecureEdge
