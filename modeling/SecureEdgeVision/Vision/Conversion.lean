import Mathlib.Data.Rat.Defs
import Mathlib.Data.List.OfFn
import SecureEdgeVision.Contracts.Wire
import SecureEdgeVision.Python.Raise
import SecureEdgeVision.Runs.Boxes

/-! Converting what the detector returned to detections, with rational numbers for its floats. -/
namespace SecureEdge

open Boxes (Box)

structure VisionError where
  message : String
deriving DecidableEq

/-- A plain Python value: `None`, a list or tuple, or what `float()` and the type check before it
make of anything else. -/
inductive RawValue where
  | none
  | list (items : List RawValue)
  | number (value : ℚ)
  | notFinite
  | notNumeric

/-- The value of an attribute that holds numbers. `_to_python` converts any object but `None`,
unless that raises. -/
inductive RawObject where
  | none
  | convertible (converted : Option RawValue)

/-- What `getattr` finds. -/
inductive Attribute (α : Type) where
  | missing
  | raises
  | present (value : α)

/-- An entry of the class names. -/
inductive NameValue where
  | text (name : String)
  | other
deriving DecidableEq

/-- What `get` of a mapping gives. -/
inductive NameLookup where
  | missing
  | raises
  | found (value : NameValue)

/-- Class names: `None`, a mapping looked up by class ID and by its text, a list or tuple, or
anything else. -/
inductive ClassNames where
  | none
  | mapping (byId : ℕ → NameLookup) (byText : String → NameLookup)
  | sequence (values : List NameValue)
  | other

structure RawBoxes where
  xyxy : Attribute RawObject
  conf : Attribute RawObject
  cls : Attribute RawObject
  id : Attribute RawObject

structure RawResult where
  boxes : Attribute RawBoxes
  names : Attribute ClassNames

/-- What the model returned: a list or tuple of results, or anything else. -/
inductive RawResults where
  | results (results : List RawResult)
  | other

/-- `Detection`, with rational coordinates and confidence. -/
structure RationalDetection where
  classId : ℕ
  className : NonBlankName
  confidence : ℚ
  bboxXyxyNorm : Box ℚ
  trackId : Option ℕ
  confidence_bounds : 0 ≤ confidence ∧ confidence ≤ 1
  bbox_normalized : bboxXyxyNorm.IsNormalized

/-- Four values for the corners of a box. -/
structure RawRow where
  xMin : RawValue
  yMin : RawValue
  xMax : RawValue
  yMax : RawValue

/-- `_optional_attr`, where `none` is `_MISSING`. -/
def optionalAttr {α : Type} : Attribute α → Except VisionError (Option α)
  | .missing => .ok none
  | .raises => .error ⟨"YOLO output could not be inspected"⟩
  | .present value => .ok (some value)

/-- `_required_attr` -/
def requiredAttr {α : Type} (attr : Attribute α) : Except VisionError α := do
  let value ← optionalAttr attr
  value.elim (.error ⟨"YOLO output is missing required box data"⟩) .ok

/-- `_to_python` -/
def toPython (label : String) : RawObject → Except VisionError RawValue
  | .none => .ok .none
  | .convertible none => .error ⟨"YOLO output " ++ label ++ " could not be read"⟩
  | .convertible (some value) => .ok value

/-- One round of the loop in `_rows`. -/
def rawRow (label : String) : RawValue → Except VisionError RawRow
  | .list [xMin, yMin, xMax, yMax] => .ok ⟨xMin, yMin, xMax, yMax⟩
  | _ => .error ⟨"YOLO output " ++ label ++ " has an invalid shape"⟩

/-- What `_rows` makes of a converted value. -/
def listRows (label : String) : RawValue → Except VisionError (List RawRow)
  | .list items => items.mapM (rawRow label)
  | _ => .error ⟨"YOLO output " ++ label ++ " has an invalid shape"⟩

/-- `_rows`, with how many there are. -/
def rawRows (value : RawObject) (label : String) :
    Except VisionError (Σ count, Fin count → RawRow) := do
  let rows ← listRows label (← toPython label value)
  pure ⟨rows.length, rows.get⟩

/-- What `_vector` makes of a converted value: as many values as are expected. -/
def vectorValues (expectedLength : ℕ) (label : String) :
    RawValue → Except VisionError (Fin expectedLength → RawValue)
  | .list values =>
    if h : values.length = expectedLength then .ok fun i => values.get (i.cast h.symm)
    else .error ⟨"YOLO output " ++ label ++ " has inconsistent lengths"⟩
  | scalar =>
    if expectedLength = 1 then .ok fun _ => scalar
    else .error ⟨"YOLO output " ++ label ++ " has an invalid shape"⟩

/-- `_vector` -/
def rawVector (value : RawObject) (expectedLength : ℕ) (label : String) :
    Except VisionError (Fin expectedLength → RawValue) := do
  vectorValues expectedLength label (← toPython label value)

/-- The track IDs, given what the attribute is. -/
def trackValues (count : ℕ) : Option RawObject → Except VisionError (Fin count → RawValue)
  | none | some .none => .ok fun _ => .none
  | some value => rawVector value count "track IDs"

/-- The track IDs, which may be absent as a whole. -/
def trackVector (attr : Attribute RawObject) (count : ℕ) :
    Except VisionError (Fin count → RawValue) := do
  trackValues count (← optionalAttr attr)

/-- The names found at the result, or else those of the model. -/
def namesOr (backend : Attribute ClassNames) : Option ClassNames → Except VisionError ClassNames
  | none | some .none => (optionalAttr backend).map (·.getD .other)
  | some names => .ok names

/-- The names of the result, or else those of the model. What is missing there too is no names. -/
def resolveNames (result backend : Attribute ClassNames) : Except VisionError ClassNames := do
  namesOr backend (← optionalAttr result)

/-- `_finite_number` -/
def finiteNumber (label : String) : RawValue → Except VisionError ℚ
  | .number value => .ok value
  | .notFinite => .error ⟨"YOLO output " ++ label ++ " is not finite"⟩
  | _ => .error ⟨"YOLO output " ++ label ++ " is not numeric"⟩

/-- `_nonnegative_integer` -/
def nonnegativeInteger (label : String) (value : RawValue) : Except VisionError ℕ := do
  let number ← finiteNumber label value
  if number.den ≠ 1 ∨ number < 0 then
    .error ⟨"YOLO output " ++ label ++ " is not a non-negative integer"⟩
  else .ok number.num.toNat

/-- The lookups of `_class_name`. -/
def lookupName (classId : ℕ) : ClassNames → Except VisionError (Option NameValue)
  | .mapping byId byText =>
    match byId classId with
    | .raises => .error ⟨"YOLO output class names are invalid"⟩
    | .found value => .ok (some value)
    | .missing =>
      match byText (toString classId) with
      | .raises => .error ⟨"YOLO output class names are invalid"⟩
      | .found value => .ok (some value)
      | .missing => .ok none
  | .sequence values => .ok values[classId]?
  | _ => .ok none

/-- Whether `strip` leaves anything. -/
def hasText (name : String) : Bool := name.toList.any fun c => !isSpace c

/-- The check of what was looked up. -/
def checkName : Option NameValue → Except VisionError String
  | some (.text name) =>
    if hasText name then .ok name else .error ⟨"YOLO output contains an unknown class ID"⟩
  | _ => .error ⟨"YOLO output contains an unknown class ID"⟩

/-- `_class_name` -/
def getClassName (names : ClassNames) (classId : ℕ) : Except VisionError String := do
  checkName (← lookupName classId names)

/-- The track ID of a row. -/
def optionalTrack : RawValue → Except VisionError (Option ℕ)
  | .none => .ok none
  | value => (nonnegativeInteger "track ID" value).map some

variable (width height : ℕ+)

/-- `_normalize_box` -/
def normalizeBox (row : RawRow) : Except VisionError (Box ℚ) := do
  let xMin ← finiteNumber "box coordinate" row.xMin
  let yMin ← finiteNumber "box coordinate" row.yMin
  let xMax ← finiteNumber "box coordinate" row.xMax
  let yMax ← finiteNumber "box coordinate" row.yMax
  if xMin ≥ xMax ∨ yMin ≥ yMax then
    .error ⟨"YOLO output contains a reversed or zero-area box"⟩
  else
    let clippedXMin := min (max xMin 0) (width : ℚ)
    let clippedYMin := min (max yMin 0) (height : ℚ)
    let clippedXMax := min (max xMax 0) (width : ℚ)
    let clippedYMax := min (max yMax 0) (height : ℚ)
    if clippedXMin ≥ clippedXMax ∨ clippedYMin ≥ clippedYMax then
      .error ⟨"YOLO output contains a box outside the frame"⟩
    else
      .ok ⟨clippedXMin / width, clippedYMin / height, clippedXMax / width, clippedYMax / height⟩

/-- The validation of `Detection`. -/
def RationalDetection.validate (classId : ℕ) (className : String) (confidence : ℚ) (bbox : Box ℚ)
    (trackId : Option ℕ) : Option RationalDetection :=
  if h : isNonBlankName className = true ∧ (0 ≤ confidence ∧ confidence ≤ 1) ∧
      bbox.IsNormalized then
    some ⟨classId, ⟨className, h.1⟩, confidence, bbox, trackId, h.2.1, h.2.2⟩
  else none

/-- The confidence of a row, checked. -/
def readConfidence (value : RawValue) : Except VisionError ℚ := do
  let confidence ← finiteNumber "confidence" value
  if confidence < 0 ∨ confidence > 1 then
    .error ⟨"YOLO output confidence is outside the supported range"⟩
  else .ok confidence

/-- The end of a round: what is below the threshold is left out, and the rest is represented. -/
def representDetection (threshold : ℚ) (classId : ℕ) (className : String) (confidence : ℚ)
    (normalizedBox : Box ℚ) (trackId : Option ℕ) : Except VisionError (Option RationalDetection) :=
  if confidence < threshold then .ok none
  else
    match RationalDetection.validate classId className confidence normalizedBox trackId with
    | none => .error ⟨"YOLO output could not be represented as safe metadata"⟩
    | some detection => .ok (some detection)

/-- One round of the loop in `_convert_results`. -/
def convertRow (threshold : ℚ) (names : ClassNames) (row : RawRow)
    (confidenceValue classValue trackValue : RawValue) :
    Except VisionError (Option RationalDetection) := do
  let confidence ← readConfidence confidenceValue
  let classId ← nonnegativeInteger "class ID" classValue
  let className ← getClassName names classId
  let normalizedBox ← normalizeBox width height row
  let trackId ← optionalTrack trackValue
  representDetection threshold classId className confidence normalizedBox trackId

/-- The loop in `_convert_results`, on the rows from an index on. -/
def convertRows {count : ℕ} (convert : Fin count → Except VisionError (Option RationalDetection)) :
    List (Fin count) → Except VisionError (List RationalDetection)
  | [] => .ok []
  | index :: indices => do
    let detection ← convert index
    let detections ← convertRows convert indices
    pure (detection.toList ++ detections)

/-- The check that there is one result. -/
def onlyResult : RawResults → Except VisionError RawResult
  | .results [result] => .ok result
  | _ => .error ⟨"YOLO output must contain exactly one result"⟩

/-- `_convert_results` -/
def convertResults (rawResults : RawResults) (confidenceThreshold : ℚ)
    (backendNames : Attribute ClassNames) : Except VisionError (List RationalDetection) := do
  let result ← onlyResult rawResults
  let boxes ← requiredAttr result.boxes
  let ⟨count, xyxyRows⟩ ← rawRows (← requiredAttr boxes.xyxy) "box coordinates"
  let confidenceValues ← rawVector (← requiredAttr boxes.conf) count "confidence values"
  let classValues ← rawVector (← requiredAttr boxes.cls) count "class IDs"
  let trackValues ← trackVector boxes.id count
  let names ← resolveNames result.names backendNames
  convertRows (fun index => convertRow width height confidenceThreshold names (xyxyRows index)
    (confidenceValues index) (classValues index) (trackValues index)) (List.finRange count)

end SecureEdge
