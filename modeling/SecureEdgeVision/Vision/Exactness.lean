import SecureEdgeVision.Vision.Conversion

/-! Conversion of detector output is all-or-nothing and exact: the rows that the raw values stand
for are all valid, or nothing is returned. -/
namespace SecureEdge

open Boxes (Box)
open Python (bind_eq_ok)

/-- What one row of the detector's output says. -/
structure DetectorRow where
  box : Box ℚ
  confidence : ℚ
  classId : ℕ
  className : String
  trackId : Option ℕ
deriving DecidableEq

def RationalDetection.row (detection : RationalDetection) : DetectorRow where
  box := detection.bboxXyxyNorm
  confidence := detection.confidence
  classId := detection.classId
  className := detection.className.text
  trackId := detection.trackId

theorem RationalDetection.row_injective : Function.Injective RationalDetection.row := by
  rintro ⟨classId, ⟨name, _⟩, confidence, box, trackId, _, _⟩ ⟨_, ⟨_, _⟩, _, _, _, _, _⟩ h
  simp only [RationalDetection.row, DetectorRow.mk.injEq] at h
  obtain ⟨rfl, rfl, rfl, rfl, rfl⟩ := h
  rfl

/-- The frame, from its corner at the origin. -/
def frameBox (width height : ℕ+) : Box ℚ := Box.ofExtents width height

namespace DetectorRow

/-- The row with its box's part in the frame, in units of the frame. -/
def normalized (width height : ℕ+) (row : DetectorRow) : DetectorRow :=
  { row with box := (row.box.inter (frameBox width height)).scale width height }

structure Valid (width height : ℕ+) (row : DetectorRow) : Prop where
  confidence : 0 ≤ row.confidence ∧ row.confidence ≤ 1
  named : hasText row.className = true
  ordered : row.box.xMin < row.box.xMax ∧ row.box.yMin < row.box.yMax
  meets : (row.box.interior ∩ (frameBox width height).interior).Nonempty

/-- A valid row that can be represented if it is retained. -/
def Acceptable (width height : ℕ+) (threshold : ℚ) (row : DetectorRow) : Prop :=
  row.Valid width height ∧ (threshold ≤ row.confidence → row.className.length ≤ 255)

/-- What becomes of a row. -/
def retained (width height : ℕ+) (threshold : ℚ) (row : DetectorRow) : Option DetectorRow :=
  if threshold ≤ row.confidence then some (row.normalized width height) else none

end DetectorRow

/-- The class ID is known by this name. -/
def ClassNames.Know (names : ClassNames) (classId : ℕ) (name : String) : Prop :=
  match names with
  | .mapping byId byText =>
    byId classId = .found (.text name) ∨
      byId classId = .missing ∧ byText (toString classId) = .found (.text name)
  | .sequence values => values[classId]? = some (.text name)
  | _ => False

def RawRow.ofBox (box : Box ℚ) : RawRow :=
  ⟨.number box.xMin, .number box.yMin, .number box.xMax, .number box.yMax⟩

theorem RawRow.ofBox_injective : Function.Injective RawRow.ofBox := by
  rintro ⟨⟩ ⟨⟩ h
  simpa [RawRow.ofBox] using h

def RawRow.value (row : RawRow) : RawValue := .list [row.xMin, row.yMin, row.xMax, row.yMax]

def rawTrack (trackId : Option ℕ) : RawValue := trackId.elim .none fun id => .number id

section Values
variable {label : String} {value : RawValue}

theorem finiteNumber_eq_ok {q : ℚ} : finiteNumber label value = .ok q ↔ value = .number q := by
  cases value <;> simp [finiteNumber]

theorem nonnegativeInteger_eq_ok {n : ℕ} :
    nonnegativeInteger label value = .ok n ↔ value = .number n := by
  unfold nonnegativeInteger
  rw [bind_eq_ok]
  constructor
  · rintro ⟨q, hq, h⟩
    split_ifs at h with hcheck
    obtain ⟨hden, hnonneg⟩ := not_or.mp hcheck
    rw [finiteNumber_eq_ok.mp hq, ← Except.ok.inj h]
    have hnum : ((q.num.toNat : ℤ) : ℚ) = q := by
      rw [Int.toNat_of_nonneg (Rat.num_nonneg.mpr (not_lt.mp hnonneg))]
      exact Rat.den_eq_one_iff q |>.mp (not_not.mp hden)
    rw [← Int.cast_natCast, hnum]
  · rintro rfl
    refine ⟨n, rfl, ?_⟩
    rw [if_neg]
    · simp
    · simp

theorem optionalTrack_eq_ok {trackId : Option ℕ} :
    optionalTrack value = .ok trackId ↔ value = rawTrack trackId := by
  have hsome (hnone : value ≠ .none) :
      (nonnegativeInteger "track ID" value).map some = .ok trackId ↔ value = rawTrack trackId := by
    cases trackId with
    | none =>
      constructor
      · intro h
        cases hid : nonnegativeInteger "track ID" value <;> simp [hid, Except.map] at h
      · intro h
        exact absurd h hnone
    | some id =>
      have hid : nonnegativeInteger "track ID" value = .ok id ↔ value = .number id :=
        nonnegativeInteger_eq_ok
      rw [rawTrack, Option.elim_some, ← hid]
      cases nonnegativeInteger "track ID" value <;> simp [Except.map]
  cases value with
  | none => cases trackId <;> simp [optionalTrack, rawTrack]
  | list items => exact hsome nofun
  | number q => exact hsome nofun
  | notFinite => exact hsome nofun
  | notNumeric => exact hsome nofun

theorem checkName_eq_ok {found : Option NameValue} {name : String} :
    checkName found = .ok name ↔ found = some (.text name) ∧ hasText name = true := by
  unfold checkName
  split
  · rename_i text
    split_ifs with htext
    · constructor
      · rintro ⟨⟩
        exact ⟨rfl, htext⟩
      · rintro ⟨⟨⟩, -⟩
        rfl
    · constructor
      · rintro ⟨⟩
      · rintro ⟨⟨⟩, hname⟩
        exact absurd hname htext
  · rename_i hother
    constructor
    · rintro ⟨⟩
    · rintro ⟨hfound, -⟩
      exact absurd hfound (hother name)

theorem lookupName_eq_ok {names : ClassNames} {classId : ℕ} {name : String} :
    lookupName classId names = .ok (some (.text name)) ↔ names.Know classId name := by
  unfold lookupName ClassNames.Know
  cases names with
  | none => simp
  | sequence values => simp
  | other => simp
  | mapping byId byText =>
    dsimp only
    cases byId classId with
    | raises => simp
    | found value => simp
    | missing => cases byText (toString classId) <;> simp

theorem getClassName_eq_ok {names : ClassNames} {classId : ℕ} {name : String} :
    getClassName names classId = .ok name ↔ names.Know classId name ∧ hasText name = true := by
  unfold getClassName
  rw [bind_eq_ok, ← lookupName_eq_ok]
  constructor
  · rintro ⟨found, hfound, hname⟩
    obtain ⟨rfl, htext⟩ := checkName_eq_ok.mp hname
    exact ⟨hfound, htext⟩
  · rintro ⟨hfound, htext⟩
    exact ⟨_, hfound, checkName_eq_ok.mpr ⟨rfl, htext⟩⟩

end Values

section Box
variable {width height : ℕ+}

theorem frameBox_hasArea : (frameBox width height).HasArea :=
  ⟨Nat.cast_pos.mpr width.pos, Nat.cast_pos.mpr height.pos⟩

/-- A box is normalized when its corners are ordered and it meets the frame, and to its part in the
frame. -/
theorem normalizeBox_eq_ok {row : RawRow} {box : Box ℚ} :
    normalizeBox width height row = .ok box ↔ ∃ b : Box ℚ, row = .ofBox b ∧
      (b.xMin < b.xMax ∧ b.yMin < b.yMax) ∧
      (b.interior ∩ (frameBox width height).interior).Nonempty ∧
      box = (b.inter (frameBox width height)).scale width height := by
  unfold normalizeBox
  simp only [bind_eq_ok, finiteNumber_eq_ok]
  constructor
  · rintro ⟨xMin, hxMin, yMin, hyMin, xMax, hxMax, yMax, hyMax, h⟩
    split_ifs at h with hordered hmeets
    rw [not_or, not_le, not_le] at hordered hmeets
    have hbox : (⟨xMin, yMin, xMax, yMax⟩ : Box ℚ).HasArea := hordered
    have harea := (Box.hasArea_clip_iff frameBox_hasArea hbox).mp hmeets
    refine ⟨⟨xMin, yMin, xMax, yMax⟩, ?_, hordered, ?_, ?_⟩
    · cases row
      simp_all [RawRow.ofBox]
    · rw [← Box.interior_inter]
      exact Box.hasArea_iff.mp harea
    · rw [← Box.clip_eq_inter harea]
      exact (Except.ok.inj h).symm
  · rintro ⟨b, rfl, hordered, hmeets, rfl⟩
    rw [← Box.interior_inter, ← Box.hasArea_iff] at hmeets
    refine ⟨_, rfl, _, rfl, _, rfl, _, rfl, ?_⟩
    have hclip := (Box.hasArea_clip_iff frameBox_hasArea hordered).mpr hmeets
    rw [if_neg (by rw [not_or, not_le, not_le]; exact hordered),
      if_neg (by rw [not_or, not_le, not_le]; exact hclip), ← Box.clip_eq_inter hmeets]
    rfl

end Box

section Row
variable {width height : ℕ+} {threshold : ℚ} {names : ClassNames}

theorem validate_eq_some {classId : ℕ} {className : String} {confidence : ℚ} {bbox : Box ℚ}
    {trackId : Option ℕ} {detection : RationalDetection} :
    RationalDetection.validate classId className confidence bbox trackId = some detection ↔
      (isNonBlankName className = true ∧ (0 ≤ confidence ∧ confidence ≤ 1) ∧ bbox.IsNormalized) ∧
        detection.row = ⟨bbox, confidence, classId, className, trackId⟩ := by
  unfold RationalDetection.validate
  split_ifs with h
  · rw [Option.some.injEq, ← RationalDetection.row_injective.eq_iff, eq_comm]
    exact (and_iff_right h).symm
  · simp [h]

/-- A name with text and not too long is a class name. -/
theorem isNonBlankName_iff {name : String} :
    isNonBlankName name = true ↔ hasText name = true ∧ name.length ≤ 255 := by
  unfold isNonBlankName
  rw [Bool.and_eq_true, Bool.and_eq_true, decide_eq_true_eq, decide_eq_true_eq]
  constructor
  · rintro ⟨⟨-, hlength⟩, htext⟩
    exact ⟨htext, hlength⟩
  · rintro ⟨htext, hlength⟩
    refine ⟨⟨?_, hlength⟩, htext⟩
    obtain ⟨c, hc, -⟩ := List.any_eq_true.mp htext
    rw [← String.length_toList]
    exact List.length_pos_of_mem hc

/-- The values that a row is read from. -/
structure DetectorRow.Encoded (row : DetectorRow) (names : ClassNames) (raw : RawRow)
    (confidenceValue classValue trackValue : RawValue) : Prop where
  box : raw = .ofBox row.box
  confidence : confidenceValue = .number row.confidence
  classId : classValue = .number row.classId
  trackId : trackValue = rawTrack row.trackId
  known : names.Know row.classId row.className

variable {raw : RawRow} {confidenceValue classValue trackValue : RawValue}

theorem DetectorRow.Valid.isNormalized {row : DetectorRow} (h : row.Valid width height) :
    (row.normalized width height).box.IsNormalized := by
  have hmeets := h.meets
  rw [← Box.interior_inter, ← Box.hasArea_iff] at hmeets
  exact Box.isNormalized_scale_inter (Nat.cast_pos.mpr width.pos) (Nat.cast_pos.mpr height.pos)
    hmeets

/-- What is retained of an acceptable row is a detection. -/
theorem DetectorRow.Acceptable.exists_retained {row : DetectorRow}
    (h : row.Acceptable width height threshold) : ∃ detection : Option RationalDetection,
      detection.map RationalDetection.row = row.retained width height threshold := by
  obtain ⟨hvalid, hlength⟩ := h
  unfold DetectorRow.retained
  split_ifs with hthreshold
  · have hname := isNonBlankName_iff.mpr ⟨hvalid.named, hlength hthreshold⟩
    exact ⟨some ⟨row.classId, ⟨row.className, hname⟩, row.confidence,
      (row.normalized width height).box, row.trackId, hvalid.confidence, hvalid.isNormalized⟩, rfl⟩
  · exact ⟨none, rfl⟩

theorem readConfidence_eq_ok {value : RawValue} {q : ℚ} :
    readConfidence value = .ok q ↔ value = .number q ∧ 0 ≤ q ∧ q ≤ 1 := by
  unfold readConfidence
  rw [bind_eq_ok]
  constructor
  · rintro ⟨q, hq, h⟩
    split_ifs at h with hrange
    rw [not_or, not_lt, not_lt] at hrange
    obtain rfl := Except.ok.inj h
    exact ⟨finiteNumber_eq_ok.mp hq, hrange⟩
  · rintro ⟨rfl, hrange⟩
    exact ⟨q, rfl, if_neg (by rw [not_or, not_lt, not_lt]; exact hrange)⟩

/-- A valid row is left out or represented, unless it is retained under too long a name. -/
theorem representDetection_eq_ok {row : DetectorRow} (hvalid : row.Valid width height)
    {detection : Option RationalDetection} :
    representDetection threshold row.classId row.className row.confidence
        (row.normalized width height).box row.trackId = .ok detection ↔
      (threshold ≤ row.confidence → row.className.length ≤ 255) ∧
        detection.map RationalDetection.row = row.retained width height threshold := by
  have hbox := hvalid.isNormalized
  unfold representDetection DetectorRow.retained
  by_cases hthreshold : threshold ≤ row.confidence
  · rw [if_neg (not_lt.mpr hthreshold), if_pos hthreshold]
    constructor
    · intro h
      split at h
      · cases h
      · rename_i found hfound
        obtain ⟨⟨hname, -⟩, hrow⟩ := validate_eq_some.mp hfound
        rw [← Except.ok.inj h, Option.map_some, hrow]
        exact ⟨fun _ => (isNonBlankName_iff.mp hname).2, rfl⟩
    · rintro ⟨hlength, hdetection⟩
      obtain ⟨found, rfl, hrow⟩ := Option.map_eq_some_iff.mp hdetection
      have hname := isNonBlankName_iff.mpr ⟨hvalid.named, hlength hthreshold⟩
      rw [validate_eq_some.mpr ⟨⟨hname, hvalid.confidence, hbox⟩, hrow⟩]
  · rw [if_pos (not_le.mp hthreshold), if_neg hthreshold, Except.ok.injEq, Option.map_eq_none_iff,
      eq_comm]
    exact (and_iff_right fun h => absurd h hthreshold).symm

theorem convertRow_eq_ok {detection : Option RationalDetection} :
    convertRow width height threshold names raw confidenceValue classValue trackValue =
        .ok detection ↔
      ∃ row : DetectorRow, row.Encoded names raw confidenceValue classValue trackValue ∧
        row.Acceptable width height threshold ∧
        detection.map RationalDetection.row = row.retained width height threshold := by
  unfold convertRow
  simp only [bind_eq_ok, readConfidence_eq_ok, nonnegativeInteger_eq_ok, getClassName_eq_ok,
    normalizeBox_eq_ok, optionalTrack_eq_ok]
  constructor
  · rintro ⟨confidence, ⟨hconfidence, hrange⟩, classId, hclass, className, ⟨hknown, htext⟩, _,
      ⟨box, hbox, hordered, hmeets, rfl⟩, trackId, htrack, h⟩
    let row : DetectorRow := ⟨box, confidence, classId, className, trackId⟩
    have hvalid : row.Valid width height := ⟨hrange, htext, hordered, hmeets⟩
    obtain ⟨hlength, hretained⟩ := (representDetection_eq_ok hvalid).mp h
    exact ⟨row, ⟨hbox, hconfidence, hclass, htrack, hknown⟩, ⟨hvalid, hlength⟩, hretained⟩
  · rintro ⟨row, hencoded, ⟨hvalid, hlength⟩, hretained⟩
    exact ⟨row.confidence, ⟨hencoded.confidence, hvalid.confidence⟩, row.classId,
      hencoded.classId, row.className, ⟨hencoded.known, hvalid.named⟩, _,
      ⟨row.box, hencoded.box, hvalid.ordered, hvalid.meets, rfl⟩, row.trackId, hencoded.trackId,
      (representDetection_eq_ok hvalid).mpr ⟨hlength, hretained⟩⟩

theorem ClassNames.know_unique {classId : ℕ} {name name' : String}
    (h : names.Know classId name) (h' : names.Know classId name') : name = name' := by
  rw [← lookupName_eq_ok] at h h'
  rw [h] at h'
  cases h'
  rfl

/-- Values are those of one row at most. -/
theorem DetectorRow.Encoded.unique {row row' : DetectorRow}
    (h : row.Encoded names raw confidenceValue classValue trackValue)
    (h' : row'.Encoded names raw confidenceValue classValue trackValue) : row = row' := by
  obtain ⟨box, confidence, classId, className, trackId⟩ := row
  obtain ⟨box', confidence', classId', className', trackId'⟩ := row'
  obtain ⟨hbox, hconfidence, hclass, htrack, hknown⟩ := h
  obtain ⟨hbox', hconfidence', hclass', htrack', hknown'⟩ := h'
  have htracks := optionalTrack_eq_ok.mpr htrack
  rw [optionalTrack_eq_ok.mpr htrack'] at htracks
  cases htracks
  rw [hconfidence] at hconfidence'
  cases hconfidence'
  rw [hclass, RawValue.number.injEq, Nat.cast_inj] at hclass'
  subst hclass'
  obtain rfl : className = className' := ClassNames.know_unique hknown hknown'
  obtain rfl : box = box' := RawRow.ofBox_injective (hbox.symm.trans hbox')
  rfl

end Row

section Columns
variable {label : String} {object : RawObject}

/-- What a readable object is converted to. -/
def RawObject.read : RawObject → Option RawValue
  | .none => some .none
  | .convertible converted => converted

def RawValue.IsList : RawValue → Prop
  | .list _ => True
  | _ => False

/-- The object holds this vector. A bare scalar counts as a vector of length one. -/
def RawObject.Holds (object : RawObject) {count : ℕ} (values : Fin count → RawValue) : Prop :=
  object.read = some (.list (List.ofFn values)) ∨
    count = 1 ∧ ∃ scalar, ¬ scalar.IsList ∧ object.read = some scalar ∧ ∀ i, values i = scalar

theorem toPython_eq_ok {value : RawValue} :
    toPython label object = .ok value ↔ object.read = some value := by
  cases object with
  | none => simp [toPython, RawObject.read]
  | convertible converted => cases converted <;> simp [toPython, RawObject.read]

theorem vectorValues_scalar {scalar : RawValue} {count : ℕ} {values : Fin count → RawValue}
    (h : ¬ scalar.IsList) :
    vectorValues count label scalar = .ok values ↔ count = 1 ∧ ∀ i, values i = scalar := by
  have hscalar : vectorValues count label scalar =
      if count = 1 then .ok fun _ => scalar
      else .error ⟨"YOLO output " ++ label ++ " has an invalid shape"⟩ := by
    cases scalar <;> first | rfl | exact absurd trivial h
  rw [hscalar]
  split_ifs with hcount
  · rw [Except.ok.injEq, eq_comm, funext_iff]
    exact (and_iff_right hcount).symm
  · simp [hcount]

theorem vectorValues_list {items : List RawValue} {count : ℕ} {values : Fin count → RawValue} :
    vectorValues count label (.list items) = .ok values ↔ items = List.ofFn values := by
  unfold vectorValues
  dsimp only
  split_ifs with hlength
  · subst hlength
    rw [Except.ok.injEq]
    constructor
    · rintro rfl
      exact (List.ofFn_get items).symm
    · intro hitems
      exact List.ofFn_injective ((List.ofFn_get items).trans hitems)
  · constructor
    · rintro ⟨⟩
    · rintro rfl
      exact absurd (List.length_ofFn) hlength

theorem of_scalar {scalar : RawValue} {count : ℕ} {values : Fin count → RawValue}
    (hread : object.read = some scalar) (hscalar : ¬ scalar.IsList)
    (hvalues : vectorValues count label scalar = .ok values) :
    count = 1 ∧ ∃ scalar, ¬ scalar.IsList ∧ object.read = some scalar ∧ ∀ i, values i = scalar := by
  obtain ⟨hcount, hvalues⟩ := (vectorValues_scalar hscalar).mp hvalues
  exact ⟨hcount, scalar, hscalar, hread, hvalues⟩

theorem rawVector_eq_ok {count : ℕ} {values : Fin count → RawValue} :
    rawVector object count label = .ok values ↔ object.Holds values := by
  unfold rawVector RawObject.Holds
  simp only [bind_eq_ok, toPython_eq_ok]
  constructor
  · rintro ⟨value, hread, hvalues⟩
    cases value with
    | list items => exact .inl (by rw [hread, vectorValues_list.mp hvalues])
    | none => exact .inr (of_scalar hread id hvalues)
    | number q => exact .inr (of_scalar hread id hvalues)
    | notFinite => exact .inr (of_scalar hread id hvalues)
    | notNumeric => exact .inr (of_scalar hread id hvalues)
  · rintro (hread | ⟨hcount, scalar, hscalar, hread, hvalues⟩)
    · exact ⟨_, hread, vectorValues_list.mpr rfl⟩
    · exact ⟨scalar, hread, (vectorValues_scalar hscalar).mpr ⟨hcount, hvalues⟩⟩

/-- What absent track IDs stand for. -/
def Attribute.IsAbsent (attr : Attribute RawObject) : Prop :=
  attr = .missing ∨ attr = .present .none

theorem trackVector_eq_ok {attr : Attribute RawObject} {count : ℕ} {values : Fin count → RawValue} :
    trackVector attr count = .ok values ↔ (attr.IsAbsent ∧ ∀ i, values i = .none) ∨
      ∃ object, attr = .present object ∧ object ≠ .none ∧ object.Holds values := by
  have habsent : (Except.ok fun _ => .none : Except VisionError (Fin count → RawValue)) =
      .ok values ↔ ∀ i, values i = .none := by
    rw [Except.ok.injEq, eq_comm, funext_iff]
  unfold trackVector Attribute.IsAbsent
  cases attr with
  | missing => simpa [optionalAttr, Python.ok_bind, trackValues] using habsent
  | raises => simp [optionalAttr, Python.error_bind]
  | present object =>
    cases object with
    | none => simpa [optionalAttr, Python.ok_bind, trackValues] using habsent
    | convertible converted =>
      simp [optionalAttr, Python.ok_bind, trackValues, rawVector_eq_ok]

theorem requiredAttr_eq_ok {α : Type} {attr : Attribute α} {value : α} :
    requiredAttr attr = .ok value ↔ attr = .present value := by
  cases attr <;> simp [requiredAttr, optionalAttr, Python.ok_bind, Python.error_bind]

theorem rawRow_eq_ok {value : RawValue} {row : RawRow} :
    rawRow label value = .ok row ↔ value = row.value := by
  unfold rawRow RawRow.value
  split
  · rw [Except.ok.injEq]
    constructor
    · rintro rfl
      rfl
    · intro h
      cases h
      rfl
  · rename_i hother
    constructor
    · rintro ⟨⟩
    · intro h
      exact absurd h (hother _ _ _ _)

theorem listRows_eq_ok {value : RawValue} {rows : List RawRow} :
    listRows label value = .ok rows ↔ value = .list (rows.map RawRow.value) := by
  cases value with
  | list items =>
    show items.mapM (rawRow label) = .ok rows ↔ _
    rw [RawValue.list.injEq, Python.mapM_eq_ok, ← List.forall₂_eq_eq_eq,
      List.forall₂_map_right_iff]
    simp only [rawRow_eq_ok]
  | none => simp [listRows]
  | number q => simp [listRows]
  | notFinite => simp [listRows]
  | notNumeric => simp [listRows]

theorem rawRows_eq_ok {count : ℕ} {rows : Fin count → RawRow} :
    rawRows object label = .ok ⟨count, rows⟩ ↔
      object.read = some (.list (List.ofFn fun i => (rows i).value)) := by
  have hcount (found : List RawRow) :
      (⟨found.length, found.get⟩ : Σ count, Fin count → RawRow) = ⟨count, rows⟩ ↔
        found = List.ofFn rows :=
    (List.equivSigmaTuple.eq_symm_apply).symm
  unfold rawRows
  simp only [bind_eq_ok, toPython_eq_ok, listRows_eq_ok]
  constructor
  · rintro ⟨_, hread, found, rfl, hfound⟩
    obtain rfl := (hcount found).mp (Except.ok.inj hfound)
    rw [hread, List.map_ofFn]
    rfl
  · intro hread
    refine ⟨_, hread, List.ofFn rows, ?_, congrArg Except.ok ((hcount _).mpr rfl)⟩
    rw [List.map_ofFn]
    rfl

end Columns

section Results
variable {width height : ℕ+} {threshold : ℚ}

/-- The names that count: those of the result, or else those of the model, if any. -/
def ClassNames.Found (names : ClassNames) (result backend : Attribute ClassNames) : Prop :=
  (result = .present names ∧ names ≠ .none) ∨
    (result = .missing ∨ result = .present .none) ∧
      (backend = .present names ∨ backend = .missing ∧ names = .other)

theorem resolveNames_eq_ok {result backend : Attribute ClassNames} {names : ClassNames} :
    resolveNames result backend = .ok names ↔ names.Found result backend := by
  have hbackend : (optionalAttr backend).map (·.getD ClassNames.other) = .ok names ↔
      backend = .present names ∨ backend = .missing ∧ names = .other := by
    cases backend <;> simp [optionalAttr, Except.map, eq_comm]
  have hpresent {found : ClassNames} (hfound : found ≠ .none) :
      (Except.ok found : Except VisionError ClassNames) = .ok names ↔
        (Attribute.present found = .present names ∧ names ≠ .none) ∨
          (Attribute.present found = .missing ∨ Attribute.present found = .present .none) ∧
            (backend = .present names ∨ backend = .missing ∧ names = .other) := by
    simp only [Except.ok.injEq, Attribute.present.injEq, reduceCtorEq, hfound, false_and, or_false]
    constructor
    · rintro rfl
      exact ⟨rfl, hfound⟩
    · exact And.left
  unfold resolveNames ClassNames.Found
  cases result with
  | missing => simpa [optionalAttr, Python.ok_bind, namesOr] using hbackend
  | raises => simp [optionalAttr, Python.error_bind]
  | present found =>
    cases found with
    | none => simpa [optionalAttr, Python.ok_bind, namesOr, eq_comm] using hbackend
    | mapping byId byText => exact hpresent nofun
    | sequence values => exact hpresent nofun
    | other => exact hpresent nofun

/-- The boxes hold these rows, column by column. -/
structure RawBoxes.Hold (boxes : RawBoxes) {count : ℕ} (rows : Fin count → DetectorRow) : Prop where
  xyxy : ∃ object, boxes.xyxy = .present object ∧
    object.read = some (.list (List.ofFn fun i => (RawRow.ofBox (rows i).box).value))
  conf : ∃ object, boxes.conf = .present object ∧ object.Holds fun i => .number (rows i).confidence
  cls : ∃ object, boxes.cls = .present object ∧ object.Holds fun i => .number (rows i).classId
  id : (boxes.id.IsAbsent ∧ ∀ i, rawTrack (rows i).trackId = .none) ∨
    ∃ object, boxes.id = .present object ∧ object ≠ .none ∧
      object.Holds fun i => rawTrack (rows i).trackId

/-- There is one result, its boxes hold these rows, and the names of their classes are known. -/
def RawResults.Describe (rawResults : RawResults) (backendNames : Attribute ClassNames) {count : ℕ}
    (rows : Fin count → DetectorRow) : Prop :=
  ∃ result boxes, ∃ names : ClassNames, rawResults = .results [result] ∧
    result.boxes = .present boxes ∧ boxes.Hold rows ∧ names.Found result.names backendNames ∧
    ∀ i, names.Know (rows i).classId (rows i).className

theorem onlyResult_eq_ok {rawResults : RawResults} {result : RawResult} :
    onlyResult rawResults = .ok result ↔ rawResults = .results [result] := by
  unfold onlyResult
  split
  · simp
  · rename_i hother
    constructor
    · rintro ⟨⟩
    · intro h
      exact absurd h (hother result)

theorem convertRows_eq_ok {count : ℕ}
    {convert : Fin count → Except VisionError (Option RationalDetection)}
    {indices : List (Fin count)} {detections : List RationalDetection} :
    convertRows convert indices = .ok detections ↔
      ∃ kept : Fin count → Option RationalDetection, (∀ i ∈ indices, convert i = .ok (kept i)) ∧
        detections = indices.filterMap kept := by
  have hcons (detection : Option RationalDetection) (kept : Fin count → Option RationalDetection)
      (index : Fin count) (rest : List (Fin count)) (h : kept index = detection) :
      detection.toList ++ rest.filterMap kept = (index :: rest).filterMap kept := by
    rw [List.filterMap_cons, h]
    cases detection <;> rfl
  constructor
  · intro h
    refine ⟨fun i => (convert i).toOption.join, ?_⟩
    induction indices generalizing detections with
    | nil =>
      cases h
      exact ⟨nofun, rfl⟩
    | cons index rest ih =>
      unfold convertRows at h
      obtain ⟨detection, hdetection, h⟩ := bind_eq_ok.mp h
      obtain ⟨others, hothers, h⟩ := bind_eq_ok.mp h
      obtain ⟨hrest, rfl⟩ := ih hothers
      rw [← Except.ok.inj h]
      refine ⟨fun i hi => ?_, hcons detection _ index rest (by rw [hdetection]; rfl)⟩
      rcases List.mem_cons.mp hi with rfl | hi
      · show convert i = .ok (convert i).toOption.join
        rw [hdetection]
        rfl
      · exact hrest i hi
  · rintro ⟨kept, hkept, rfl⟩
    induction indices with
    | nil => rfl
    | cons index rest ih =>
      unfold convertRows
      rw [hkept index List.mem_cons_self, Python.ok_bind,
        ih fun i hi => hkept i (List.mem_cons_of_mem index hi), Python.ok_bind,
        ← hcons _ kept index rest rfl]
      rfl

variable {rawResults : RawResults} {backendNames : Attribute ClassNames}
  {detections : List RationalDetection}

variable (width height threshold) in
/-- On values that describe rows, the conversion comes down to its loop. -/
theorem convertResults_of_describe {count : ℕ} {rows : Fin count → DetectorRow}
    (h : rawResults.Describe backendNames rows) :
    ∃ convert : Fin count → Except VisionError (Option RationalDetection),
      convertResults width height rawResults threshold backendNames =
        convertRows convert (List.finRange count) ∧
      ∀ i detection, convert i = .ok detection ↔
        (rows i).Acceptable width height threshold ∧
          detection.map RationalDetection.row = (rows i).retained width height threshold := by
  obtain ⟨result, boxes, names, hresult, hboxes, hhold, hfound, hknow⟩ := h
  obtain ⟨xyxy, hxyxy, hrows⟩ := hhold.xyxy
  obtain ⟨conf, hconf, hconfidences⟩ := hhold.conf
  obtain ⟨cls, hcls, hclasses⟩ := hhold.cls
  refine ⟨fun i => convertRow width height threshold names (.ofBox (rows i).box)
    (.number (rows i).confidence) (.number (rows i).classId) (rawTrack (rows i).trackId), ?_, ?_⟩
  · unfold convertResults
    rw [onlyResult_eq_ok.mpr hresult, Python.ok_bind, requiredAttr_eq_ok.mpr hboxes,
      Python.ok_bind, requiredAttr_eq_ok.mpr hxyxy, Python.ok_bind, rawRows_eq_ok.mpr hrows,
      Python.ok_bind]
    dsimp only
    rw [requiredAttr_eq_ok.mpr hconf, Python.ok_bind, rawVector_eq_ok.mpr hconfidences,
      Python.ok_bind, requiredAttr_eq_ok.mpr hcls,
      Python.ok_bind, rawVector_eq_ok.mpr hclasses, Python.ok_bind,
      trackVector_eq_ok.mpr hhold.id, Python.ok_bind, resolveNames_eq_ok.mpr hfound, Python.ok_bind]
  · intro i detection
    rw [convertRow_eq_ok]
    constructor
    · rintro ⟨row, hencoded, hacceptable, hretained⟩
      have hrow : (rows i).Encoded names (.ofBox (rows i).box) (.number (rows i).confidence)
          (.number (rows i).classId) (rawTrack (rows i).trackId) := ⟨rfl, rfl, rfl, rfl, hknow i⟩
      rw [hrow.unique hencoded]
      exact ⟨hacceptable, hretained⟩
    · rintro ⟨hacceptable, hretained⟩
      exact ⟨rows i, ⟨rfl, rfl, rfl, rfl, hknow i⟩, hacceptable, hretained⟩

/-- Only acceptable rows are converted, and to what is retained of them. -/
theorem convertResults_described {count : ℕ} {rows : Fin count → DetectorRow}
    (h : rawResults.Describe backendNames rows)
    (hok : convertResults width height rawResults threshold backendNames = .ok detections) :
    (∀ i, (rows i).Acceptable width height threshold) ∧
      detections.map RationalDetection.row =
        (List.ofFn rows).filterMap (DetectorRow.retained width height threshold) := by
  obtain ⟨convert, hconvert, hrow⟩ := convertResults_of_describe width height threshold h
  rw [hconvert, convertRows_eq_ok] at hok
  obtain ⟨kept, hkept, rfl⟩ := hok
  have hspec (i : Fin count) := (hrow i (kept i)).mp (hkept i (List.mem_finRange i))
  refine ⟨fun i => (hspec i).1, ?_⟩
  rw [List.map_filterMap, List.ofFn_eq_map, List.filterMap_map]
  exact List.filterMap_congr fun i _ => (hspec i).2

/-- Acceptable rows are converted. -/
theorem exists_convertResults {count : ℕ} {rows : Fin count → DetectorRow}
    (h : rawResults.Describe backendNames rows)
    (hacceptable : ∀ i, (rows i).Acceptable width height threshold) :
    ∃ detections, convertResults width height rawResults threshold backendNames =
      .ok detections := by
  obtain ⟨convert, hconvert, hrow⟩ := convertResults_of_describe width height threshold h
  choose kept hkept using fun i => (hacceptable i).exists_retained
  refine ⟨(List.finRange count).filterMap kept, ?_⟩
  rw [hconvert, convertRows_eq_ok]
  exact ⟨kept, fun i _ => (hrow i (kept i)).mpr ⟨hacceptable i, hkept i⟩, rfl⟩

/-- What is converted describes rows. -/
theorem describe_of_convertResults
    (h : convertResults width height rawResults threshold backendNames = .ok detections) :
    ∃ count, ∃ rows : Fin count → DetectorRow, rawResults.Describe backendNames rows := by
  unfold convertResults at h
  obtain ⟨result, hresult, h⟩ := bind_eq_ok.mp h
  obtain ⟨boxes, hboxes, h⟩ := bind_eq_ok.mp h
  obtain ⟨xyxy, hxyxy, h⟩ := bind_eq_ok.mp h
  obtain ⟨⟨count, xyxyRows⟩, hrows, h⟩ := bind_eq_ok.mp h
  obtain ⟨conf, hconf, h⟩ := bind_eq_ok.mp h
  obtain ⟨confidenceValues, hconfidences, h⟩ := bind_eq_ok.mp h
  obtain ⟨cls, hcls, h⟩ := bind_eq_ok.mp h
  obtain ⟨classValues, hclasses, h⟩ := bind_eq_ok.mp h
  obtain ⟨trackValues, htracks, h⟩ := bind_eq_ok.mp h
  obtain ⟨names, hnames, h⟩ := bind_eq_ok.mp h
  obtain ⟨kept, hkept, -⟩ := convertRows_eq_ok.mp h
  have hencoded (i : Fin count) : ∃ row : DetectorRow, row.Encoded names (xyxyRows i)
      (confidenceValues i) (classValues i) (trackValues i) := by
    obtain ⟨row, hrow, -⟩ := convertRow_eq_ok.mp (hkept i (List.mem_finRange i))
    exact ⟨row, hrow⟩
  choose rows hencoded using hencoded
  obtain rfl : xyxyRows = fun i => .ofBox (rows i).box := funext fun i => (hencoded i).box
  obtain rfl : confidenceValues = fun i => .number (rows i).confidence :=
    funext fun i => (hencoded i).confidence
  obtain rfl : classValues = fun i => .number (rows i).classId :=
    funext fun i => (hencoded i).classId
  obtain rfl : trackValues = fun i => rawTrack (rows i).trackId :=
    funext fun i => (hencoded i).trackId
  exact ⟨count, rows, result, boxes, names, onlyResult_eq_ok.mp hresult,
    requiredAttr_eq_ok.mp hboxes,
    ⟨⟨xyxy, requiredAttr_eq_ok.mp hxyxy, rawRows_eq_ok.mp hrows⟩,
      ⟨conf, requiredAttr_eq_ok.mp hconf, rawVector_eq_ok.mp hconfidences⟩,
      ⟨cls, requiredAttr_eq_ok.mp hcls, rawVector_eq_ok.mp hclasses⟩, trackVector_eq_ok.mp htracks⟩,
    resolveNames_eq_ok.mp hnames, fun i => (hencoded i).known⟩

/-- What is retained of rows, in their order. -/
theorem filterMap_retained (rows : List DetectorRow) :
    rows.filterMap (DetectorRow.retained width height threshold) =
      (rows.filter fun row => threshold ≤ row.confidence).map
        (DetectorRow.normalized width height) := by
  induction rows with
  | nil => rfl
  | cons row rows ih =>
    by_cases hthreshold : threshold ≤ row.confidence
    · have hretained : row.retained width height threshold = some (row.normalized width height) :=
        if_pos hthreshold
      rw [List.filterMap_cons_some hretained, List.filter_cons_of_pos (by simpa), List.map_cons, ih]
    · have hretained : row.retained width height threshold = none := if_neg hthreshold
      rw [List.filterMap_cons_none hretained,
        List.filter_cons_of_neg (by simpa using hthreshold), ih]

/-- Detector output is converted when it describes rows that are all acceptable, those below the
threshold included. The result is then, in order, each row from the threshold on with its own class,
track and confidence and its box's part in the frame in units of the frame. -/
theorem convertResults_exact (width height : ℕ+) (threshold : ℚ) (rawResults : RawResults)
    (backendNames : Attribute ClassNames) :
    ((∃ detections, convertResults width height rawResults threshold backendNames =
        .ok detections) ↔
      ∃ count, ∃ rows : Fin count → DetectorRow, rawResults.Describe backendNames rows ∧
        ∀ i, (rows i).Acceptable width height threshold) ∧
    ∀ detections, convertResults width height rawResults threshold backendNames = .ok detections →
      (∀ count, ∀ rows : Fin count → DetectorRow, rawResults.Describe backendNames rows →
        detections.map RationalDetection.row =
          ((List.ofFn rows).filter fun row => threshold ≤ row.confidence).map
            (DetectorRow.normalized width height)) ∧
      ∀ detection ∈ detections, 0 ≤ detection.bboxXyxyNorm.xMin ∧
        detection.bboxXyxyNorm.xMin < detection.bboxXyxyNorm.xMax ∧
        detection.bboxXyxyNorm.xMax ≤ 1 ∧ 0 ≤ detection.bboxXyxyNorm.yMin ∧
        detection.bboxXyxyNorm.yMin < detection.bboxXyxyNorm.yMax ∧
        detection.bboxXyxyNorm.yMax ≤ 1 := by
  refine ⟨⟨?_, ?_⟩, fun detections h => ⟨fun count rows hrows => ?_, fun detection _ => ?_⟩⟩
  · rintro ⟨detections, h⟩
    obtain ⟨count, rows, hrows⟩ := describe_of_convertResults h
    exact ⟨count, rows, hrows, (convertResults_described hrows h).1⟩
  · rintro ⟨count, rows, hrows, hacceptable⟩
    exact exists_convertResults hrows hacceptable
  · rw [(convertResults_described hrows h).2, filterMap_retained]
  · obtain ⟨hxMin, hyMin, hxMax, hyMax, hx, hy⟩ := detection.bbox_normalized
    exact ⟨hxMin, hx, hxMax, hyMin, hy, hyMax⟩

example : (convertResults 200 100 (.results [⟨.present
      ⟨.present (.convertible (some (.list
          [.list [.number (-10), .number 5, .number 210, .number 90],
            .list [.number 20, .number 10, .number 100, .number 50]]))),
        .present (.convertible (some (.list [.number (9 / 10), .number (1 / 5)]))),
        .present (.convertible (some (.list [.number 0, .number 2]))),
        .present (.convertible (some (.list [.number 7, .none])))⟩,
      .present (.sequence [.text "person", .other, .text "car"])⟩]) (1 / 4) .missing).toOption.map
    (List.map RationalDetection.row) =
      some [⟨⟨0, 1 / 20, 1, 9 / 10⟩, 9 / 10, 0, "person", some 7⟩] := by
  decide +kernel

end Results

end SecureEdge
