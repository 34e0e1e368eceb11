import SecureEdgeVision.Contracts.Grammar

/-! Strict validation of lists and records decides the wire grammar. -/
namespace SecureEdge

open Json (Tree PyNumber Value Represents closedFields required optional nullable listOf
  field?_eq_some)
open Python (Str)

section Containers
variable {α : Type} {validate : Data → Option α} {P : α → Tree → Prop}

theorem Decides.nullable (h : Decides validate P) (hnull : ∀ x, ¬ P x .null) :
    Decides (nullable validate) (IsNullable P) := by
  intro tree data hclean hrep x
  by_cases hdata : data = .null
  · obtain rfl := (represents_null hrep).mp hdata
    subst hdata
    cases x with
    | none => exact ⟨fun _ => rfl, fun _ => rfl⟩
    | some x => exact ⟨fun h => (Option.some_ne_none x (Option.some.inj h).symm).elim,
        fun h => absurd h (hnull x)⟩
  · have hvalue : Json.nullable validate data = (validate data).map some := by
      cases data <;> first | rfl | exact absurd rfl hdata
    rw [hvalue, Option.map_eq_some_iff]
    cases x with
    | none =>
      refine ⟨fun ⟨_, _, h⟩ => (Option.some_ne_none _ h).elim, fun htree => ?_⟩
      exact absurd ((represents_null hrep).mpr htree) hdata
    | some x =>
      show _ ↔ P x tree
      rw [← h tree data hclean hrep x]
      constructor
      · rintro ⟨y, hy, he⟩
        exact Option.some.inj he ▸ hy
      · exact fun hx => ⟨x, hx, rfl⟩

theorem Decides.listOf (h : Decides validate P) : Decides (listOf validate) (IsListOf P) := by
  intro tree data hclean hrep xs
  rcases represents_array hrep with ⟨items, values, rfl, rfl, hitems⟩ | ⟨htree, hdata⟩
  · have hall : ∀ v ∈ items, Readable v := by
      cases hclean with
      | array hall => exact hall
    show values.mapM validate = some xs ↔ _
    have hsame : IsListOf P xs (.array items) ↔ List.Forall₂ P xs items :=
      ⟨fun ⟨_, he, h⟩ => Value.array.inj he ▸ h, fun h => ⟨items, rfl, h⟩⟩
    rw [hsame]
    clear hclean hrep hsame
    induction hitems generalizing xs with
    | nil => cases xs <;> simp
    | @cons v w items values hvw _ ih =>
      have hhead := h v w (hall v List.mem_cons_self) hvw
      have htail := fun xs => ih xs fun v hv => hall v (List.mem_cons_of_mem _ hv)
      rw [List.mapM_cons]
      simp only [Option.bind_eq_bind, Option.bind_eq_some_iff, hhead, htail]
      cases xs with
      | nil => simp
      | cons x xs => simp [List.forall₂_cons]
  · constructor
    · intro h
      cases data with
      | array values => exact absurd rfl (hdata values)
      | _ => cases h
    · rintro ⟨items, he, -⟩
      exact absurd he (htree items)

section Fields
variable {fields : List (Str × Tree)} {values : List (Str × Data)}

/-- The fields of an object of the tree and of what was read of it. -/
structure SameFields (fields : List (Str × Tree)) (values : List (Str × Data)) : Prop where
  nodup : (fields.map Prod.fst).Nodup
  readable : ∀ x ∈ fields, Readable x.2
  same : Value.mapNumbersFields readNumber fields = Value.mapNumbersFields some values

theorem SameFields.field? (h : SameFields fields values) (key : Str) :
    (Json.field? key fields = none ∧ Json.field? key values = none) ∨
    ∃ v w, Json.field? key fields = some v ∧ Json.field? key values = some w ∧
      Represents readNumber v w := by
  have hmap : (Json.field? key fields).map (Value.mapNumbers readNumber) =
      (Json.field? key values).map (Value.mapNumbers some) := by
    rw [← Json.field?_map Function.injective_id, ← Json.field?_map Function.injective_id]
    have hsame := h.same
    rw [Value.mapNumbersFields_eq, Value.mapNumbersFields_eq] at hsame
    exact congrArg (Json.field? key) hsame
  cases hv : Json.field? key fields with
  | none =>
    rw [hv] at hmap
    exact Or.inl ⟨rfl, Option.map_eq_none_iff.mp hmap.symm⟩
  | some v =>
    rw [hv] at hmap
    obtain ⟨w, hw, he⟩ := Option.map_eq_some_iff.mp hmap.symm
    exact Or.inr ⟨v, w, rfl, hw, he.symm⟩

theorem SameFields.required (hfields : SameFields fields values) (h : Decides validate P)
    (key : String) (x : α) :
    required key validate values = some x ↔ Field fields key (P x) := by
  unfold Json.required
  rcases hfields.field? (Str.ofString key) with ⟨hv, hw⟩ | ⟨v, w, hv, hw, hrep⟩
  · rw [hw]
    refine iff_of_false (fun h => by cases h) ?_
    rintro ⟨v, hmem, -⟩
    rw [(field?_eq_some hfields.nodup).mpr hmem] at hv
    cases hv
  · have hmem := (field?_eq_some hfields.nodup).mp hv
    rw [hw, Option.bind_some, h v w (hfields.readable _ hmem) hrep]
    constructor
    · exact fun hx => ⟨v, hmem, hx⟩
    · rintro ⟨v', hmem', hx⟩
      rw [(field?_eq_some hfields.nodup).mpr hmem'] at hv
      exact Option.some.inj hv ▸ hx

theorem SameFields.optional (hfields : SameFields fields values) (h : Decides validate P)
    (key : String) (default x : α) :
    optional key default validate values = some x ↔ Field fields key (P x) ∨
      x = default ∧ ∀ y ∈ fields, y.1 ≠ Str.ofString key := by
  have hrequired := hfields.required h key x
  unfold Json.required at hrequired
  unfold Json.optional
  rcases hfields.field? (Str.ofString key) with ⟨hv, hw⟩ | ⟨v, w, hv, hw, -⟩
  · have habsent : ∀ y ∈ fields, y.1 ≠ Str.ofString key := by
      intro y hy hkey
      have hmem : (Str.ofString key, y.2) ∈ fields := hkey ▸ hy
      rw [(field?_eq_some hfields.nodup).mpr hmem] at hv
      cases hv
    rw [hw] at hrequired ⊢
    have hno : ¬ Field fields key (P x) := fun hfield => by cases hrequired.mpr hfield
    rw [Option.some.injEq]
    constructor
    · exact fun he => Or.inr ⟨he.symm, habsent⟩
    · exact fun he => (he.resolve_left hno).1.symm
  · rw [hw, Option.bind_some] at hrequired
    rw [hw]
    dsimp only
    rw [hrequired]
    refine ⟨Or.inl, fun he => he.resolve_right fun ⟨_, habsent⟩ => ?_⟩
    exact habsent _ ((field?_eq_some hfields.nodup).mp hv) rfl

/-- A record validator decides its record when it decides the fields. -/
theorem decides_record {names : List String} {build : List (Str × Data) → Option α}
    {body : α → List (Str × Tree) → Prop}
    (h : ∀ fields values, SameFields fields values → ∀ x, build values = some x ↔ body x fields) :
    Decides (fun data => (closedFields names data).bind build)
      fun x => IsRecord names (body x) := by
  intro tree data hclean hrep x
  rcases represents_object hrep with ⟨fields, values, rfl, rfl, hsame⟩ | ⟨htree, hdata⟩
  · have hfields : SameFields fields values := by
      cases hclean with
      | object hkeys hreadable => exact ⟨hkeys, hreadable, hsame⟩
    have hkeys := Json.keys_of_mapNumbers hsame
    have hnames : (∀ y ∈ values, y.1 ∈ names.map Str.ofString) ↔
        ∀ y ∈ fields, y.1 ∈ names.map Str.ofString := by
      rw [← List.forall_mem_map (f := Prod.fst) (P := (· ∈ names.map Str.ofString)),
        ← List.forall_mem_map (f := Prod.fst) (P := (· ∈ names.map Str.ofString)), hkeys]
    unfold closedFields IsRecord
    dsimp only
    split_ifs with hclosed
    · rw [Option.bind_some, h fields values hfields x]
      constructor
      · exact fun hbody => ⟨fields, rfl, hnames.mp hclosed, hbody⟩
      · rintro ⟨fields', he, -, hbody⟩
        exact Value.object.inj he ▸ hbody
    · refine iff_of_false (fun he => by cases he) ?_
      rintro ⟨fields', he, hclosed', -⟩
      rw [← Value.object.inj he] at hclosed'
      exact hclosed (hnames.mpr hclosed')
  · refine iff_of_false (fun he => ?_) fun ⟨fields, he, _⟩ => htree fields he
    cases data with
    | object values => exact hdata values rfl
    | _ => cases he

end Fields

end Containers

section Records

theorem not_isInteger_null (n : ℤ) : ¬ IsInteger n .null := by
  rintro ⟨literal, h, -⟩
  cases h

theorem decides_boundingBox : Decides validateNormalizedBoundingBox IsBoundingBox := by
  intro tree data hclean hrep x
  have hlist := decides_coordinate.listOf tree data hclean hrep
  unfold validateNormalizedBoundingBox
  simp only [Option.bind_eq_bind, Option.bind_eq_some_iff, hlist]
  constructor
  · rintro ⟨coordinates, hcoordinates, h⟩
    split at h
    · split_ifs at h
      obtain rfl := Option.some.inj h
      exact hcoordinates
    · cases h
  · intro h
    refine ⟨_, h, ?_⟩
    dsimp only
    rw [dif_pos ⟨x.x_ordered, x.y_ordered⟩]

theorem decides_modelMetadata : Decides validateModelMetadata IsModelMetadata :=
  decides_record fun fields values hfields x => by
    simp only [Option.bind_eq_bind, Option.bind_eq_some_iff, hfields.required decides_name,
      hfields.required decides_sha256, Option.pure_def, Option.some.injEq]
    constructor
    · rintro ⟨name, hname, sha256, hsha256, rfl⟩
      exact ⟨hname, hsha256⟩
    · exact fun ⟨hname, hsha256⟩ => ⟨_, hname, _, hsha256, rfl⟩

theorem decides_frameMetadata : Decides validateFrameMetadata IsFrameMetadata :=
  decides_record fun fields values hfields x => by
    simp only [Option.bind_eq_bind, Option.bind_eq_some_iff, hfields.required decides_positive,
      Option.pure_def, Option.some.injEq]
    constructor
    · rintro ⟨width, hwidth, height, hheight, rfl⟩
      exact ⟨hwidth, hheight⟩
    · exact fun ⟨hwidth, hheight⟩ => ⟨_, hwidth, _, hheight, rfl⟩

theorem decides_performanceMetrics : Decides validatePerformanceMetrics IsPerformanceMetrics :=
  decides_record fun fields values hfields x => by
    simp only [Option.bind_eq_bind, Option.bind_eq_some_iff, hfields.required decides_metric,
      Option.pure_def, Option.some.injEq]
    constructor
    · rintro ⟨decodeMs, hdecode, inferenceMs, hinference, postprocessMs, hpostprocess, rfl⟩
      exact ⟨hdecode, hinference, hpostprocess⟩
    · exact fun ⟨hdecode, hinference, hpostprocess⟩ =>
        ⟨_, hdecode, _, hinference, _, hpostprocess, rfl⟩

theorem decides_detection : Decides validateDetection IsDetection :=
  decides_record fun fields values hfields x => by
    simp only [Option.bind_eq_bind, Option.bind_eq_some_iff, hfields.required decides_natural,
      hfields.required decides_name, hfields.required decides_coordinate,
      hfields.required decides_boundingBox,
      hfields.optional (decides_natural.nullable fun n => not_isInteger_null n),
      Option.pure_def, Option.some.injEq]
    constructor
    · rintro ⟨classId, hid, className, hname, confidence, hconfidence, box, hbox, track, htrack,
        rfl⟩
      exact ⟨hid, hname, hconfidence, hbox, htrack⟩
    · exact fun ⟨hid, hname, hconfidence, hbox, htrack⟩ =>
        ⟨_, hid, _, hname, _, hconfidence, _, hbox, _, htrack, rfl⟩

theorem decides_detectionEvent : Decides validateDetectionEvent IsDetectionEvent :=
  decides_record fun fields values hfields x => by
    simp only [Option.bind_eq_bind, Option.bind_eq_some_iff,
      hfields.required (decides_literal _), hfields.required decides_identifier,
      hfields.required decides_timestamp, hfields.required decides_natural,
      hfields.required (decides_identifier.nullable fun _ h => by cases h),
      hfields.required decides_modelMetadata, hfields.required decides_frameMetadata,
      hfields.required decides_detection.listOf, hfields.required decides_performanceMetrics,
      Option.pure_def, Option.some.injEq]
    constructor
    · rintro ⟨_, hversion, eventId, hevent, nodeId, hnode, cameraId, hcamera, timestamp, htime,
        nonce, hnonce, frameSeq, hseq, jobId, hjob, _, hmode, model, hmodel, frame, hframe,
        detections, hdetections, performance, hperformance, rfl⟩
      exact ⟨hversion, hevent, hnode, hcamera, htime, hnonce, hseq, hjob, hmode, hmodel, hframe,
        hdetections, hperformance⟩
    · rintro ⟨hversion, hevent, hnode, hcamera, htime, hnonce, hseq, hjob, hmode, hmodel, hframe,
        hdetections, hperformance⟩
      obtain ⟨version, _, _, _, _, _, _, _, mode, _, _, _, _⟩ := x
      cases version
      cases mode
      exact ⟨(), hversion, _, hevent, _, hnode, _, hcamera, _, htime, _, hnonce, _, hseq, _, hjob,
        (), hmode, _, hmodel, _, hframe, _, hdetections, _, hperformance, rfl⟩

theorem decides_signedDetectionEnvelope :
    Decides validateSignedDetectionEnvelope IsSignedDetectionEnvelope :=
  decides_record fun fields values hfields x => by
    simp only [Option.bind_eq_bind, Option.bind_eq_some_iff,
      hfields.required decides_detectionEvent, hfields.required (decides_literal _),
      hfields.required decides_signature, Option.pure_def, Option.some.injEq]
    constructor
    · rintro ⟨body, hbody, _, halgorithm, signature, hsignature, rfl⟩
      exact ⟨hbody, halgorithm, hsignature⟩
    · rintro ⟨hbody, halgorithm, hsignature⟩
      obtain ⟨_, algorithm, _⟩ := x
      cases algorithm
      exact ⟨_, hbody, (), halgorithm, _, hsignature, rfl⟩

end Records

end SecureEdge
