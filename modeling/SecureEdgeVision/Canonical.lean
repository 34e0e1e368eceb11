import SecureEdgeVision.Contracts.ReadBack

/-! The canonical bytes of an event: what is signed, and what it determines. -/
namespace SecureEdge

open Binary64 (Finite)
open Json (Value numberText dumps field? InjectiveRepr)
open Python (ValueError Datetime)
open Document

/-- `canonical_event_bytes`, given `float.__repr__`. -/
def canonicalEventBytes (reprFloat : Finite → String) (e : DetectionEvent) :
    Except ValueError ByteArray :=
  match dumps reprFloat (Document.event e).sortKeys with
  | none => .error ⟨"event contains a value that cannot be canonically serialized"⟩
  | some canonicalJson => .ok canonicalJson.toUTF8

theorem canonicalEventBytes_eq_ok {reprFloat : Finite → String} {e : DetectionEvent}
    {bytes : ByteArray} : canonicalEventBytes reprFloat e = .ok bytes ↔
      ∃ text, dumps reprFloat (Document.event e).sortKeys = some text ∧ text.toUTF8 = bytes := by
  unfold canonicalEventBytes
  cases dumps reprFloat (Document.event e).sortKeys <;> simp

/-- Only an integer of too many digits keeps an event from being written. -/
theorem exists_canonicalEventBytes {reprFloat : Finite → String} {e : DetectionEvent} :
    (∃ bytes, canonicalEventBytes reprFloat e = .ok bytes) ↔
      ∀ n ∈ (Document.event e).numbers, n.printable = true := by
  constructor
  · rintro ⟨bytes, h⟩ n hn
    obtain ⟨text, htext, -⟩ := canonicalEventBytes_eq_ok.mp h
    exact (Json.dumps_eq_some.mp htext).1 n ((Value.numbers_sortKeys _).mem_iff.mpr hn)
  · intro h
    have hsorted : ∀ n ∈ (Document.event e).sortKeys.numbers, n.printable = true := fun n hn =>
      h n ((Value.numbers_sortKeys _).mem_iff.mp hn)
    exact ⟨_, canonicalEventBytes_eq_ok.mpr ⟨_, if_pos hsorted, rfl⟩⟩

/-- The instant is what a timestamp contributes to a document. -/
theorem UtcDatetime.text_injective : Function.Injective UtcDatetime.text := by
  intro a b h
  have hread := a.fromisoformat_text
  rw [h, b.fromisoformat_text] at hread
  have hmicros := congrArg Datetime.micros (Option.some.inj hread)
  rw [a.datetime_micros, b.datetime_micros] at hmicros
  exact UtcDatetime.micros_injective hmicros.symm

section Determines
variable {reprFloat : Finite → String}

theorem natural_canonical_inj {m n : ℕ} (h : (natural m).canonical (numberText reprFloat) =
    (natural n).canonical (numberText reprFloat)) : m = n := by
  unfold natural at h
  rw [Value.canonical_number, Value.canonical_number, Value.number.injEq] at h
  exact_mod_cast Json.intText_injective h

theorem string_canonical_inj {s t : String}
    (h : (Value.string s : Document).canonical (numberText reprFloat) =
      (Value.string t).canonical (numberText reprFloat)) : s = t := by
  rw [Value.canonical_string, Value.canonical_string, Value.string.injEq] at h
  exact h

theorem identifier_canonical_inj {s t : SafeIdentifier}
    (h : (identifier s).canonical (numberText reprFloat) =
      (identifier t).canonical (numberText reprFloat)) : s = t := by
  have htext := string_canonical_inj h
  cases s
  cases t
  simpa using htext

theorem timestamp_canonical_inj {s t : UtcTimestamp}
    (h : (timestamp s).canonical (numberText reprFloat) =
      (timestamp t).canonical (numberText reprFloat)) : s.instant = t.instant :=
  UtcDatetime.text_injective (string_canonical_inj h)

/-- A nullable value is null or determined as it is without. -/
theorem nullable_canonical_inj {α : Type} (document : α → Document)
    (hnull : ∀ x, (document x).canonical (numberText reprFloat) ≠ .null)
    (hinj : ∀ {x y}, (document x).canonical (numberText reprFloat) =
      (document y).canonical (numberText reprFloat) → x = y) {x y : Option α}
    (h : (nullable document x).canonical (numberText reprFloat) =
      (nullable document y).canonical (numberText reprFloat)) : x = y := by
  cases x with
  | none =>
    cases y with
    | none => rfl
    | some y => exact absurd h.symm (hnull y)
  | some x =>
    cases y with
    | none => exact absurd h (hnull x)
    | some y => rw [hinj h]

theorem model_canonical_inj {m m' : ModelMetadata}
    (h : (Value.object (modelFields m)).canonical (numberText reprFloat) =
      (Value.object (modelFields m')).canonical (numberText reprFloat)) : m = m' := by
  have hfield := Value.field?_of_canonical_eq (modelFields_nodup m) h
  have hname : m.name.text = m'.name.text :=
    by simpa [modelFields, field?] using hfield "name"
  have hsha256 : m.sha256.text = m'.sha256.text :=
    by simpa [modelFields, field?] using hfield "sha256"
  obtain ⟨⟨_, _⟩, ⟨_, _⟩⟩ := m
  obtain ⟨⟨_, _⟩, ⟨_, _⟩⟩ := m'
  simp_all

theorem frame_canonical_inj {f f' : FrameMetadata}
    (h : (Value.object (frameFields f)).canonical (numberText reprFloat) =
      (Value.object (frameFields f')).canonical (numberText reprFloat)) : f = f' := by
  have hfield := Value.field?_of_canonical_eq (frameFields_nodup f) h
  have hwidth : (f.width : ℕ) = f'.width :=
    natural_canonical_inj (by simpa [frameFields, field?] using hfield "width")
  have hheight : (f.height : ℕ) = f'.height :=
    natural_canonical_inj (by simpa [frameFields, field?] using hfield "height")
  cases f
  cases f'
  rw [FrameMetadata.mk.injEq]
  exact ⟨PNat.eq hwidth, PNat.eq hheight⟩

variable (hrepr : InjectiveRepr reprFloat)
include hrepr

theorem float_canonical_inj {x y : Finite} (h : (float x).canonical (numberText reprFloat) =
    (float y).canonical (numberText reprFloat)) : x = y := by
  unfold float at h
  rw [Value.canonical_number, Value.canonical_number, Value.number.injEq, numberText, numberText,
    String.toList_inj] at h
  exact hrepr.injective h

theorem coordinate_canonical_inj {x y : NormalizedCoordinate}
    (h : (float x.value).canonical (numberText reprFloat) =
      (float y.value).canonical (numberText reprFloat)) : x = y := by
  have hvalue := float_canonical_inj hrepr h
  cases x
  cases y
  simpa using hvalue

theorem nonNegativeFloat_canonical_inj {x y : NonNegativeFloat}
    (h : (float x.value).canonical (numberText reprFloat) =
      (float y.value).canonical (numberText reprFloat)) : x = y := by
  have hvalue := float_canonical_inj hrepr h
  cases x
  cases y
  simpa using hvalue

theorem boundingBox_canonical_inj {b c : NormalizedBoundingBox}
    (h : (boundingBox b).canonical (numberText reprFloat) =
      (boundingBox c).canonical (numberText reprFloat)) : b = c := by
  unfold boundingBox at h
  simp only [Value.canonical_array, List.map_cons, List.map_nil, Value.array.injEq,
    List.cons.injEq, and_true] at h
  have hx := coordinate_canonical_inj hrepr h.1
  have hy := coordinate_canonical_inj hrepr h.2.1
  have hx' := coordinate_canonical_inj hrepr h.2.2.1
  have hy' := coordinate_canonical_inj hrepr h.2.2.2
  cases b
  cases c
  simp_all

theorem detection_canonical_inj {d d' : Detection}
    (h : (detection d).canonical (numberText reprFloat) =
      (detection d').canonical (numberText reprFloat)) : d = d' := by
  have hfield := Value.field?_of_canonical_eq (detectionFields_nodup d) h
  have hclassId : d.classId = d'.classId := natural_canonical_inj
    (by simpa [detectionFields, field?] using hfield "class_id")
  have hclassName : d.className.text = d'.className.text :=
    by simpa [detectionFields, field?] using hfield "class_name"
  have hconfidence : d.confidence = d'.confidence := coordinate_canonical_inj hrepr
    (by simpa [detectionFields, field?] using hfield "confidence")
  have hbox : d.bboxXyxyNorm = d'.bboxXyxyNorm := boundingBox_canonical_inj hrepr
    (by simpa [detectionFields, field?] using hfield "bbox_xyxy_norm")
  have htrackId : d.trackId = d'.trackId :=
    nullable_canonical_inj natural (fun _ => by simp [natural])
      natural_canonical_inj (by simpa [detectionFields, field?] using hfield "track_id")
  obtain ⟨_, ⟨_, _⟩, _, _, _⟩ := d
  obtain ⟨_, ⟨_, _⟩, _, _, _⟩ := d'
  simp_all

theorem performance_canonical_inj {p p' : PerformanceMetrics}
    (h : (Value.object (performanceFields p)).canonical (numberText reprFloat) =
      (Value.object (performanceFields p')).canonical (numberText reprFloat)) : p = p' := by
  have hfield := Value.field?_of_canonical_eq (performanceFields_nodup p) h
  have hdecode : p.decodeMs = p'.decodeMs := nonNegativeFloat_canonical_inj hrepr
    (by simpa [performanceFields, field?] using hfield "decode_ms")
  have hinference : p.inferenceMs = p'.inferenceMs := nonNegativeFloat_canonical_inj hrepr
    (by simpa [performanceFields, field?] using hfield "inference_ms")
  have hpostprocess : p.postprocessMs = p'.postprocessMs := nonNegativeFloat_canonical_inj hrepr
    (by simpa [performanceFields, field?] using hfield "postprocess_ms")
  cases p
  cases p'
  simp_all

theorem detections_canonical_inj {ds ds' : List Detection}
    (h : (Value.array (ds.map detection)).canonical (numberText reprFloat) =
      (Value.array (ds'.map detection)).canonical (numberText reprFloat)) : ds = ds' := by
  rw [Value.canonical_array, Value.canonical_array, Value.array.injEq, List.map_map,
    List.map_map] at h
  exact (List.map_injective_iff.mpr fun _ _ hd => detection_canonical_inj hrepr hd) h

/-- The canonical form of an event determines its fields. -/
theorem event_canonical_agree {a b : DetectionEvent}
    (h : (event a).canonical (numberText reprFloat) =
      (event b).canonical (numberText reprFloat)) : a.Agree b := by
  have hfield := Value.field?_of_canonical_eq (eventFields_nodup a) h
  exact {
    schemaVersion := rfl
    eventId := identifier_canonical_inj
      (by simpa [eventFields, field?] using hfield "event_id")
    nodeId := identifier_canonical_inj
      (by simpa [eventFields, field?] using hfield "node_id")
    cameraId := identifier_canonical_inj
      (by simpa [eventFields, field?] using hfield "camera_id")
    instant := timestamp_canonical_inj
      (by simpa [eventFields, field?] using hfield "timestamp_utc")
    nonce := identifier_canonical_inj
      (by simpa [eventFields, field?] using hfield "nonce")
    frameSeq := natural_canonical_inj
      (by simpa [eventFields, field?] using hfield "frame_seq")
    jobId := nullable_canonical_inj identifier (fun _ => by simp [identifier])
      identifier_canonical_inj (by simpa [eventFields, field?] using hfield "job_id")
    mode := rfl
    model := model_canonical_inj (by simpa [eventFields, field?] using hfield "model")
    frame := frame_canonical_inj (by simpa [eventFields, field?] using hfield "frame")
    detections := detections_canonical_inj hrepr
      (by simpa [eventFields, field?] using hfield "detections")
    performance := performance_canonical_inj hrepr
      (by simpa [eventFields, field?] using hfield "performance") }

theorem agree_of_canonicalEventBytes {a b : DetectionEvent} {bytes : ByteArray}
    (ha : canonicalEventBytes reprFloat a = .ok bytes)
    (hb : canonicalEventBytes reprFloat b = .ok bytes) : a.Agree b := by
  obtain ⟨text, hatext, hbytes⟩ := canonicalEventBytes_eq_ok.mp ha
  obtain ⟨text', hbtext, hbytes'⟩ := canonicalEventBytes_eq_ok.mp hb
  obtain rfl : text = text' := String.toByteArray_inj.mp (hbytes.trans hbytes'.symm)
  exact event_canonical_agree hrepr
    (Json.canonical_eq_of_dumps hrepr (clean_event a) (clean_event b) hatext hbtext)

end Determines

/-- A document holds nothing of an event but what `Agree` compares. -/
theorem document_eq_of_agree {a b : DetectionEvent} (h : a.Agree b) :
    Document.event a = Document.event b := by
  have htimestamp : timestamp a.timestampUtc = timestamp b.timestampUtc :=
    congrArg (fun t : UtcDatetime => Value.string t.text) h.instant
  unfold Document.event eventFields
  rw [h.schemaVersion, h.eventId, h.nodeId, h.cameraId, htimestamp, h.nonce, h.frameSeq, h.jobId,
    h.mode, h.model, h.frame, h.detections, h.performance]

theorem canonicalEventBytes_congr (reprFloat : Finite → String) {a b : DetectionEvent}
    (h : a.Agree b) : canonicalEventBytes reprFloat a = canonicalEventBytes reprFloat b := by
  unfold canonicalEventBytes
  rw [document_eq_of_agree h]

/-- The signed bytes determine the event in every field, and conversely the bytes depend on
nothing else: not on how a zero offset was spelled, nor on the order of the fields in the
document that an event was built from. -/
theorem canonicalEventBytes_determines_event {reprFloat : Finite → String}
    (hrepr : InjectiveRepr reprFloat) :
    (∀ a b bytes, canonicalEventBytes reprFloat a = .ok bytes →
      canonicalEventBytes reprFloat b = .ok bytes → a.Agree b) ∧
    (∀ a b, a.Agree b → canonicalEventBytes reprFloat a = canonicalEventBytes reprFloat b) ∧
    ∀ d d', Value.Reordered d d' →
      (validateDetectionEvent d).map (canonicalEventBytes reprFloat) =
        (validateDetectionEvent d').map (canonicalEventBytes reprFloat) := by
  refine ⟨fun a b bytes => agree_of_canonicalEventBytes hrepr,
    fun a b => canonicalEventBytes_congr reprFloat, fun d d' h => ?_⟩
  rw [validateDetectionEvent_ignoresOrder d d' h]

/-- Two spellings of one instant, and two nonces. -/
theorem canonicalEventBytes_determines_event_exactRepr :
    let edge : SafeIdentifier := ⟨"edge-1", by decide⟩
    let first : SafeIdentifier := ⟨"event-1", by decide⟩
    let second : SafeIdentifier := ⟨"event-2", by decide⟩
    let event := DetectionEvent.sample edge first first ⟨63893000000000000, by decide⟩
    canonicalEventBytes Json.exactRepr event =
        canonicalEventBytes Json.exactRepr
          { event with timestampUtc.zone := .region "Europe/London" } ∧
      ∀ bytes, canonicalEventBytes Json.exactRepr event = .ok bytes →
        canonicalEventBytes Json.exactRepr { event with nonce := second } ≠ .ok bytes := by
  intro edge first second event
  obtain ⟨hagree, hcongr, -⟩ :=
    canonicalEventBytes_determines_event Json.exactRepr_floatRepr.injectiveRepr
  refine ⟨hcongr _ _ ⟨rfl, rfl, rfl, rfl, rfl, rfl, rfl, rfl, rfl, rfl, rfl, rfl, rfl⟩,
    fun bytes h h' => ?_⟩
  have hnonce := congrArg SafeIdentifier.text (hagree _ _ bytes h h').nonce
  exact absurd hnonce (by decide)

end SecureEdge
