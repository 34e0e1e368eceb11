import SecureEdgeVision.Aggregator.Decoding
import SecureEdgeVision.Ingestion.Steps
import SecureEdgeVision.Persistence.Codec

/-! Which of the events that the wire contract accepts the store can hold: those whose integers
fit their columns, and these it gives back as they were. -/
namespace SecureEdge

open Binary64 (Finite)
open Json (FloatRepr Literal NumberToken PyNumber Strict Tree Value loads treeScanner)

section Printable

/-- An integer that such a literal stands for can be written again. -/
def Literal.IsPrintable (literal : Literal) : Prop :=
  ∀ n, readNumber literal = some (.int n) → (PyNumber.int n).printable = true

/-- A whole part that a scan can find. -/
def HasDigits (token : NumberToken) : Prop :=
  token.whole ≠ [] ∧ ∀ c ∈ token.whole, c.isDigit = true

instance (token : NumberToken) : Decidable (HasDigits token) :=
  decidable_of_iff (token.whole ≠ [] ∧ token.whole.all Char.isDigit = true)
    (and_congr_right fun _ => List.all_eq_true)

def convertDigits (token : NumberToken) : Except Json.ScanError PyNumber :=
  if HasDigits token then convertNumber token else .error .value

def readDigits : Literal → Option PyNumber
  | .number token => if HasDigits token then readNumber (.number token) else none
  | .constant _ => none

theorem wireScanner_convertsDigits : wireScanner.Converts convertDigits := by
  intro text
  rw [wireScanner_converts]
  cases h : Json.matchNumber text with
  | none => rfl
  | some found =>
    have hdigits : HasDigits found.1 := Json.matchNumber_whole h
    rw [Option.map_some, Option.map_some, convertDigits, if_pos hdigits]

theorem wireScanner_strictDigits : Strict wireScanner convertDigits readDigits where
  literal n := by
    cases n with
    | constant name => rfl
    | number token =>
      have hplain := wireScanner_strict.literal (.number token)
      unfold Json.Scanner.literal readDigits convertDigits at *
      dsimp only at hplain ⊢
      split_ifs
      · exact hplain
      · rfl
  object _ := rfl

theorem printable_of_loads {depth : ℕ} {text : List Char} {tree : Tree} {data : Data}
    (htree : loads treeScanner depth text = .ok tree)
    (hdata : loads wireScanner depth text = .ok data) : tree.Clean Literal.IsPrintable := by
  rw [Json.loads_follows wireScanner_convertsDigits htree] at hdata
  rcases Json.strict_cases wireScanner_strictDigits tree with ⟨hhooks, -⟩ | ⟨_, -, hclean, -⟩
  · rw [hhooks] at hdata
    cases hdata
  · refine hclean.imp fun literal hliteral n hn => ?_
    cases literal with
    | constant name => cases hliteral
    | number token =>
      unfold readDigits at hliteral
      dsimp only at hliteral
      split_ifs at hliteral with hdigits
      · unfold readNumber at hn
        dsimp only at hn
        split_ifs at hn with hfloat
        · cases hfloat' : token.toFloat? <;> rw [hfloat'] at hn <;> cases hn
        · obtain ⟨m, hm, he⟩ := Option.map_eq_some_iff.mp hn
          rw [← he]
          exact Json.printable_of_toInt? hdigits hm
      · cases hliteral

variable {tree : Tree} {P : Literal → Prop}

theorem printable_of_isInteger (hclean : tree.Clean Literal.IsPrintable) {n : ℤ}
    (h : IsInteger n tree) : (PyNumber.int n).printable = true := by
  obtain ⟨literal, rfl, hread⟩ := h
  cases hclean with
  | number hliteral => exact hliteral n hread

theorem IsRecord.clean (hclean : tree.Clean P) {names : List String}
    {body : List (Python.Str × Tree) → Prop} (h : IsRecord names body tree) :
    ∃ fields, (∀ x ∈ fields, x.2.Clean P) ∧ body fields := by
  obtain ⟨fields, rfl, -, hbody⟩ := h
  cases hclean with
  | object _ hfields => exact ⟨fields, hfields, hbody⟩

theorem Field.clean {fields : List (Python.Str × Tree)} (hclean : ∀ x ∈ fields, x.2.Clean P)
    {key : String} {Q : Tree → Prop} (h : Field fields key Q) : ∃ v, v.Clean P ∧ Q v := by
  obtain ⟨v, hmem, hv⟩ := h
  exact ⟨v, hclean _ hmem, hv⟩

/-- The numbers of a detection's document are its class, its track and floats. -/
theorem printable_detection {d : Detection} (hclass : (PyNumber.int d.classId).printable = true)
    (htrack : ∀ n ∈ d.trackId, (PyNumber.int n).printable = true) :
    ∀ n ∈ (Document.detection d).numbers, n.printable = true := by
  have hnullable : ∀ n ∈ (Document.nullable Document.natural d.trackId).numbers,
      n.printable = true := by
    cases htrackId : d.trackId with
    | none => simp [Document.nullable, Value.numbers]
    | some track =>
      have h := htrack track (by rw [htrackId]; rfl)
      simpa [Document.nullable, Document.natural, Value.numbers] using h
  have hfloat : ∀ x : Finite, (PyNumber.float x).printable = true := fun _ => rfl
  intro n hn
  simp only [Document.detection, Document.detectionFields, Document.boundingBox, Document.natural,
    Document.float, Value.numbers, Value.numbersFields, Value.numbersItems, List.mem_append,
    List.mem_cons, List.not_mem_nil, or_false, false_or] at hn
  rcases hn with rfl | rfl | (rfl | rfl | rfl | rfl) | hn
  · exact hclass
  · exact hfloat _
  · exact hfloat _
  · exact hfloat _
  · exact hfloat _
  · exact hfloat _
  · exact hnullable n hn

theorem printable_of_isDetection {d : Detection} (hclean : tree.Clean Literal.IsPrintable)
    (h : IsDetection d tree) : ∀ n ∈ (Document.detection d).numbers, n.printable = true := by
  obtain ⟨fields, hfields, hclass, -, -, -, htrack⟩ := h.clean hclean
  obtain ⟨v, hv, hclass⟩ := hclass.clean hfields
  refine printable_detection (printable_of_isInteger hv hclass) fun n hn => ?_
  rcases htrack with htrack | ⟨hnone, -⟩
  · obtain ⟨w, hw, htrack⟩ := htrack.clean hfields
    rw [Option.mem_def.mp hn] at htrack
    exact printable_of_isInteger hw htrack
  · rw [hnone] at hn
    cases hn

theorem printable_of_forall₂ {ds : List Detection} {items : List Tree}
    (hitems : ∀ v ∈ items, v.Clean Literal.IsPrintable) (h : List.Forall₂ IsDetection ds items) :
    ∀ d ∈ ds, ∀ n ∈ (Document.detection d).numbers, n.printable = true := by
  induction h with
  | nil => exact fun _ hd => by cases hd
  | cons hd _ ih =>
    obtain ⟨hfirst, hrest⟩ := List.forall_mem_cons.mp hitems
    exact List.forall_mem_cons.mpr ⟨printable_of_isDetection hfirst hd, ih hrest⟩

theorem printable_event {e : DetectionEvent}
    (hseq : (PyNumber.int e.frameSeq).printable = true)
    (hwidth : (PyNumber.int (e.frame.width : ℕ)).printable = true)
    (hheight : (PyNumber.int (e.frame.height : ℕ)).printable = true)
    (hdetections : ∀ d ∈ e.detections, ∀ n ∈ (Document.detection d).numbers, n.printable = true) :
    ∀ n ∈ (Document.event e).numbers, n.printable = true := by
  have hjob : (Document.nullable Document.identifier e.jobId).numbers = [] := by
    cases e.jobId <;> rfl
  have hfloat : ∀ x : Finite, (PyNumber.float x).printable = true := fun _ => rfl
  intro n hn
  simp only [Document.event, Document.eventFields, Document.modelFields, Document.frameFields,
    Document.performanceFields, Document.identifier, Document.timestamp, Document.natural,
    Document.float, Value.numbers, Value.numbersFields, Value.numbersItems_eq, hjob,
    List.mem_append, List.mem_cons, List.not_mem_nil, or_false, false_or] at hn
  rcases hn with rfl | (rfl | rfl) | hn | rfl | rfl | rfl
  · exact hseq
  · exact hwidth
  · exact hheight
  · obtain ⟨v, hv, hn⟩ := List.mem_flatMap.mp hn
    obtain ⟨d, hd, rfl⟩ := List.mem_map.mp hv
    exact hdetections d hd n hn
  · exact hfloat _
  · exact hfloat _
  · exact hfloat _

theorem printable_of_isDetectionEvent {e : DetectionEvent}
    (hclean : tree.Clean Literal.IsPrintable) (h : IsDetectionEvent e tree) :
    ∀ n ∈ (Document.event e).numbers, n.printable = true := by
  obtain ⟨fields, hfields, -, -, -, -, -, -, hseq, -, -, -, hframe, hdetections, -⟩ :=
    h.clean hclean
  obtain ⟨v, hv, hseq⟩ := hseq.clean hfields
  obtain ⟨w, hw, hframe⟩ := hframe.clean hfields
  obtain ⟨frameFields, hframeFields, hwidth, hheight⟩ := hframe.clean hw
  obtain ⟨vw, hvw, hwidth⟩ := hwidth.clean hframeFields
  obtain ⟨vh, hvh, hheight⟩ := hheight.clean hframeFields
  obtain ⟨_, hlist, items, rfl, hall⟩ := hdetections.clean hfields
  cases hlist with
  | array hitems =>
    exact printable_event (printable_of_isInteger hv hseq) (printable_of_isInteger hvw hwidth)
      (printable_of_isInteger hvh hheight) (printable_of_forall₂ hitems hall)

end Printable

section Lossless
variable {reprFloat : Finite → String} {depth : ℕ} {payload : ByteArray}
  {envelope : SignedDetectionEnvelope}

/-- A decoded event has a timestamp in UTC, and can be written again. -/
theorem parsed_body (hparse : parseDetectionEnvelope depth payload = .ok envelope) :
    envelope.body.astimezone = envelope.body ∧
      ∃ bytes, canonicalEventBytes reprFloat envelope.body = .ok bytes := by
  obtain ⟨text, tree, htext, htree, -, hgrammar⟩ :=
    exists_tree_of_parse decides_signedDetectionEnvelope hparse
  obtain ⟨data, hdata⟩ : ∃ data, loads wireScanner depth text.toList = .ok data := by
    unfold parseDetectionEnvelope parseWireModel at hparse
    rw [htext] at hparse
    dsimp only at hparse
    cases hloads : loads wireScanner depth text.toList with
    | error e =>
      rw [hloads] at hparse
      cases e <;> cases hparse
    | ok data => exact ⟨data, rfl⟩
  obtain ⟨fields, hfields, hbody, -⟩ := hgrammar.clean (printable_of_loads htree hdata)
  obtain ⟨v, hv, hevent⟩ := hbody.clean hfields
  refine ⟨?_, exists_canonicalEventBytes.mpr (printable_of_isDetectionEvent hv hevent)⟩
  obtain ⟨eventFields, -, -, -, -, -, -, htimestamp, -⟩ := hevent
  obtain ⟨_, -, _, _, -, -, -, -, hzone⟩ := htimestamp
  unfold DetectionEvent.astimezone UtcTimestamp.astimezone
  rw [← hzone]

/-- The event can be recorded and inserted, and its row is read back as the same event, accepted
at the same time, with the same canonical bytes. -/
def StoresLosslessly (reprFloat : Finite → String) (depth : ℕ) (tables : Tables)
    (event : DetectionEvent) (acceptedAtUtc : UtcDatetime) : Prop :=
  ∃ record after stored row read received bytes,
    DetectionEventRecord.fromEvent reprFloat event acceptedAtUtc = .ok record ∧
    tables.insertEvent record = some (after, stored) ∧ stored.row = some row ∧
    row.fetch = .ok read ∧ read.acceptedAtUtc = acceptedAtUtc ∧
    read.toEvent depth = .ok received ∧ received = event ∧
    canonicalEventBytes reprFloat event = .ok bytes ∧
    canonicalEventBytes reprFloat received = .ok bytes

/-- Whatever is stored fits its columns. -/
theorem StoresLosslessly.fitsColumns {tables : Tables} {event : DetectionEvent}
    {acceptedAtUtc : UtcDatetime}
    (h : StoresLosslessly reprFloat depth tables event acceptedAtUtc) : event.FitsColumns := by
  obtain ⟨record, after, stored, row, -, -, -, hrecord, hinsert, hrow, -⟩ := h
  obtain ⟨rfl, -⟩ := DetectionEventIngestor.insertEvent_eq_some hinsert
  have hbindable := (DetectionEventRecord.exists_row.mp ⟨row, hrow⟩).2.1
  exact (bindable_fromEvent hrecord).mp hbindable

/-- The store holds an accepted event of a registered node losslessly exactly when the event's
integers fit their columns. -/
theorem accepted_event_stored_iff_fitsColumns (hrepr : FloatRepr reprFloat)
    (hparse : parseDetectionEnvelope depth payload = .ok envelope) {tables : Tables}
    {node : NodeRecord} (hnode : tables.getNode envelope.body.nodeId = some node) {readDepth : ℕ}
    (hdepth : 3 ≤ readDepth) (acceptedAtUtc : UtcDatetime) :
    StoresLosslessly reprFloat readDepth tables envelope.body acceptedAtUtc ↔
      envelope.body.FitsColumns := by
  obtain ⟨hutc, bytes, hbytes⟩ : _ ∧ ∃ bytes,
      canonicalEventBytes reprFloat envelope.body = .ok bytes := parsed_body hparse
  constructor
  · exact StoresLosslessly.fitsColumns
  · intro hfits
    obtain ⟨record, hrecord⟩ := exists_fromEvent hbytes acceptedAtUtc
    have hinsert := DetectionEventIngestor.insertEvent_of_fits hrecord hfits hnode
    have hbindable := (bindable_fromEvent hrecord).mpr hfits
    have hchecks := checkConstraints_fromEvent hrecord
    obtain ⟨row, hrow⟩ : ∃ row, DetectionEventRecord.row
        { record with recordId := some tables.nextRecordId } = some row :=
      DetectionEventRecord.exists_row.mpr ⟨rfl, hbindable, hchecks⟩
    have hevent := toEvent_fromEvent hrepr hdepth hrecord (some tables.nextRecordId)
    rw [hutc] at hevent
    exact ⟨record, _, _, row, _, _, bytes, hrecord, hinsert, hrow,
      DetectionEventRecord.fetch_row hrow, (fromEvent_records hrecord).acceptedAt, hevent, rfl,
      hbytes, hbytes⟩

end Lossless

open DetectionEventIngestor in
/-- A body for every event without detections whose integers can be written. -/
theorem exists_parsed {event : DetectionEvent} (hdetections : event.detections = [])
    (hsmall : ∀ n ∈ [event.frameSeq, (event.frame.width : ℕ), (event.frame.height : ℕ)],
      (PyNumber.int n).printable = true) :
    ∃ payload envelope, parseDetectionEnvelope 5 payload = .ok envelope ∧
      envelope.body.Agree event := by
  obtain ⟨signed, hsign⟩ : ∃ signed,
      signDetectionEvent .checksum Json.exactRepr event (7 : UInt8) = .ok signed :=
    exists_sign_small Ed25519.checksum_lawful hdetections hsmall _
  obtain ⟨payload, received, -, -, -, hparse, hagree, -⟩ :=
    signed_event_verifies_after_wire Ed25519.checksum_lawful Json.exactRepr_floatRepr le_rfl event
      (7 : UInt8) hsign
  exact ⟨payload, received, hparse, hagree⟩

open DetectionEventIngestor in
/-- The sample event is stored and read back. -/
theorem accepted_event_stored_iff_fitsColumns_sample : ∃ payload envelope,
    parseDetectionEnvelope 5 payload = .ok envelope ∧ envelope.body.eventId.text = "event-1" ∧
    StoresLosslessly Json.exactRepr 3 sampleTables envelope.body
      ⟨63893000000000000, by decide⟩ := by
  have hsmall : ∀ n ∈ [0, 640, 480], (PyNumber.int (n : ℕ)).printable = true := by
    decide +kernel
  let now : UtcDatetime := ⟨63893000000000000, by decide⟩
  obtain ⟨payload, envelope, hparse, hagree⟩ : ∃ payload envelope,
      parseDetectionEnvelope 5 payload = .ok envelope ∧ envelope.body.Agree (sampleEvent now) :=
    exists_parsed rfl hsmall
  refine ⟨payload, envelope, hparse, congrArg SafeIdentifier.text hagree.eventId, ?_⟩
  have hnode : sampleTables.getNode envelope.body.nodeId = some sampleNode := by
    rw [hagree.nodeId]
    exact getNode_sample now
  refine (accepted_event_stored_iff_fitsColumns Json.exactRepr_floatRepr hparse hnode le_rfl
    _).mpr ?_
  unfold DetectionEvent.FitsColumns
  rw [hagree.frameSeq, hagree.frame]
  exact fitsColumns_sample now

open DetectionEventIngestor in
/-- An accepted event of a registered node with frame sequence 2 ^ 63, which its column cannot
hold. -/
theorem accepted_event_overflows_column : ∃ payload envelope,
    parseDetectionEnvelope 5 payload = .ok envelope ∧ envelope.body.frameSeq = 2 ^ 63 ∧
    sampleTables.getNode envelope.body.nodeId = some sampleNode ∧
    ¬ StoresLosslessly Json.exactRepr 3 sampleTables envelope.body
      ⟨63893000000000000, by decide⟩ := by
  have hsmall : ∀ n ∈ [2 ^ 63, 640, 480], (PyNumber.int (n : ℕ)).printable = true := by
    decide +kernel
  let now : UtcDatetime := ⟨63893000000000000, by decide⟩
  obtain ⟨payload, envelope, hparse, hagree⟩ : ∃ payload envelope,
      parseDetectionEnvelope 5 payload = .ok envelope ∧
        envelope.body.Agree { sampleEvent now with frameSeq := 2 ^ 63 } :=
    exists_parsed rfl hsmall
  refine ⟨payload, envelope, hparse, hagree.frameSeq, ?_, fun hstores => ?_⟩
  · rw [hagree.nodeId]
    exact getNode_sample now
  · have hfits := hstores.fitsColumns.1
    rw [hagree.frameSeq] at hfits
    exact absurd hfits (by decide)

end SecureEdge
