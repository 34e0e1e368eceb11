import SecureEdgeVision.Transport

/-! The aggregator's strict decoding of a request body: UTF-8, JSON with unique keys and
finite numbers, then the contract. -/
namespace SecureEdge

open Binary64 (Finite)
open Json (PyNumber Scanner ScanError Value KeepsObjects FloatRepr dumps loads scanned)
open Python (Str)

/-- The status and the code of an error response. -/
structure RequestFailure where
  statusCode : ℕ
  code : String
deriving DecidableEq

def RequestFailure.invalidRequest : RequestFailure := ⟨422, "invalid_request"⟩

/-- What decoding a body can raise: the failure it maps errors to, or the recursion error of
a document that nests too deep, which it does not catch. -/
inductive WireError where
  | failure (failure : RequestFailure)
  | recursion
deriving DecidableEq

/-- `_unique_object` -/
def uniqueObject (pairs : List (Str × Data)) : Except ScanError Data :=
  if (pairs.map Prod.fst).Nodup then .ok (.object pairs) else .error .value

/-- `json.loads` with the hooks of `_parse_wire_model`. -/
def wireScanner : Scanner PyNumber where
  number := Json.scanNumber
  constant _ := .error .value
  object := uniqueObject

/-- `_parse_wire_model`, with the nesting that the interpreter's stack has left. -/
def parseWireModel {α : Type} (validate : Data → Option α) (depth : ℕ) (payload : ByteArray) :
    Except WireError α :=
  match String.fromUTF8? payload with
  | none => .error (.failure .invalidRequest)
  | some text =>
    match loads wireScanner depth text.toList with
    | .error .recursion => .error .recursion
    | .error _ => .error (.failure .invalidRequest)
    | .ok data =>
      match validate data with
      | none => .error (.failure .invalidRequest)
      | some model => .ok model

def parseDetectionEnvelope : ℕ → ByteArray → Except WireError SignedDetectionEnvelope :=
  parseWireModel validateSignedDetectionEnvelope

def parseNodeHeartbeat : ℕ → ByteArray → Except WireError NodeHeartbeat :=
  parseWireModel validateNodeHeartbeat

theorem fromUTF8?_toUTF8 (s : String) : String.fromUTF8? s.toUTF8 = some s := by
  unfold String.fromUTF8?
  rw [dif_pos (by simpa using s.isValidUTF8)]
  rfl

theorem keepsObjects_wireScanner : KeepsObjects wireScanner := by
  intro fields h
  exact if_pos h

section WireRoundTrip
variable {reprFloat : Finite → String}

/-- A body that `json.dumps` wrote is decoded to what its document validates to. -/
theorem parseWireModel_dumps {α : Type} {validate : Data → Option α} (hrepr : FloatRepr reprFloat)
    {document : Document} (hclean : document.Clean fun _ => True) {depth : ℕ}
    (hdepth : document.nesting ≤ depth) {payload : String}
    (hpayload : dumps reprFloat document = some payload) {model : α}
    (hmodel : validate (scanned document) = some model) :
    parseWireModel validate depth payload.toUTF8 = .ok model := by
  have hloads := Json.loads_dumps (s := wireScanner) rfl keepsObjects_wireScanner hrepr hclean
    hdepth hpayload
  unfold parseWireModel
  rw [fromUTF8?_toUTF8]
  dsimp only
  rw [hloads]
  dsimp only
  rw [hmodel]

variable {ed : Ed25519}

/-- What a worker signs verifies after the wire: the posted body is decoded to an envelope
whose event agrees with the signed one and has the same canonical bytes, and its signature
verifies under the key read back from its registered text. -/
theorem signed_event_verifies_after_wire (hed : ed.Lawful) (hrepr : FloatRepr reprFloat)
    {depth : ℕ} (hdepth : 5 ≤ depth) (event : DetectionEvent) (privateKey : ed.PrivateKey)
    {envelope : SignedDetectionEnvelope}
    (hsign : signDetectionEvent ed reprFloat event privateKey = .ok envelope) :
    ∃ payload received publicKey signed,
      sendDetection ed reprFloat privateKey event = .ok payload ∧
      parseDetectionEnvelope depth payload = .ok received ∧
      received.body.Agree event ∧
      canonicalEventBytes reprFloat event = .ok signed ∧
      canonicalEventBytes reprFloat received.body = .ok signed ∧
      loadPublicKey ed (encodePublicKey ed (ed.publicKey privateKey)) = .ok publicKey ∧
      verifyDetectionEnvelope ed reprFloat received publicKey = .ok true := by
  obtain ⟨hbody, signed, hsigned, -⟩ := signDetectionEvent_eq_ok hsign
  obtain ⟨payload, hpayload, hsend⟩ := sendDetection_eq_ok hsign
  have hagree : envelope.astimezone.body.Agree event := hbody ▸ envelope.body.agree_astimezone
  refine ⟨payload.toUTF8, envelope.astimezone, ed.publicKey privateKey, signed, hsend, ?_, hagree,
    hsigned, (canonicalEventBytes_congr reprFloat hagree).trans hsigned,
    loadPublicKey_encodePublicKey hed _, verifyDetectionEnvelope_signed hed hsign hagree rfl⟩
  exact parseWireModel_dumps hrepr (Document.clean_envelope envelope)
    ((Document.nesting_envelope envelope).trans hdepth) hpayload
    (validateSignedDetectionEnvelope_scanned envelope)

end WireRoundTrip

/-- The wire round trip of one signed event. -/
theorem signed_event_verifies_after_wire_sample :
    let edge : SafeIdentifier := ⟨"edge-1", by decide⟩
    let first : SafeIdentifier := ⟨"event-1", by decide⟩
    let event := DetectionEvent.sample edge first first ⟨63893000000000000, by decide⟩
    ∃ payload received signed,
      sendDetection .checksum Json.exactRepr (7 : UInt8) event = .ok payload ∧
      parseDetectionEnvelope 5 payload = .ok received ∧ received.body.Agree event ∧
      canonicalEventBytes Json.exactRepr event = .ok signed ∧
      canonicalEventBytes Json.exactRepr received.body = .ok signed := by
  intro edge first event
  obtain ⟨envelope, hsign⟩ := exists_sign_sample edge first first ⟨63893000000000000, by decide⟩ 7
  obtain ⟨payload, received, -, signed, hsend, hparse, hagree, hsigned, hreceived, -, -⟩ :=
    signed_event_verifies_after_wire Ed25519.checksum_lawful Json.exactRepr_floatRepr le_rfl event
      (7 : UInt8) hsign
  exact ⟨payload, received, signed, hsend, hparse, hagree, hsigned, hreceived⟩

end SecureEdge
