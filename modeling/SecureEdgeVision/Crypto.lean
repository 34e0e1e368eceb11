import SecureEdgeVision.Canonical

/-! Signing and verifying the canonical bytes of an event. Ed25519 itself is a parameter. -/
namespace SecureEdge

open Binary64 (Finite)
open Json (PyNumber)
open Python (ValueError bind_eq_ok ok_bind)
open Python.Base64 (decodeCanonical b64encode)

/-- The Ed25519 keys and operations of the cryptography library. -/
structure Ed25519 where
  PrivateKey : Type
  PublicKey : Type
  publicKey : PrivateKey → PublicKey
  publicBytes : PublicKey → List UInt8
  fromPublicBytes : List UInt8 → Option PublicKey
  sign : PrivateKey → ByteArray → List UInt8
  verify : PublicKey → List UInt8 → ByteArray → Bool

/-- What is documented of the library: sizes, raw key round trip, and that a key verifies
its own signatures. -/
structure Ed25519.Lawful (ed : Ed25519) : Prop where
  publicBytes_length : ∀ pk, (ed.publicBytes pk).length = 32
  fromPublicBytes_publicBytes : ∀ pk, ed.fromPublicBytes (ed.publicBytes pk) = some pk
  sign_length : ∀ sk message, (ed.sign sk message).length = 64
  verify_sign : ∀ sk message, ed.verify (ed.publicKey sk) (ed.sign sk message) message = true

structure KeyMaterialError where
  message : String
deriving DecidableEq

/-- `crypto._decode_canonical_base64` -/
def Crypto.decodeCanonicalBase64 (label : String) (byteLength : ℕ) (value : String) :
    Except KeyMaterialError (List UInt8) :=
  (decodeCanonical byteLength value.toList).mapError fun
    | .invalid => ⟨label ++ " must be canonical standard base64"⟩
    | .wrongLength => ⟨label ++ " must encode exactly " ++ toString byteLength ++ " bytes"⟩
    | .notCanonical => ⟨label ++ " must be canonical standard base64"⟩

theorem Crypto.decodeCanonicalBase64_eq_ok {label : String} {byteLength : ℕ} {value : String}
    {bytes : List UInt8} : Crypto.decodeCanonicalBase64 label byteLength value = .ok bytes ↔
      bytes.length = byteLength ∧ b64encode bytes = value.toList := by
  rw [← Python.Base64.decodeCanonical_eq_ok]
  unfold Crypto.decodeCanonicalBase64
  cases decodeCanonical byteLength value.toList <;> simp [Except.mapError]

variable (ed : Ed25519) (reprFloat : Finite → String)

def encodePublicKey (publicKey : ed.PublicKey) : String :=
  String.ofList (b64encode (ed.publicBytes publicKey))

def loadPublicKey (publicKeyB64 : String) : Except KeyMaterialError ed.PublicKey := do
  let rawKey ← Crypto.decodeCanonicalBase64 "public key" 32 publicKeyB64
  match ed.fromPublicBytes rawKey with
  | none => .error ⟨"public key material is not supported"⟩
  | some publicKey => .ok publicKey

def signDetectionEvent (event : DetectionEvent) (privateKey : ed.PrivateKey) :
    Except ValueError SignedDetectionEnvelope := do
  let bytes ← canonicalEventBytes reprFloat event
  let signature := ed.sign privateKey bytes
  let signatureB64 ← validateSignatureB64 (String.ofList (b64encode signature))
  pure ⟨event, .ed25519, signatureB64⟩

/-- `ok false` is an invalid signature. -/
def verifyDetectionEnvelope (envelope : SignedDetectionEnvelope) (publicKey : ed.PublicKey) :
    Except KeyMaterialError Bool :=
  if envelope.signatureAlgorithm ≠ .ed25519 then .error ⟨"signature algorithm must be ed25519"⟩
  else do
    let signature ← Crypto.decodeCanonicalBase64 "signature" 64 envelope.signatureB64.text
    match canonicalEventBytes reprFloat envelope.body with
    | .error _ => .error ⟨"signed envelope body is invalid"⟩
    | .ok bytes => .ok (ed.verify publicKey signature bytes)

/-- The signature bytes that an envelope's text stands for. -/
def SignedDetectionEnvelope.signature (envelope : SignedDetectionEnvelope) : List UInt8 :=
  (Python.Base64.b64decode envelope.signatureB64.text.toList).getD []

variable {ed reprFloat}

theorem SignedDetectionEnvelope.decode_signature (envelope : SignedDetectionEnvelope) :
    Crypto.decodeCanonicalBase64 "signature" 64 envelope.signatureB64.text =
      .ok envelope.signature := by
  obtain ⟨bytes, hlength, htext⟩ := envelope.signatureB64.canonical
  have hsignature : envelope.signature = bytes := by
    unfold SignedDetectionEnvelope.signature
    rw [← htext, Python.Base64.b64decode_b64encode, Option.getD_some]
  rw [hsignature]
  exact Crypto.decodeCanonicalBase64_eq_ok.mpr ⟨hlength, htext⟩

/-- An envelope that verifies carries a signature of its own body's canonical bytes. -/
theorem verifyDetectionEnvelope_eq_true {envelope : SignedDetectionEnvelope}
    {publicKey : ed.PublicKey} :
    verifyDetectionEnvelope ed reprFloat envelope publicKey = .ok true ↔
      ∃ bytes, canonicalEventBytes reprFloat envelope.body = .ok bytes ∧
        ed.verify publicKey envelope.signature bytes = true := by
  have halgorithm : envelope.signatureAlgorithm = .ed25519 := rfl
  unfold verifyDetectionEnvelope
  rw [if_neg (not_not.mpr halgorithm), envelope.decode_signature, ok_bind]
  cases canonicalEventBytes reprFloat envelope.body <;> simp

theorem validateSignatureB64_eq_ok {text : String} {signatureB64 : CanonicalBase64 64}
    (h : validateSignatureB64 text = .ok signatureB64) : signatureB64.text = text := by
  unfold validateSignatureB64 validateCanonicalBase64 at h
  split at h
  · cases h
  · rw [← Except.ok.inj h]

/-- A signed envelope carries the event and a signature of its canonical bytes. -/
theorem signDetectionEvent_eq_ok {event : DetectionEvent} {privateKey : ed.PrivateKey}
    {envelope : SignedDetectionEnvelope}
    (h : signDetectionEvent ed reprFloat event privateKey = .ok envelope) :
    envelope.body = event ∧ ∃ bytes, canonicalEventBytes reprFloat event = .ok bytes ∧
      envelope.signature = ed.sign privateKey bytes := by
  obtain ⟨bytes, hbytes, h⟩ := bind_eq_ok.mp h
  obtain ⟨signatureB64, hsignature, h⟩ := bind_eq_ok.mp h
  have htext := validateSignatureB64_eq_ok hsignature
  obtain rfl := Except.ok.inj h
  refine ⟨rfl, bytes, hbytes, ?_⟩
  unfold SignedDetectionEnvelope.signature
  rw [htext, String.toList_ofList, Python.Base64.b64decode_b64encode, Option.getD_some]

/-- An envelope whose event agrees with a signed one, and that carries its signature, verifies. -/
theorem verifyDetectionEnvelope_signed (hed : ed.Lawful) {event : DetectionEvent}
    {privateKey : ed.PrivateKey} {envelope received : SignedDetectionEnvelope}
    (h : signDetectionEvent ed reprFloat event privateKey = .ok envelope)
    (hbody : received.body.Agree event) (hsignature : received.signature = envelope.signature) :
    verifyDetectionEnvelope ed reprFloat received (ed.publicKey privateKey) = .ok true := by
  obtain ⟨-, bytes, hbytes, hsigned⟩ := signDetectionEvent_eq_ok h
  rw [verifyDetectionEnvelope_eq_true]
  refine ⟨bytes, (canonicalEventBytes_congr reprFloat hbody).trans hbytes, ?_⟩
  rw [hsignature, hsigned]
  exact hed.verify_sign privateKey bytes

/-- What can be written can be signed. -/
theorem exists_signDetectionEvent (hed : ed.Lawful) {event : DetectionEvent} {bytes : ByteArray}
    (hbytes : canonicalEventBytes reprFloat event = .ok bytes) (privateKey : ed.PrivateKey) :
    ∃ envelope, signDetectionEvent ed reprFloat event privateKey = .ok envelope := by
  have htext := validateCanonicalBase64_text "signature_b64"
    (CanonicalBase64.encode (ed.sign privateKey bytes) (hed.sign_length privateKey bytes))
  refine ⟨_, bind_eq_ok.mpr ⟨bytes, hbytes, bind_eq_ok.mpr ⟨_, htext, rfl⟩⟩⟩

theorem loadPublicKey_encodePublicKey (hed : ed.Lawful) (publicKey : ed.PublicKey) :
    loadPublicKey ed (encodePublicKey ed publicKey) = .ok publicKey := by
  have hdecode : Crypto.decodeCanonicalBase64 "public key" 32 (encodePublicKey ed publicKey) =
      .ok (ed.publicBytes publicKey) :=
    Crypto.decodeCanonicalBase64_eq_ok.mpr
      ⟨hed.publicBytes_length publicKey, by simp [encodePublicKey]⟩
  unfold loadPublicKey
  rw [hdecode, ok_bind, hed.fromPublicBytes_publicBytes]

/-- A keyed checksum with the documented sizes, for concrete runs. -/
def Ed25519.checksum : Ed25519 where
  PrivateKey := UInt8
  PublicKey := UInt8
  publicKey k := k
  publicBytes k := List.replicate 32 k
  fromPublicBytes raw := if raw = List.replicate 32 (raw.headD 0) then some (raw.headD 0) else none
  sign k message := List.replicate 64 (message.data.foldl (· + ·) k)
  verify k signature message := signature = List.replicate 64 (message.data.foldl (· + ·) k)

theorem Ed25519.checksum_lawful : Ed25519.checksum.Lawful where
  publicBytes_length _ := List.length_replicate
  fromPublicBytes_publicBytes := by
    intro (k : UInt8)
    show (if List.replicate 32 k = List.replicate 32 k then some k else none) = some k
    exact if_pos rfl
  sign_length _ _ := List.length_replicate
  verify_sign _ _ := decide_eq_true rfl

/-- The numbers of an event without detections. -/
theorem Document.event_numbers {event : DetectionEvent} (h : event.detections = []) :
    (Document.event event).numbers = [.int event.frameSeq, .int (event.frame.width : ℕ),
      .int (event.frame.height : ℕ), .float event.performance.decodeMs.value,
      .float event.performance.inferenceMs.value,
      .float event.performance.postprocessMs.value] := by
  have hjob : (Document.nullable Document.identifier event.jobId).numbers = [] := by
    cases event.jobId <;> rfl
  unfold Document.event Document.eventFields
  rw [h]
  simp only [Json.Value.numbers, Json.Value.numbersFields, hjob]
  rfl

/-- An event without detections can be signed if its three integers can be written. -/
theorem exists_sign_small (hed : ed.Lawful) {event : DetectionEvent}
    (hdetections : event.detections = [])
    (hsmall : ∀ n ∈ [event.frameSeq, (event.frame.width : ℕ), (event.frame.height : ℕ)],
      (PyNumber.int n).printable = true) (privateKey : ed.PrivateKey) :
    ∃ envelope, signDetectionEvent ed reprFloat event privateKey = .ok envelope := by
  have hprintable : ∀ n ∈ (Document.event event).numbers, n.printable = true := by
    rw [Document.event_numbers hdetections]
    simpa [PyNumber.printable] using hsmall
  obtain ⟨bytes, hbytes⟩ : ∃ bytes, canonicalEventBytes reprFloat event = .ok bytes :=
    exists_canonicalEventBytes.mpr hprintable
  exact exists_signDetectionEvent hed hbytes privateKey

theorem exists_sign_sample (nodeId eventId nonce : SafeIdentifier) (instant : UtcDatetime)
    (privateKey : UInt8) : ∃ envelope, signDetectionEvent .checksum reprFloat
      (DetectionEvent.sample nodeId eventId nonce instant) privateKey = .ok envelope := by
  have hsmall : ∀ n ∈ [0, 640, 480], (PyNumber.int (n : ℕ)).printable = true := by
    decide +kernel
  exact exists_sign_small Ed25519.checksum_lawful rfl hsmall privateKey

end SecureEdge
