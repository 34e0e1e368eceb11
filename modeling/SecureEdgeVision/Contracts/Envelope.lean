import SecureEdgeVision.Contracts.Wire
import SecureEdgeVision.Python.Base64
import SecureEdgeVision.Python.Raise

/-! The contracts that carry key and signature text: registrations, heartbeats and signed
envelopes. -/
namespace SecureEdge

open Python (ValueError)
open Python.Base64 (decodeCanonical b64encode)

/-- `contracts._decode_canonical_base64` -/
def decodeCanonicalBase64 (fieldName : String) (byteLength : ℕ) (value : String) :
    Except ValueError (List UInt8) :=
  (decodeCanonical byteLength value.toList).mapError fun
    | .invalid => ⟨fieldName ++ " must be valid standard base64"⟩
    | .wrongLength => ⟨fieldName ++ " must encode exactly " ++ toString byteLength ++ " bytes"⟩
    | .notCanonical => ⟨fieldName ++ " must use canonical standard base64"⟩

theorem decodeCanonicalBase64_eq_ok {fieldName : String} {byteLength : ℕ} {value : String}
    {bytes : List UInt8} : decodeCanonicalBase64 fieldName byteLength value = .ok bytes ↔
      bytes.length = byteLength ∧ b64encode bytes = value.toList := by
  rw [← Python.Base64.decodeCanonical_eq_ok]
  unfold decodeCanonicalBase64
  cases decodeCanonical byteLength value.toList <;> simp [Except.mapError]

/-- Text that a field validator found to be the canonical base64 of so many bytes. -/
structure CanonicalBase64 (byteLength : ℕ) where
  text : String
  canonical : ∃ bytes : List UInt8, bytes.length = byteLength ∧ b64encode bytes = text.toList

instance {byteLength : ℕ} : DecidableEq (CanonicalBase64 byteLength) := fun a b =>
  decidable_of_iff (a.text = b.text) (by cases a; cases b; simp)

/-- A field validator that decodes the value and returns it as it came. -/
def validateCanonicalBase64 (fieldName : String) (byteLength : ℕ) (value : String) :
    Except ValueError (CanonicalBase64 byteLength) :=
  match h : decodeCanonicalBase64 fieldName byteLength value with
  | .error e => .error e
  | .ok bytes => .ok ⟨value, bytes, decodeCanonicalBase64_eq_ok.mp h⟩

/-- The base64 text of a byte string of the right length. -/
def CanonicalBase64.encode {byteLength : ℕ} (bytes : List UInt8) (h : bytes.length = byteLength) :
    CanonicalBase64 byteLength :=
  ⟨String.ofList (b64encode bytes), bytes, h, by simp⟩

theorem validateCanonicalBase64_text (fieldName : String) {byteLength : ℕ}
    (value : CanonicalBase64 byteLength) :
    validateCanonicalBase64 fieldName byteLength value.text = .ok value := by
  obtain ⟨bytes, hbytes⟩ := value.canonical
  have hdecode : decodeCanonicalBase64 fieldName byteLength value.text = .ok bytes :=
    decodeCanonicalBase64_eq_ok.mpr hbytes
  unfold validateCanonicalBase64
  split
  · rename_i e he
    rw [hdecode] at he
    cases he
  · rfl

theorem validateCanonicalBase64_eq_ok {fieldName : String} {byteLength : ℕ} {value : String}
    {base64 : CanonicalBase64 byteLength}
    (h : validateCanonicalBase64 fieldName byteLength value = .ok base64) :
    base64.text = value := by
  unfold validateCanonicalBase64 at h
  split at h
  · cases h
  · rw [← Except.ok.inj h]

/-- `NodeRegistration.validate_public_key_b64` -/
def validatePublicKeyB64 : String → Except ValueError (CanonicalBase64 32) :=
  validateCanonicalBase64 "public_key_b64" 32

/-- `SignedDetectionEnvelope.validate_signature_b64` -/
def validateSignatureB64 : String → Except ValueError (CanonicalBase64 64) :=
  validateCanonicalBase64 "signature_b64" 64

structure NodeRegistration where
  nodeId : SafeIdentifier
  publicKeyB64 : CanonicalBase64 32
deriving DecidableEq

inductive HealthStatus where
  | healthy | degraded | unhealthy
deriving DecidableEq

def HealthStatus.text : HealthStatus → String
  | .healthy => "healthy"
  | .degraded => "degraded"
  | .unhealthy => "unhealthy"

structure NodeHeartbeat where
  nodeId : SafeIdentifier
  timestampUtc : UtcTimestamp
  status : HealthStatus
deriving DecidableEq

inductive SignatureAlgorithm where
  | ed25519
deriving DecidableEq

def SignatureAlgorithm.text : SignatureAlgorithm → String
  | .ed25519 => "ed25519"

structure SignedDetectionEnvelope where
  body : DetectionEvent
  signatureAlgorithm : SignatureAlgorithm
  signatureB64 : CanonicalBase64 64
deriving DecidableEq

/-- The event as it comes off the wire: the same instant, in UTC. -/
def DetectionEvent.astimezone (e : DetectionEvent) : DetectionEvent :=
  { e with timestampUtc := e.timestampUtc.astimezone }

theorem DetectionEvent.agree_astimezone (e : DetectionEvent) : e.astimezone.Agree e :=
  ⟨rfl, rfl, rfl, rfl, rfl, rfl, rfl, rfl, rfl, rfl, rfl, rfl, rfl⟩

def NodeHeartbeat.astimezone (h : NodeHeartbeat) : NodeHeartbeat :=
  { h with timestampUtc := h.timestampUtc.astimezone }

def SignedDetectionEnvelope.astimezone (e : SignedDetectionEnvelope) : SignedDetectionEnvelope :=
  { e with body := e.body.astimezone }

end SecureEdge
