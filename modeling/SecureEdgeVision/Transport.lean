import SecureEdgeVision.Crypto

/-! The request body of a signed detection, as the worker's transport posts it. -/
namespace SecureEdge

open Binary64 (Finite)
open Json (PyNumber dumps numberText quote render)

structure TransportError where
  message : String
deriving DecidableEq

/-- `SignedWorkerTransport.send_detection` on an open client, up to the bytes it posts. The
event already satisfies its contract, so validating it again changes nothing. -/
def sendDetection (ed : Ed25519) (reprFloat : Finite → String) (privateKey : ed.PrivateKey)
    (event : DetectionEvent) : Except TransportError ByteArray :=
  match signDetectionEvent ed reprFloat event privateKey with
  | .error _ => .error ⟨"detection event could not be signed"⟩
  | .ok envelope =>
    match dumps reprFloat (Document.envelope envelope) with
    | none => .error ⟨"detection delivery failed"⟩
    | some payload => .ok payload.toUTF8

variable {ed : Ed25519} {reprFloat : Finite → String}

theorem Document.envelope_numbers (envelope : SignedDetectionEnvelope) :
    (Document.envelope envelope).numbers = (Document.event envelope.body).numbers := by
  simp [Document.envelope, Document.envelopeFields, Json.Value.numbers,
    Json.Value.numbersFields]

/-- What could be signed can be written. -/
theorem exists_dumps_envelope {envelope : SignedDetectionEnvelope} {bytes : ByteArray}
    (h : canonicalEventBytes reprFloat envelope.body = .ok bytes) :
    ∃ payload, dumps reprFloat (Document.envelope envelope) = some payload := by
  obtain ⟨text, htext, -⟩ := canonicalEventBytes_eq_ok.mp h
  have hprintable := (Json.dumps_eq_some.mp htext).1
  refine ⟨_, if_pos fun n hn => hprintable n ?_⟩
  rw [Document.envelope_numbers] at hn
  exact (Json.Value.numbers_sortKeys _).mem_iff.mpr hn

theorem sendDetection_eq_ok {privateKey : ed.PrivateKey} {event : DetectionEvent}
    {envelope : SignedDetectionEnvelope}
    (h : signDetectionEvent ed reprFloat event privateKey = .ok envelope) :
    ∃ payload, dumps reprFloat (Document.envelope envelope) = some payload ∧
      sendDetection ed reprFloat privateKey event = .ok payload.toUTF8 := by
  obtain ⟨hbody, bytes, hbytes, -⟩ := signDetectionEvent_eq_ok h
  obtain ⟨payload, hpayload⟩ := exists_dumps_envelope (hbody ▸ hbytes)
  refine ⟨payload, hpayload, ?_⟩
  unfold sendDetection
  rw [h]
  dsimp only
  rw [hpayload]

/-- An envelope adds its keys and its signature to the text of the event. -/
theorem Document.length_envelope_le (number : PyNumber → List Char)
    (envelope : SignedDetectionEnvelope) :
    (render number (Document.envelope envelope)).length ≤
      (render number (Document.event envelope.body)).length + 2000 := by
  obtain ⟨bytes, hbytes, htext⟩ := envelope.signatureB64.canonical
  have hsignature := Json.length_quote_le envelope.signatureB64.text
  have hencoded := Python.Base64.length_b64encode_le bytes
  rw [← htext] at hsignature
  have halgorithm : (quote envelope.signatureAlgorithm.text).length = 9 := by
    cases envelope.signatureAlgorithm
    decide +kernel
  have hkeys : (quote "body").length = 6 ∧ (quote "signature_algorithm").length = 21 ∧
      (quote "signature_b64").length = 15 := by decide +kernel
  obtain ⟨hbody, hname, hvalue⟩ := hkeys
  simp only [Document.envelope, Document.envelopeFields, render, Json.renderFields,
    List.length_cons, List.length_append, List.length_nil, hbody, hname, hvalue]
  omega

theorem sendDetection_size_le {privateKey : ed.PrivateKey} {event : DetectionEvent}
    {payload : ByteArray} (h : sendDetection ed reprFloat privateKey event = .ok payload) :
    payload.size ≤
      4 * ((render (numberText reprFloat) (Document.event event)).length + 2000) := by
  unfold sendDetection at h
  split at h
  · cases h
  next envelope hsign =>
    split at h
    · cases h
    next text htext =>
      obtain rfl := Except.ok.inj h
      have hlength := Document.length_envelope_le (numberText reprFloat) envelope
      rw [(signDetectionEvent_eq_ok hsign).1, ← (Json.dumps_eq_some.mp htext).2] at hlength
      have hsize := Python.size_toUTF8_le text
      omega

end SecureEdge
