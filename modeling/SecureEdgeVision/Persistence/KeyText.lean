import SecureEdgeVision.Persistence.Seeding

/-! Key and signature text. The two decoders accept the same texts, one for each byte string, so
that a key which was registered is never malformed when it is loaded. -/
namespace SecureEdge

open Python.Base64 (b64encode)

variable {fieldName label : String} {byteLength : ℕ}

/-- Both decoders accept exactly the padded standard text of so many bytes. -/
theorem decodeCanonicalBase64_toOption (fieldName label : String) (byteLength : ℕ)
    (value : String) :
    (decodeCanonicalBase64 fieldName byteLength value).toOption =
      (Crypto.decodeCanonicalBase64 label byteLength value).toOption := by
  cases hdecode : decodeCanonicalBase64 fieldName byteLength value with
  | ok bytes =>
    rw [Crypto.decodeCanonicalBase64_eq_ok.mpr (decodeCanonicalBase64_eq_ok.mp hdecode)]
    rfl
  | error e =>
    cases hcrypto : Crypto.decodeCanonicalBase64 label byteLength value with
    | error e' => rfl
    | ok bytes =>
      rw [decodeCanonicalBase64_eq_ok.mpr (Crypto.decodeCanonicalBase64_eq_ok.mp hcrypto)]
        at hdecode
      cases hdecode

theorem decodeCanonicalBase64_encode (fieldName : String) (bytes : List UInt8) :
    decodeCanonicalBase64 fieldName bytes.length (String.ofList (b64encode bytes)) =
      .ok bytes := by
  apply decodeCanonicalBase64_eq_ok.mpr
  simp

/-- A byte string has one accepted text. -/
theorem decodeCanonicalBase64_inj {s t : String} {bytes : List UInt8}
    (hs : decodeCanonicalBase64 fieldName byteLength s = .ok bytes)
    (ht : decodeCanonicalBase64 fieldName byteLength t = .ok bytes) : s = t := by
  apply String.ext_iff.mpr
  rw [← (decodeCanonicalBase64_eq_ok.mp hs).2, ← (decodeCanonicalBase64_eq_ok.mp ht).2]

/-- A validated key reaches the library: only the library may still refuse it. -/
theorem loadPublicKey_registered (ed : Ed25519) (registration : NodeRegistration) :
    ∃ raw : List UInt8, raw.length = 32 ∧ b64encode raw = registration.publicKeyB64.text.toList ∧
      loadPublicKey ed registration.publicKeyB64.text =
        match ed.fromPublicBytes raw with
        | none => .error ⟨"public key material is not supported"⟩
        | some publicKey => .ok publicKey := by
  obtain ⟨raw, hlength, htext⟩ := registration.publicKeyB64.canonical
  refine ⟨raw, hlength, htext, ?_⟩
  unfold loadPublicKey
  rw [Crypto.decodeCanonicalBase64_eq_ok.mpr ⟨hlength, htext⟩]
  refine (Python.ok_bind raw _).trans ?_
  cases ed.fromPublicBytes raw <;> rfl

/-- What seeding adds to the table decodes. -/
theorem seeded_key_decodes (tables : Tables) (call : SeedCall) {record : NodeRecord}
    (h : record ∈ (seedNodeRegistry tables call).1.nodes) :
    record ∈ tables.nodes ∨ ∃ raw : List UInt8,
      Crypto.decodeCanonicalBase64 "public key" 32 record.publicKeyB64 = .ok raw := by
  have hadded : ∀ {timestamp added}, Adds tables call.registrations timestamp added →
      record ∈ (tables.addNodes added).nodes → record ∈ tables.nodes ∨ ∃ raw : List UInt8,
        Crypto.decodeCanonicalBase64 "public key" 32 record.publicKeyB64 = .ok raw := by
    intro timestamp added hadds hmem
    rcases List.mem_append.mp hmem with hmem | hmem
    · exact Or.inl hmem
    · obtain ⟨registration, -, -, rfl⟩ := (hadds.mem record).mp hmem
      obtain ⟨raw, hraw⟩ := registration.publicKeyB64.canonical
      exact Or.inr ⟨raw, Crypto.decodeCanonicalBase64_eq_ok.mpr hraw⟩
  rcases seedNodeRegistry_cases tables call with
    ⟨failure, hs⟩ | ⟨timestamp, added, -, hadds, hs | ⟨-, failure, hs⟩⟩ <;> rw [hs] at h
  · exact Or.inl h
  · exact hadded hadds h
  · exact hadded hadds h

/-- Key and signature text is canonical, and both decoders agree on it. A key that a registration
or seeding accepted is never malformed to `load_public_key`, and a signature has one spelling. -/
theorem canonical_text_agreement :
    (∀ fieldName label byteLength value,
      (decodeCanonicalBase64 fieldName byteLength value).toOption =
        (Crypto.decodeCanonicalBase64 label byteLength value).toOption) ∧
    (∀ fieldName byteLength value bytes,
      decodeCanonicalBase64 fieldName byteLength value = .ok bytes ↔
        bytes.length = byteLength ∧ b64encode bytes = value.toList) ∧
    (∀ fieldName bytes, decodeCanonicalBase64 fieldName bytes.length
      (String.ofList (b64encode bytes)) = .ok bytes) ∧
    (∀ fieldName byteLength s t bytes, decodeCanonicalBase64 fieldName byteLength s = .ok bytes →
      decodeCanonicalBase64 fieldName byteLength t = .ok bytes → s = t) ∧
    (∀ ed (registration : NodeRegistration), ∃ raw : List UInt8, raw.length = 32 ∧
      b64encode raw = registration.publicKeyB64.text.toList ∧
      loadPublicKey ed registration.publicKeyB64.text =
        match ed.fromPublicBytes raw with
        | none => .error ⟨"public key material is not supported"⟩
        | some publicKey => .ok publicKey) ∧
    (∀ tables call, ∀ record ∈ (seedNodeRegistry tables call).1.nodes,
      record ∈ tables.nodes ∨ ∃ raw : List UInt8,
        Crypto.decodeCanonicalBase64 "public key" 32 record.publicKeyB64 = .ok raw) ∧
    ∀ a b : SignedDetectionEnvelope, a.signature = b.signature →
      a.signatureB64 = b.signatureB64 := by
  refine ⟨decodeCanonicalBase64_toOption, ?_, decodeCanonicalBase64_encode, ?_, ?_, ?_, ?_⟩
  · intro fieldName byteLength value bytes
    exact decodeCanonicalBase64_eq_ok
  · intro fieldName byteLength s t bytes hs ht
    exact decodeCanonicalBase64_inj hs ht
  · exact loadPublicKey_registered
  · intro tables call record hrecord
    exact seeded_key_decodes tables call hrecord
  · intro a b h
    have ha := Crypto.decodeCanonicalBase64_eq_ok.mp a.decode_signature
    have hb := Crypto.decodeCanonicalBase64_eq_ok.mp b.decode_signature
    have htext : a.signatureB64.text = b.signatureB64.text := by
      apply String.ext_iff.mpr
      rw [← ha.2, ← hb.2, h]
    cases hx : a.signatureB64
    cases hy : b.signatureB64
    rw [hx, hy] at htext
    obtain rfl := htext
    rfl

end SecureEdge
